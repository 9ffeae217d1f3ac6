/-
  RecordQuery.Proofs.Grammar.Stream

  Cursors in front of the tokens of a text. A cursor that has passed `n` tokens is in front of the
  token with the index `n`, and a cursor can be moved in front of each token that is left.
-/

import RecordQuery.Proofs.Grammar.Acceptance
import RecordQuery.Proofs.Token.Stream

namespace RecordQuery

namespace Cursor

/-- The tokens that are left. -/
def stream (c : Cursor) : List Lexeme :=
  Lexed.stream ⟨c.lexemes, c.ending⟩

theorem stream_eq_cons_iff {c : Cursor} {l : Lexeme} :
    (∃ more, c.stream = l :: more) ↔ c.Settled ∧ l = ⟨c.token, c.position⟩ := by
  obtain ⟨lexemes, ending, depth⟩ := c
  rw [settled_iff]
  cases lexemes with
  | nil =>
      cases ending with
      | ok p => simp [stream, Lexed.stream, token, position, eq_comm]
      | error e => simp [stream, Lexed.stream]
  | cons m ms => cases ending <;> simp [stream, Lexed.stream, token, position, eq_comm]

theorem stream_append {c d : Cursor} {ls : List Lexeme} (h : c.lexemes = ls ++ d.lexemes)
    (he : d.ending = c.ending) : c.stream = ls ++ d.stream := by
  rw [stream, stream, Lexed.stream, Lexed.stream, h, he]
  cases c.ending with
  | ok p => exact List.append_assoc ..
  | error e => rfl

/-- Behind the tokens of a passage stands the token of the cursor that it leads to. -/
theorem Passes.stream {c d : Cursor} {ts : List Token} (h : c.Passes ts d) :
    ∃ ls more, ls.map (·.token) = ts ∧ c.stream = ls ++ ⟨d.token, d.position⟩ :: more := by
  obtain ⟨ls, hts, hls⟩ := h.lexemes
  obtain ⟨more, hmore⟩ := stream_eq_cons_iff.mpr ⟨h.settled, rfl⟩
  exact ⟨ls, more, hts, by rw [stream_append hls h.ending, hmore]⟩

/-- A cursor can be moved in front of each token that is left. -/
theorem passes_of_stream {c : Cursor} {ls more : List Lexeme} {l : Lexeme}
    (h : c.stream = ls ++ l :: more) :
    ∃ d, c.Passes (ls.map (·.token)) d ∧ l = ⟨d.token, d.position⟩ := by
  -- What stands in front of a token are lexemes, for the end of the text is the last.
  have hlexemes : ∃ rest, c.lexemes = ls ++ rest := by
    rw [stream, Lexed.stream] at h
    cases hending : c.ending with
    | error e =>
        rw [hending] at h
        exact ⟨_, h⟩
    | ok p =>
        rw [hending] at h
        rcases List.append_eq_append_iff.mp h with ⟨ms, hls, hend⟩ | ⟨ms, hms, -⟩
        · obtain rfl : ms = [] := by cases ms <;> simp_all
          exact ⟨[], by rw [hls, List.append_nil, List.append_nil]⟩
        · exact ⟨ms, hms⟩
  obtain ⟨rest, hrest⟩ := hlexemes
  let d : Cursor := { c with lexemes := rest }
  have hd : d.stream = l :: more := by
    rw [stream_append (d := d) hrest rfl] at h
    exact List.append_cancel_left h
  obtain ⟨hs, hl⟩ := stream_eq_cons_iff.mp ⟨more, hd⟩
  exact ⟨d, ⟨⟨ls, rfl, hrest⟩, rfl, rfl, hs⟩, hl⟩

end Cursor

end RecordQuery
