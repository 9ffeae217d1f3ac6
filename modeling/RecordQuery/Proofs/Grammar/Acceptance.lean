/-
  RecordQuery.Proofs.Grammar.Acceptance

  The texts that are recognized are the derivable ones: all their characters form tokens, the tokens
  without the end of the text derive a query, and that query nests no deeper than the vocabulary
  allows.
-/

import RecordQuery.Proofs.Grammar.Clauses
import RecordQuery.Proofs.Token.Scanning

namespace RecordQuery

/-! ## The tokens of a text -/

namespace Cursor

theorem ofText_eq_ok_iff {text : String} {c : Cursor} :
    ofText text = .ok c ↔
      c = { lexemes := (lex text).lexemes, ending := (lex text).ending } ∧ c.Settled := by
  unfold ofText
  constructor
  · intro h
    obtain ⟨_, hs, h⟩ := bind_eq_ok.mp h
    obtain rfl := pure_eq_ok.mp h
    exact ⟨rfl, hs⟩
  · rintro ⟨rfl, hs⟩
    exact bind_eq_ok.mpr ⟨(), hs, rfl⟩

/-- The cursor of a text passes exactly the tokens of the text on its way to the end. -/
theorem passes_to_end_iff {text : String} {c : Cursor} {ts : List Token}
    (hc : c = { lexemes := (lex text).lexemes, ending := (lex text).ending }) :
    (∃ e, c.Passes ts e ∧ e.token = .endOfText) ↔ tokenize text = .ok (ts ++ [.endOfText]) := by
  rw [tokenize_eq_ok_iff]
  constructor
  · rintro ⟨e, hp, he⟩
    obtain ⟨ls, hts, hls⟩ := hp.lexemes
    -- No lexeme is the end of the text, so none is left at the end.
    have hnil : e.lexemes = [] := by
      cases hel : e.lexemes with
      | nil => rfl
      | cons l more =>
          have hmem : l ∈ (lex text).lexemes := by
            rw [show (lex text).lexemes = c.lexemes by rw [hc], hls, hel]
            simp
          have hend : l.token = .endOfText := by simpa [token, hel] using he
          exact absurd hend (Scanner.forall_mem_lexed (fun _ _ _ _ ht => ht) _ l hmem)
    constructor
    · rw [← hts, show (lex text).lexemes = c.lexemes by rw [hc], hls, hnil, List.append_nil]
    · obtain ⟨p, hp'⟩ := settled_iff.mp hp.settled hnil
      rw [hp.ending, hc] at hp'
      exact ⟨p, hp'⟩
  · rintro ⟨hts, p, hp⟩
    have hending : c.ending = .ok p := by rw [hc, hp]
    refine ⟨{ c with lexemes := [] }, ⟨⟨c.lexemes, ?_, by simp⟩, rfl, rfl, ?_⟩, rfl⟩
    · rw [hc, hts]
    · exact settled_iff.mpr fun _ => ⟨p, hending⟩

end Cursor

/-! ## Recognized texts -/

variable {v : Vocabulary} {text : String}

/-- The actions of a text are those of a draft that its tokens derive. -/
theorem recognize_eq_ok_iff {as : List Action} :
    recognize v text = .ok as ↔
      ∃ ts n d, tokenize text = .ok (ts ++ [.endOfText]) ∧ Grammar.DerivesQuery v n ts d ∧
        n ≤ v.maxNesting ∧ as = d.actions := by
  constructor
  · intro h
    obtain ⟨c, hc, h⟩ := bind_eq_ok.mp h
    obtain ⟨hc, -⟩ := Cursor.ofText_eq_ok_iff.mp hc
    have hdepth : c.depth = 0 := by rw [hc]
    obtain ⟨n, ts, d, e, hp, he, hd, hn, has⟩ := Grammar.sound_query hdepth h
    exact ⟨ts, n, d, (Cursor.passes_to_end_iff hc).mp ⟨e, hp, he⟩, hd, hn, has⟩
  · rintro ⟨ts, n, d, hts, hd, hn, rfl⟩
    obtain ⟨e, hp, he⟩ := (Cursor.passes_to_end_iff rfl).mpr hts
    have hc := Cursor.ofText_eq_ok_iff.mpr ⟨rfl, hp.settled_start⟩
    exact bind_eq_ok.mpr ⟨_, hc, (Grammar.query_of_derives hd hp he rfl).1 hn⟩

/-- A derivable text that nests too deep is refused for that reason. -/
theorem recognize_tooDeep {ts : List Token} {n : Nat} {d : Draft}
    (hts : tokenize text = .ok (ts ++ [.endOfText])) (hd : Grammar.DerivesQuery v n ts d)
    (hn : v.maxNesting < n) : Grammar.TooDeep v (recognize v text) := by
  obtain ⟨e, hp, he⟩ := (Cursor.passes_to_end_iff rfl).mpr hts
  have hc := Cursor.ofText_eq_ok_iff.mpr ⟨rfl, hp.settled_start⟩
  exact .bind_of_ok hc ((Grammar.query_of_derives hd hp he rfl).2 hn)

/-- A text is recognized exactly if its characters form tokens that derive a query whose nesting
    the vocabulary allows. -/
theorem recognizes_iff_derivable (v : Vocabulary) (text : String) :
    (∃ as, recognize v text = .ok as) ↔
      ∃ ts n d, tokenize text = .ok (ts ++ [.endOfText]) ∧ Grammar.DerivesQuery v n ts d ∧
        n ≤ v.maxNesting := by
  constructor
  · rintro ⟨as, h⟩
    obtain ⟨ts, n, d, hts, hd, hn, -⟩ := recognize_eq_ok_iff.mp h
    exact ⟨ts, n, d, hts, hd, hn⟩
  · rintro ⟨ts, n, d, hts, hd, hn⟩
    exact ⟨d.actions, recognize_eq_ok_iff.mpr ⟨ts, n, d, hts, hd, hn, rfl⟩⟩

end RecordQuery
