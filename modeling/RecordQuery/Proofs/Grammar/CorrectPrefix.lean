/-
  RecordQuery.Proofs.Grammar.CorrectPrefix

  Where the recognizer refuses a token, it refuses it no later than it has to and no earlier than it
  may: no query starts with the tokens up to that one, and some query starts with the tokens in
  front of it.
-/

import RecordQuery.Proofs.Grammar.Completion
import RecordQuery.Proofs.Query.Rendering

namespace RecordQuery

/-! ## Texts for tokens -/

/-- How a token can be written. -/
def Token.text : Token → String
  | .word w => w
  | .literal content => Text.quote content
  | .equal => "="
  | .notEqual => "!="
  | .less => "<"
  | .greater => ">"
  | .lessEqual => "<="
  | .greaterEqual => ">="
  | .openParen => "("
  | .closeParen => ")"
  | .comma => ","
  | .endOfText => ""

theorem Token.writes_text {t : Token} (h : t.Writable) : Writes t.text [t] := by
  cases t with
  | word w => exact writes_word h
  | literal content => exact (delimited_quote content).writes
  | equal => exact writes_valueOp .equal
  | notEqual => exact writes_valueOp .notEqual
  | less => exact writes_rangeOp .lessThan
  | greater => exact writes_rangeOp .greaterThan
  | lessEqual => exact writes_rangeOp .lessEqual
  | greaterEqual => exact writes_rangeOp .greaterEqual
  | openParen => exact delimited_openParen.writes
  | closeParen => exact delimited_closeParen.writes
  | comma => exact delimited_comma.writes
  | endOfText => exact h.elim

/-- Tokens that can be written can be written one behind the other. -/
theorem exists_writes {ts : List Token} (h : ∀ t ∈ ts, t.Writable) : ∃ text, Writes text ts := by
  induction ts with
  | nil => exact ⟨"", fun cs us hcs _ => by simpa using hcs⟩
  | cons t ts ih =>
      obtain ⟨text, htext⟩ := ih fun u hu => h u (List.mem_cons_of_mem t hu)
      have ht := Token.writes_text (h t List.mem_cons_self)
      exact ⟨_, ht.append_space.append htext⟩

/-- The tokens of a text can be written. -/
theorem writable_of_mem_lex {text : String} {l : Lexeme} (h : l ∈ (lex text).lexemes) :
    l.token.Writable := by
  refine Scanner.forall_mem_lexed (p := Token.Writable) (fun cs t n hread ht => ?_) _ l h
  cases t with
  | word w => exact Scanner.isWord_of_read hread
  | endOfText => exact ht rfl
  | _ => trivial

theorem Vocabulary.names_standard : Vocabulary.standard.Names "a" "a" where
  field := rfl
  fieldWord := by decide
  source := rfl
  sourceWord := by decide

/-! ## Correct prefixes -/

/-- The first `n` tokens of a text. -/
def firstTokens (text : String) (n : Nat) : List Token :=
  ((lex text).stream.take n).map (·.token)

theorem Cursor.Passes.firstTokens_eq {text : String} {ts : List Token} {d : Cursor}
    (h : (Cursor.front text).Passes ts d) : firstTokens text ts.length = ts := by
  obtain ⟨ls, more, rfl, hstream⟩ := h.stream
  have hlex : (lex text).stream = _ := hstream
  rw [firstTokens, hlex, List.length_map, List.take_left]

variable {text : String} {e : SyntaxError}

/-- What is refused in a text is refused in the same place of every text that has the same tokens as
    far as they are known by then. -/
theorem refused_alike {v : Vocabulary} (h : recognize v text = .error e) (hk : e.kind ≠ .lexical) :
    ∃ ts d m, (Cursor.front text).Passes ts d ∧ d.Passes e.seen m ∧ d.Shows v e ∧
      ∀ text', firstTokens text' (ts.length + e.seen.length + 1) =
          firstTokens text (ts.length + e.seen.length + 1) →
        ∃ e', recognize v text' = .error e' ∧ e'.kind = e.kind ∧
          TokenAt text' ts.length e'.position := by
  obtain ⟨l, rfl, -⟩ | ⟨ts, d, m, hts, hm, hd, hfollow⟩ := recognize_error_retraced (.refl v) h
  · exact absurd rfl hk
  refine ⟨ts, d, m, hts, hm, hd, fun text' htext => ?_⟩
  -- With the same tokens up to the last one that is known, the other text has those that were passed.
  obtain ⟨m', hr⟩ : ∃ m', Retraces v v (ts ++ e.seen) m.token (Cursor.front text') m' := by
    refine retraces_of_stream (hts.trans hm) ?_
    have hstream :
      ((Cursor.front text').stream.take ((ts ++ e.seen).length + 1)).map (·.token) =
        ((Cursor.front text).stream.take ((ts ++ e.seen).length + 1)).map (·.token) := by
      rw [List.length_append]
      exact htext
    rw [hstream]
    exact List.forall₂_same.mpr fun t _ => .refl v t
  obtain ⟨d', hts', hm'⟩ := hr.split hm
  obtain ⟨e', he', hkind, hd'⟩ := hfollow text' d' m' hts' hm' fun _ => rfl
  exact ⟨e', he', hkind, hd'.position_eq ▸ hts'.tokenAt⟩

/-- What has been passed in front of a token that is refused can be completed to a text that is
    recognized. -/
theorem completion_of_refused {v : Vocabulary} {f g : String} (hv : v.Names f g)
    (h : recognize v text = .error e) (hk : e.kind ≠ .lexical) :
    ∃ i, TokenAt text i e.position ∧
      ∃ text' as, recognize v text' = .ok as ∧ firstTokens text' i = firstTokens text i := by
  by_cases hs : (Cursor.front text).Settled
  · rw [recognize_of_settled hs, map_eq_error] at h
    obtain ⟨ts, d, hts, hd, us, hus, n, draft, hquery, hn⟩ :=
      Grammar.completable_query hv hs rfl e h hk
    obtain ⟨ls, hls, hlexemes⟩ := hts.lexemes
    have hwritable : ∀ t ∈ ts ++ us, t.Writable := by
      intro t ht
      rcases List.mem_append.mp ht with ht | ht
      · rw [← hls] at ht
        obtain ⟨l, hl, rfl⟩ := List.mem_map.mp ht
        have hmem : l ∈ (Cursor.front text).lexemes := by
          rw [hlexemes]
          exact List.mem_append_left _ hl
        exact writable_of_mem_lex hmem
      · exact hus t ht
    obtain ⟨text', htext'⟩ := exists_writes hwritable
    have htokens := tokenize_of_writes htext'
    refine ⟨ts.length, hd ▸ hts.tokenAt, text', _,
      recognize_eq_ok_iff.mpr ⟨_, n, draft, htokens, hquery, hn, rfl⟩, ?_⟩
    rw [hts.firstTokens_eq, firstTokens, List.map_take, (tokenize_eq_ok_iff_stream.mp htokens).1,
      List.append_assoc, List.take_left]
  · obtain ⟨l, hl, -⟩ := recognize_of_not_settled (v := v) hs
    obtain rfl := Except.error.inj (hl.symm.trans h)
    exact absurd rfl hk

/-- The errors that say nothing about a word but that it stands where it does. -/
def SyntaxError.IsMisplaced (e : SyntaxError) : Prop :=
  e.kind = .unexpected ∨ e.kind = .nestingTooDeep

theorem SyntaxError.IsMisplaced.seen_eq (h : e.IsMisplaced) : e.seen = [] := by
  cases e <;> simp_all [IsMisplaced, kind, seen]

theorem SyntaxError.IsMisplaced.kind_ne (h : e.IsMisplaced) : e.kind ≠ .lexical := by
  rcases h with h | h <;> simp [h]

/-- A refused token is refused in the same place of every text that has the same tokens up to it. -/
theorem refused_everywhere {v : Vocabulary} (h : recognize v text = .error e)
    (hm : e.IsMisplaced) :
    ∃ i, TokenAt text i e.position ∧
      ∀ text', firstTokens text' (i + 1) = firstTokens text (i + 1) →
        ∃ e', recognize v text' = .error e' ∧ e'.kind = e.kind ∧ TokenAt text' i e'.position := by
  obtain ⟨ts, d, m, hts, -, hd, halike⟩ := refused_alike h hm.kind_ne
  rw [hm.seen_eq] at halike
  exact ⟨ts.length, hd.position_eq ▸ hts.tokenAt, halike⟩

/-- What has been passed in front of a refused token can be completed to a text that is
    recognized. -/
theorem recognized_completion {v : Vocabulary} {f g : String} (hv : v.Names f g)
    (h : recognize v text = .error e) (hm : e.IsMisplaced) :
    ∃ i, TokenAt text i e.position ∧
      ∃ text' as, recognize v text' = .ok as ∧ firstTokens text' i = firstTokens text i :=
  completion_of_refused hv h hm.kind_ne

/-- In the standard vocabulary, a token that is refused for where it stands is the first one that no
    query can have there: each text with the same tokens up to it is refused at it for the same kind
    of reason, and some text with the same tokens in front of it is recognized. -/
theorem refused_at_first_wrong_token (text : String) (e : SyntaxError)
    (h : recognize .standard text = .error e)
    (hm : e.kind = .unexpected ∨ e.kind = .nestingTooDeep) :
    ∃ i, (∀ j, TokenAt text j e.position ↔ j = i) ∧
      (∀ text', firstTokens text' (i + 1) = firstTokens text (i + 1) →
        ∃ e', recognize .standard text' = .error e' ∧ e'.kind = e.kind ∧
          TokenAt text' i e'.position) ∧
      ∃ text' as, recognize .standard text' = .ok as ∧
        firstTokens text' i = firstTokens text i := by
  obtain ⟨i, hi, hrefused⟩ := refused_everywhere h hm
  obtain ⟨j, hj, hcompleted⟩ := recognized_completion Vocabulary.names_standard h hm
  obtain rfl := hi.unique hj
  exact ⟨i, fun j => ⟨fun hj => hj.unique hi, fun hj => hj ▸ hi⟩, hrefused, hcompleted⟩

/-- A text with an operator that lacks its second operand, inside a parenthesis. -/
def danglingText : String :=
  "select a where not (b = 'x' and ) order by c"

/-- The parenthesis is refused, and what stands in front of it could have been completed. -/
theorem refused_parenthesis :
    recognize .standard danglingText =
        .error (.unexpected .fieldName .closeParen ⟨32, 1, 33⟩) ∧
      ∃ text' as, recognize .standard text' = .ok as ∧
        firstTokens text' 9 = firstTokens danglingText 9 := by
  have h : recognize .standard danglingText =
      .error (.unexpected .fieldName .closeParen ⟨32, 1, 33⟩) := by decide +kernel
  obtain ⟨i, hi, -, hcompleted⟩ := refused_at_first_wrong_token danglingText _ h (.inl rfl)
  obtain rfl : 9 = i := (hi 9).mp (by decide +kernel)
  exact ⟨h, hcompleted⟩

end RecordQuery
