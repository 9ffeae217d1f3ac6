/-
  RecordQuery.Proofs.Grammar.Report

  What a syntax error says is so. It tells a token of the text with the position that this token
  has, or the characters at which the tokens end. In a text that does not end in tokens, no error is
  found behind these characters, and none at them but the one that they are.
-/

import RecordQuery.Proofs.Grammar.Lockstep
import RecordQuery.Vocabulary.Standard

namespace RecordQuery

variable {v : Vocabulary} {text : String}

/-- The error is about a token of the text and tells it with its position, or it is the one that
    keeps the text from being split into tokens. -/
def SyntaxError.Reports (v : Vocabulary) (text : String) : SyntaxError → Prop
  | .lexical e => tokenize text = .error e
  | .unexpected _ found p => ⟨found, p⟩ ∈ (lex text).stream
  | .invalidField name p | .invalidFunction name p | .invalidNamespace name p =>
    ⟨.word name, p⟩ ∈ (lex text).stream
  | .nestingTooDeep limit p => limit = v.maxNesting ∧ ∃ t, ⟨t, p⟩ ∈ (lex text).stream ∧
      (t = .openParen ∨ ∃ w, t = .word w ∧ v.keyword? w = some .not)

/-- The cursor behind a passage stands at a token of the text. -/
theorem Cursor.Passes.mem_stream {ts : List Token} {d : Cursor}
    (h : (Cursor.front text).Passes ts d) : ⟨d.token, d.position⟩ ∈ (lex text).stream := by
  obtain ⟨ls, more, -, hstream⟩ := h.stream
  have hlex : (lex text).stream = ls ++ ⟨d.token, d.position⟩ :: more := hstream
  rw [hlex]
  exact List.mem_append_right _ List.mem_cons_self

theorem Token.exists_of_keyword? {t : Token} {k : Keyword} (h : t.keyword? v = some k) :
    ∃ w, t = .word w ∧ v.keyword? w = some k := by
  cases t with
  | word w => exact ⟨w, rfl, h⟩
  | _ => cases h

/-- An error that shows the token of a cursor reports it, wherever in the text the cursor is. -/
theorem Cursor.Shows.reports {ts : List Token} {d : Cursor} {e : SyntaxError} (h : d.Shows v e)
    (hd : (Cursor.front text).Passes ts d) : e.Reports v text := by
  have hmem := hd.mem_stream
  cases e with
  | lexical l => exact h.elim
  | unexpected expected found p =>
      obtain ⟨rfl, rfl⟩ := h
      exact hmem
  | invalidField name p | invalidFunction name p | invalidNamespace name p =>
      obtain ⟨htoken, rfl⟩ := h
      rwa [htoken] at hmem
  | nestingTooDeep limit p =>
      obtain ⟨hlimit, htoken, rfl⟩ := h
      exact ⟨hlimit, _, hmem, htoken.imp_right Token.exists_of_keyword?⟩

/-- An error of the recognizer is the one that ends the tokens, or shows the token of a cursor that
    is somewhere in the text. -/
theorem shows_of_recognize {e : SyntaxError} (h : recognize v text = .error e) :
    (∃ l, e = .lexical l ∧ tokenize text = .error l) ∨
      ∃ ts d, (Cursor.front text).Passes ts d ∧ d.Shows v e := by
  refine (recognize_error_retraced (.refl v) h).imp ?_ ?_
  · rintro ⟨l, rfl, hl⟩
    exact ⟨l, rfl, tokenize_eq_error_iff.mpr hl⟩
  · rintro ⟨ts, d, m, hts, -, hd, -⟩
    exact ⟨ts, d, hts, hd⟩

/-- A syntax error reports a token of the text at its position, or the error that ends the tokens. A
    text that is not split into tokens is always refused: for that reason, or at a token in front of
    the characters that form none. -/
theorem syntaxError_reports (v : Vocabulary) (text : String) :
    (∀ e, recognize v text = .error e → e.Reports v text) ∧
    ∀ l, tokenize text = .error l → ∃ e, recognize v text = .error e ∧
      (e = .lexical l ∨ e.position.offset < l.position.offset) := by
  refine ⟨fun e h => ?_, fun l hl => ?_⟩
  · obtain ⟨l, rfl, hl⟩ | ⟨ts, d, hts, hd⟩ := shows_of_recognize h
    · exact hl
    · exact hd.reports hts
  · cases h : recognize v text with
    | ok as =>
        -- What is recognized has been read up to the end of the text.
        obtain ⟨ts, n, d, hts, -⟩ := recognize_eq_ok_iff.mp h
        cases hl.symm.trans hts
    | error e =>
        refine ⟨e, rfl, ?_⟩
        obtain ⟨l', rfl, hl'⟩ | ⟨ts, d, hts, hd⟩ := shows_of_recognize h
        · obtain rfl := Except.error.inj (hl.symm.trans hl')
          exact .inl rfl
        · rw [hd.position_eq]
          exact .inr (hts.tokenAt.offset_lt_error (tokenize_eq_error_iff.mp hl))

/-- A text with a word that is no field on its second line, and a string without an end behind it.
    -/
def unclosedText : String :=
  "select a,\n  9b from n where c = 'open"

/-- The word is refused, at its own position and not at that of the string, although the token
    behind the word has been read by then. -/
theorem unclosedText_refused_at_word :
    ∃ e l, recognize .standard unclosedText = .error e ∧
      tokenize unclosedText = .error (.unterminatedString l) ∧
      e = .invalidField "9b" ⟨12, 2, 3⟩ ∧ ⟨.word "9b", ⟨12, 2, 3⟩⟩ ∈ (lex unclosedText).stream ∧
      e.position.offset < l.offset := by
  have hl : tokenize unclosedText = .error (.unterminatedString ⟨32, 2, 23⟩) := by decide +kernel
  obtain ⟨hreports, hbehind⟩ := syntaxError_reports .standard unclosedText
  obtain ⟨e, he, hlt⟩ := hbehind _ hl
  have hword : recognize .standard unclosedText = .error (.invalidField "9b" ⟨12, 2, 3⟩) := by
    decide +kernel
  obtain rfl := Except.error.inj (he.symm.trans hword)
  exact ⟨_, _, he, hl, rfl, hreports _ he, hlt.resolve_left (by simp)⟩

end RecordQuery
