/-
  RecordQuery.Proofs.Grammar.Trimming

  What trimming does to the error of a text that is no query. The error stays what it is and its
  place moves by the whitespace that stood in front, unless it tells of what stands behind the last
  token: the end of the text is closer then, and a backslash that would escape whitespace is the
  last character of a string without an end.
-/

import RecordQuery.Proofs.Grammar.Displacement
import RecordQuery.Proofs.Grammar.Report
import RecordQuery.Proofs.Token.Surrounding

namespace RecordQuery

namespace SyntaxError

/-- The same error at another place. -/
def movedTo (p : Position) : SyntaxError → SyntaxError
  | .lexical l => .lexical (l.movedTo p)
  | .unexpected expected found _ => .unexpected expected found p
  | .invalidField name _ => .invalidField name p
  | .invalidFunction name _ => .invalidFunction name p
  | .invalidNamespace name _ => .invalidNamespace name p
  | .nestingTooDeep limit _ => .nestingTooDeep limit p

/-- The error tells of the end of the text, or of a character behind the first `n`: that at the
    place of a bad escape stands one place behind it. -/
def SeesBehind (n : Nat) : SyntaxError → Prop
  | .unexpected _ .endOfText _ => True
  | .lexical (.invalidEscape _ p) => n ≤ p.offset + 1
  | _ => False

theorem position_movedTo (e : SyntaxError) (p : Position) : (e.movedTo p).position = p := by
  cases e with
  | lexical l => cases l <;> rfl
  | _ => rfl

theorem not_seesBehind_unexpected {n : Nat} {expected : Expectation} {found : Token} {p : Position}
    (h : found ≠ .endOfText) : ¬ SeesBehind n (.unexpected expected found p) := by
  cases found <;> first | exact id | exact absurd rfl h

end SyntaxError

/-- What the error of a trimmed text is in the text itself. -/
inductive Untrimmed (s : String) : SyntaxError → SyntaxError → Prop
  /-- The token or character at fault is found behind the whitespace in front. -/
  | inside {e : SyntaxError}
      (h : ¬ (e.movedTo (e.position.behind (Text.leading s))).SeesBehind
        (Text.leading s ++ (Text.trim s).toList).length) :
      Untrimmed s e (e.movedTo (e.position.behind (Text.leading s)))
  /-- The text ends behind the whitespace at its end. -/
  | atEnd {expected : Expectation} {p : Position} :
      Untrimmed s (.unexpected expected .endOfText p)
        (.unexpected expected .endOfText ((p.behind (Text.leading s)).after (Text.trailing s)))
  /-- The last backslash stands in front of whitespace. -/
  | escape {b : List Char} {w : Char} {p : Position} (hb : (Text.trim s).toList = b ++ ['\\'])
      (hw : w ∈ (Text.trailing s).head?) :
      Untrimmed s (.lexical (.unterminatedString p))
        (.lexical (.invalidEscape w (Position.start.after (Text.leading s ++ b))))

section

variable {v : Vocabulary} {s : String}

/-- How the tokens of a trimmed text are displaced in the text itself. -/
def Displacement.ofTrim (s : String) : Displacement where
  token p := p.behind (Text.leading s)
  ending _ := .after .start s.toList
  fault l :=
    match (lex s).ending with
    | .ok _ => l
    | .error l' => l'

theorem lex_displaced (s : String) :
    lex s = (Displacement.ofTrim s).lexed (lex (Text.trim s)) := by
  obtain ⟨htokens, htrails⟩ := lex_eq_trim s
  have hending : (lex s).ending = (Displacement.ofTrim s).outcome (lex (Text.trim s)).ending := by
    generalize hx : (lex (Text.trim s)).ending = x at htrails
    generalize hy : (lex s).ending = y at htrails
    cases htrails with
    | ended hp =>
        rw [← Position.after_append, ← Text.toList_eq_trim]
        rfl
    | moved h => simp only [Displacement.outcome, Displacement.ofTrim, hy]
    | cut hcs hw => simp only [Displacement.outcome, Displacement.ofTrim, hy]
  exact congrArg₂ Lexed.mk htokens hending

/-- The end of a text is found where its tokens end. -/
theorem ending_of_unexpected_end {expected : Expectation} {p : Position}
    (h : recognize v s = .error (.unexpected expected .endOfText p)) :
    (lex s).ending = .ok p := by
  obtain ⟨l, hl, -⟩ | ⟨ts, d, hts, hd⟩ := shows_of_recognize h
  · cases hl
  · have hmem : ⟨.endOfText, p⟩ ∈ (lex s).stream := hd.reports hts
    have hnone := (Scanner.ofText s).noEnd
    rw [Lexed.stream] at hmem
    cases hend : (lex s).ending with
    | ok q =>
        rw [hend] at hmem
        obtain hmem | hmem := List.mem_append.mp hmem
        · exact absurd rfl (hnone _ hmem)
        · cases List.mem_singleton.mp hmem
          rfl
    | error l =>
        rw [hend] at hmem
        exact absurd rfl (hnone _ hmem)

theorem ending_of_lexical {l : LexicalError} (h : recognize v s = .error (.lexical l)) :
    (lex s).ending = .error l := by
  obtain ⟨l', hl, htokens⟩ | ⟨ts, d, hts, hd⟩ := shows_of_recognize h
  · obtain rfl := SyntaxError.lexical.inj hl
    exact tokenize_eq_error_iff.mp htokens
  · exact hd.elim

/-- A bad escape with its character in the trimmed text does not tell of what stands behind that. -/
theorem not_seesBehind_of_inside {l : LexicalError}
    (h : ∀ c p, l = .invalidEscape c p → ∃ b rest, (Text.trim s).toList = b ++ '\\' :: c :: rest ∧
      p.behind (Text.leading s) = (Position.start.after (Text.leading s)).after b) :
    ¬ (SyntaxError.lexical (l.movedTo (l.position.behind (Text.leading s)))).SeesBehind
      (Text.leading s ++ (Text.trim s).toList).length := by
  cases l with
  | unexpectedChar c p => exact id
  | loneBang p => exact id
  | unterminatedString p => exact id
  | invalidEscape c p =>
      obtain ⟨b, rest, htext, hp⟩ := h c p rfl
      have hoffset := congrArg Position.offset hp
      rw [Position.offset_after, Position.offset_after] at hoffset
      show ¬ _ ≤ (p.behind (Text.leading s)).offset + 1
      rw [hoffset, htext]
      simp only [Position.start, List.length_append, List.length_cons]
      omega

/-- The error for a text is the one for the trimmed text, with what the whitespace changes. -/
theorem untrimmed_of_recognize {e : SyntaxError} (h : recognize v s = .error e) :
    ∃ e', recognize v (Text.trim s) = .error e' ∧ Untrimmed s e' e := by
  rw [recognize_displaced (v := v) _ (lex_displaced s)] at h
  obtain ⟨-, htrails⟩ := lex_eq_trim s
  cases he : recognize v (Text.trim s) with
  | ok actions =>
      rw [he] at h
      cases h
  | error e' =>
      rw [he] at h
      obtain rfl := Except.error.inj h
      refine ⟨e', rfl, ?_⟩
      cases e' with
      | lexical l =>
          rw [ending_of_lexical he] at htrails
          generalize hy : (lex s).ending = y at htrails
          have hfault {l' : LexicalError} (hl' : y = .error l') : (Displacement.ofTrim s).error
              (.lexical l) = .lexical l' := by
            simp only [Displacement.error, Displacement.ofTrim, hy, hl']
          cases htrails with
          | moved hinside =>
              rw [hfault rfl]
              exact .inside (not_seesBehind_of_inside hinside)
          | cut hcs hw =>
              rw [hfault rfl, ← Position.after_append]
              exact .escape hcs hw
      | unexpected expected found p =>
          by_cases hfound : found = .endOfText
          · subst hfound
            rw [ending_of_unexpected_end he] at htrails
            generalize hy : (lex s).ending = y at htrails
            cases htrails with
            | ended hp =>
                have hend : Position.after .start s.toList =
                    (p.behind (Text.leading s)).after (Text.trailing s) := by
                  rw [hp, Text.toList_eq_trim, Position.after_append, Position.after_append]
                rw [Displacement.error, Displacement.ofTrim, hend]
                exact .atEnd
          · rw [Displacement.error_unexpected _ hfound]
            exact .inside (SyntaxError.not_seesBehind_unexpected hfound)
      | invalidField name p => exact .inside id
      | invalidFunction name p => exact .inside id
      | invalidNamespace name p => exact .inside id
      | nestingTooDeep limit p => exact .inside id

end

end RecordQuery
