/-
  RecordQuery.Proofs.Grammar.Message

  The place that a message tells. It is a line and a column, and the messages of one error at two
  places are the same text only if the places have both in common. Whitespace that comes in front of
  a place moves the line with each line feed, and the column on the first line only.
-/

import Mathlib.Data.List.Basic
import RecordQuery.Proofs.Grammar.Trimming
import RecordQuery.Proofs.Text.Numeral

namespace RecordQuery

/-! ## Lines and columns -/

namespace Position

variable {p q r : Position}

/-- The places have one line and one column. -/
def Alike (p q : Position) : Prop :=
  p.line = q.line ∧ p.column = q.column

/-- The first place is told to be in front of the second. -/
def Precedes (p q : Position) : Prop :=
  p.line < q.line ∨ p.line = q.line ∧ p.column < q.column

theorem toList_describe (p : Position) : p.describe.toList =
    "line ".toList ++ (Nat.toDigits 10 p.line ++
      ',' :: (" column ".toList ++ Nat.toDigits 10 p.column)) := by
  have hwords : p.describe = "line " ++ Nat.repr p.line ++ ", column " ++ Nat.repr p.column := rfl
  have hcomma : ", column ".toList = ',' :: " column ".toList := by decide
  simp only [hwords, hcomma, String.toList_append, Nat.toList_repr, List.append_assoc,
    List.cons_append]

/-- Two places are described alike exactly if their lines and columns are the same. -/
theorem describe_eq_iff : p.describe = q.describe ↔ p.Alike q := by
  constructor
  · intro h
    have hlists := congrArg String.toList h
    rw [toList_describe, toList_describe] at hlists
    -- Digits end in front of the comma.
    have hdigits (n : Nat) : ',' ∉ Nat.toDigits 10 n :=
      fun hmem => absurd (Text.isDigit_of_mem_toDigits hmem) (by decide)
    have hline (n : Nat) : ',' ∉ " column ".toList ++ Nat.toDigits 10 n :=
      List.not_mem_append (by decide) (hdigits n)
    obtain ⟨hl, -, hc⟩ := (List.append_cons_inj_of_notMem (hdigits _) (hline _)).mp
      (List.append_cancel_left hlists)
    have hinj {m n : Nat} (h : Nat.toDigits 10 m = Nat.toDigits 10 n) : m = n :=
      Text.toDigits_injective (by decide) (by decide) h
    exact ⟨hinj hl, hinj (List.append_cancel_left hc)⟩
  · rintro ⟨hline, hcolumn⟩
    rw [describe, describe, hline, hcolumn]

/-- Behind a character the place is a later one. -/
theorem precedes_next (p : Position) (c : Char) : p.Precedes (p.next c) := by
  rw [next]
  split
  · exact .inl (Nat.lt_succ_self p.line)
  · exact .inr ⟨rfl, Nat.lt_succ_self p.column⟩

theorem Precedes.trans (h : p.Precedes q) (h' : q.Precedes r) : p.Precedes r := by
  unfold Precedes at *
  omega

theorem precedes_after {cs : List Char} (h : cs ≠ []) (p : Position) : p.Precedes (p.after cs) := by
  induction cs generalizing p with
  | nil => exact absurd rfl h
  | cons c cs ih =>
      have hnext := p.precedes_next c
      cases cs with
      | nil => exact hnext
      | cons d cs => exact hnext.trans (ih (List.cons_ne_nil d cs) (p.next c))

theorem lastLine_of_notMem {cs : List Char} (h : '\n' ∉ cs) : lastLine cs = cs := by
  refine List.rtakeWhile_eq_self_iff.mpr fun c hc => bne_iff_ne.mpr ?_
  rintro rfl
  exact h hc

/-- Characters in front leave the line and the column of a place as they are if they hold no line
    feed and do not stand on its line. -/
theorem alike_behind_iff {cs : List Char} :
    p.Alike (p.behind cs) ↔ '\n' ∉ cs ∧ (cs ≠ [] → (p.behind cs).line ≠ 1) := by
  simp only [Alike, behind]
  by_cases hmem : '\n' ∈ cs
  · have hcount := List.count_pos_iff.mpr hmem
    exact iff_of_false (fun h => by omega) fun h => h.1 hmem
  · have hcount : cs.count '\n' = 0 := List.count_eq_zero.mpr hmem
    have hempty : cs ≠ [] ↔ 0 < cs.length := List.length_pos_iff.symm
    rw [hcount, lastLine_of_notMem hmem, hempty, and_iff_right hmem]
    split <;> omega

/-- No place is told to be in front of where it is without the characters in front of it. -/
theorem not_precedes_behind (p : Position) (cs : List Char) : ¬ (p.behind cs).Precedes p := by
  simp only [Precedes, behind]
  split <;> omega

/-- Nor is a place behind it told to be there. -/
theorem not_alike_after_behind {ds : List Char} (h : ds ≠ []) (cs : List Char) :
    ¬ p.Alike ((p.behind cs).after ds) := by
  have hle := not_precedes_behind p cs
  have hlt := precedes_after h (p.behind cs)
  simp only [Precedes, Alike] at *
  omega

end Position

/-! ## Messages -/

namespace SyntaxError

variable {e : SyntaxError} {p q : Position}

theorem movedTo_position (e : SyntaxError) : e.movedTo e.position = e := by
  cases e with
  | lexical l => cases l <;> rfl
  | _ => rfl

theorem exists_message_of_front (front : String)
    (h : ∀ p, (e.movedTo p).message = front ++ p.describe) :
    ∃ front back, ∀ p, (e.movedTo p).message = front ++ p.describe ++ back :=
  ⟨front, "", fun p => (h p).trans String.append_empty.symm⟩

/-- A message has its place written into it. -/
theorem exists_message (e : SyntaxError) :
    ∃ front back, ∀ p, (e.movedTo p).message = front ++ p.describe ++ back := by
  cases e with
  | lexical l =>
      cases l with
      | loneBang p => exact ⟨"unexpected '!' at ", " (did you mean '!='?)", fun p => rfl⟩
      | unexpectedChar c p => exact exists_message_of_front _ fun p => rfl
      | unterminatedString p => exact exists_message_of_front _ fun p => rfl
      | invalidEscape c p => exact exists_message_of_front _ fun p => rfl
  | unexpected expected found p => exact exists_message_of_front _ fun p => rfl
  | invalidField name p => exact exists_message_of_front _ fun p => rfl
  | invalidFunction name p => exact exists_message_of_front _ fun p => rfl
  | invalidNamespace name p => exact exists_message_of_front _ fun p => rfl
  | nestingTooDeep limit p => exact exists_message_of_front _ fun p => rfl

/-- An error reads the same at two places exactly if these are described alike. -/
theorem message_movedTo_eq_iff :
    (e.movedTo p).message = (e.movedTo q).message ↔ p.Alike q := by
  obtain ⟨front, back, hmessage⟩ := e.exists_message
  rw [hmessage, hmessage, String.append_left_inj, String.append_right_inj,
    Position.describe_eq_iff]

/-- An open string and a bad escape are told apart wherever they are. -/
theorem message_unterminatedString_ne {c : Char} :
    (lexical (.unterminatedString p)).message ≠ (lexical (.invalidEscape c q)).message := by
  intro h
  have hinvalid : (lexical (.invalidEscape c q)).message =
      "invalid escape sequence '\\" ++ (toString c ++ ("' at " ++ q.describe)) := by
    simp only [← String.append_assoc]
    rfl
  have hunterminated : (lexical (.unterminatedString p)).message =
      "unterminated string starting at " ++ p.describe := rfl
  have hfront (front back : String) (hne : front.toList ≠ []) :
      (front ++ back).toList.head? = front.toList.head? := by
    rw [String.toList_append, List.head?_append_of_ne_nil _ hne]
  have hfirst := congrArg (fun m => m.toList.head?) h
  rw [hinvalid, hunterminated, hfront _ _ (by decide), hfront _ _ (by decide)] at hfirst
  exact absurd hfirst (by decide)

end SyntaxError

/-- Trimming a text leaves the message about it as it is if the whitespace in front holds no line
    feed and does not stand on the line of the error, and the error tells of nothing behind. -/
theorem Untrimmed.message_eq_iff {s : String} {e' e : SyntaxError} (h : Untrimmed s e' e) :
    e'.message = e.message ↔ '\n' ∉ Text.leading s ∧
      (Text.leading s ≠ [] → e.position.line ≠ 1) ∧
      (e.SeesBehind (Text.leading s ++ (Text.trim s).toList).length → Text.trailing s = []) := by
  have hfront (p : Position) : p.Alike (p.behind (Text.leading s)) ↔ '\n' ∉ Text.leading s ∧
      (Text.leading s ≠ [] → (p.behind (Text.leading s)).line ≠ 1) := Position.alike_behind_iff
  cases h with
  | inside h =>
      have hmoved : e'.message = (e'.movedTo (e'.position.behind (Text.leading s))).message ↔
          e'.position.Alike (e'.position.behind (Text.leading s)) := by
        rw [← SyntaxError.message_movedTo_eq_iff (e := e'), SyntaxError.movedTo_position]
      rw [hmoved, hfront, SyntaxError.position_movedTo]
      simp only [h, false_implies, and_true]
  | @atEnd expected p =>
      have hmoved := SyntaxError.message_movedTo_eq_iff (e := .unexpected expected .endOfText p)
        (p := p) (q := (p.behind (Text.leading s)).after (Text.trailing s))
      refine hmoved.trans ?_
      by_cases hback : Text.trailing s = []
      · simp only [hback, Position.after_nil, hfront, SyntaxError.position, implies_true, and_true]
      · refine iff_of_false (Position.not_alike_after_behind hback _) fun hsame => ?_
        exact hback (hsame.2.2 trivial)
  | @escape b w p hb hw =>
      refine iff_of_false SyntaxError.message_unterminatedString_ne fun hsame => ?_
      have hsees : Text.trailing s = [] := by
        refine hsame.2.2 ?_
        show _ ≤ (Position.start.after (Text.leading s ++ b)).offset + 1
        rw [hb, Position.offset_after]
        simp only [Position.start, List.length_append, List.length_singleton]
        omega
      rw [hsees] at hw
      cases hw

end RecordQuery
