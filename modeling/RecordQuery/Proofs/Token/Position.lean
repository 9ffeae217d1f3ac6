/-
  RecordQuery.Proofs.Token.Position

  Where a scanner stands. It goes over the characters of its text one behind the other, and over no
  more than there are, whether they are whitespace, a token or the start of a string that breaks
  off. So the position that it has is that of the place in front of the characters that it has not
  read, and each that it tells of a token or of an error is that of the place where this stands: the
  offset counts the characters in front of the place, the line counts the line feeds among them,
  and the column counts the characters behind the last of these.
-/

import Mathlib.Data.List.DropRight
import RecordQuery.Proofs.Token.Outcome

namespace RecordQuery

/-! ## Places in a text -/

namespace Position

/-- The characters behind the last line feed, or all of them if there is none. -/
def lastLine (cs : List Char) : List Char :=
  cs.rtakeWhile (· != '\n')

/-- The position is that of a place in the text, in front of a character or at the end. Lines and
    columns are counted from one. -/
structure PlaceIn (p : Position) (cs : List Char) : Prop where
  offset_le : p.offset ≤ cs.length
  line_eq : p.line = 1 + (cs.take p.offset).count '\n'
  column_eq : p.column = 1 + (lastLine (cs.take p.offset)).length

instance (p : Position) (cs : List Char) : Decidable (p.PlaceIn cs) :=
  decidable_of_iff (p.offset ≤ cs.length ∧ p.line = 1 + (cs.take p.offset).count '\n' ∧
      p.column = 1 + (lastLine (cs.take p.offset)).length)
    ⟨fun ⟨ho, hl, hc⟩ => ⟨ho, hl, hc⟩, fun ⟨ho, hl, hc⟩ => ⟨ho, hl, hc⟩⟩

theorem lastLine_concat_lineFeed (cs : List Char) : lastLine (cs ++ ['\n']) = [] :=
  List.rtakeWhile_concat_neg _ _ _ (by decide)

theorem lastLine_concat {c : Char} (hc : c ≠ '\n') (cs : List Char) :
    lastLine (cs ++ [c]) = lastLine cs ++ [c] :=
  List.rtakeWhile_concat_pos _ _ _ (bne_iff_ne.mpr hc)

/-- The position that is kept character by character is the one that is counted at once. -/
theorem after_start (cs : List Char) :
    start.after cs = ⟨cs.length, 1 + cs.count '\n', 1 + (lastLine cs).length⟩ := by
  induction cs using List.reverseRecOn with
  | nil => rfl
  | append_singleton cs c ih =>
      rw [after_append, ih, after_cons, after_nil, next, List.length_append, List.count_append]
      by_cases hc : c = '\n'
      · subst hc
        rw [if_pos rfl, lastLine_concat_lineFeed]
        rfl
      · have hcount : [c].count '\n' = 0 := List.count_singleton.trans (if_neg (by simpa using hc))
        rw [if_neg hc, lastLine_concat hc, hcount, List.length_append]
        rfl

/-- Counting over the front of a text leads to the place behind it. -/
theorem placeIn_after (before rest : List Char) :
    (start.after before).PlaceIn (before ++ rest) := by
  rw [after_start]
  have htake : (before ++ rest).take before.length = before := List.take_left
  refine ⟨?_, ?_, ?_⟩
  · show before.length ≤ (before ++ rest).length
    rw [List.length_append]
    omega
  · show 1 + before.count '\n' = 1 + ((before ++ rest).take before.length).count '\n'
    rw [htake]
  · show 1 + (lastLine before).length = 1 + (lastLine ((before ++ rest).take before.length)).length
    rw [htake]

end Position

/-! ## Places of a scanner -/

namespace Scanner

variable {s : Scanner} {cs : List Char}

/-- The scanner has gone over the first characters of the text and stands in front of the others. -/
def Inside (s : Scanner) (cs : List Char) : Prop :=
  ∃ before, cs = before ++ s.rest ∧ s.position = Position.start.after before

theorem inside_ofText (text : String) : (ofText text).Inside text.toList :=
  ⟨[], rfl, rfl⟩

/-- A scanner inside of a text is at one of its places. -/
theorem Inside.placeIn (h : s.Inside cs) : s.position.PlaceIn cs := by
  obtain ⟨before, rfl, hposition⟩ := h
  rw [hposition]
  exact Position.placeIn_after before s.rest

/-- The characters behind the place of the scanner are those that it has not read. -/
theorem Inside.drop_offset (h : s.Inside cs) : cs.drop s.position.offset = s.rest := by
  obtain ⟨before, rfl, hposition⟩ := h
  rw [hposition, Position.offset_after]
  show (before ++ s.rest).drop (0 + before.length) = s.rest
  rw [Nat.zero_add, List.drop_left]

/-- A call leaves the scanner inside the text, behind what it has skipped and taken. -/
theorem Inside.advances {r : Except LexicalError Lexeme × Scanner} {skipped taken : List Char}
    (h : s.Inside cs) (hr : s.Advances r skipped taken) : r.2.Inside cs := by
  obtain ⟨before, rfl, hposition⟩ := h
  refine ⟨before ++ (skipped ++ taken), ?_, ?_⟩
  · rw [hr.rest_eq, List.append_assoc, List.append_assoc]
  · rw [hr.behind_eq, hposition, ← Position.after_append]

/-- The position that a call tells is that of the place behind what it has skipped. -/
theorem Inside.told {r : Except LexicalError Lexeme × Scanner} {skipped taken : List Char}
    (h : s.Inside cs) (hr : s.Advances r skipped taken) :
    Inside ⟨taken ++ r.2.rest, told r.1⟩ cs := by
  obtain ⟨before, rfl, hposition⟩ := h
  refine ⟨before ++ skipped, ?_, ?_⟩
  · rw [hr.rest_eq, List.append_assoc]
  · rw [hr.told_eq, hposition, Position.after_append]

/-- A call stays inside of the text. -/
theorem Inside.next (h : s.Inside cs) : s.next.2.Inside cs := by
  obtain ⟨skipped, taken, hr⟩ := s.exists_advances
  exact h.advances hr

theorem Inside.calls (h : s.Inside cs) (k : Nat) : (s.calls k).Inside cs := by
  induction k generalizing s with
  | zero => exact h
  | succ k ih =>
      rw [calls_succ]
      exact ih h.next

end Scanner

open Scanner (Meets told) in
/-- After any number of calls, with or without success, the scanner is told to stand at a place in
    the text, and the characters behind that place are those that it has not read. The next call
    skips some of them and takes others. Between the two is the place that the token or the error is
    told to stand at, and there it stands: it is what the call meets in the text. Where the call
    ends, the offset has grown by as many characters as were skipped and taken. -/
theorem positions_are_places {text : String} {k : Nat} {s s' : Scanner}
    {outcome : Except LexicalError Lexeme} (hs : (Scanner.ofText text).calls k = s)
    (hnext : s.next = (outcome, s')) :
    s.position.PlaceIn text.toList ∧ text.toList.drop s.position.offset = s.rest ∧
      (told outcome).PlaceIn text.toList ∧
      ∃ skipped taken, s.rest = skipped ++ taken ++ s'.rest ∧
        Meets outcome skipped taken s'.rest ∧
        (told outcome).offset = s.position.offset + skipped.length ∧
        text.toList.drop (told outcome).offset = taken ++ s'.rest ∧
        s'.position.offset = (told outcome).offset + taken.length := by
  have hinside : s.Inside text.toList := hs ▸ (Scanner.inside_ofText text).calls k
  obtain ⟨skipped, taken, hr⟩ := s.exists_advances
  rw [hnext] at hr
  have htold := hinside.told hr
  refine ⟨hinside.placeIn, hinside.drop_offset, htold.placeIn, skipped, taken, ?_, hr.meets, ?_,
    htold.drop_offset, ?_⟩
  · rw [hr.rest_eq, List.append_assoc]
  · rw [hr.told_eq, Position.offset_after]
  · rw [hr.told_eq, hr.behind_eq, Position.after_append, Position.offset_after]

/-- A string over two lines with a bad escape. -/
def brokenLinesText : String :=
  "a 'b\nc\\d"

/-- The backslash is told to stand in the second column of the second line, although its string
    starts in the first: there it stands, and the scanner goes on behind it. -/
theorem bad_escape_in_second_line :
    ∃ s', ((Scanner.ofText brokenLinesText).calls 1).next =
        (.error (.invalidEscape 'd' ⟨6, 2, 2⟩), s') ∧
      (⟨6, 2, 2⟩ : Position).PlaceIn brokenLinesText.toList ∧
      brokenLinesText.toList.drop 6 = '\\' :: s'.rest ∧ s'.position.offset = 7 := by
  have hnext : ((Scanner.ofText brokenLinesText).calls 1).next =
      (.error (.invalidEscape 'd' ⟨6, 2, 2⟩), ⟨['d'], ⟨7, 2, 3⟩⟩) := by
    decide +kernel
  obtain ⟨-, -, hplace, skipped, taken, -, hmeets, -, hdrop, hbehind⟩ :=
    positions_are_places rfl hnext
  cases hmeets
  exact ⟨_, hnext, hplace, hdrop, hbehind⟩

end RecordQuery
