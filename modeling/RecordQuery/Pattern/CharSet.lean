/-
  RecordQuery.Pattern.CharSet

  The sets of characters that a name pattern can ask for at one place.
-/

import RecordQuery.Unicode.Class
import RecordQuery.Unicode.FoldCase

namespace RecordQuery

/-- A set of characters. -/
inductive CharSet where
  /-- The characters from `first` to `last`, both included. -/
  | range (first last : Char)
  | digit
  | space
  | word
  | union (left right : CharSet)
  | complement (set : CharSet)
  /-- Every character that differs only in case from one of the set. -/
  | anyCase (set : CharSet)
deriving DecidableEq, Repr

namespace CharSet

/-- The set of one character. -/
def single (c : Char) : CharSet := .range c c

/-- Every character that does not end a line. -/
def notLineFeed : CharSet := .complement (single '\n')

/-- The set without any character. -/
def empty : CharSet := .complement (.range '\x00' (Char.ofNat 0x10FFFF))

/-- The characters that are in both sets. -/
def inter (left right : CharSet) : CharSet :=
  .complement (.union (.complement left) (.complement right))

/-- The characters of the left set that are not in the right one. -/
def diff (left right : CharSet) : CharSet := .inter left (.complement right)

/-- The characters that are in one of the sets only. -/
def symmDiff (left right : CharSet) : CharSet := .union (.diff left right) (.diff right left)

/-- Whether a character is in the set. -/
def contains : CharSet → Char → Bool
  | .range first last, c => first.toNat ≤ c.toNat && c.toNat ≤ last.toNat
  | .digit, c => Unicode.isDecimalDigit c
  | .space, c => Unicode.isWhiteSpace c
  | .word, c => Unicode.isWordPart c
  | .union left right, c => left.contains c || right.contains c
  | .complement set, c => !set.contains c
  | .anyCase set, c => (Unicode.caseVariants c).any fun d => set.contains d

variable {left right : CharSet} {c : Char}

@[simp] theorem contains_inter :
    (inter left right).contains c = (left.contains c && right.contains c) := by
  simp [inter, contains]

@[simp] theorem contains_diff :
    (diff left right).contains c = (left.contains c && !right.contains c) := by
  simp [diff, contains]

theorem contains_symmDiff :
    (symmDiff left right).contains c = (left.contains c != right.contains c) := by
  simp only [symmDiff, contains, contains_diff]
  cases left.contains c <;> cases right.contains c <;> rfl

end CharSet

end RecordQuery
