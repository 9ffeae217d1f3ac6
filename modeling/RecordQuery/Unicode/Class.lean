/-
  RecordQuery.Unicode.Class

  The character classes that query text, name patterns and listings are written in.
-/

import RecordQuery.Unicode.Alphabetic
import RecordQuery.Unicode.Numeric
import RecordQuery.Unicode.Mark
import RecordQuery.Unicode.Printable

namespace RecordQuery.Unicode

/-- The property White_Space. -/
def whiteSpace : RangeTable := [
  (0x9, 0xD), (0x20, 0x20), (0x85, 0x85), (0xA0, 0xA0), (0x1680, 0x1680), (0x2000, 0x200A),
  (0x2028, 0x2029), (0x202F, 0x202F), (0x205F, 0x205F), (0x3000, 0x3000)]

/-- Whether a character has the property White_Space. -/
def isWhiteSpace (c : Char) : Bool :=
  whiteSpace.contains c.toNat

/-- Whether a character has the property Alphabetic. -/
def isAlphabetic (c : Char) : Bool :=
  alphabetic.contains c.toNat

/-- Whether a character is a decimal digit of some script. -/
def isDecimalDigit (c : Char) : Bool :=
  decimalDigits.contains c.toNat

/-- Decimal digits, letter numbers and other numbers. -/
def isNumeric (c : Char) : Bool :=
  isDecimalDigit c || otherNumbers.contains c.toNat

/-- Letters and numbers of all scripts. -/
def isAlphanumeric (c : Char) : Bool :=
  isAlphabetic c || isNumeric c

/-- Letters, marks, decimal digits, connector punctuation and join controls. -/
def isWordPart (c : Char) : Bool :=
  isAlphabetic c || isDecimalDigit c || wordMarks.contains c.toNat

/-- Characters that a listing shows as they are. -/
def isVisible (c : Char) : Bool :=
  visible.contains c.toNat

/-- Marks that are drawn onto the character before them. -/
def extendsGrapheme (c : Char) : Bool :=
  extendingMarks.contains c.toNat

end RecordQuery.Unicode
