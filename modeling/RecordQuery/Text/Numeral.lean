/-
  RecordQuery.Text.Numeral

  Decimal numerals of 64-bit integers: an optional sign and ASCII digits, read from left to right.
  The first character that is no digit, or that takes the value out of range, decides the fault.
-/

namespace RecordQuery.Text

/-- Why a text is not a numeral of the wanted type. -/
inductive NumeralFault where
  | empty
  | invalidDigit
  | tooLarge
  | tooSmall
deriving DecidableEq, Repr

/-- The wording of the fault. -/
def NumeralFault.message : NumeralFault → String
  | .empty => "cannot parse integer from empty string"
  | .invalidDigit => "invalid digit found in string"
  | .tooLarge => "number too large to fit in target type"
  | .tooSmall => "number too small to fit in target type"

/-- Reads digits onto the value `acc`. A value above `bound` is the fault `beyond`. -/
def readDigits (bound : Nat) (beyond : NumeralFault) (acc : Nat) :
    List Char → Except NumeralFault Nat
  | [] => .ok acc
  | c :: cs =>
    if c.isDigit then
      let value := 10 * acc + (c.toNat - '0'.toNat)
      if value ≤ bound then readDigits bound beyond value cs else .error beyond
    else .error .invalidDigit

/-- The largest unsigned value of 64 bits. -/
def maxUnsigned : Nat := 0xFFFF_FFFF_FFFF_FFFF

/-- The largest signed value of 64 bits. -/
def maxSigned : Nat := 0x7FFF_FFFF_FFFF_FFFF

/-- Reads an unsigned numeral. A plus sign is allowed in front of digits. -/
def readUnsigned (s : String) : Except NumeralFault UInt64 :=
  match s.toList with
  | [] => .error .empty
  | ['+'] => .error .invalidDigit
  | '+' :: cs => (readDigits maxUnsigned .tooLarge 0 cs).map UInt64.ofNat
  | cs => (readDigits maxUnsigned .tooLarge 0 cs).map UInt64.ofNat

/-- Reads a signed numeral. A plus or minus sign is allowed in front of digits. -/
def readSigned (s : String) : Except NumeralFault Int64 :=
  match s.toList with
  | [] => .error .empty
  | ['+'] | ['-'] => .error .invalidDigit
  | '+' :: cs => (readDigits maxSigned .tooLarge 0 cs).map Int64.ofNat
  | '-' :: cs => (readDigits (maxSigned + 1) .tooSmall 0 cs).map fun n => Int64.ofInt (-n)
  | cs => (readDigits maxSigned .tooLarge 0 cs).map Int64.ofNat

/-- The numeral of a signed value, without a plus sign. -/
def writeSigned (n : Int64) : String :=
  toString n.toInt

/-- The numeral of an unsigned value. -/
def writeUnsigned (n : UInt64) : String :=
  toString n.toNat

end RecordQuery.Text
