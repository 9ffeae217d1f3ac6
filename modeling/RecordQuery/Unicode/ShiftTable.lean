/-
  RecordQuery.Unicode.ShiftTable

  Maps from code points to code points, written as ranges whose members all move by one distance.
-/

namespace RecordQuery.Unicode

/-- The code points `first, first + step, …, last`, each of which moves by `distance`. -/
structure Shift where
  first : Nat
  last : Nat
  step : Nat
  distance : Int

/-- Whether the shift moves `n`. -/
def Shift.moves (s : Shift) (n : Nat) : Bool :=
  s.first ≤ n && n ≤ s.last && (n - s.first) % s.step == 0

/-- The character `distance` code points away from `n`. -/
def Shift.target (s : Shift) (n : Nat) : Char :=
  Char.ofNat (n + s.distance).toNat

/-- Shifts of disjoint sets of code points, in ascending order of `first`. -/
abbrev ShiftTable := List Shift

/-- The character that `c` moves to; a character that no shift moves stays. -/
def ShiftTable.apply : ShiftTable → Char → Char
  | [], c => c
  | s :: rest, c =>
    if c.toNat < s.first then c
    else if s.moves c.toNat then s.target c.toNat
    else ShiftTable.apply rest c

/-- The characters, other than `c` itself, that move to `c`. -/
def ShiftTable.sources (table : ShiftTable) (c : Char) : List Char :=
  table.filterMap fun s =>
    let source := ((c.toNat : Int) - s.distance).toNat
    if s.moves source && s.target source == c then some (Char.ofNat source) else none

end RecordQuery.Unicode
