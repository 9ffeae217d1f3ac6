/-
  RecordQuery.Unicode.RangeTable

  Sets of code points, written as ascending lists of closed ranges.
-/

namespace RecordQuery.Unicode

/-- Closed ranges of code points, disjoint and in ascending order. -/
abbrev RangeTable := List (Nat × Nat)

/-- Whether some range holds `n`. The search ends at the first range that starts above `n`. -/
def RangeTable.contains : RangeTable → Nat → Bool
  | [], _ => false
  | (first, last) :: rest, n => first ≤ n && (n ≤ last || RangeTable.contains rest n)

end RecordQuery.Unicode
