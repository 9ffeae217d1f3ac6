/-
  RecordQuery.Unicode.FoldCase

  Characters that differ only in case.
-/

import RecordQuery.Unicode.CaseFolding

namespace RecordQuery.Unicode

/-- The simple case folding of a character. -/
def foldCase (c : Char) : Char :=
  foldingShifts.apply c

/-- The characters that fold to what `c` folds to, `c` among them. -/
def caseVariants (c : Char) : List Char :=
  let folded := foldCase c
  folded :: foldingShifts.sources folded

end RecordQuery.Unicode
