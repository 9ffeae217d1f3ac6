/-
  RecordQuery.Text.Trim

  Removing whitespace from the ends of a text.
-/

import RecordQuery.Unicode.Class

namespace RecordQuery.Text

/-- The characters without whitespace at their end. -/
def trimEnd (cs : List Char) : List Char :=
  (cs.reverse.dropWhile Unicode.isWhiteSpace).reverse

/-- The text without whitespace at its ends. -/
def trim (s : String) : String :=
  String.ofList (trimEnd (s.toList.dropWhile Unicode.isWhiteSpace))

end RecordQuery.Text
