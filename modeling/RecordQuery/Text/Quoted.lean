/-
  RecordQuery.Text.Quoted

  String literals of the query language. A backslash escapes the quotes, itself, and the three
  whitespace characters that have a letter; writing uses double quotes only.
-/

namespace RecordQuery.Text

/-- What an escape stands for, by the character behind the backslash. -/
def unescape? : Char → Option Char
  | 'n' => some '\n'
  | 't' => some '\t'
  | 'r' => some '\r'
  | '"' => some '"'
  | '\'' => some '\''
  | '\\' => some '\\'
  | _ => none

/-- How a character is written between double quotes. -/
def escape : Char → List Char
  | '"' => ['\\', '"']
  | '\\' => ['\\', '\\']
  | '\n' => ['\\', 'n']
  | '\t' => ['\\', 't']
  | '\r' => ['\\', 'r']
  | c => [c]

/-- The string literal that stands for `s`. -/
def quote (s : String) : String :=
  String.ofList ('"' :: (s.toList.flatMap escape ++ ['"']))

end RecordQuery.Text
