/-
  RecordQuery.Token.Basic

  The tokens of query text, and the reasons why characters form none.
-/

import RecordQuery.Text.Position

namespace RecordQuery

/-- A token. Names, numbers and keywords are all words; a vocabulary tells the keywords apart. -/
inductive Token where
  | word (text : String)
  /-- A string literal, by its content. -/
  | literal (content : String)
  | equal
  | notEqual
  | less
  | greater
  | lessEqual
  | greaterEqual
  | openParen
  | closeParen
  | comma
  | endOfText
deriving DecidableEq, Repr, Inhabited

/-- The words an error message uses for a token. The content of a literal is shown unescaped. -/
def Token.describe : Token → String
  | .word text => "'" ++ text ++ "'"
  | .literal content => "string \"" ++ content ++ "\""
  | .equal => "'='"
  | .notEqual => "'!='"
  | .less => "'<'"
  | .greater => "'>'"
  | .lessEqual => "'<='"
  | .greaterEqual => "'>='"
  | .openParen => "'('"
  | .closeParen => "')'"
  | .comma => "','"
  | .endOfText => "end of input"

/-- A token with the position of its first character. -/
structure Lexeme where
  token : Token
  start : Position
deriving DecidableEq, Repr, Inhabited

/-- Characters that form no token. The position of a bad escape is that of its backslash; the
    position of an unterminated string is that of its opening quote. -/
inductive LexicalError where
  | unexpectedChar (found : Char) (position : Position)
  | loneBang (position : Position)
  | unterminatedString (position : Position)
  | invalidEscape (escaped : Char) (position : Position)
deriving DecidableEq, Repr

namespace LexicalError

/-- The position that the error tells. -/
def position : LexicalError → Position
  | .unexpectedChar _ p => p
  | .loneBang p => p
  | .unterminatedString p => p
  | .invalidEscape _ p => p

/-- The wording of the error, with its position. -/
def message : LexicalError → String
  | .unexpectedChar c p => s!"unexpected character '{c}' at {p.describe}"
  | .loneBang p => s!"unexpected '!' at {p.describe} (did you mean '!='?)"
  | .unterminatedString p => s!"unterminated string starting at {p.describe}"
  | .invalidEscape c p => s!"invalid escape sequence '\\{c}' at {p.describe}"

end LexicalError

end RecordQuery
