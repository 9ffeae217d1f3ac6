/-
  RecordQuery.Grammar.SyntaxError

  Why a text is no query. Each error says what was found and where.
-/

import RecordQuery.Token.Basic

namespace RecordQuery

/-- What could have stood where something else was found. Keywords are given by their spelling. -/
inductive Expectation where
  | token (token : Token)
  | keyword (spelling : String)
  | operation (select delete : String)
  | comparison (membership : String)
  | selector
  | fieldName
  | namespaceName
  | literal
  | integer
  | limit
deriving DecidableEq, Repr

/-- The words that a message uses for what was expected. -/
def Expectation.describe : Expectation → String
  | .token t => t.describe
  | .keyword k => "'" ++ k ++ "'"
  | .operation select delete => "'" ++ select ++ "' or '" ++ delete ++ "'"
  | .comparison membership => "comparison operator or '" ++ membership ++ "'"
  | .selector => "selector"
  | .fieldName => "field name"
  | .namespaceName => "namespace"
  | .literal => "literal value"
  | .integer => "integer"
  | .limit => "limit"

/-- Why a text is no query, with the position of the token that shows it. -/
inductive SyntaxError where
  | lexical (error : LexicalError)
  | unexpected (expected : Expectation) (found : Token) (position : Position)
  | invalidField (name : String) (position : Position)
  | invalidFunction (name : String) (position : Position)
  | invalidNamespace (name : String) (position : Position)
  /-- One more `not` or parenthesis than `limit` allows. -/
  | nestingTooDeep (limit : Nat) (position : Position)
deriving DecidableEq, Repr

namespace SyntaxError

/-- The position of the token or character at fault. -/
def position : SyntaxError → Position
  | .lexical e => e.position
  | .unexpected _ _ p => p
  | .invalidField _ p => p
  | .invalidFunction _ p => p
  | .invalidNamespace _ p => p
  | .nestingTooDeep _ p => p

/-- The wording of the error, which ends with its position. -/
def message : SyntaxError → String
  | .lexical e => e.message
  | .unexpected expected found p =>
    s!"expected {expected.describe}, found {found.describe} at {p.describe}"
  | .invalidField name p => s!"'{name}' is not a valid field name at {p.describe}"
  | .invalidFunction name p => s!"'{name}' is not a valid function name at {p.describe}"
  | .invalidNamespace name p => s!"'{name}' is not a valid namespace at {p.describe}"
  | .nestingTooDeep limit p =>
    s!"criteria nested more than {limit} levels deep at {p.describe}"

end SyntaxError

end RecordQuery
