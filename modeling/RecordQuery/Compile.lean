/-
  RecordQuery.Compile

  Compiling query text. The whole text is recognized first; only then do its actions run, so a
  text that is no query builds nothing.
-/

import RecordQuery.Assembly.Basic
import RecordQuery.Grammar.Recognizer
import RecordQuery.Vocabulary.Standard

namespace RecordQuery

/-- Why a text does not compile. -/
inductive CompileError where
  /-- The text is no query. -/
  | malformed (error : SyntaxError)
  /-- The text is a query, but for a word that should be a numeral. -/
  | badValue (error : ValueError)
  /-- The actions of the text do not fit together. -/
  | broken (violation : ContractViolation)
deriving DecidableEq, Repr

namespace CompileError

/-- The wording of the error, which opens with its kind. -/
def message : CompileError → String
  | .malformed e => "syntax error: " ++ e.message
  | .badValue e => "value error: " ++ e.message
  | .broken e => e.message

/-- Whether the text is no query. -/
def isMalformed : CompileError → Bool
  | .malformed _ => true
  | _ => false

/-- Whether the text is a query with a word that should be a numeral. -/
def isBadValue : CompileError → Bool
  | .badValue _ => true
  | _ => false

end CompileError

/-- The query that actions build from nothing. -/
def assemble (actions : List Action) : Except ContractViolation (Except ValueError Query) := do
  let a ← ({} : Assembly).run actions
  a.finish

/-- Compiles query text in a vocabulary. -/
def compileWith (v : Vocabulary) (text : String) : Except CompileError Query :=
  match recognize v text with
  | .error e => .error (.malformed e)
  | .ok actions =>
    match assemble actions with
    | .error e => .error (.broken e)
    | .ok (.error e) => .error (.badValue e)
    | .ok (.ok q) => .ok q

/-- Compiles query text in the standard vocabulary. -/
def compile (text : String) : Except CompileError Query :=
  compileWith .standard text

/-- Whether the rendering of a query compiles to the query. -/
def Query.recompiles (q : Query) : Bool :=
  match compile q.render with
  | .ok r => r == q
  | .error _ => false

end RecordQuery
