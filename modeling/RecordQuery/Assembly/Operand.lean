/-
  RecordQuery.Assembly.Operand

  The operands from which a query is assembled, and the stack they wait on. Actions name the kind
  of operand they take; a stack that does not hold it breaks the contract between whoever makes the
  actions and whoever runs them.
-/

import RecordQuery.Query.Basic

namespace RecordQuery

/-- A value that waits on the stack. -/
inductive Operand where
  /-- A word, the content of a string, or the symbol of an operator. -/
  | literal (text : String)
  | selector (selector : Selector)
  | criteria (criteria : Criteria)
  | orderSpec (spec : OrderSpec)
deriving DecidableEq, Repr, Inhabited

/-- The kinds of operands. -/
inductive OperandKind where
  | literal
  | selector
  | criteria
  | orderSpec
deriving DecidableEq, Repr

/-- The words that a message uses for a kind of operands. -/
def OperandKind.describe : OperandKind → String
  | .literal => "literal"
  | .selector => "selector"
  | .criteria => "criteria"
  | .orderSpec => "order spec"

namespace Operand

/-- The kind that an operand belongs to. -/
def kind : Operand → OperandKind
  | .literal _ => .literal
  | .selector _ => .selector
  | .criteria _ => .criteria
  | .orderSpec _ => .orderSpec

/-- The query text of an operand; a literal is shown without quotes. -/
def render : Operand → String
  | .literal text => text
  | .selector s => s.render
  | .criteria c => c.render
  | .orderSpec o => o.render

end Operand

/-- The operators and directions that are written as literals. -/
inductive SymbolClass where
  | valueOp
  | rangeOp
  | boolOp
  | direction
deriving DecidableEq, Repr

/-- The words that a message uses for a class of symbols. -/
def SymbolClass.describe : SymbolClass → String
  | .valueOp => "value operator"
  | .rangeOp => "range operator"
  | .boolOp => "boolean operator"
  | .direction => "direction"

/-- Actions that do not fit the operands they find. -/
inductive ContractViolation where
  /-- An operand is missing: one of the kind `expected`, or any. -/
  | stackUnderflow (expected : Option OperandKind)
  | typeMismatch (expected found : OperandKind)
  | unknownSymbol (wanted : SymbolClass) (symbol : String)
  | missingSelector
  | leftoverOperands (depth : Nat)
deriving DecidableEq, Repr

namespace ContractViolation

/-- The words for an operand that an action expects. -/
def describeExpected : Option OperandKind → String
  | some kind => kind.describe
  | none => "operand"

/-- What an action found instead of its operands. -/
def cause : ContractViolation → String
  | .stackUnderflow expected =>
    "operand stack underflow: expected " ++ describeExpected expected
  | .typeMismatch expected found =>
    "operand type mismatch: expected " ++ expected.describe ++ ", found " ++ found.describe
  | .unknownSymbol wanted symbol =>
    "unknown " ++ wanted.describe ++ " token '" ++ symbol ++ "' on operand stack"
  | .missingSelector => "query finished without a selector"
  | .leftoverOperands depth =>
    toString depth ++ " operand(s) left on the stack after the last action"

/-- The wording of a broken contract. -/
def message (e : ContractViolation) : String :=
  "contract violation: " ++ e.cause

end ContractViolation

/-- Operands that wait to be taken, the top one first. -/
abbrev OperandStack := List Operand

namespace OperandStack

/-- Takes the top operand. -/
def pop : OperandStack → Except ContractViolation (Operand × OperandStack)
  | [] => .error (.stackUnderflow none)
  | x :: below => .ok (x, below)

/-- The text of an operand that has to be a literal. -/
def asLiteral : Operand → Except ContractViolation String
  | .literal text => .ok text
  | x => .error (.typeMismatch .literal x.kind)

/-- The criteria of an operand that has to be criteria. -/
def asCriteria : Operand → Except ContractViolation Criteria
  | .criteria c => .ok c
  | x => .error (.typeMismatch .criteria x.kind)

/-- The sort key of an operand that has to be one. -/
def asOrderSpec : Operand → Except ContractViolation OrderSpec
  | .orderSpec o => .ok o
  | x => .error (.typeMismatch .orderSpec x.kind)

/-- Takes the top operand, which has to be a literal. -/
def popLiteral : OperandStack → Except ContractViolation (String × OperandStack)
  | [] => .error (.stackUnderflow (some .literal))
  | x :: below => (asLiteral x).map (·, below)

/-- Takes the top operand, which has to be criteria. -/
def popCriteria : OperandStack → Except ContractViolation (Criteria × OperandStack)
  | [] => .error (.stackUnderflow (some .criteria))
  | x :: below => (asCriteria x).map (·, below)

/-- Takes the top operand, which has to be a sort key. -/
def popOrderSpec : OperandStack → Except ContractViolation (OrderSpec × OperandStack)
  | [] => .error (.stackUnderflow (some .orderSpec))
  | x :: below => (asOrderSpec x).map (·, below)

/-- Takes every operand, all of which have to be literals, and gives them in order of arrival. -/
def drainLiterals (s : OperandStack) : Except ContractViolation (List String) :=
  (s.mapM asLiteral).map List.reverse

/-- Takes every operand, all of which have to be sort keys, and gives them in order of arrival. -/
def drainOrderSpecs (s : OperandStack) : Except ContractViolation (List OrderSpec) :=
  (s.mapM asOrderSpec).map List.reverse

/-- Changes the sort key on top. -/
def modifyOrderSpec (f : OrderSpec → OrderSpec) (s : OperandStack) :
    Except ContractViolation OperandStack :=
  s.popOrderSpec.map fun (spec, below) => .orderSpec (f spec) :: below

/-- Takes the symbol of an operator, as `ofSymbol` reads it. -/
def popSymbol {α : Type} (wanted : SymbolClass) (ofSymbol : String → Except UnknownOperator α)
    (s : OperandStack) : Except ContractViolation (α × OperandStack) := do
  let (symbol, below) ← s.popLiteral
  match ofSymbol symbol with
  | .ok op => return (op, below)
  | .error _ => throw (.unknownSymbol wanted symbol)

end OperandStack

end RecordQuery
