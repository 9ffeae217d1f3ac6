/-
  RecordQuery.Assembly.Basic

  Running actions. An assembly holds the operands on the stack, the parts of the query that are
  finished, and the first numeral that could not be read. A bad numeral counts as zero until the
  end, so that the actions behind it find their operands; the query is then given up for its error.
-/

import RecordQuery.Action.Basic
import RecordQuery.Assembly.FirstError
import RecordQuery.Assembly.Operand

namespace RecordQuery

open Text (NumeralFault)

/-- A word that is no numeral of the wanted type. -/
inductive ValueError where
  | invalidRangeValue (field value : String) (fault : NumeralFault)
  | invalidLimit (value : String) (fault : NumeralFault)
deriving DecidableEq, Repr

/-- The wording of the error: the word, where it stands, and what is wrong with it. -/
def ValueError.message : ValueError → String
  | .invalidRangeValue field value fault =>
    s!"invalid integer '{value}' in range criteria on '{field}': {fault.message}"
  | .invalidLimit value fault => s!"invalid limit '{value}': {fault.message}"

/-- A query under construction: the operands that wait, the parts that are finished, and the first
    word that is no numeral. -/
structure Assembly where
  stack : OperandStack := []
  operation : Operation := .select
  source : Option String := none
  selector : Option Selector := none
  criteria : Option Criteria := none
  order : List OrderSpec := []
  limit : Option UInt64 := none
  errors : FirstError ValueError := {}
deriving DecidableEq, Repr

namespace Assembly

/-- Puts an operand on top of the stack. -/
def push (a : Assembly) (x : Operand) : Assembly :=
  { a with stack := x :: a.stack }

/-- Takes a field. -/
def setSimpleSelector (a : Assembly) : Except ContractViolation Assembly := do
  let (field, stack) ← a.stack.popLiteral
  return { a with stack, selector := some (.simple field) }

/-- Takes the whole stack, which holds fields. -/
def setCompoundSelector (a : Assembly) : Except ContractViolation Assembly := do
  let fields ← a.stack.drainLiterals
  return { a with stack := [], selector := some (.compound fields) }

/-- Takes a field and, below it, the name of a function. -/
def setFunctionSelector (a : Assembly) : Except ContractViolation Assembly := do
  let (field, stack) ← a.stack.popLiteral
  let (name, stack) ← stack.popLiteral
  return { a with stack, selector := some (.function name field) }

/-- Takes criteria. -/
def setCriteria (a : Assembly) : Except ContractViolation Assembly := do
  let (criteria, stack) ← a.stack.popCriteria
  return { a with stack, criteria := some criteria }

/-- Takes a text, an operator and a field, and puts criteria in their place. -/
def addValueCriteria (a : Assembly) : Except ContractViolation Assembly := do
  let (text, stack) ← a.stack.popLiteral
  let (op, stack) ← stack.popSymbol .valueOp ValueOp.ofSymbol
  let (field, stack) ← stack.popLiteral
  return { a with stack := .criteria (.value field op text) :: stack }

/-- Takes a numeral, an operator and a field, and puts criteria in their place. -/
def addRangeCriteria (a : Assembly) : Except ContractViolation Assembly := do
  let (text, stack) ← a.stack.popLiteral
  let (op, stack) ← stack.popSymbol .rangeOp RangeOp.ofSymbol
  let (field, stack) ← stack.popLiteral
  match Text.readSigned text with
  | .ok bound => return { a with stack := .criteria (.range field op bound) :: stack }
  | .error fault =>
    return { a with
      stack := .criteria (.range field op 0) :: stack
      errors := a.errors.record (.invalidRangeValue field text fault) }

/-- Takes a text and a field, and puts criteria in their place. -/
def addIndexCriteria (a : Assembly) : Except ContractViolation Assembly := do
  let (text, stack) ← a.stack.popLiteral
  let (field, stack) ← stack.popLiteral
  return { a with stack := .criteria (.index field text) :: stack }

/-- Takes the right criteria, an operator and the left criteria, and puts both together. -/
def addCompoundCriteria (a : Assembly) : Except ContractViolation Assembly := do
  let (right, stack) ← a.stack.popCriteria
  let (op, stack) ← stack.popSymbol .boolOp BoolOp.ofSymbol
  let (left, stack) ← stack.popCriteria
  return { a with stack := .criteria (.compound op left right) :: stack }

/-- Negates the criteria on top. -/
def addNegatedCriteria (a : Assembly) : Except ContractViolation Assembly := do
  let (criteria, stack) ← a.stack.popCriteria
  return { a with stack := .criteria (.negated criteria) :: stack }

/-- Takes the whole stack, which holds sort keys. -/
def setOrder (a : Assembly) : Except ContractViolation Assembly := do
  let order ← a.stack.drainOrderSpecs
  return { a with stack := [], order }

/-- Takes a field and puts a sort key in its place. -/
def addOrderSelector (a : Assembly) : Except ContractViolation Assembly := do
  let (field, stack) ← a.stack.popLiteral
  return { a with stack := .orderSpec { field } :: stack }

/-- Takes a direction and gives it to the sort key below. -/
def setOrderDirection (a : Assembly) : Except ContractViolation Assembly := do
  let (direction, stack) ← a.stack.popSymbol .direction Direction.ofSymbol
  let stack ← stack.modifyOrderSpec fun spec => { spec with written := some direction }
  return { a with stack }

/-- Takes the number of results from a numeral. -/
def setLimit (a : Assembly) (text : String) : Assembly :=
  match Text.readUnsigned text with
  | .ok limit => { a with limit := some limit }
  | .error fault =>
    { a with limit := some 0, errors := a.errors.record (.invalidLimit text fault) }

/-- Runs one action. -/
def apply (a : Assembly) : Action → Except ContractViolation Assembly
  | .push text => .ok (a.push (.literal text))
  | .setSelectOp => .ok { a with operation := .select }
  | .setDeleteOp => .ok { a with operation := .delete, selector := some .identity }
  | .setSimpleSelector => a.setSimpleSelector
  | .setCompoundSelector => a.setCompoundSelector
  | .setFunctionSelector => a.setFunctionSelector
  | .setNamespace name => .ok { a with source := some name }
  | .setCriteria => a.setCriteria
  | .addValueCriteria => a.addValueCriteria
  | .addRangeCriteria => a.addRangeCriteria
  | .addIndexCriteria => a.addIndexCriteria
  | .addCompoundCriteria => a.addCompoundCriteria
  | .addNegatedCriteria => a.addNegatedCriteria
  | .setOrder => a.setOrder
  | .addOrderSelector => a.addOrderSelector
  | .setOrderDirection => a.setOrderDirection
  | .setLimit text => .ok (a.setLimit text)

/-- Runs actions in order. -/
def run (a : Assembly) (actions : List Action) : Except ContractViolation Assembly :=
  actions.foldlM apply a

/-- The finished query, or the first numeral that could not be read. -/
def finish (a : Assembly) : Except ContractViolation (Except ValueError Query) :=
  if a.stack.isEmpty then
    match a.selector with
    | none => .error .missingSelector
    | some selector =>
      .ok (a.errors.toExcept {
        operation := a.operation
        source := a.source
        selector := selector
        criteria := a.criteria
        order := a.order
        limit := a.limit })
  else .error (.leftoverOperands a.stack.length)

theorem run_append (a : Assembly) (xs ys : List Action) :
    a.run (xs ++ ys) = a.run xs >>= fun b => b.run ys := by
  simp [run, List.foldlM_append]

end Assembly

end RecordQuery
