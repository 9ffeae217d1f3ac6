/-
  RecordQuery.Action.Basic

  The steps that build a query. Recognizing a text yields a list of them in the order in which they
  have to run; running them builds the query on a stack of operands.
-/

import RecordQuery.Text.Listing

namespace RecordQuery

/-- A step that builds a query. It names the kind of operand that it takes off the stack. -/
inductive Action where
  /-- Puts a word, the content of a literal or an operator's symbol on the stack. -/
  | push (text : String)
  | setSelectOp
  | setDeleteOp
  | setSimpleSelector
  | setCompoundSelector
  | setFunctionSelector
  | setNamespace (name : String)
  | setCriteria
  | addValueCriteria
  | addRangeCriteria
  | addIndexCriteria
  | addCompoundCriteria
  | addNegatedCriteria
  | setOrder
  | addOrderSelector
  | setOrderDirection
  | setLimit (text : String)
deriving DecidableEq, Repr, Inhabited

namespace Action

/-- The name of an action, and its text if it carries one. -/
def parts : Action → String × Option String
  | .push text => ("push", some text)
  | .setSelectOp => ("set-select-op", none)
  | .setDeleteOp => ("set-delete-op", none)
  | .setSimpleSelector => ("set-simple-selector", none)
  | .setCompoundSelector => ("set-compound-selector", none)
  | .setFunctionSelector => ("set-function-selector", none)
  | .setNamespace name => ("set-namespace", some name)
  | .setCriteria => ("set-criteria", none)
  | .addValueCriteria => ("add-value-criteria", none)
  | .addRangeCriteria => ("add-range-criteria", none)
  | .addIndexCriteria => ("add-index-criteria", none)
  | .addCompoundCriteria => ("add-compound-criteria", none)
  | .addNegatedCriteria => ("add-negated-criteria", none)
  | .setOrder => ("set-order", none)
  | .addOrderSelector => ("add-order-selector", none)
  | .setOrderDirection => ("set-order-direction", none)
  | .setLimit text => ("set-limit", some text)

/-- The line that a listing of actions has for this one. -/
def line (a : Action) : String :=
  match a.parts with
  | (name, none) => name
  | (name, some text) => name ++ " " ++ Text.listed text

end Action

end RecordQuery
