/-
  RecordQuery.Proofs.Draft

  Queries as they are written. A draft has the shape of a query, but the words that should be
  integers are not read yet: recognizing a text asks for no more. `Draft.read` reads these words
  from left to right and stops at the first one that is no numeral; `Draft.actions` lists the
  actions that build the query, operands before what takes them.
-/

import RecordQuery.Action.Basic
import RecordQuery.Assembly.Basic

namespace RecordQuery

/-! ## Conditions -/

/-- Criteria as they are written. -/
inductive Condition where
  | value (field : String) (op : ValueOp) (text : String)
  /-- The word should be an integer. -/
  | range (field : String) (op : RangeOp) (word : String)
  | index (field : String) (text : String)
  | compound (op : BoolOp) (left right : Condition)
  | negated (condition : Condition)
deriving DecidableEq, Repr

namespace Condition

/-- The actions that build the criteria. -/
def actions : Condition → List Action
  | .value field op text => [.push field, .push op.symbol, .push text, .addValueCriteria]
  | .range field op word => [.push field, .push op.symbol, .push word, .addRangeCriteria]
  | .index field text => [.push field, .push text, .addIndexCriteria]
  | .compound op left right =>
    left.actions ++ .push op.symbol :: right.actions ++ [.addCompoundCriteria]
  | .negated condition => condition.actions ++ [.addNegatedCriteria]

/-- The actions that join the operands of a chain to what stands before them. -/
def chainActions (op : BoolOp) (operands : List Condition) : List Action :=
  operands.flatMap fun c => .push op.symbol :: c.actions ++ [.addCompoundCriteria]

/-- The criteria, or the first word from the left that is no integer. -/
def read : Condition → Except ValueError Criteria
  | .value field op text => .ok (.value field op text)
  | .range field op word =>
    match Text.readSigned word with
    | .ok bound => .ok (.range field op bound)
    | .error fault => .error (.invalidRangeValue field word fault)
  | .index field text => .ok (.index field text)
  | .compound op left right => do
    let l ← left.read
    let r ← right.read
    return .compound op l r
  | .negated condition => do
    let c ← condition.read
    return .negated c

theorem chainActions_cons (op : BoolOp) (c : Condition) (cs : List Condition) :
    chainActions op (c :: cs) =
      .push op.symbol :: c.actions ++ .addCompoundCriteria :: chainActions op cs := by
  simp [chainActions]

/-- A chain groups to the left, so its actions join one operand after the other. -/
theorem actions_foldl (op : BoolOp) (first : Condition) (operands : List Condition) :
    (operands.foldl (compound op) first).actions =
      first.actions ++ chainActions op operands := by
  induction operands generalizing first with
  | nil => simp [chainActions]
  | cons c cs ih =>
      rw [List.foldl_cons, ih, chainActions_cons]
      simp [actions]

end Condition

/-! ## Drafts -/

/-- The actions that set a selector. -/
def Selector.actions : Selector → List Action
  | .simple field => [.push field, .setSimpleSelector]
  | .compound fields => fields.map .push ++ [.setCompoundSelector]
  | .function name field => [.push name, .push field, .setFunctionSelector]

/-- The actions that put a sort key on the stack. -/
def OrderSpec.actions (spec : OrderSpec) : List Action :=
  .push spec.field :: .addOrderSelector ::
    match spec.written with
    | some d => [.push d.symbol, .setOrderDirection]
    | none => []

/-- A query as it is written. -/
inductive Draft where
  | select (selector : Selector) (source : Option String) (filter : Option Condition)
    (order : List OrderSpec) (limit : Option String)
  | delete (source : Option String) (filter : Option Condition) (limit : Option String)
deriving DecidableEq, Repr

namespace Draft

/-- The actions of a clause that names a namespace. -/
def sourceActions (source : Option String) : List Action :=
  match source with
  | some name => [.setNamespace name]
  | none => []

/-- The actions of a clause that holds criteria. -/
def filterActions (filter : Option Condition) : List Action :=
  match filter with
  | some condition => condition.actions ++ [.setCriteria]
  | none => []

/-- The actions of a clause that sorts. -/
def orderActions (order : List OrderSpec) : List Action :=
  if order = [] then [] else order.flatMap OrderSpec.actions ++ [.setOrder]

/-- The actions of a clause that bounds the number of results. -/
def limitActions (limit : Option String) : List Action :=
  match limit with
  | some word => [.setLimit word]
  | none => []

/-- The actions that build the query. -/
def actions : Draft → List Action
  | .select selector source filter order limit =>
    .setSelectOp :: selector.actions ++ sourceActions source ++ filterActions filter
      ++ orderActions order ++ limitActions limit
  | .delete source filter limit =>
    .setDeleteOp :: sourceActions source ++ filterActions filter ++ limitActions limit

/-- The criteria of a clause, if there is one. -/
def readFilter (filter : Option Condition) : Except ValueError (Option Criteria) :=
  match filter with
  | some condition => some <$> condition.read
  | none => .ok none

/-- The number that a clause gives, if there is one. -/
def readLimit (limit : Option String) : Except ValueError (Option UInt64) :=
  match limit with
  | some word =>
    match Text.readUnsigned word with
    | .ok n => .ok (some n)
    | .error fault => .error (.invalidLimit word fault)
  | none => .ok none

/-- The query, or the first word from the left that is no numeral. -/
def read : Draft → Except ValueError Query
  | .select selector source filter order limit => do
    let criteria ← readFilter filter
    let limit ← readLimit limit
    return { operation := .select, source, selector, criteria, order, limit }
  | .delete source filter limit => do
    let criteria ← readFilter filter
    let limit ← readLimit limit
    return { operation := .delete, source, selector := .identity, criteria, limit }

end Draft

end RecordQuery
