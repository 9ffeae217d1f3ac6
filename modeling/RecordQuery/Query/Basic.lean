/-
  RecordQuery.Query.Basic

  Compiled queries: which records to select or delete, how to filter them, how to sort them, and
  how many to return. Every part renders to query text; compound criteria are always put in
  parentheses, so that the rendering does not depend on how tightly the operators bind.
-/

import RecordQuery.Query.Operator
import RecordQuery.Text.Numeral
import RecordQuery.Text.Quoted

namespace RecordQuery

/-! ## Selectors -/

/-- The fields of a record that a query is about. The field `*` is the whole record. -/
inductive Selector where
  | simple (field : String)
  /-- Several fields, in the order in which they are returned. -/
  | compound (fields : List String)
  /-- A function of one field. -/
  | function (name field : String)
deriving DecidableEq, Repr, Inhabited

namespace Selector

/-- The selector of every query that deletes. -/
def identity : Selector := .simple "id"

/-- The fields a selector names. -/
def fields : Selector → List String
  | .simple field => [field]
  | .compound fields => fields
  | .function _ field => [field]

/-- The query text of a selector. -/
def render : Selector → String
  | .simple field => field
  | .compound fields => String.intercalate ", " fields
  | .function name field => name ++ "(" ++ field ++ ")"

end Selector

/-! ## Criteria -/

/-- Conditions on the fields of a record. -/
inductive Criteria where
  | value (field : String) (op : ValueOp) (text : String)
  | range (field : String) (op : RangeOp) (bound : Int64)
  /-- The field holds the text as one of its members. -/
  | index (field : String) (text : String)
  | compound (op : BoolOp) (left right : Criteria)
  | negated (criteria : Criteria)
deriving DecidableEq, Repr, Inhabited

namespace Criteria

/-- The number of nodes of the tree. -/
def size : Criteria → Nat
  | .value _ _ _ | .range _ _ _ | .index _ _ => 1
  | .compound _ left right => 1 + left.size + right.size
  | .negated criteria => 1 + criteria.size

/-- The query text of criteria, with every pair of operands in parentheses. -/
def render : Criteria → String
  | .value field op text => field ++ " " ++ op.symbol ++ " " ++ Text.quote text
  | .range field op bound => field ++ " " ++ op.symbol ++ " " ++ Text.writeSigned bound
  | .index field text => field ++ " in " ++ Text.quote text
  | .compound op left right =>
    "(" ++ left.render ++ " " ++ op.symbol ++ " " ++ right.render ++ ")"
  | .negated criteria => "not " ++ criteria.render

end Criteria

/-! ## Sort keys -/

/-- A field to sort by, with the direction if one is written. -/
structure OrderSpec where
  field : String
  written : Option Direction := none
deriving DecidableEq, Repr, Inhabited

namespace OrderSpec

/-- The direction that counts: ascending unless another one is written. -/
def direction (spec : OrderSpec) : Direction :=
  spec.written.getD .ascending

/-- The query text of a sort key. -/
def render (spec : OrderSpec) : String :=
  match spec.written with
  | some d => spec.field ++ " " ++ d.symbol
  | none => spec.field

end OrderSpec

/-! ## Queries -/

/-- What a query does with the records it matches. -/
inductive Operation where
  | select
  | delete
deriving DecidableEq, Repr, Inhabited

namespace Operation

/-- All operations, in the order in which messages list them. -/
def all : List Operation := [.select, .delete]

/-- The name of an operation in a JSON document. -/
def name : Operation → String
  | .select => "select"
  | .delete => "delete"

end Operation

/-- A compiled query. -/
structure Query where
  operation : Operation
  /-- The namespace the records are taken from; all records if there is none. -/
  source : Option String := none
  selector : Selector
  criteria : Option Criteria := none
  /-- Sort keys, the most significant first. -/
  order : List OrderSpec := []
  limit : Option UInt64 := none
deriving DecidableEq, Repr, Inhabited

namespace Query

/-- Whether the query returns any number of records. -/
def isUnbounded (q : Query) : Bool :=
  q.limit.isNone

/-- A clause of the rendering, which is left out with the part it belongs to. -/
def clause (keyword : String) (part : Option String) : String :=
  match part with
  | some text => " " ++ keyword ++ " " ++ text
  | none => ""

/-- The sort keys of a rendering, if there are any. -/
def renderOrder (order : List OrderSpec) : Option String :=
  if order.isEmpty then none else some (String.intercalate ", " (order.map OrderSpec.render))

/-- The query text of a query. Clauses stand in the order of the grammar. -/
def render (q : Query) : String :=
  (match q.operation with
    | .select => "select " ++ q.selector.render
    | .delete => "delete")
  ++ clause "from" q.source
  ++ clause "where" (q.criteria.map Criteria.render)
  ++ clause "order by" (renderOrder q.order)
  ++ clause "limit" (q.limit.map Text.writeUnsigned)

end Query

end RecordQuery
