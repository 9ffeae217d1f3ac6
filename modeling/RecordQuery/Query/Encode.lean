/-
  RecordQuery.Query.Encode

  Queries as JSON. Parts that a query does not have are left out.
-/

import RecordQuery.Json.Printer
import RecordQuery.Query.Basic

namespace RecordQuery

/-- The JSON of a selector, whose kind is a member of it. -/
def Selector.toJson : Selector → Json
  | .simple field => .object [("kind", .string "simple"), ("field", .string field)]
  | .compound fields =>
    .object [("kind", .string "compound"), ("fields", .array (fields.map .string))]
  | .function name field =>
    .object [("kind", .string "function"), ("name", .string name), ("field", .string field)]

/-- The JSON of criteria, whose kind is a member of them. -/
def Criteria.toJson : Criteria → Json
  | .value field op text =>
    .object [("kind", .string "value"), ("field", .string field), ("op", .string op.name),
      ("value", .string text)]
  | .range field op bound =>
    .object [("kind", .string "range"), ("field", .string field), ("op", .string op.name),
      ("value", .integer bound.toInt)]
  | .index field text =>
    .object [("kind", .string "index"), ("field", .string field), ("value", .string text)]
  | .compound op left right =>
    .object [("kind", .string "compound"), ("op", .string op.name), ("left", left.toJson),
      ("right", right.toJson)]
  | .negated criteria =>
    .object [("kind", .string "negated"), ("criteria", criteria.toJson)]

/-- The JSON of a sort key. A direction is there only if one is written. -/
def OrderSpec.toJson (spec : OrderSpec) : Json :=
  .object (("field", .string spec.field)
    :: Json.optional "dir" (spec.written.map fun d => .string d.name))

/-- The sort keys of a query, if it has any. -/
def OrderSpec.listToJson? (order : List OrderSpec) : Option Json :=
  if order.isEmpty then none else some (.array (order.map OrderSpec.toJson))

/-- The JSON of a query. -/
def Query.toJson (q : Query) : Json :=
  .object
    (("op", .string q.operation.name)
      :: Json.optional "namespace" (q.source.map .string)
      ++ [("selector", q.selector.toJson)]
      ++ Json.optional "criteria" (q.criteria.map Criteria.toJson)
      ++ Json.optional "order" (OrderSpec.listToJson? q.order)
      ++ Json.optional "limit" (q.limit.map fun n => .integer n.toNat))

/-- The JSON text of a query, without any blanks. -/
def Query.toJsonText (q : Query) : String :=
  q.toJson.compact

/-- The JSON text of a query, with every item on a line of its own. -/
def Query.toIndentedJsonText (q : Query) : String :=
  q.toJson.indented

end RecordQuery
