/-
  RecordQuery.Query.Decode

  Queries from JSON text. Members may stand in any order, and those that no query has are skipped;
  instead of an object, an array may hold the parts in order.
-/

import RecordQuery.Json.Decoder
import RecordQuery.Json.Reader
import RecordQuery.Query.Basic

namespace RecordQuery

open Json

/-! ## Selectors -/

/-- The kinds of selectors, with the fields that have been read. -/
inductive SelectorParts where
  | simple (field : Option String)
  | compound (fields : Option (List String))
  | function (name field : Option String)

namespace SelectorParts

/-- Each kind without any fields. -/
def all : List SelectorParts := [.simple none, .compound none, .function none none]

/-- The tag of a kind. -/
def kind : SelectorParts → String
  | .simple _ => "simple"
  | .compound _ => "compound"
  | .function _ _ => "function"

/-- The fields of a kind, in order. -/
def names : SelectorParts → List String
  | .simple _ => ["field"]
  | .compound _ => ["fields"]
  | .function _ _ => ["name", "field"]

/-- Adds a field. A field that the kind does not have is skipped. -/
def add (p : SelectorParts) (key : String) (j : Json) : Decoded SelectorParts :=
  match p, key with
  | .simple field, "field" => do
    unset field "field"
    return .simple (← j.asString)
  | .compound fields, "fields" => do
    unset fields "fields"
    return .compound (← j.asStrings)
  | .function name field, "name" => do
    unset name "name"
    return .function (← j.asString) field
  | .function name field, "field" => do
    unset field "field"
    return .function name (← j.asString)
  | p, _ => return p

/-- The selector, once every field of its kind has been read. -/
def finish : SelectorParts → Decoded Selector
  | .simple field => do return .simple (← required field "field")
  | .compound fields => do return .compound (← required fields "fields")
  | .function name field => do
    let name ← required name "name"
    return .function name (← required field "field")

/-- Adds values as the fields of the given names, which have to be as many. -/
def addItems (p : SelectorParts) : List String → List Json → Decoded SelectorParts
  | [], [] => .ok p
  | name :: names, j :: items => do (← p.add name j).addItems names items
  | _, _ => .error .invalidLength

end SelectorParts

/-- A selector inside of `depth` arrays and objects. -/
def Selector.ofDoc (depth : Nat) (d : Doc) : Decoded Selector := do
  match ← d.tagged SelectorParts.all SelectorParts.kind depth with
  | (p, .named members) => (← members.foldlM (fun p (key, j) => p.add key j) p).finish
  | (p, .positional items) => (← p.addItems p.names items).finish

/-! ## Criteria -/

/-- The kinds of criteria, with the fields that have been read. -/
inductive CriteriaParts where
  | value (field : Option String) (op : Option ValueOp) (text : Option String)
  | range (field : Option String) (op : Option RangeOp) (bound : Option Int64)
  | index (field text : Option String)
  | compound (op : Option BoolOp) (left right : Option Criteria)
  | negated (criteria : Option Criteria)

namespace CriteriaParts

/-- Each kind without any fields. -/
def all : List CriteriaParts :=
  [.value none none none, .range none none none, .index none none, .compound none none none,
    .negated none]

/-- The tag of a kind. -/
def kind : CriteriaParts → String
  | .value _ _ _ => "value"
  | .range _ _ _ => "range"
  | .index _ _ => "index"
  | .compound _ _ _ => "compound"
  | .negated _ => "negated"

/-- The fields of a kind, in order. -/
def names : CriteriaParts → List String
  | .value _ _ _ => ["field", "op", "value"]
  | .range _ _ _ => ["field", "op", "value"]
  | .index _ _ => ["field", "value"]
  | .compound _ _ _ => ["op", "left", "right"]
  | .negated _ => ["criteria"]

/-- Adds a field, whose value is `j`, and `nested` if it holds criteria. A field that the kind does
    not have is skipped. -/
def add (p : CriteriaParts) (key : String) (j : Json) (nested : Decoded Criteria) :
    Decoded CriteriaParts :=
  match p, key with
  | .value field op text, "field" => do
    unset field "field"
    return .value (← j.asString) op text
  | .value field op text, "op" => do
    unset op "op"
    return .value field (← j.asVariant ValueOp.all ValueOp.name) text
  | .value field op text, "value" => do
    unset text "value"
    return .value field op (← j.asString)
  | .range field op bound, "field" => do
    unset field "field"
    return .range (← j.asString) op bound
  | .range field op bound, "op" => do
    unset op "op"
    return .range field (← j.asVariant RangeOp.all RangeOp.name) bound
  | .range field op bound, "value" => do
    unset bound "value"
    return .range field op (← j.asSigned)
  | .index field text, "field" => do
    unset field "field"
    return .index (← j.asString) text
  | .index field text, "value" => do
    unset text "value"
    return .index field (← j.asString)
  | .compound op left right, "op" => do
    unset op "op"
    return .compound (← j.asVariant BoolOp.all BoolOp.name) left right
  | .compound op left right, "left" => do
    unset left "left"
    return .compound op (← nested) right
  | .compound op left right, "right" => do
    unset right "right"
    return .compound op left (← nested)
  | .negated criteria, "criteria" => do
    unset criteria "criteria"
    return .negated (← nested)
  | p, _ => return p

/-- The criteria, once every field of their kind has been read. -/
def finish : CriteriaParts → Decoded Criteria
  | .value field op text => do
    let field ← required field "field"
    let op ← required op "op"
    return .value field op (← required text "value")
  | .range field op bound => do
    let field ← required field "field"
    let op ← required op "op"
    return .range field op (← required bound "value")
  | .index field text => do
    let field ← required field "field"
    return .index field (← required text "value")
  | .compound op left right => do
    let op ← required op "op"
    let left ← required left "left"
    return .compound op left (← required right "right")
  | .negated criteria => do return .negated (← required criteria "criteria")

end CriteriaParts

namespace Criteria

mutual

/-- Criteria that are part of other criteria. -/
def ofJson : Json → Decoded Criteria
  | .object members => do
    let p ← tagAmong CriteriaParts.all CriteriaParts.kind none members
    ofMembers p members
  | .array [] => .error (.missingField tagName)
  | .array (first :: items) => do
    let p ← first.asTag CriteriaParts.all CriteriaParts.kind
    ofItems p p.names items
  | _ => .error .invalidType

/-- Adds the members of an object. -/
def ofMembers (p : CriteriaParts) : List (String × Json) → Decoded Criteria
  | [] => p.finish
  | (key, j) :: members => do ofMembers (← p.add key j (ofJson j)) members

/-- Adds values as the fields of the given names, which have to be as many. -/
def ofItems (p : CriteriaParts) : List String → List Json → Decoded Criteria
  | [], [] => p.finish
  | name :: names, j :: items => do ofItems (← p.add name j (ofJson j)) names items
  | _, _ => .error .invalidLength

end

/-- Criteria inside of `depth` arrays and objects. -/
def ofDoc (depth : Nat) (d : Doc) : Decoded Criteria := do
  match ← d.tagged CriteriaParts.all CriteriaParts.kind depth with
  | (p, .named members) => ofMembers p members
  | (p, .positional items) => ofItems p p.names items

end Criteria

/-! ## Sort keys -/

/-- The parts of a sort key that have been read. -/
structure OrderSpecParts where
  field : Option String := none
  written : Option (Option Direction) := none

namespace OrderSpecParts

/-- Adds a field. A field that no sort key has is skipped. -/
def add (depth : Nat) (p : OrderSpecParts) (key : String) (d : Doc) : Decoded OrderSpecParts :=
  match key with
  | "field" => do
    unset p.field "field"
    return { p with field := some (← d.asString) }
  | "dir" => do
    unset p.written "dir"
    let written ← d.asOption (Doc.asVariant Direction.all Direction.name depth)
    return { p with written := some written }
  | _ => do
    sound d.skip
    return p

end OrderSpecParts

/-- A sort key inside of `depth` arrays and objects. -/
def OrderSpec.ofDoc (depth : Nat) (d : Doc) : Decoded OrderSpec := do
  let p ← d.addTo (OrderSpecParts.add (depth + 1)) (· == "dir") ["field", "dir"] depth {}
  return { field := ← required p.field "field", written := p.written.getD none }

/-! ## Queries -/

/-- The parts of a query that have been read. -/
structure QueryParts where
  operation : Option Operation := none
  source : Option (Option String) := none
  selector : Option Selector := none
  criteria : Option (Option Criteria) := none
  order : Option (List OrderSpec) := none
  limit : Option (Option UInt64) := none

namespace QueryParts

/-- The fields of a query, in order. -/
def names : List String := ["op", "namespace", "selector", "criteria", "order", "limit"]

/-- Whether a query can do without a field. -/
def isOptional (name : String) : Bool :=
  name != "op" && name != "selector"

/-- Adds a field. A field that no query has is skipped. -/
def add (p : QueryParts) (key : String) (d : Doc) : Decoded QueryParts :=
  match key with
  | "op" => do
    unset p.operation "op"
    return { p with operation := some (← d.asVariant Operation.all Operation.name 1) }
  | "namespace" => do
    unset p.source "namespace"
    return { p with source := some (← d.asOption Doc.asString) }
  | "selector" => do
    unset p.selector "selector"
    return { p with selector := some (← Selector.ofDoc 1 d) }
  | "criteria" => do
    unset p.criteria "criteria"
    return { p with criteria := some (← d.asOption (Criteria.ofDoc 1)) }
  | "order" => do
    unset p.order "order"
    return { p with order := some (← d.asList (OrderSpec.ofDoc 2) 1) }
  | "limit" => do
    unset p.limit "limit"
    return { p with limit := some (← d.asOption Doc.asUnsigned) }
  | _ => do
    sound d.skip
    return p

/-- The query, once every field that it cannot do without has been read. -/
def finish (p : QueryParts) : Decoded Query := do
  let operation ← required p.operation "op"
  let selector ← required p.selector "selector"
  return {
    operation
    source := p.source.getD none
    selector
    criteria := p.criteria.getD none
    order := p.order.getD []
    limit := p.limit.getD none }

end QueryParts

/-- The query of a document. -/
def Query.ofDoc (d : Doc) : Decoded Query := do
  (← d.addTo QueryParts.add QueryParts.isOptional QueryParts.names 0 {}).finish

/-- The query that a JSON text holds. -/
def Query.ofJsonText (text : String) : Decoded Query :=
  decodeText Query.ofDoc (readText text)

/-- The selector that a JSON text holds. -/
def Selector.ofJsonText (text : String) : Decoded Selector :=
  decodeText (Selector.ofDoc 0) (readText text)

/-- The criteria that a JSON text holds. -/
def Criteria.ofJsonText (text : String) : Decoded Criteria :=
  decodeText (Criteria.ofDoc 0) (readText text)

/-- The sort key that a JSON text holds. -/
def OrderSpec.ofJsonText (text : String) : Decoded OrderSpec :=
  decodeText (OrderSpec.ofDoc 0) (readText text)

end RecordQuery
