/-
  RecordQuery.Proofs.Query.JsonForm

  The parts of a query come back from their JSON. Every part but the criteria nests a bounded number
  of arrays and objects; criteria nest as many as they have nodes on a path, and are the only part
  for which there may be no room.
-/

import RecordQuery.Proofs.Json.Record
import RecordQuery.Query.Decode
import RecordQuery.Query.Encode

namespace RecordQuery

open Json

/-! ## Names of operators -/

theorem variant_valueOp (op : ValueOp) : variant ValueOp.all ValueOp.name op.name = .ok op := by
  cases op <;> rfl

theorem variant_rangeOp (op : RangeOp) : variant RangeOp.all RangeOp.name op.name = .ok op := by
  cases op <;> rfl

theorem variant_boolOp (op : BoolOp) : variant BoolOp.all BoolOp.name op.name = .ok op := by
  cases op <;> rfl

theorem variant_operation (op : Operation) :
    variant Operation.all Operation.name op.name = .ok op := by
  cases op <;> rfl

/-! ## Integers -/

/-- An integer of 64 bits is read back from its value. -/
theorem signed_toInt (n : Int64) : signed n.toInt = .ok n := by
  have hlt := n.toInt_lt
  have hle := n.le_toInt
  have hfits : -(Text.maxSigned : Int) - 1 ≤ n.toInt ∧ n.toInt ≤ Text.maxSigned := by
    simp only [Text.maxSigned]
    omega
  rw [signed, if_pos hfits, Int64.ofInt_toInt]

/-- A natural number of 64 bits is read back from its value. -/
theorem unsigned_toNat (n : UInt64) : unsigned n.toNat = .ok n := by
  have hn : n.toNat ≤ Text.maxUnsigned := Nat.le_of_lt_succ n.toNat_lt
  rw [unsigned, if_pos ⟨Int.natCast_nonneg _, Int.ofNat_le.mpr hn⟩, Int.toNat_natCast,
    UInt64.ofNat_toNat]

/-- Every integer of 64 bits is one that a number of a document can hold. -/
theorem fitsInteger_toInt (n : Int64) : FitsInteger n.toInt := by
  have hlt := n.toInt_lt
  have hle := n.le_toInt
  simp only [FitsInteger, Text.maxSigned, Text.maxUnsigned]
  omega

theorem fitsInteger_toNat (n : UInt64) : FitsInteger n.toNat := by
  have hlt := n.toNat_lt
  simp only [FitsInteger, Text.maxSigned, Text.maxUnsigned]
  omega

/-! ## Selectors -/

namespace Selector

/-- The kind of a selector, with none of its fields. -/
def kindParts : Selector → SelectorParts
  | .simple _ => .simple none
  | .compound _ => .compound none
  | .function _ _ => .function none none

/-- The members of a selector besides its tag. -/
def members : Selector → List (String × Json)
  | .simple field => [("field", .string field)]
  | .compound fields => [("fields", .array (fields.map .string))]
  | .function name field => [("name", .string name), ("field", .string field)]

/-- The JSON of a selector is its tag, with the kind for its value, and the members of that kind. -/
theorem toJson_eq (s : Selector) :
    s.toJson = .object ((tagName, .string s.kindParts.kind) :: s.members) := by
  cases s <;> rfl

/-- The kind of a selector is found again by its name. -/
theorem variant_kind (s : Selector) :
    variant SelectorParts.all SelectorParts.kind s.kindParts.kind = .ok s.kindParts := by
  cases s <;> rfl

/-- No member of a selector is mistaken for its tag. -/
theorem key_ne_tagName (s : Selector) : ∀ m ∈ s.members, m.1 ≠ tagName := by
  cases s <;> simp [members, tagName]

theorem depthItems_map_string (fields : List String) :
    depthItems (fields.map .string) = 0 := by
  induction fields with
  | nil => rfl
  | cons field fields ih =>
      rw [List.map_cons, depthItems, ih]
      rfl

/-- The fields of a selector are at most a list of strings. -/
theorem depth_members_le (s : Selector) : depthMembers s.members ≤ 1 := by
  cases s with
  | simple field => exact Nat.zero_le 1
  | compound fields =>
      simp only [members, depthMembers, depth, depthItems_map_string]
      decide
  | function name field => exact Nat.zero_le 1

theorem integral_toJson (s : Selector) : s.toJson.Integral := by
  cases s with
  | simple field => exact .object (by simp [Integral.string])
  | compound fields =>
      have hfields : (Json.array (fields.map .string)).Integral := .array (by simp [Integral.string])
      exact .object (by simp [Integral.string, hfields])
  | function name field => exact .object (by simp [Integral.string])

/-- A selector comes back from its kind and its members. -/
theorem foldlM_members (s : Selector) :
    (do (← s.members.foldlM (fun p (key, j) => p.add key j) s.kindParts).finish) =
      (.ok s : Decoded Selector) := by
  cases s with
  | simple field => rfl
  | compound fields =>
      simp only [members, kindParts, List.foldlM_cons, List.foldlM_nil, SelectorParts.add,
        unset_none, ok_bind, asStrings_map]
      rfl
  | function name field => rfl

/-- A selector comes back from its document wherever there is room for two more levels. -/
theorem ofDoc_doc {depth : Nat} (h : depth + 2 ≤ maxDepth) (s : Selector) :
    ofDoc depth s.toJson.doc = .ok s := by
  have hroom : depth + 1 + depthMembers s.members ≤ maxDepth := by
    have := s.depth_members_le
    omega
  rw [ofDoc, toJson_eq, tagged_doc s.variant_kind s.key_ne_tagName, if_pos hroom, ok_bind]
  exact s.foldlM_members

end Selector

/-! ## Criteria -/

namespace Criteria

/-- The number of nodes on the longest path from the root. -/
def height : Criteria → Nat
  | .value _ _ _ | .range _ _ _ | .index _ _ => 1
  | .compound _ left right => max left.height right.height + 1
  | .negated criteria => criteria.height + 1

/-- The kind of criteria, with none of their fields. -/
def kindParts : Criteria → CriteriaParts
  | .value _ _ _ => .value none none none
  | .range _ _ _ => .range none none none
  | .index _ _ => .index none none
  | .compound _ _ _ => .compound none none none
  | .negated _ => .negated none

/-- The members of criteria besides their tag. -/
def members : Criteria → List (String × Json)
  | .value field op text =>
    [("field", .string field), ("op", .string op.name), ("value", .string text)]
  | .range field op bound =>
    [("field", .string field), ("op", .string op.name), ("value", .integer bound.toInt)]
  | .index field text => [("field", .string field), ("value", .string text)]
  | .compound op left right =>
    [("op", .string op.name), ("left", left.toJson), ("right", right.toJson)]
  | .negated criteria => [("criteria", criteria.toJson)]

/-- The JSON of criteria is their tag, with the kind for its value, and the members of that kind. -/
theorem toJson_eq (c : Criteria) :
    c.toJson = .object ((tagName, .string c.kindParts.kind) :: c.members) := by
  cases c <;> rfl

theorem variant_kind (c : Criteria) :
    variant CriteriaParts.all CriteriaParts.kind c.kindParts.kind = .ok c.kindParts := by
  cases c <;> rfl

/-- No member of criteria is mistaken for their tag. -/
theorem key_ne_tagName (c : Criteria) : ∀ m ∈ c.members, m.1 ≠ tagName := by
  cases c <;> simp [members, tagName]

/-- Criteria nest one object for every node on a path. -/
theorem depth_toJson (c : Criteria) : c.toJson.depth = c.height := by
  induction c with
  | value field op text => rfl
  | range field op bound => rfl
  | index field text => rfl
  | compound op left right ihl ihr =>
      simp only [toJson, depth, depthMembers, ihl, ihr, height]
      omega
  | negated c ih =>
      simp only [toJson, depth, depthMembers, ih, height]
      omega

/-- The members nest one object less than the criteria. -/
theorem depth_members (c : Criteria) : depthMembers c.members + 1 = c.height := by
  rw [← c.depth_toJson, toJson_eq, depth, depthMembers, depth, Nat.zero_max]

theorem integral_toJson (c : Criteria) : c.toJson.Integral := by
  induction c with
  | value field op text => exact .object (by simp [Integral.string])
  | range field op bound =>
      have hbound : (Json.integer bound.toInt).Integral := .integer (fitsInteger_toInt bound)
      exact .object (by simp [Integral.string, hbound])
  | index field text => exact .object (by simp [Integral.string])
  | compound op left right ihl ihr => exact .object (by simp [Integral.string, ihl, ihr])
  | negated c ih => exact .object (by simp [Integral.string, ih])

/-- The tag is no field of any kind. -/
theorem add_tagName (p : CriteriaParts) (j : Json) (nested : Decoded Criteria) :
    p.add tagName j nested = .ok p := by
  cases p <;> rfl

/-- Criteria come back from their JSON if they come back from their members. -/
theorem ofJson_of_members {c : Criteria} (h : ofMembers c.kindParts c.members = .ok c) :
    ofJson c.toJson = .ok c := by
  rw [toJson_eq, ofJson, tagAmong_cons c.variant_kind c.key_ne_tagName, ok_bind, ofMembers,
    add_tagName, ok_bind, h]

/-- Criteria come back from their members, and those within them on the way. -/
theorem ofMembers_members (c : Criteria) : ofMembers c.kindParts c.members = .ok c := by
  induction c with
  | value field op text =>
      simp only [kindParts, members, ofMembers, CriteriaParts.add, unset_none, ok_bind,
        Json.asString, Json.asVariant, variant_valueOp]
      rfl
  | range field op bound =>
      simp only [kindParts, members, ofMembers, CriteriaParts.add, unset_none, ok_bind,
        Json.asString, Json.asVariant, variant_rangeOp, Json.integer, asSigned, signed_toInt]
      rfl
  | index field text => rfl
  | compound op left right ihl ihr =>
      simp only [kindParts, members, ofMembers, CriteriaParts.add, unset_none, ok_bind,
        Json.asVariant, variant_boolOp, ofJson_of_members ihl, ofJson_of_members ihr]
      rfl
  | negated c ih =>
      simp only [kindParts, members, ofMembers, CriteriaParts.add, unset_none, ok_bind,
        ofJson_of_members ih]
      rfl

/-- Criteria come back from their document exactly if there is room for them. -/
theorem ofDoc_doc (depth : Nat) (c : Criteria) :
    ofDoc depth c.toJson.doc =
      if depth + c.height ≤ maxDepth then .ok c else .error (.malformed .misplaced) := by
  have hheight : depth + 1 + depthMembers c.members = depth + c.height := by
    have := c.depth_members
    omega
  rw [ofDoc, toJson_eq, tagged_doc c.variant_kind c.key_ne_tagName, hheight]
  split_ifs
  · exact c.ofMembers_members
  · rfl

end Criteria

/-! ## Sort keys -/

namespace OrderSpec

theorem integral_toJson (spec : OrderSpec) : spec.toJson.Integral := by
  apply Integral.object
  simp only [List.forall_mem_cons, mem_optional]
  refine ⟨.string spec.field, ?_⟩
  rintro m ⟨j, hj, rfl⟩
  obtain ⟨d, -, rfl⟩ := Option.map_eq_some_iff.mp hj
  exact .string d.name

/-- A sort key comes back from its document wherever there is room for one more level. -/
theorem ofDoc_doc {depth : Nat} (h : depth < maxDepth) (spec : OrderSpec) :
    ofDoc depth spec.toJson.doc = .ok spec := by
  obtain ⟨field, written⟩ := spec
  rw [ofDoc, toJson, doc, Doc.addTo, enter_of_lt h, sound_ok, ok_bind, addTo_docMembers_cons]
  cases written with
  | none => rfl
  | some d => cases d <;> rfl

end OrderSpec

/-! ## Queries -/

namespace Query

/-- The number of nodes on the longest path of the criteria. -/
def height (q : Query) : Nat :=
  match q.criteria with
  | some c => c.height
  | none => 0

/-- What is read of a query. The parts that are left out keep no trace. -/
def parts (q : Query) : QueryParts where
  operation := some q.operation
  source := q.source.map some
  selector := some q.selector
  criteria := q.criteria.map some
  order := if q.order.isEmpty then none else some q.order
  limit := q.limit.map some

/-- A query is put together from all that is read of it. -/
theorem finish_parts (q : Query) : q.parts.finish = .ok q := by
  obtain ⟨operation, source, selector, criteria, order, limit⟩ := q
  simp only [parts, QueryParts.finish, required, ok_bind]
  cases source <;> cases criteria <;> cases order <;> cases limit <;> rfl

theorem integral_toJson (q : Query) : q.toJson.Integral := by
  apply Integral.object
  intro m hm
  simp only [List.mem_append, List.mem_cons, List.not_mem_nil, or_false, mem_optional,
    Option.map_eq_some_iff] at hm
  rcases hm with ((((rfl | ⟨_, ⟨s, -, rfl⟩, rfl⟩) | rfl) | ⟨_, ⟨c, -, rfl⟩, rfl⟩) | ⟨_, hj, rfl⟩) |
    ⟨_, ⟨n, -, rfl⟩, rfl⟩
  · exact .string q.operation.name
  · exact .string s
  · exact q.selector.integral_toJson
  · exact c.integral_toJson
  · unfold OrderSpec.listToJson? at hj
    split at hj
    next => cases hj
    next =>
      cases hj
      exact .array (by simp [OrderSpec.integral_toJson])
  · exact .integer (fitsInteger_toNat n)

/-! The members of a query, as they are added to what has been read before them. -/

section

variable {p : QueryParts}

theorem add_operation (h : p.operation = none) (op : Operation) :
    p.add "op" (doc (.string op.name)) = .ok { p with operation := some op } := by
  have hvariant : (doc (.string op.name)).asVariant Operation.all Operation.name 1 = .ok op :=
    variant_operation op
  simp only [QueryParts.add, h, unset_none, ok_bind, hvariant]
  rfl

/-- The namespace is read back, or stays unread where it is left out. -/
theorem add_source (h : p.source = none) (source : Option String) :
    (docMembers (optional "namespace" (source.map .string))).addTo QueryParts.add p =
      .ok { p with source := source.map some } := by
  apply addTo_optional
  · rintro rfl
    rw [Option.map_none, ← h]
  · rintro s rfl
    simp only [QueryParts.add, h, unset_none, ok_bind]
    rfl

/-- The selector of a query is read back. Two levels are always free for it there. -/
theorem add_selector (h : p.selector = none) (selector : Selector) :
    (docMembers [("selector", selector.toJson)]).addTo QueryParts.add p =
      .ok { p with selector := some selector } := by
  have hroom : 1 + 2 ≤ maxDepth := by decide
  rw [addTo_docMembers_cons]
  simp only [QueryParts.add, h, unset_none, ok_bind, Selector.ofDoc_doc hroom]
  rfl

/-- Criteria are the only part for which there may be no room. -/
theorem add_criteria (h : p.criteria = none) (criteria : Option Criteria) :
    (docMembers (optional "criteria" (criteria.map Criteria.toJson))).addTo QueryParts.add p =
      if (criteria.map Criteria.height).getD 0 ≤ 126 then
        .ok { p with criteria := criteria.map some }
      else .error (.malformed .misplaced) := by
  cases criteria with
  | none =>
      simp only [Option.map_none, addTo_optional_none]
      rw [← h]
      rfl
  | some c =>
      have hoption : c.toJson.doc.asOption (Criteria.ofDoc 1) =
          some <$> Criteria.ofDoc 1 c.toJson.doc := by
        cases c <;> rfl
      have hheight : 1 + c.height ≤ maxDepth ↔ c.height ≤ 126 := by
        simp only [maxDepth]
        omega
      rw [Option.map_some, addTo_optional_some]
      simp only [QueryParts.add, h, unset_none, ok_bind, hoption, Criteria.ofDoc_doc, hheight,
        Option.map_some, Option.getD_some]
      split_ifs <;> rfl

/-- Sort keys are read back in their order. A list of none is left out and stays unread. -/
theorem add_order (h : p.order = none) (order : List OrderSpec) :
    (docMembers (optional "order" (OrderSpec.listToJson? order))).addTo QueryParts.add p =
      .ok { p with order := if order.isEmpty then none else some order } := by
  cases order with
  | nil =>
      rw [List.isEmpty_nil, if_pos rfl, ← h]
      exact addTo_optional_none p "order"
  | cons spec order =>
      have hlist : (doc (.array ((spec :: order).map OrderSpec.toJson))).asList
          (OrderSpec.ofDoc 2) 1 = .ok (spec :: order) := by
        rw [doc, Doc.asList, enter_of_lt (by decide), sound_ok, ok_bind]
        exact decodeAll_docItems (fun spec => spec.ofDoc_doc (by decide)) (spec :: order)
      rw [OrderSpec.listToJson?, List.isEmpty_cons, if_neg (by decide), if_neg (by decide),
        addTo_optional_some]
      simp only [QueryParts.add, h, unset_none, ok_bind, hlist]
      rfl

/-- The limit is read back, or stays unread where it is left out. -/
theorem add_limit (h : p.limit = none) (limit : Option UInt64) :
    (docMembers (optional "limit" (limit.map fun n => .integer n.toNat))).addTo QueryParts.add p =
      .ok { p with limit := limit.map some } := by
  apply addTo_optional
  · rintro rfl
    rw [Option.map_none, ← h]
  · rintro n rfl
    have hlimit : (doc (.integer n.toNat)).asOption Doc.asUnsigned = some <$> unsigned n.toNat :=
      rfl
    simp only [QueryParts.add, h, unset_none, ok_bind, hlimit, unsigned_toNat]
    rfl

end

/-- A query comes back from its document exactly if no path of its criteria has more than 126
    nodes; otherwise the text is refused where they nest too deep. -/
theorem ofDoc_doc (q : Query) :
    ofDoc q.toJson.doc = if q.height ≤ 126 then .ok q else .error (.malformed .misplaced) := by
  rw [ofDoc, toJson, doc, Doc.addTo, enter_of_lt (by decide), sound_ok, ok_bind,
    addTo_docMembers_append, addTo_docMembers_append, addTo_docMembers_append,
    addTo_docMembers_append, addTo_docMembers_cons, add_operation rfl, ok_bind, add_source rfl,
    ok_bind, add_selector rfl, ok_bind, add_criteria rfl]
  have hheight : (q.criteria.map Criteria.height).getD 0 = q.height := by
    unfold height
    cases q.criteria <;> rfl
  rw [hheight]
  split_ifs
  · rw [ok_bind, add_order rfl, ok_bind, add_limit rfl, ok_bind]
    exact q.finish_parts
  · rfl

end Query

end RecordQuery
