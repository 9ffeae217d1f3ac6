/-
  RecordQuery.Proofs.Query.Parts

  What adding a member to the parts of a record can do. Each key fills one part, which is empty
  before and whose value has to be decoded; a member with a key that the record does not have
  changes nothing. What holds of all additions is proved by cases on these tables.
-/

import RecordQuery.Proofs.Json.Record
import RecordQuery.Query.Decode

namespace RecordQuery

open Json

/-! ## Selectors -/

namespace SelectorParts

/-- What adding a member to the fields of a selector can do. -/
inductive Adds : SelectorParts → String → Json → SelectorParts → Prop
  | simpleField {j : Json} {s : String} (hj : j.asString = .ok s) :
    Adds (.simple none) "field" j (.simple (some s))
  | compoundFields {j : Json} {ss : List String} (hj : j.asStrings = .ok ss) :
    Adds (.compound none) "fields" j (.compound (some ss))
  | functionName {field : Option String} {j : Json} {s : String} (hj : j.asString = .ok s) :
    Adds (.function none field) "name" j (.function (some s) field)
  | functionField {name : Option String} {j : Json} {s : String} (hj : j.asString = .ok s) :
    Adds (.function name none) "field" j (.function name (some s))
  | other {p : SelectorParts} {key : String} {j : Json} (hkey : key ∉ p.names) : Adds p key j p

variable {p p' : SelectorParts} {key : String} {j : Json}

/-- Members of a selector are added as the table says. -/
theorem add_eq_ok : p.add key j = .ok p' ↔ Adds p key j p' := by
  constructor
  · intro h
    unfold add at h
    split at h
    case h_5 _ _ hfield hfields hname hfield' =>
      cases h
      apply Adds.other
      cases p <;> simp_all [names]
    all_goals
      obtain ⟨rfl, _, hj, rfl⟩ := fill_eq_ok.mp h
      constructor
      exact hj
  · rintro (hj | hj | hj | hj | hkey)
    case other =>
      unfold add
      split
      case h_5 => rfl
      all_goals exact absurd (by simp [names]) hkey
    all_goals exact fill_eq_ok.mpr ⟨rfl, _, hj, rfl⟩

end SelectorParts

/-! ## Criteria -/

namespace CriteriaParts

/-- What adding a member to the fields of criteria can do. -/
inductive Adds : CriteriaParts → String → Json → Decoded Criteria → CriteriaParts → Prop
  | valueField {op text j nested s} (hj : j.asString = .ok s) :
    Adds (.value none op text) "field" j nested (.value (some s) op text)
  | valueOp {field text j nested op} (hj : j.asVariant ValueOp.all ValueOp.name = .ok op) :
    Adds (.value field none text) "op" j nested (.value field (some op) text)
  | valueText {field op j nested s} (hj : j.asString = .ok s) :
    Adds (.value field op none) "value" j nested (.value field op (some s))
  | rangeField {op bound j nested s} (hj : j.asString = .ok s) :
    Adds (.range none op bound) "field" j nested (.range (some s) op bound)
  | rangeOp {field bound j nested op} (hj : j.asVariant RangeOp.all RangeOp.name = .ok op) :
    Adds (.range field none bound) "op" j nested (.range field (some op) bound)
  | rangeBound {field op j nested n} (hj : j.asSigned = .ok n) :
    Adds (.range field op none) "value" j nested (.range field op (some n))
  | indexField {text j nested s} (hj : j.asString = .ok s) :
    Adds (.index none text) "field" j nested (.index (some s) text)
  | indexText {field j nested s} (hj : j.asString = .ok s) :
    Adds (.index field none) "value" j nested (.index field (some s))
  | compoundOp {left right j nested op} (hj : j.asVariant BoolOp.all BoolOp.name = .ok op) :
    Adds (.compound none left right) "op" j nested (.compound (some op) left right)
  | compoundLeft {op right j nested c} (hnested : nested = .ok c) :
    Adds (.compound op none right) "left" j nested (.compound op (some c) right)
  | compoundRight {op left j nested c} (hnested : nested = .ok c) :
    Adds (.compound op left none) "right" j nested (.compound op left (some c))
  | negated {j nested c} (hnested : nested = .ok c) :
    Adds (.negated none) "criteria" j nested (.negated (some c))
  | other {p key j nested} (hkey : key ∉ names p) : Adds p key j nested p

variable {p p' : CriteriaParts} {key : String} {j : Json} {nested : Decoded Criteria}

/-- Members of criteria are added as the table says. -/
theorem add_eq_ok : p.add key j nested = .ok p' ↔ Adds p key j nested p' := by
  constructor
  · intro h
    unfold add at h
    split at h
    case h_13 =>
      cases h
      apply Adds.other
      cases p <;> simp_all [names]
    all_goals
      obtain ⟨rfl, _, hvalue, rfl⟩ := fill_eq_ok.mp h
      constructor
      exact hvalue
  · rintro (hj | hj | hj | hj | hj | hj | hj | hj | hj | hj | hj | hj | hkey)
    case other =>
      unfold add
      split
      case h_13 => rfl
      all_goals exact absurd (by simp [names]) hkey
    all_goals exact fill_eq_ok.mpr ⟨rfl, _, hj, rfl⟩

end CriteriaParts

/-! ## Sort keys -/

namespace OrderSpecParts

/-- What adding a member to the parts of a sort key can do. -/
inductive Adds (n : Nat) : OrderSpecParts → String → Doc → OrderSpecParts → Prop
  | field {p d s} (hp : p.field = none) (hd : d.asString = .ok s) :
    Adds n p "field" d { p with field := some s }
  | direction {p d written} (hp : p.written = none)
    (hd : d.asOption (Doc.asVariant Direction.all Direction.name n) = .ok written) :
    Adds n p "dir" d { p with written := some written }
  | other {p key d} (hkey : key ∉ ["field", "dir"]) (hd : d.skip = .ok ()) : Adds n p key d p

variable {n : Nat} {p p' : OrderSpecParts} {key : String} {d : Doc}

/-- Members of a sort key are added as the table says. -/
theorem add_eq_ok : add n p key d = .ok p' ↔ Adds n p key d p' := by
  constructor
  · intro h
    unfold add at h
    split at h
    case h_3 _ hfield hdir =>
      obtain ⟨_, hskip, h⟩ := bind_eq_ok.mp h
      obtain rfl := pure_eq_ok.mp h
      exact .other (by simpa using ⟨hfield, hdir⟩) (mapError_eq_ok.mp hskip)
    all_goals
      obtain ⟨hp, _, hd, rfl⟩ := fill_eq_ok.mp h
      constructor
      · exact hp
      · exact hd
  · rintro (⟨hp, hd⟩ | ⟨hp, hd⟩ | ⟨hkey, hd⟩)
    case other =>
      unfold add
      split
      case h_3 => exact bind_eq_ok.mpr ⟨(), mapError_eq_ok.mpr hd, rfl⟩
      all_goals exact absurd (by simp) hkey
    all_goals exact fill_eq_ok.mpr ⟨hp, _, hd, rfl⟩

end OrderSpecParts

/-! ## Queries -/

namespace QueryParts

/-- What adding a member to the parts of a query can do. -/
inductive Adds : QueryParts → String → Doc → QueryParts → Prop
  | operation {p d op} (hp : p.operation = none)
    (hd : d.asVariant Operation.all Operation.name 1 = .ok op) :
    Adds p "op" d { p with operation := some op }
  | source {p d source} (hp : p.source = none) (hd : d.asOption Doc.asString = .ok source) :
    Adds p "namespace" d { p with source := some source }
  | selector {p d selector} (hp : p.selector = none) (hd : Selector.ofDoc 1 d = .ok selector) :
    Adds p "selector" d { p with selector := some selector }
  | criteria {p d criteria} (hp : p.criteria = none)
    (hd : d.asOption (Criteria.ofDoc 1) = .ok criteria) :
    Adds p "criteria" d { p with criteria := some criteria }
  | order {p d order} (hp : p.order = none) (hd : d.asList (OrderSpec.ofDoc 2) 1 = .ok order) :
    Adds p "order" d { p with order := some order }
  | limit {p d limit} (hp : p.limit = none) (hd : d.asOption Doc.asUnsigned = .ok limit) :
    Adds p "limit" d { p with limit := some limit }
  | other {p key d} (hkey : key ∉ names) (hd : d.skip = .ok ()) : Adds p key d p

variable {p p' : QueryParts} {key : String} {d : Doc}

/-- Members of a query are added as the table says. -/
theorem add_eq_ok : p.add key d = .ok p' ↔ Adds p key d p' := by
  constructor
  · intro h
    unfold add at h
    split at h
    case h_7 _ hop hsource hselector hcriteria horder hlimit =>
      obtain ⟨_, hskip, h⟩ := bind_eq_ok.mp h
      obtain rfl := pure_eq_ok.mp h
      refine .other ?_ (mapError_eq_ok.mp hskip)
      simpa [names] using ⟨hop, hsource, hselector, hcriteria, horder, hlimit⟩
    all_goals
      obtain ⟨hp, _, hd, rfl⟩ := fill_eq_ok.mp h
      constructor
      · exact hp
      · exact hd
  · rintro (⟨hp, hd⟩ | ⟨hp, hd⟩ | ⟨hp, hd⟩ | ⟨hp, hd⟩ | ⟨hp, hd⟩ | ⟨hp, hd⟩ | ⟨hkey, hd⟩)
    case other =>
      unfold add
      split
      case h_7 => exact bind_eq_ok.mpr ⟨(), mapError_eq_ok.mpr hd, rfl⟩
      all_goals exact absurd (by simp [names]) hkey
    all_goals exact fill_eq_ok.mpr ⟨hp, _, hd, rfl⟩

end QueryParts

end RecordQuery
