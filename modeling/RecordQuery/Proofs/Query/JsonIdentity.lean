/-
  RecordQuery.Proofs.Query.JsonIdentity

  The JSON text of a query tells which query it is. A written text is read as the document of its
  value, at any depth of nesting, and two values have one document only if they are the same. What a
  query does not have is left out under a key of its own, so the members say what is there and what
  is not. Decoding has a bound on nesting and is of no help for queries behind it; it is of help for
  the parts that cannot nest so deep, and for criteria once their value is known.
-/

import Mathlib.Data.List.Basic
import Mathlib.Data.Option.Basic
import RecordQuery.Proofs.Query.JsonForm

namespace RecordQuery

open Json

/-! ## Written values -/

namespace Json

mutual

/-- Two values that have one document are the same. -/
theorem doc_injective : ∀ {j j' : Json}, j.doc = j'.doc → j = j'
  | .null, j', h => by cases j' <;> simp only [doc, reduceCtorEq] at h ⊢
  | .bool b, j', h => by
    cases j' <;> simp only [doc, reduceCtorEq, Doc.bool.injEq] at h
    rw [h]
  | .number n, j', h => by
    cases j' <;> simp only [doc, reduceCtorEq, Doc.number.injEq, Except.ok.injEq] at h
    rw [h]
  | .string s, j', h => by
    cases j' <;> simp only [doc, reduceCtorEq, Doc.string.injEq, Except.ok.injEq] at h
    rw [h]
  | .array items, j', h => by
    cases j' <;> simp only [doc, reduceCtorEq, Doc.array.injEq] at h
    rw [docItems_injective h]
  | .object members, j', h => by
    cases j' <;> simp only [doc, reduceCtorEq, Doc.object.injEq] at h
    rw [docMembers_injective h]

theorem docItems_injective : ∀ {items items' : List Json},
    docItems items = docItems items' → items = items'
  | [], items', h => by cases items' <;> simp only [docItems, reduceCtorEq] at h ⊢
  | j :: items, [], h => by simp only [docItems, reduceCtorEq] at h
  | j :: items, j' :: items', h => by
    simp only [docItems, Items.item.injEq] at h
    rw [doc_injective h.1, docItems_injective h.2]

theorem docMembers_injective : ∀ {members members' : List (String × Json)},
    docMembers members = docMembers members' → members = members'
  | [], members', h => by
    cases members' with
    | nil => rfl
    | cons m members' => simp only [docMembers, reduceCtorEq] at h
  | (key, j) :: members, [], h => by simp only [docMembers, reduceCtorEq] at h
  | (key, j) :: members, (key', j') :: members', h => by
    simp only [docMembers, Members.member.injEq, Except.ok.injEq] at h
    rw [h.1, doc_injective h.2.1, docMembers_injective h.2.2]

end

/-- In every layout that puts nothing but blanks between the parts, two values that have one text
    are the same. -/
theorem write_injective {l : Layout} (hl : l.OfBlanks) {level : Nat} {j j' : Json}
    (hj : j.Integral) (hj' : j'.Integral) (h : write l level j = write l level j') : j = j' := by
  have hread := readText_write hl level hj
  rw [h, readText_write hl level hj'] at hread
  exact doc_injective (Source.mk.inj hread).1.symm

/-- The value of a member that may be left out, under its own key and under another. -/
theorem lookup_optional (key key' : String) (value : Option Json) :
    (optional key' value).lookup key = if key == key' then value else none := by
  cases value with
  | none => cases hkey : key == key' <;> rfl
  | some j => cases hkey : key == key' <;> simp [optional, List.lookup_cons, hkey]

end Json

/-! ## Parts of queries -/

/-- The names of alternatives differ if each is found by its own. -/
theorem name_injective {α : Type} {all : List α} {name : α → String}
    (h : ∀ a, variant all name (name a) = .ok a) : Function.Injective name := by
  intro a b hname
  have ha := h a
  rw [hname, h b] at ha
  exact (Except.ok.inj ha).symm

theorem Selector.toJson_injective : Function.Injective Selector.toJson := by
  intro s s' h
  have hroom : 0 + 2 ≤ maxDepth := by decide
  have hs := s.ofDoc_doc hroom
  rw [h, s'.ofDoc_doc hroom] at hs
  exact (Except.ok.inj hs).symm

/-- Criteria come back from their value however high they are: only documents have a bound. -/
theorem Criteria.toJson_injective : Function.Injective Criteria.toJson := by
  intro c c' h
  have hc := ofJson_of_members c.ofMembers_members
  rw [h, ofJson_of_members c'.ofMembers_members] at hc
  exact (Except.ok.inj hc).symm

theorem OrderSpec.toJson_injective : Function.Injective OrderSpec.toJson := by
  intro spec spec' h
  have hroom : 0 < maxDepth := by decide
  have hspec := spec.ofDoc_doc hroom
  rw [h, spec'.ofDoc_doc hroom] at hspec
  exact (Except.ok.inj hspec).symm

/-- Sort keys are left out only if there are none, so a list that is there is not the empty one. -/
theorem OrderSpec.listToJson?_injective : Function.Injective OrderSpec.listToJson? := by
  intro order order' h
  cases order <;> cases order' <;>
    simp only [listToJson?, List.isEmpty_nil, List.isEmpty_cons, if_true, if_false, reduceCtorEq,
      Bool.false_eq_true, Option.some.injEq, Json.array.injEq] at h ⊢
  exact List.map_injective_iff.mpr toJson_injective h

namespace Query

/-- The members of a query by their keys. -/
theorem lookup_members (q : Query) {members : List (String × Json)} (h : q.toJson = .object members) :
    members.lookup "op" = some (.string q.operation.name) ∧
      members.lookup "namespace" = q.source.map .string ∧
      members.lookup "selector" = some q.selector.toJson ∧
      members.lookup "criteria" = q.criteria.map Criteria.toJson ∧
      members.lookup "order" = OrderSpec.listToJson? q.order ∧
      members.lookup "limit" = q.limit.map fun n => .integer n.toNat := by
  obtain rfl := Json.object.inj h
  simp [List.lookup_append, lookup_optional, List.lookup_cons]

/-- Each part of a query stands under a key of its own, or is left out with it. -/
theorem toJson_injective : Function.Injective toJson := by
  intro q q' h
  obtain ⟨hop, hsource, hselector, hcriteria, horder, hlimit⟩ := q.lookup_members rfl
  obtain ⟨hop', hsource', hselector', hcriteria', horder', hlimit'⟩ := q'.lookup_members h.symm
  have string_injective : Function.Injective Json.string := fun _ _ => Json.string.inj
  have integer_injective : Function.Injective fun n : UInt64 => Json.integer n.toNat := by
    intro m n hmn
    simp only [Json.integer, Json.number.injEq, JsonNumber.integer.injEq, Int.natCast_inj] at hmn
    exact UInt64.toNat_inj.mp hmn
  have operation : q.operation = q'.operation :=
    name_injective variant_operation (string_injective (Option.some.inj (hop.symm.trans hop')))
  have source : q.source = q'.source :=
    Option.map_injective string_injective (hsource.symm.trans hsource')
  have selector : q.selector = q'.selector :=
    Selector.toJson_injective (Option.some.inj (hselector.symm.trans hselector'))
  have criteria : q.criteria = q'.criteria :=
    Option.map_injective Criteria.toJson_injective (hcriteria.symm.trans hcriteria')
  have order : q.order = q'.order :=
    OrderSpec.listToJson?_injective (horder.symm.trans horder')
  have limit : q.limit = q'.limit :=
    Option.map_injective integer_injective (hlimit.symm.trans hlimit')
  cases q
  cases q'
  rw [Query.mk.injEq]
  exact ⟨operation, source, selector, criteria, order, limit⟩

end Query

/-! ## Texts of queries -/

/-- Two queries have one JSON text only if they are the same, without blanks and with them, and
    however deep their criteria nest. -/
theorem json_text_identifies :
    (∀ q q' : Query, q.toJsonText = q'.toJsonText ↔ q = q') ∧
      ∀ q q' : Query, q.toIndentedJsonText = q'.toIndentedJsonText ↔ q = q' := by
  have hwritten {l : Layout} (hl : l.OfBlanks) (q q' : Query)
      (h : q.toJson.write l 0 = q'.toJson.write l 0) : q = q' :=
    Query.toJson_injective (write_injective hl q.integral_toJson q'.integral_toJson h)
  exact ⟨fun q q' => ⟨hwritten ofBlanks_compact q q', fun h => by rw [h]⟩,
    fun q q' => ⟨hwritten ofBlanks_indented q q', fun h => by rw [h]⟩⟩

end RecordQuery
