/-
  RecordQuery.Proofs.Json.Depth

  How deep a value may nest to be decoded as a whole. No more than 127 arrays and objects may be
  open at one place: a value that keeps to this comes back from its document, any other is a fault,
  and no document at all yields a value that does not keep to it. A tagged record loses nothing but
  its tag on the way.
-/

import RecordQuery.Json.Decoder
import RecordQuery.Proofs.Except
import RecordQuery.Proofs.Json.Reading

namespace RecordQuery.Json

/-! ## The depth of values -/

mutual

/-- The number of arrays and objects that are open at the deepest place of a value. -/
def depth : Json → Nat
  | .null | .bool _ | .number _ | .string _ => 0
  | .array items => depthItems items + 1
  | .object members => depthMembers members + 1

/-- The depth of the deepest item. -/
def depthItems : List Json → Nat
  | [] => 0
  | j :: items => max j.depth (depthItems items)

/-- The depth of the deepest member. -/
def depthMembers : List (String × Json) → Nat
  | [] => 0
  | (_, j) :: members => max j.depth (depthMembers members)

end

theorem enter_of_lt {d : Nat} (h : d < maxDepth) : enter d = .ok () :=
  if_neg (Nat.not_le.mpr h)

theorem enter_of_le {d : Nat} (h : maxDepth ≤ d) : enter d = .error .misplaced :=
  if_pos h

/-- What has been entered had room. -/
theorem lt_of_enter {d : Nat} {u : Unit} (h : enter d = .ok u) : d < maxDepth := by
  rcases Nat.lt_or_ge d maxDepth with hlt | hge
  · exact hlt
  · rw [enter_of_le hge] at h
    cases h

theorem sound_ok {α : Type} (a : α) : sound (.ok a) = .ok a :=
  rfl

theorem unset_none {α : Type} (name : String) : unset (none : Option α) name = .ok () :=
  rfl

/-- Two parts that are read one after the other are there together if there is room for both. -/
theorem bind_room {ε α β γ : Type} {e : ε} {d m n : Nat} {a : α} {b : β} (f : α → β → γ) :
    ((if d + m ≤ maxDepth then .ok a else .error e : Except ε α) >>= fun x =>
      (if d + n ≤ maxDepth then .ok b else .error e : Except ε β) >>= fun y => .ok (f x y)) =
      if d + max m n ≤ maxDepth then .ok (f a b) else .error e := by
  by_cases hm : d + m ≤ maxDepth
  · rw [if_pos hm, ok_bind]
    by_cases hn : d + n ≤ maxDepth
    · have hmax : d + max m n ≤ maxDepth := by omega
      rw [if_pos hn, if_pos hmax, ok_bind]
    · have hmax : ¬ d + max m n ≤ maxDepth := by omega
      rw [if_neg hn, if_neg hmax]
      rfl
  · have hmax : ¬ d + max m n ≤ maxDepth := by omega
    rw [if_neg hm, if_neg hmax]
    rfl

/-! ## Values from documents -/

mutual

/-- The value of a document is the value it was made from, if there is room for it. -/
theorem toJson_doc {d : Nat} (hd : d ≤ maxDepth) :
    ∀ j : Json, j.doc.toJson d = if d + j.depth ≤ maxDepth then .ok j else .error .misplaced
  | .null => by rw [doc, Doc.toJson, depth, Nat.add_zero, if_pos hd]
  | .bool b => by rw [doc, Doc.toJson, depth, Nat.add_zero, if_pos hd]
  | .number n => by rw [doc, Doc.toJson, depth, Nat.add_zero, if_pos hd]; rfl
  | .string s => by rw [doc, Doc.toJson, depth, Nat.add_zero, if_pos hd]; rfl
  | .array items => by
    rw [doc, Doc.toJson, depth]
    rcases Nat.lt_or_ge d maxDepth with hlt | hge
    · have hdepth : d + (depthItems items + 1) = d + 1 + depthItems items := by omega
      rw [bind_of_ok _ (enter_of_lt hlt), toJsons_docItems hlt items, hdepth]
      split_ifs <;> rfl
    · rw [bind_of_error _ (enter_of_le hge), if_neg (by omega)]
  | .object members => by
    rw [doc, Doc.toJson, depth]
    rcases Nat.lt_or_ge d maxDepth with hlt | hge
    · have hdepth : d + (depthMembers members + 1) = d + 1 + depthMembers members := by omega
      rw [bind_of_ok _ (enter_of_lt hlt), toJsons_docMembers hlt members, hdepth]
      split_ifs <;> rfl
    · rw [bind_of_error _ (enter_of_le hge), if_neg (by omega)]

theorem toJsons_docItems {d : Nat} (hd : d ≤ maxDepth) :
    ∀ items : List Json, (docItems items).toJsons d =
      if d + depthItems items ≤ maxDepth then .ok items else .error .misplaced
  | [] => by rw [docItems, Items.toJsons, depthItems, Nat.add_zero, if_pos hd]
  | j :: items => by
    rw [docItems, Items.toJsons, depthItems, toJson_doc hd j, toJsons_docItems hd items]
    exact bind_room List.cons

theorem toJsons_docMembers {d : Nat} (hd : d ≤ maxDepth) :
    ∀ members : List (String × Json), (docMembers members).toJsons d =
      if d + depthMembers members ≤ maxDepth then .ok members else .error .misplaced
  | [] => by rw [docMembers, Members.toJsons, depthMembers, Nat.add_zero, if_pos hd]
  | (key, j) :: members => by
    rw [docMembers, Members.toJsons, depthMembers, ok_bind, toJson_doc hd j,
      toJsons_docMembers hd members]
    exact bind_room fun j members => (key, j) :: members

end

mutual

/-- Whatever value a document has, there was room for it. -/
theorem depth_of_toJson {d : Nat} (hd : d ≤ maxDepth) :
    ∀ (doc : Doc) {j : Json}, doc.toJson d = .ok j → d + j.depth ≤ maxDepth
  | .null, j, h => by
    cases h
    exact hd
  | .bool b, j, h => by
    cases h
    exact hd
  | .number n, j, h => by
    obtain ⟨_, -, rfl⟩ := map_eq_ok.mp h
    exact hd
  | .string s, j, h => by
    obtain ⟨_, -, rfl⟩ := map_eq_ok.mp h
    exact hd
  | .array items, j, h => by
    rw [Doc.toJson] at h
    obtain ⟨_, hroom, h⟩ := bind_eq_ok.mp h
    obtain ⟨js, hitems, h⟩ := bind_eq_ok.mp h
    obtain rfl := pure_eq_ok.mp h
    have := depth_of_toJsons_items (lt_of_enter hroom) items hitems
    rw [depth]
    omega
  | .object members, j, h => by
    rw [Doc.toJson] at h
    obtain ⟨_, hroom, h⟩ := bind_eq_ok.mp h
    obtain ⟨js, hmembers, h⟩ := bind_eq_ok.mp h
    obtain rfl := pure_eq_ok.mp h
    have := depth_of_toJsons_members (lt_of_enter hroom) members hmembers
    rw [depth]
    omega
  | .broken b, j, h => by cases h

/-- Items with values have had room for all of them. -/
theorem depth_of_toJsons_items {d : Nat} (hd : d ≤ maxDepth) :
    ∀ (items : Items) {js : List Json}, items.toJsons d = .ok js →
      d + depthItems js ≤ maxDepth
  | .close, js, h => by
    cases h
    exact hd
  | .cut, js, h => by cases h
  | .stray, js, h => by cases h
  | .danglingComma, js, h => by cases h
  | .item value rest, js, h => by
    rw [Items.toJsons] at h
    obtain ⟨j, hj, h⟩ := bind_eq_ok.mp h
    obtain ⟨js, hjs, h⟩ := bind_eq_ok.mp h
    obtain rfl := pure_eq_ok.mp h
    have := depth_of_toJson hd value hj
    have := depth_of_toJsons_items hd rest hjs
    rw [depthItems]
    omega

theorem depth_of_toJsons_members {d : Nat} (hd : d ≤ maxDepth) :
    ∀ (members : Members) {ms : List (String × Json)}, members.toJsons d = .ok ms →
      d + depthMembers ms ≤ maxDepth
  | .close, ms, h => by
    cases h
    exact hd
  | .cut, ms, h => by cases h
  | .stray, ms, h => by cases h
  | .danglingComma, ms, h => by cases h
  | .keyless found, ms, h => by cases h
  | .member key value rest, ms, h => by
    rw [Members.toJsons] at h
    obtain ⟨k, -, h⟩ := bind_eq_ok.mp h
    obtain ⟨j, hj, h⟩ := bind_eq_ok.mp h
    obtain ⟨ms, hms, h⟩ := bind_eq_ok.mp h
    obtain rfl := pure_eq_ok.mp h
    have := depth_of_toJson hd value hj
    have := depth_of_toJsons_members hd rest hms
    rw [depthMembers]
    omega

end

/-! ## Tagged records -/

/-- The depth of the deepest field. -/
def Fields.depth : Fields → Nat
  | .named members => depthMembers members
  | .positional items => depthItems items

/-- A name is found among those that there are. -/
theorem mem_of_variant {α : Type} {all : List α} {name : α → String} {s : String} {a : α}
    (h : variant all name s = .ok a) : a ∈ all := by
  unfold variant at h
  split at h
  next b hfind =>
    cases h
    exact List.mem_of_find?_eq_some hfind
  next => cases h

section

variable {α : Type} {all : List α} {name : α → String} {d : Nat}

theorem mem_of_asTag {doc : Doc} {a : α} (h : doc.asTag all name = .ok a) : a ∈ all := by
  obtain ⟨s, -, h⟩ := bind_eq_ok.mp h
  exact mem_of_variant h

/-- The tag of an object is one of the tags there are, and there was room for the other members. -/
theorem tagged_members_spec (hd : d ≤ maxDepth) :
    ∀ (members : Members) {tag : Option α} {a : α} {ms : List (String × Json)},
      members.tagged all name d tag = .ok (a, ms) → (∀ b, tag = some b → b ∈ all) →
        a ∈ all ∧ d + depthMembers ms ≤ maxDepth
  | .close, tag, a, ms, h, htag => by
    rw [Members.tagged] at h
    obtain ⟨b, hb, h⟩ := bind_eq_ok.mp h
    cases h
    cases tag with
    | none => cases hb
    | some c =>
        cases hb
        exact ⟨htag a rfl, hd⟩
  | .cut, tag, a, ms, h, _ => by cases h
  | .stray, tag, a, ms, h, _ => by cases h
  | .danglingComma, tag, a, ms, h, _ => by cases h
  | .keyless found, tag, a, ms, h, _ => by cases h
  | .member key value rest, tag, a, ms, h, htag => by
    rw [Members.tagged] at h
    obtain ⟨k, -, h⟩ := bind_eq_ok.mp h
    split at h
    next =>
      obtain ⟨_, -, h⟩ := bind_eq_ok.mp h
      obtain ⟨b, hb, h⟩ := bind_eq_ok.mp h
      refine tagged_members_spec hd rest h ?_
      rintro _ ⟨⟩
      exact mem_of_asTag hb
    next =>
      obtain ⟨j, hj, h⟩ := bind_eq_ok.mp h
      obtain ⟨⟨b, more⟩, hmore, h⟩ := bind_eq_ok.mp h
      cases h
      obtain ⟨ha, hrest⟩ := tagged_members_spec hd rest hmore htag
      have := depth_of_toJson hd value (mapError_eq_ok.mp hj)
      refine ⟨ha, ?_⟩
      rw [depthMembers]
      omega

/-- What a tagged record is decoded to: a tag there is, and fields there was room for. -/
theorem tagged_spec {doc : Doc} {a : α} {fields : Fields} (h : doc.tagged all name d = .ok (a, fields)) :
    a ∈ all ∧ d + 1 + fields.depth ≤ maxDepth := by
  cases doc with
  | object members =>
      obtain ⟨_, hroom, h⟩ := bind_eq_ok.mp h
      obtain ⟨⟨b, ms⟩, hms, h⟩ := bind_eq_ok.mp h
      cases h
      have hlt := lt_of_enter (mapError_eq_ok.mp hroom)
      exact tagged_members_spec hlt members hms (by simp)
  | array items =>
      obtain ⟨_, hroom, h⟩ := bind_eq_ok.mp h
      have hlt := lt_of_enter (mapError_eq_ok.mp hroom)
      cases items with
      | item first rest =>
          obtain ⟨b, hb, h⟩ := bind_eq_ok.mp h
          obtain ⟨js, hjs, h⟩ := bind_eq_ok.mp h
          cases h
          exact ⟨mem_of_asTag hb, depth_of_toJsons_items hlt rest (mapError_eq_ok.mp hjs)⟩
      | close => cases h
      | cut => cases h
      | stray => cases h
      | danglingComma => cases h
  | null => cases h
  | bool => cases h
  | number => cases h
  | string => cases h
  | broken => cases h

/-- Behind the tag, the members of an object stay as they are. -/
theorem tagged_docMembers (hd : d ≤ maxDepth) (a : α) :
    ∀ {members : List (String × Json)}, (∀ m ∈ members, m.1 ≠ tagName) →
      (docMembers members).tagged all name d (some a) =
        if d + depthMembers members ≤ maxDepth then .ok (a, members)
        else .error (.malformed .misplaced)
  | [], _ => by
    rw [docMembers, Members.tagged, depthMembers, Nat.add_zero, if_pos hd]
    rfl
  | (key, j) :: members, h => by
    have hkey : key ≠ tagName := h (key, j) List.mem_cons_self
    have hmembers := tagged_docMembers hd a fun m hm => h m (List.mem_cons_of_mem _ hm)
    have hj : sound (j.doc.toJson d) =
        if d + j.depth ≤ maxDepth then .ok j else .error (.malformed .misplaced) := by
      rw [toJson_doc hd j]
      split_ifs <;> rfl
    rw [docMembers, Members.tagged, depthMembers, sound_ok, ok_bind, if_neg hkey, hj, hmembers]
    exact bind_room fun j (rest : α × List (String × Json)) => (rest.1, (key, j) :: rest.2)

/-- A tagged record comes back as its tag and its members, if there is room for them. -/
theorem tagged_doc {a : α} (ha : variant all name (name a) = .ok a)
    {members : List (String × Json)} (h : ∀ m ∈ members, m.1 ≠ tagName) (d : Nat) :
    (doc (.object ((tagName, .string (name a)) :: members))).tagged all name d =
      if d + 1 + depthMembers members ≤ maxDepth then .ok (a, .named members)
      else .error (.malformed .misplaced) := by
  rw [doc, Doc.tagged]
  rcases Nat.lt_or_ge d maxDepth with hlt | hge
  · have htag : (doc (.string (name a))).asTag all name = .ok a := ha
    rw [enter_of_lt hlt, sound_ok, ok_bind, docMembers, Members.tagged, sound_ok, ok_bind,
      if_pos rfl, unset_none, ok_bind, htag, ok_bind, tagged_docMembers hlt a h]
    split_ifs <;> rfl
  · rw [enter_of_le hge, if_neg (by omega)]
    rfl

end

end RecordQuery.Json
