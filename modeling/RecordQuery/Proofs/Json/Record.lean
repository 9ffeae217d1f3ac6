/-
  RecordQuery.Proofs.Json.Record

  Records and lists from documents. Members are added one after the other, so what every addition
  keeps, every record has; and the members of two lists are added as those of one.
-/

import RecordQuery.Proofs.Json.Depth

namespace RecordQuery.Json

/-! ## Adding members -/

theorem mem_optional {key : String} {value : Option Json} {m : String × Json} :
    m ∈ optional key value ↔ ∃ j, value = some j ∧ m = (key, j) := by
  cases value <;> simp [optional]

section

variable {σ : Type} {add : σ → String → Doc → Decoded σ}

theorem addTo_docMembers_cons (r : σ) (key : String) (j : Json) (members : List (String × Json)) :
    (docMembers ((key, j) :: members)).addTo add r =
      (do (docMembers members).addTo add (← add r key j.doc)) := by
  rw [docMembers, Members.addTo, sound_ok, ok_bind]

/-- Members in front are added before those behind them. -/
theorem addTo_docMembers_append (r : σ) (xs ys : List (String × Json)) :
    (docMembers (xs ++ ys)).addTo add r =
      (do (docMembers ys).addTo add (← (docMembers xs).addTo add r)) := by
  induction xs generalizing r with
  | nil => rw [List.nil_append, docMembers, Members.addTo, ok_bind]
  | cons m xs ih =>
      obtain ⟨key, j⟩ := m
      rw [List.cons_append, addTo_docMembers_cons, addTo_docMembers_cons]
      cases h : add r key j.doc with
      | error e => rfl
      | ok r' => exact ih r'

/-- A member that is left out adds nothing. -/
theorem addTo_optional_none (r : σ) (key : String) :
    (docMembers (optional key none)).addTo add r = .ok r := by
  rw [optional, docMembers, Members.addTo]

theorem addTo_optional_some (r : σ) (key : String) (j : Json) :
    (docMembers (optional key (some j))).addTo add r = add r key j.doc := by
  rw [optional, addTo_docMembers_cons]
  cases add r key j.doc <;> rfl

/-- An optional part is added if it is there. -/
theorem addTo_optional {α : Type} {encode : α → Json} {r r' : σ} {key : String} {part : Option α}
    (hnone : part = none → r' = r)
    (hsome : ∀ a, part = some a → add r key (encode a).doc = .ok r') :
    (docMembers (optional key (part.map encode))).addTo add r = .ok r' := by
  cases part with
  | none =>
      rw [hnone rfl]
      exact addTo_optional_none r key
  | some a =>
      rw [← hsome a rfl]
      exact addTo_optional_some r key (encode a)

/-! ## What every addition keeps -/

variable {P : σ → Prop} (hadd : ∀ {r r' : σ} {key : String} {d : Doc},
  P r → add r key d = .ok r' → P r')

include hadd

/-- What every addition keeps, all members together keep. -/
theorem addTo_members_keeps : ∀ (members : Members) {r r' : σ},
    P r → members.addTo add r = .ok r' → P r'
  | .close, r, r', hr, h => by
    cases h
    exact hr
  | .cut, r, r', _, h => by cases h
  | .stray, r, r', _, h => by cases h
  | .danglingComma, r, r', _, h => by cases h
  | .keyless found, r, r', _, h => by cases h
  | .member key value rest, r, r', hr, h => by
    rw [Members.addTo] at h
    obtain ⟨k, -, h⟩ := bind_eq_ok.mp h
    obtain ⟨s, hs, h⟩ := bind_eq_ok.mp h
    exact addTo_members_keeps rest (hadd hr hs) h

/-- Items are added under the names at their places, so they keep it too. -/
theorem addTo_items_keeps {optional : String → Bool} : ∀ (names : List String) (items : Items)
    {r r' : σ}, P r → items.addTo add optional r names = .ok r' → P r'
  | [], items, r, r', hr, h => by
    rw [Items.addTo] at h
    obtain ⟨_, -, h⟩ := bind_eq_ok.mp h
    cases h
    exact hr
  | name :: names, .close, r, r', hr, h => by
    rw [Items.addTo] at h
    split at h
    next => exact addTo_items_keeps names .close hr h
    next => cases h
  | name :: names, .cut, r, r', _, h => by cases h
  | name :: names, .stray, r, r', _, h => by cases h
  | name :: names, .danglingComma, r, r', _, h => by cases h
  | name :: names, .item value rest, r, r', hr, h => by
    rw [Items.addTo] at h
    obtain ⟨s, hs, h⟩ := bind_eq_ok.mp h
    exact addTo_items_keeps names rest (hadd hr hs) h

/-- A record has what its empty form has and every addition keeps, however it is written. -/
theorem addTo_keeps {optional : String → Bool} {names : List String} {depth : Nat} {doc : Doc}
    {r r' : σ} (hr : P r) (h : doc.addTo add optional names depth r = .ok r') : P r' := by
  cases doc with
  | object members =>
      obtain ⟨_, -, h⟩ := bind_eq_ok.mp h
      exact addTo_members_keeps hadd members hr h
  | array items =>
      obtain ⟨_, -, h⟩ := bind_eq_ok.mp h
      exact addTo_items_keeps hadd names items hr h
  | null => cases h
  | bool => cases h
  | number => cases h
  | string => cases h
  | broken => cases h

end

/-- A part that is required has been read. -/
theorem eq_some_of_required {α : Type} {slot : Option α} {name : String} {a : α}
    (h : required slot name = .ok a) : slot = some a := by
  cases slot with
  | none => cases h
  | some b =>
      cases h
      rfl

/-! ## Filling fields -/

/-- A part may be read only once. -/
theorem unset_eq_ok {α : Type} {slot : Option α} {name : String} {u : Unit} :
    unset slot name = .ok u ↔ slot = none := by
  cases slot with
  | none => exact iff_of_true rfl rfl
  | some a => exact iff_of_false (by rintro ⟨⟩) (by rintro ⟨⟩)

/-- A field is filled if it is empty and its value can be decoded. -/
theorem fill_eq_ok {α β σ : Type} {slot : Option α} {name : String} {value : Decoded β}
    {fill : β → σ} {r : σ} :
    (do unset slot name; return fill (← value)) = (.ok r : Decoded σ) ↔
      slot = none ∧ ∃ b, value = .ok b ∧ fill b = r := by
  simp only [bind_eq_ok, unset_eq_ok, pure_eq_ok, exists_const]

/-! ## Lists -/

/-- A list comes back if each of its items does. -/
theorem decodeAll_docItems {α : Type} {decode : Doc → Decoded α} {encode : α → Json}
    (h : ∀ a, decode (encode a).doc = .ok a) (as : List α) :
    (docItems (as.map encode)).decodeAll decode = .ok as := by
  induction as with
  | nil => rfl
  | cons a as ih =>
      rw [List.map_cons, docItems, Items.decodeAll, h, ok_bind, ih, ok_bind]
      rfl

theorem asStrings_map (as : List String) : asStrings (.array (as.map .string)) = .ok as := by
  show (as.map string).mapM asString = .ok as
  induction as with
  | nil => rfl
  | cons a as ih =>
      rw [List.map_cons, List.mapM_cons, ih]
      rfl

/-! ## Tags among members -/

section

variable {α : Type} {all : List α} {name : α → String}

/-- Behind the tag no other member is taken for it. -/
theorem tagAmong_of_ne (a : α) {members : List (String × Json)}
    (h : ∀ m ∈ members, m.1 ≠ tagName) : tagAmong all name (some a) members = .ok a := by
  induction members with
  | nil => rfl
  | cons m members ih =>
      obtain ⟨key, j⟩ := m
      have hkey : key ≠ tagName := h (key, j) List.mem_cons_self
      rw [tagAmong, if_neg hkey]
      exact ih fun m hm => h m (List.mem_cons_of_mem _ hm)

/-- The tag is found where it stands in front of members with other keys. -/
theorem tagAmong_cons {a : α} (ha : variant all name (name a) = .ok a)
    {members : List (String × Json)} (h : ∀ m ∈ members, m.1 ≠ tagName) :
    tagAmong all name none ((tagName, .string (name a)) :: members) = .ok a := by
  have htag : asTag all name (.string (name a)) = .ok a := ha
  rw [tagAmong, if_pos rfl, unset_none, ok_bind, htag, ok_bind, tagAmong_of_ne a h]

theorem mem_of_tag {j : Json} {a : α} (h : j.asTag all name = .ok a) : a ∈ all := by
  cases j with
  | string s => exact mem_of_variant h
  | number n =>
      cases n with
      | integer i =>
          rw [asTag] at h
          split at h
          next => cases h
          next =>
            split at h
            next b hb =>
              cases h
              exact List.mem_of_getElem? hb
            next => cases h
      | other => cases h
  | null => cases h
  | bool => cases h
  | array => cases h
  | object => cases h

/-- The tag that is found is one of those that may be there. -/
theorem mem_of_tagAmong {members : List (String × Json)} : ∀ {tag : Option α} {a : α},
    tagAmong all name tag members = .ok a → (∀ b, tag = some b → b ∈ all) → a ∈ all := by
  induction members with
  | nil =>
      intro tag a h htag
      cases tag with
      | none => cases h
      | some b =>
          cases h
          exact htag a rfl
  | cons m members ih =>
      obtain ⟨key, j⟩ := m
      intro tag a h htag
      rw [tagAmong] at h
      split at h
      next =>
        obtain ⟨_, -, h⟩ := bind_eq_ok.mp h
        obtain ⟨b, hb, h⟩ := bind_eq_ok.mp h
        refine ih h ?_
        rintro _ ⟨⟩
        exact mem_of_tag hb
      next => exact ih h htag

end

end RecordQuery.Json
