/-
  RecordQuery.Proofs.Json.Field

  Where the parts of a record come from. A record is written as an object or as an array, and in
  both a field has one place at most: the member with its key, or the item at its index. What a
  decoded record holds in a part is what the document has at that place, and nothing else of the
  document matters for it.
-/

import RecordQuery.Proofs.Json.MemberOrder

namespace RecordQuery.Json

/-! ## The place of a field -/

/-- The value of the first member with a key. -/
def Members.lookup? (key : String) : Members → Option Doc
  | .member (.ok k) value rest => if k = key then some value else rest.lookup? key
  | _ => none

/-- The item at the index of a name. -/
def Items.lookup? (key : String) : List String → Items → Option Doc
  | name :: names, .item value rest =>
    if name = key then some value else Items.lookup? key names rest
  | _, _ => none

/-- The value of a field, which is a member of an object or an item of an array. The fields of an
    array are told by the names in their order. -/
def Doc.field? (names : List String) (key : String) : Doc → Option Doc
  | .object members => members.lookup? key
  | .array items => items.lookup? key names
  | _ => none

/-! ## Parts that are filled -/

section

variable {σ α β : Type}

/-- Among the records with `P`, a part is filled by its own field only, and only while it is empty.
    -/
structure Fills (P : σ → Prop) (add : σ → String → α → Decoded σ) (key : String)
    (part : σ → Option β) (decode : α → Decoded β) : Prop where
  keeps {r r' : σ} {k : String} {a : α} (hr : P r) (h : add r k a = .ok r') : P r'
  fill {r r' : σ} {a : α} (hr : P r) (h : add r key a = .ok r') :
    part r = none ∧ ∃ b, decode a = .ok b ∧ part r' = some b
  other {r r' : σ} {k : String} {a : α} (hr : P r) (hk : k ≠ key) (h : add r k a = .ok r') :
    part r' = part r

variable {P : σ → Prop} {key : String} {part : σ → Option β}

/-- A part that is filled stays as it is. -/
theorem Fills.stays {add : σ → String → α → Decoded σ} {decode : α → Decoded β}
    (hf : Fills P add key part decode) {r r' : σ} {k : String} {a : α} {b : β}
    (hr : P r ∧ part r = some b) (h : add r k a = .ok r') : P r' ∧ part r' = some b := by
  refine ⟨hf.keeps hr.1 h, ?_⟩
  by_cases hk : k = key
  · subst hk
    cases (hf.fill hr.1 h).1.symm.trans hr.2
  · rw [hf.other hr.1 hk h, hr.2]

section

variable {add : σ → String → Doc → Decoded σ} {decode : Doc → Decoded β}
  (hf : Fills P add key part decode)

include hf

/-- A part that is filled has been decoded from the member with its key. -/
theorem lookup?_of_addTo_members : ∀ (members : Members) {r r' : σ} {b : β}, P r → part r = none →
    members.addTo add r = .ok r' → part r' = some b →
      ∃ d, members.lookup? key = some d ∧ decode d = .ok b
  | .close, r, r', b, _, hnone, h, hb => by
    cases h
    cases hnone.symm.trans hb
  | .cut, r, r', b, _, _, h, _ => by cases h
  | .stray, r, r', b, _, _, h, _ => by cases h
  | .danglingComma, r, r', b, _, _, h, _ => by cases h
  | .keyless found, r, r', b, _, _, h, _ => by cases h
  | .member key' value rest, r, r', b, hr, hnone, h, hb => by
    obtain ⟨k, s, rfl, hs, hrest⟩ := addTo_member_eq_ok.mp h
    rw [Members.lookup?]
    by_cases hk : k = key
    · subst hk
      obtain ⟨-, b', hdecode, hb'⟩ := hf.fill hr hs
      have hend := (addTo_members_keeps hf.stays rest ⟨hf.keeps hr hs, hb'⟩ hrest).2
      obtain rfl : b = b' := Option.some.inj (hb.symm.trans hend)
      exact ⟨value, if_pos rfl, hdecode⟩
    · rw [if_neg hk]
      exact lookup?_of_addTo_members rest (hf.keeps hr hs) ((hf.other hr hk hs).trans hnone) hrest hb

/-- A part that is filled has been decoded from the item at its place. -/
theorem lookup?_of_addTo_items {optional : String → Bool} : ∀ (names : List String) (items : Items)
    {r r' : σ} {b : β}, P r → part r = none → items.addTo add optional r names = .ok r' →
      part r' = some b → ∃ d, items.lookup? key names = some d ∧ decode d = .ok b
  | [], items, r, r', b, _, hnone, h, hb => by
    obtain ⟨_, -, h⟩ := bind_eq_ok.mp h
    cases h
    cases hnone.symm.trans hb
  | name :: names, .close, r, r', b, hr, hnone, h, hb => by
    rw [Items.addTo] at h
    split at h
    next =>
      obtain ⟨d, hd, -⟩ := lookup?_of_addTo_items names .close hr hnone h hb
      cases names <;> cases hd
    next => cases h
  | name :: names, .cut, r, r', b, _, _, h, _ => by cases h
  | name :: names, .stray, r, r', b, _, _, h, _ => by cases h
  | name :: names, .danglingComma, r, r', b, _, _, h, _ => by cases h
  | name :: names, .item value rest, r, r', b, hr, hnone, h, hb => by
    obtain ⟨s, hs, hrest⟩ := addTo_item_eq_ok.mp h
    rw [Items.lookup?]
    by_cases hk : name = key
    · subst hk
      obtain ⟨-, b', hdecode, hb'⟩ := hf.fill hr hs
      have hend := (addTo_items_keeps hf.stays names rest ⟨hf.keeps hr hs, hb'⟩ hrest).2
      obtain rfl : b = b' := Option.some.inj (hb.symm.trans hend)
      exact ⟨value, if_pos rfl, hdecode⟩
    · rw [if_neg hk]
      exact lookup?_of_addTo_items names rest (hf.keeps hr hs) ((hf.other hr hk hs).trans hnone)
        hrest hb

/-- What a record has in a part is decoded from the field that fills it. -/
theorem field?_of_addTo {optional : String → Bool} {names : List String} {n : Nat} {d : Doc}
    {r r' : σ} {b : β} (hr : P r) (hnone : part r = none)
    (h : d.addTo add optional names n r = .ok r') (hb : part r' = some b) :
    ∃ f, d.field? names key = some f ∧ decode f = .ok b := by
  cases d with
  | object members =>
      obtain ⟨_, -, h⟩ := bind_eq_ok.mp h
      exact lookup?_of_addTo_members hf members hr hnone h hb
  | array items =>
      obtain ⟨_, -, h⟩ := bind_eq_ok.mp h
      exact lookup?_of_addTo_items hf names items hr hnone h hb
  | null => cases h
  | bool => cases h
  | number => cases h
  | string => cases h
  | broken => cases h

end

/-- What one addition keeps all of them keep. -/
theorem foldlM_keeps (add : σ → String → Json → Decoded σ) {Q : σ → Prop}
    (hadd : ∀ {r r' : σ} {k : String} {j : Json}, Q r → add r k j = .ok r' → Q r')
    {ms : List (String × Json)} {r r' : σ} (hr : Q r)
    (h : ms.foldlM (fun r (k, j) => add r k j) r = .ok r') : Q r' := by
  induction ms generalizing r with
  | nil =>
      cases h
      exact hr
  | cons m ms ih =>
      obtain ⟨s, hs, hrest⟩ := bind_eq_ok.mp h
      exact ih (hadd hr hs) hrest

/-- The same for members that have been read as values. -/
theorem lookup_of_foldlM {add : σ → String → Json → Decoded σ} {decode : Json → Decoded β}
    (hf : Fills P add key part decode) {ms : List (String × Json)} {r r' : σ} {b : β} (hr : P r)
    (hnone : part r = none) (h : ms.foldlM (fun r (k, j) => add r k j) r = .ok r')
    (hb : part r' = some b) : ∃ j, ms.lookup key = some j ∧ decode j = .ok b := by
  induction ms generalizing r with
  | nil =>
      cases h
      cases hnone.symm.trans hb
  | cons m ms ih =>
      obtain ⟨k, j⟩ := m
      obtain ⟨s, hs, hrest⟩ := bind_eq_ok.mp h
      rw [List.lookup_cons]
      by_cases hk : k = key
      · subst hk
        obtain ⟨-, b', hdecode, hb'⟩ := hf.fill hr hs
        have hend := foldlM_keeps add hf.stays ⟨hf.keeps hr hs, hb'⟩ hrest
        obtain rfl : b = b' := Option.some.inj (hb.symm.trans hend.2)
        exact ⟨j, by simp, hdecode⟩
      · have hbeq : (key == k) = false := beq_false_of_ne (Ne.symm hk)
        rw [hbeq]
        exact ih (hf.keeps hr hs) ((hf.other hr hk hs).trans hnone) hrest

end

/-! ## Tagged records -/

section

variable {α : Type} {all : List α} {name : α → String} {n : Nat}

/-- The value of a field of a tagged record, its tag aside. -/
def Fields.field? (names : List String) (key : String) : Fields → Option Json
  | .named members => members.lookup key
  | .positional items => (names.zip items).lookup key

theorem eq_of_tagged_members : ∀ (members : Members) {a b : α} {js : List (String × Json)},
    members.tagged all name n (some b) = .ok (a, js) → a = b
  | .close, a, b, js, h => by
    cases h
    rfl
  | .cut, a, b, js, h => by cases h
  | .stray, a, b, js, h => by cases h
  | .danglingComma, a, b, js, h => by cases h
  | .keyless found, a, b, js, h => by cases h
  | .member key' value rest, a, b, js, h => by
    obtain ⟨k, rfl, ⟨-, hsome, -⟩ | ⟨-, j, js', -, hrest, -⟩⟩ := tagged_member_eq_ok.mp h
    · cases hsome
    · exact eq_of_tagged_members rest hrest

/-- The tag of members has been decoded from the one with its key. -/
theorem tag_of_tagged_members : ∀ (members : Members) {a : α} {js : List (String × Json)},
    members.tagged all name n none = .ok (a, js) →
      ∃ d, members.lookup? tagName = some d ∧ d.asTag all name = .ok a
  | .close, a, js, h => by cases h
  | .cut, a, js, h => by cases h
  | .stray, a, js, h => by cases h
  | .danglingComma, a, js, h => by cases h
  | .keyless found, a, js, h => by cases h
  | .member key' value rest, a, js, h => by
    obtain ⟨k, rfl, ⟨rfl, -, b, hb, hrest⟩ | ⟨hk, j, js', -, hrest, -⟩⟩ :=
      tagged_member_eq_ok.mp h
    · rw [← eq_of_tagged_members rest hrest] at hb
      exact ⟨value, if_pos rfl, hb⟩
    · rw [Members.lookup?, if_neg hk]
      exact tag_of_tagged_members rest hrest

theorem lookup?_of_tagged_members {key : String} (hkey : key ≠ tagName) {j : Json} :
    ∀ (members : Members) {tag : Option α} {a : α} {js : List (String × Json)},
      members.tagged all name n tag = .ok (a, js) → js.lookup key = some j →
        ∃ d, members.lookup? key = some d ∧ d.toJson n = .ok j
  | .close, tag, a, js, h, hj => by
    obtain ⟨b, -, h⟩ := bind_eq_ok.mp h
    cases h
    cases hj
  | .cut, tag, a, js, h, _ => by cases h
  | .stray, tag, a, js, h, _ => by cases h
  | .danglingComma, tag, a, js, h, _ => by cases h
  | .keyless found, tag, a, js, h, _ => by cases h
  | .member key' value rest, tag, a, js, h, hj => by
    obtain ⟨k, rfl, ⟨rfl, -, b, -, hrest⟩ | ⟨-, i, js', hi, hrest, rfl⟩⟩ :=
      tagged_member_eq_ok.mp h
    · rw [Members.lookup?, if_neg hkey.symm]
      exact lookup?_of_tagged_members hkey rest hrest hj
    · rw [Members.lookup?]
      rw [List.lookup_cons] at hj
      by_cases hk : k = key
      · subst hk
        obtain rfl : i = j := by simpa using hj
        exact ⟨value, if_pos rfl, hi⟩
      · have hbeq : (key == k) = false := beq_false_of_ne (Ne.symm hk)
        rw [hbeq] at hj
        rw [if_neg hk]
        exact lookup?_of_tagged_members hkey rest hrest hj

theorem lookup?_of_toJsons {key : String} {j : Json} : ∀ (items : Items) (names : List String)
    {js : List Json}, items.toJsons n = .ok js → (names.zip js).lookup key = some j →
      ∃ d, items.lookup? key names = some d ∧ d.toJson n = .ok j
  | .close, names, js, h, hj => by
    cases h
    rw [List.zip_nil_right] at hj
    cases hj
  | .cut, names, js, h, _ => by cases h
  | .stray, names, js, h, _ => by cases h
  | .danglingComma, names, js, h, _ => by cases h
  | .item value rest, [], js, h, hj => by cases hj
  | .item value rest, name :: names, js, h, hj => by
    obtain ⟨i, js', hi, hrest, rfl⟩ := toJsons_item_eq_ok.mp h
    rw [List.zip_cons_cons, List.lookup_cons] at hj
    rw [Items.lookup?]
    by_cases hk : name = key
    · subst hk
      obtain rfl : i = j := by simpa using hj
      exact ⟨value, if_pos rfl, hi⟩
    · have hbeq : (key == name) = false := beq_false_of_ne (Ne.symm hk)
      rw [hbeq] at hj
      rw [if_neg hk]
      exact lookup?_of_toJsons rest names hrest hj

/-- The tag of a record, which stands in front of its fields in an array. -/
def Doc.tag? (d : Doc) : Option Doc :=
  d.field? [tagName] tagName

/-- The tag and the fields of a tagged record are read from where they stand in the document. -/
theorem field?_of_tagged {d : Doc} {a : α} {fields : Fields}
    (h : d.tagged all name n = .ok (a, fields)) :
    (∃ t, d.tag? = some t ∧ t.asTag all name = .ok a) ∧
      ∀ (names : List String) {key : String} {j : Json}, key ≠ tagName →
        fields.field? names key = some j →
          ∃ f, d.field? (tagName :: names) key = some f ∧ f.toJson (n + 1) = .ok j := by
  cases d with
  | object members =>
      obtain ⟨_, -, h⟩ := bind_eq_ok.mp h
      obtain ⟨⟨b, js⟩, htagged, h⟩ := bind_eq_ok.mp h
      cases h
      exact ⟨tag_of_tagged_members members htagged,
        fun _ _ _ hkey hj => lookup?_of_tagged_members hkey members htagged hj⟩
  | array items =>
      obtain ⟨_, -, h⟩ := bind_eq_ok.mp h
      cases items with
      | item first rest =>
          obtain ⟨b, hb, h⟩ := bind_eq_ok.mp h
          obtain ⟨js, hjs, h⟩ := bind_eq_ok.mp h
          cases h
          have hfirst : (Items.item first rest).lookup? tagName [tagName] = some first := if_pos rfl
          refine ⟨⟨first, hfirst, hb⟩, fun names key j hkey hj => ?_⟩
          rw [Doc.field?, Items.lookup?, if_neg hkey.symm]
          exact lookup?_of_toJsons rest names (mapError_eq_ok.mp hjs) hj
      | close => cases h
      | cut => cases h
      | stray => cases h
      | danglingComma => cases h
  | null => cases h
  | bool => cases h
  | number => cases h
  | string => cases h
  | broken => cases h

end

end RecordQuery.Json
