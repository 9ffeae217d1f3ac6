/-
  RecordQuery.Proofs.Json.MemberOrder

  The order of members. Two documents are the same up to it if their objects have the same members,
  however these are arranged, at every level of nesting. What is decoded from one is decoded from
  the other: a record is told by the fields that have been added to it, and two additions that
  succeed in one order succeed in the other. Of two failures nothing is said, for the first problem
  of a text is the one that is reported.
-/

import RecordQuery.Proofs.Json.Record

namespace RecordQuery.Json

/-! ## Values and documents up to the order of members -/

mutual

/-- The values differ in the order of members only. -/
inductive Reordered : Json → Json → Prop
  | refl (j : Json) : Reordered j j
  | array {js js' : List Json} (h : ReorderedItems js js') : Reordered (.array js) (.array js')
  | object {ms ms' : List (String × Json)} (h : ReorderedMembers ms ms') :
    Reordered (.object ms) (.object ms')

/-- The items stand in the same order, and differ in that of the members inside of them. -/
inductive ReorderedItems : List Json → List Json → Prop
  | refl (js : List Json) : ReorderedItems js js
  | cons {j j' : Json} {js js' : List Json} (hj : Reordered j j') (hjs : ReorderedItems js js') :
    ReorderedItems (j :: js) (j' :: js')

/-- The members stand in any order. -/
inductive ReorderedMembers : List (String × Json) → List (String × Json) → Prop
  | refl (ms : List (String × Json)) : ReorderedMembers ms ms
  | cons (key : String) {j j' : Json} {ms ms' : List (String × Json)} (hj : Reordered j j')
    (hms : ReorderedMembers ms ms') : ReorderedMembers ((key, j) :: ms) ((key, j') :: ms')
  | swap (m m' : String × Json) (ms : List (String × Json)) :
    ReorderedMembers (m :: m' :: ms) (m' :: m :: ms)
  | trans {ms ms' ms'' : List (String × Json)} (h : ReorderedMembers ms ms')
    (h' : ReorderedMembers ms' ms'') : ReorderedMembers ms ms''

end

/-- Permuted members are the same members. -/
theorem ReorderedMembers.of_perm {ms ms' : List (String × Json)} (h : ms.Perm ms') :
    ReorderedMembers ms ms' := by
  induction h with
  | nil => exact .refl []
  | cons m _ ih => exact .cons m.1 (.refl m.2) ih
  | swap m m' ms => exact .swap m' m ms
  | trans _ _ ih ih' => exact .trans ih ih'

mutual

/-- The documents differ in the order of members only. -/
inductive Doc.Reordered : Doc → Doc → Prop
  | refl (d : Doc) : Doc.Reordered d d
  | array {is is' : Items} (h : Items.Reordered is is') : Doc.Reordered (.array is) (.array is')
  | object {ms ms' : Members} (h : Members.Reordered ms ms') :
    Doc.Reordered (.object ms) (.object ms')

/-- The items stand in the same order, and differ in that of the members inside of them. -/
inductive Items.Reordered : Items → Items → Prop
  | refl (is : Items) : Items.Reordered is is
  | item {d d' : Doc} {is is' : Items} (hd : Doc.Reordered d d') (his : Items.Reordered is is') :
    Items.Reordered (.item d is) (.item d' is')

/-- The members stand in any order. -/
inductive Members.Reordered : Members → Members → Prop
  | refl (ms : Members) : Members.Reordered ms ms
  | member (key : Except Stop String) {d d' : Doc} {ms ms' : Members} (hd : Doc.Reordered d d')
    (hms : Members.Reordered ms ms') : Members.Reordered (.member key d ms) (.member key d' ms')
  | swap (key key' : Except Stop String) (d d' : Doc) (ms : Members) :
    Members.Reordered (.member key d (.member key' d' ms)) (.member key' d' (.member key d ms))
  | trans {ms ms' ms'' : Members} (h : Members.Reordered ms ms')
    (h' : Members.Reordered ms' ms'') : Members.Reordered ms ms''

end

/-- The texts hold the same but for the order of members, the blanks and the way strings are
    escaped. -/
structure Source.Reordered (s s' : Source) : Prop where
  doc : s.doc.Reordered s'.doc
  trailing : s.trailing = s'.trailing

mutual

/-- The documents of values differ as these do. -/
theorem Reordered.doc : ∀ {j j' : Json}, Reordered j j' → j.doc.Reordered j'.doc
  | _, _, .refl j => .refl j.doc
  | _, _, .array h => .array h.docItems
  | _, _, .object h => .object h.docMembers

theorem ReorderedItems.docItems : ∀ {js js' : List Json}, ReorderedItems js js' →
    (docItems js).Reordered (docItems js')
  | _, _, .refl js => .refl (Json.docItems js)
  | _, _, .cons hj hjs => .item hj.doc hjs.docItems

theorem ReorderedMembers.docMembers : ∀ {ms ms' : List (String × Json)}, ReorderedMembers ms ms' →
    (docMembers ms).Reordered (docMembers ms')
  | _, _, .refl ms => .refl (Json.docMembers ms)
  | _, _, .cons key hj hms => .member (.ok key) hj.doc hms.docMembers
  | _, _, .swap (key, j) (key', j') ms =>
    .swap (.ok key) (.ok key') j.doc j'.doc (Json.docMembers ms)
  | _, _, .trans h h' => .trans h.docMembers h'.docMembers

end

mutual

/-- Numbers are integers of 64 bits in any order of members. -/
theorem Reordered.integral : ∀ {j j' : Json}, Reordered j j' → j.Integral → j'.Integral
  | _, _, .refl _, h => h
  | _, _, .array hjs, .array h => .array (hjs.integral h)
  | _, _, .object hms, .object h => .object (hms.integral h)

theorem ReorderedItems.integral : ∀ {js js' : List Json}, ReorderedItems js js' →
    (∀ j ∈ js, j.Integral) → ∀ j ∈ js', j.Integral
  | _, _, .refl _, h => h
  | _, _, .cons hj hjs, h => by
    rw [List.forall_mem_cons] at h ⊢
    exact ⟨hj.integral h.1, hjs.integral h.2⟩

theorem ReorderedMembers.integral : ∀ {ms ms' : List (String × Json)}, ReorderedMembers ms ms' →
    (∀ m ∈ ms, m.2.Integral) → ∀ m ∈ ms', m.2.Integral
  | _, _, .refl _, h => h
  | _, _, .cons key hj hms, h => by
    rw [List.forall_mem_cons] at h ⊢
    exact ⟨hj.integral h.1, hms.integral h.2⟩
  | _, _, .swap m m' ms, h => by
    simp only [List.forall_mem_cons] at h ⊢
    exact ⟨h.2.1, h.1, h.2.2⟩
  | _, _, .trans hms hms', h => hms'.integral (hms.integral h)

end

/-- What is computed from a value is computed from every value that is related to it. Where nothing
    is computed, nothing is asked. -/
def Keeps {ε α β : Type} (R : α → α → Prop) (f : α → Except ε β) : Prop :=
  ∀ ⦃x y : α⦄, R x y → ∀ ⦃b : β⦄, f x = .ok b → f y = .ok b

/-! ## Skipping -/

/-- A member is skipped if its value is and the members behind it are. -/
theorem skip_member_eq_ok {key : Except Stop String} {d : Doc} {ms : Members} :
    (Members.member key d ms).skip = .ok () ↔ d.skip = .ok () ∧ ms.skip = .ok () := by
  rw [Members.skip, bind_eq_ok]
  exact ⟨fun ⟨_, h⟩ => h, fun h => ⟨(), h⟩⟩

mutual

/-- A document can be skipped in any order of its members: nothing but a break in it can prevent
    that. -/
theorem Doc.Reordered.skip : ∀ {d d' : Doc}, d.Reordered d' → d.skip = .ok () → d'.skip = .ok ()
  | _, _, .refl _, h => h
  | _, _, .array his, h => his.skip h
  | _, _, .object hms, h => hms.skip h

theorem Items.Reordered.skip : ∀ {is is' : Items}, is.Reordered is' → is.skip = .ok () →
    is'.skip = .ok ()
  | _, _, .refl _, h => h
  | _, _, .item hd his, h => by
    rw [Items.skip] at h ⊢
    obtain ⟨_, hvalue, hrest⟩ := bind_eq_ok.mp h
    rw [hd.skip hvalue, ok_bind, his.skip hrest]

theorem Members.Reordered.skip : ∀ {ms ms' : Members}, ms.Reordered ms' → ms.skip = .ok () →
    ms'.skip = .ok ()
  | _, _, .refl _, h => h
  | _, _, .member _ hd hms, h => by
    obtain ⟨hvalue, hrest⟩ := skip_member_eq_ok.mp h
    exact skip_member_eq_ok.mpr ⟨hd.skip hvalue, hms.skip hrest⟩
  | _, _, .swap _ _ _ _ _, h => by
    obtain ⟨hvalue, hmore⟩ := skip_member_eq_ok.mp h
    obtain ⟨hvalue', hrest⟩ := skip_member_eq_ok.mp hmore
    exact skip_member_eq_ok.mpr ⟨hvalue', skip_member_eq_ok.mpr ⟨hvalue, hrest⟩⟩
  | _, _, .trans hms hms', h => hms'.skip (hms.skip h)

end

/-! ## Whole values -/

theorem toJsons_item_eq_ok {n : Nat} {d : Doc} {is : Items} {js : List Json} :
    (Items.item d is).toJsons n = .ok js ↔
      ∃ j rest, d.toJson n = .ok j ∧ is.toJsons n = .ok rest ∧ j :: rest = js := by
  simp only [Items.toJsons, bind_eq_ok, pure_eq_ok, exists_and_left]

/-- Members have values if the first key is sound, its value has one, and those behind it have. -/
theorem toJsons_member_eq_ok {n : Nat} {key : Except Stop String} {d : Doc} {ms : Members}
    {js : List (String × Json)} :
    (Members.member key d ms).toJsons n = .ok js ↔
      ∃ k j rest, key = .ok k ∧ d.toJson n = .ok j ∧ ms.toJsons n = .ok rest ∧
        (k, j) :: rest = js := by
  simp only [Members.toJsons, bind_eq_ok, pure_eq_ok, exists_and_left]

mutual

/-- The values of two documents differ as these do, and there is room for one if there is for the
    other. -/
theorem Doc.Reordered.toJson {n : Nat} : ∀ {d d' : Doc}, d.Reordered d' → ∀ {j : Json},
    d.toJson n = .ok j → ∃ j', d'.toJson n = .ok j' ∧ Json.Reordered j j'
  | _, _, .refl _, j, h => ⟨j, h, .refl j⟩
  | _, _, .array his, j, h => by
    rw [Doc.toJson] at h ⊢
    obtain ⟨_, hroom, h⟩ := bind_eq_ok.mp h
    obtain ⟨js, hjs, h⟩ := bind_eq_ok.mp h
    obtain rfl := pure_eq_ok.mp h
    obtain ⟨js', hjs', hreordered⟩ := his.toJsons hjs
    rw [hroom, ok_bind, hjs', ok_bind]
    exact ⟨_, rfl, .array hreordered⟩
  | _, _, .object hms, j, h => by
    rw [Doc.toJson] at h ⊢
    obtain ⟨_, hroom, h⟩ := bind_eq_ok.mp h
    obtain ⟨js, hjs, h⟩ := bind_eq_ok.mp h
    obtain rfl := pure_eq_ok.mp h
    obtain ⟨js', hjs', hreordered⟩ := hms.toJsons hjs
    rw [hroom, ok_bind, hjs', ok_bind]
    exact ⟨_, rfl, .object hreordered⟩

theorem Items.Reordered.toJsons {n : Nat} : ∀ {is is' : Items}, is.Reordered is' →
    ∀ {js : List Json}, is.toJsons n = .ok js →
      ∃ js', is'.toJsons n = .ok js' ∧ ReorderedItems js js'
  | _, _, .refl _, js, h => ⟨js, h, .refl js⟩
  | _, _, .item hd his, js, h => by
    obtain ⟨j, rest, hj, hrest, rfl⟩ := toJsons_item_eq_ok.mp h
    obtain ⟨j', hj', hvalue⟩ := hd.toJson hj
    obtain ⟨rest', hrest', hmore⟩ := his.toJsons hrest
    exact ⟨_, toJsons_item_eq_ok.mpr ⟨j', rest', hj', hrest', rfl⟩, .cons hvalue hmore⟩

theorem Members.Reordered.toJsons {n : Nat} : ∀ {ms ms' : Members}, ms.Reordered ms' →
    ∀ {js : List (String × Json)}, ms.toJsons n = .ok js →
      ∃ js', ms'.toJsons n = .ok js' ∧ ReorderedMembers js js'
  | _, _, .refl _, js, h => ⟨js, h, .refl js⟩
  | _, _, .member _ hd hms, js, h => by
    obtain ⟨k, j, rest, hk, hj, hrest, rfl⟩ := toJsons_member_eq_ok.mp h
    obtain ⟨j', hj', hvalue⟩ := hd.toJson hj
    obtain ⟨rest', hrest', hmore⟩ := hms.toJsons hrest
    exact ⟨_, toJsons_member_eq_ok.mpr ⟨k, j', rest', hk, hj', hrest', rfl⟩, .cons k hvalue hmore⟩
  | _, _, .swap _ _ _ _ _, js, h => by
    obtain ⟨k, j, _, hk, hj, hmore, rfl⟩ := toJsons_member_eq_ok.mp h
    obtain ⟨k', j', rest, hk', hj', hrest, rfl⟩ := toJsons_member_eq_ok.mp hmore
    have hmore' := toJsons_member_eq_ok.mpr ⟨k, j, rest, hk, hj, hrest, rfl⟩
    exact ⟨_, toJsons_member_eq_ok.mpr ⟨k', j', _, hk', hj', hmore', rfl⟩, .swap _ _ rest⟩
  | _, _, .trans hms hms', js, h => by
    obtain ⟨js', hjs', hreordered⟩ := hms.toJsons h
    obtain ⟨js'', hjs'', hreordered'⟩ := hms'.toJsons hjs'
    exact ⟨js'', hjs'', .trans hreordered hreordered'⟩

end

/-! ## Scalars -/

section

variable {ε α : Type}

/-- A scalar has no members that could stand in another order. -/
theorem Doc.keeps_of_scalar {f : Doc → Except ε α} (harray : ∀ is a, f (.array is) ≠ .ok a)
    (hobject : ∀ ms a, f (.object ms) ≠ .ok a) : Keeps Doc.Reordered f := by
  rintro _ _ (_ | h | h) a ha
  · exact ha
  · exact absurd ha (harray _ a)
  · exact absurd ha (hobject _ a)

/-- What goes on from a result that is kept is kept. -/
theorem Keeps.bind {β γ : Type} {R : β → β → Prop} {f : β → Except ε γ} (h : Keeps R f)
    (g : γ → Except ε α) : Keeps R (fun b => f b >>= g) := by
  intro x y hxy a ha
  obtain ⟨c, hc, hg⟩ := bind_eq_ok.mp ha
  exact bind_eq_ok.mpr ⟨c, h hxy hc, hg⟩

end

theorem Doc.keeps_asString : Keeps Doc.Reordered Doc.asString :=
  Doc.keeps_of_scalar (by rintro _ _ ⟨⟩) (by rintro _ _ ⟨⟩)

theorem Doc.keeps_asUnsigned : Keeps Doc.Reordered Doc.asUnsigned :=
  Doc.keeps_of_scalar (by rintro _ _ ⟨⟩) (by rintro _ _ ⟨⟩)

/-- A value that may be `null` is read alike in any order of its members. -/
theorem Doc.keeps_asOption {α : Type} {decode : Doc → Decoded α} (h : Keeps Doc.Reordered decode) :
    Keeps Doc.Reordered (Doc.asOption decode) := by
  rintro _ _ (_ | hds | hds) a ha
  · exact ha
  · obtain ⟨b, hb, rfl⟩ := map_eq_ok.mp ha
    exact map_eq_ok.mpr ⟨b, h (.array hds) hb, rfl⟩
  · obtain ⟨b, hb, rfl⟩ := map_eq_ok.mp ha
    exact map_eq_ok.mpr ⟨b, h (.object hds) hb, rfl⟩

theorem Doc.keeps_asTag {α : Type} (all : List α) (name : α → String) :
    Keeps Doc.Reordered (Doc.asTag all name) :=
  Doc.keeps_asString.bind (variant all name)

/-! ## Alternatives -/

/-- No members can only stand in one order. -/
theorem Members.Reordered.eq_close : ∀ {ms ms' : Members}, ms.Reordered ms' → ms = .close →
    ms' = .close
  | _, _, .refl _, h => h
  | _, _, .trans hms hms', h => hms'.eq_close (hms.eq_close h)

/-- One member that is `null` can only stand in one order. -/
theorem Members.Reordered.eq_single {key : Except Stop String} : ∀ {ms ms' : Members},
    ms.Reordered ms' → ms = .member key .null .close → ms' = .member key .null .close
  | _, _, .refl _, h => h
  | _, _, .member _ hd hms, h => by
    obtain ⟨rfl, rfl, hclose⟩ := Members.member.inj h
    cases hd
    rw [hms.eq_close hclose]
  | _, _, .trans hms hms', h => hms'.eq_single (hms.eq_single h)

section

variable {α : Type} {all : List α} {name : α → String} {a : α}

/-- An object is read as a variant if it has one member, with its name for a key and `null` for a
    value. -/
theorem asVariantMember_eq_ok {ms : Members} :
    Doc.asVariantMember all name ms = .ok a ↔
      ∃ key, ms = .member (.ok key) .null .close ∧ variant all name key = .ok a := by
  constructor
  · intro h
    cases ms with
    | member key value rest =>
        rw [Doc.asVariantMember] at h
        obtain ⟨k, hk, hmore⟩ := bind_eq_ok.mp h
        obtain ⟨b, hb, hmore⟩ := bind_eq_ok.mp hmore
        obtain ⟨_, hnull, hend⟩ := bind_eq_ok.mp hmore
        have hvalue : value = .null := by
          cases value with
          | null => rfl
          | _ => cases hnull
        cases rest with
        | close =>
            cases hend
            exact ⟨k, by rw [mapError_eq_ok.mp hk, hvalue], hb⟩
        | _ => cases hend
    | _ => cases h
  · rintro ⟨key, rfl, h⟩
    rw [Doc.asVariantMember, sound_ok, ok_bind, h]
    rfl

end

/-- A variant is read alike, as a string or as an object of one member. -/
theorem Doc.keeps_asVariant {α : Type} (all : List α) (name : α → String) (n : Nat) :
    Keeps Doc.Reordered (Doc.asVariant all name n) := by
  rintro _ _ (_ | his | hms) a ha
  · exact ha
  · cases ha
  · obtain ⟨_, hroom, ha⟩ := bind_eq_ok.mp ha
    obtain ⟨key, hsingle, hkey⟩ := asVariantMember_eq_ok.mp ha
    have hsingle' := asVariantMember_eq_ok.mpr ⟨key, hms.eq_single hsingle, hkey⟩
    exact bind_eq_ok.mpr ⟨(), hroom, hsingle'⟩

/-! ## Records and lists -/

/-- Two additions that succeed one after the other succeed the other way round, and make the same
    record. -/
def Interchanges {σ : Type} (add : σ → String → Doc → Decoded σ) : Prop :=
  ∀ ⦃r r₁ r₂ : σ⦄ ⦃key key' : String⦄ ⦃d d' : Doc⦄, add r key d = .ok r₁ → add r₁ key' d' = .ok r₂ →
    ∃ r₁', add r key' d' = .ok r₁' ∧ add r₁' key d = .ok r₂

section

variable {σ : Type} {add : σ → String → Doc → Decoded σ}

/-- Members are added one after the other, each by its key. -/
theorem addTo_member_eq_ok {r s : σ} {key : Except Stop String} {d : Doc} {ms : Members} :
    (Members.member key d ms).addTo add r = .ok s ↔
      ∃ k r', key = .ok k ∧ add r k d = .ok r' ∧ ms.addTo add r' = .ok s := by
  simp only [Members.addTo, bind_eq_ok, sound, mapError_eq_ok, exists_and_left]

/-- Items are added one after the other, each by the name at its place. -/
theorem addTo_item_eq_ok {optional : String → Bool} {names : List String} {r s : σ} {name : String}
    {d : Doc} {is : Items} :
    (Items.item d is).addTo add optional r (name :: names) = .ok s ↔
      ∃ r', add r name d = .ok r' ∧ is.addTo add optional r' names = .ok s := by
  rw [Items.addTo, bind_eq_ok]

variable (hvalue : ∀ r key, Keeps Doc.Reordered (add r key))

include hvalue

/-- A record does not tell in which order its members stand. -/
theorem Members.Reordered.addTo (hadd : Interchanges add) : ∀ {ms ms' : Members},
    ms.Reordered ms' → ∀ {r s : σ}, ms.addTo add r = .ok s → ms'.addTo add r = .ok s
  | _, _, .refl _, r, s, h => h
  | _, _, .member _ hd hms, r, s, h => by
    obtain ⟨k, r', hk, hr', hrest⟩ := addTo_member_eq_ok.mp h
    exact addTo_member_eq_ok.mpr ⟨k, r', hk, hvalue r k hd hr', hms.addTo hadd hrest⟩
  | _, _, .swap _ _ _ _ _, r, s, h => by
    obtain ⟨k, r₁, hk, hr₁, hmore⟩ := addTo_member_eq_ok.mp h
    obtain ⟨k', r₂, hk', hr₂, hrest⟩ := addTo_member_eq_ok.mp hmore
    obtain ⟨r₁', hr₁', hr₂'⟩ := hadd hr₁ hr₂
    have hmore' := addTo_member_eq_ok.mpr ⟨k, r₂, hk, hr₂', hrest⟩
    exact addTo_member_eq_ok.mpr ⟨k', r₁', hk', hr₁', hmore'⟩
  | _, _, .trans hms hms', r, s, h => hms'.addTo hadd (hms.addTo hadd h)

theorem Items.Reordered.addTo (optional : String → Bool) : ∀ {is is' : Items}, is.Reordered is' →
    ∀ {names : List String} {r s : σ}, is.addTo add optional r names = .ok s →
      is'.addTo add optional r names = .ok s
  | _, _, .refl _, names, r, s, h => h
  | _, _, .item hd his, [], r, s, h => by cases h
  | _, _, .item hd his, name :: names, r, s, h => by
    obtain ⟨r', hr', hrest⟩ := addTo_item_eq_ok.mp h
    exact addTo_item_eq_ok.mpr ⟨r', hvalue r name hd hr', his.addTo optional hrest⟩

/-- A record is the same however the members of its object are arranged, and those of the objects
    inside of it. -/
theorem Doc.keeps_addTo (hadd : Interchanges add) (optional : String → Bool) (names : List String)
    (n : Nat) (r : σ) : Keeps Doc.Reordered (Doc.addTo add optional names n r) := by
  rintro _ _ (_ | his | hms) s h
  · exact h
  · obtain ⟨_, hroom, h⟩ := bind_eq_ok.mp h
    exact bind_eq_ok.mpr ⟨(), hroom, his.addTo hvalue optional h⟩
  · obtain ⟨_, hroom, h⟩ := bind_eq_ok.mp h
    exact bind_eq_ok.mpr ⟨(), hroom, hms.addTo hvalue hadd h⟩

end

section

variable {α : Type} {decode : Doc → Decoded α}

theorem decodeAll_item_eq_ok {d : Doc} {is : Items} {as : List α} :
    (Items.item d is).decodeAll decode = .ok as ↔
      ∃ a rest, decode d = .ok a ∧ is.decodeAll decode = .ok rest ∧ a :: rest = as := by
  simp only [Items.decodeAll, bind_eq_ok, pure_eq_ok, exists_and_left]

variable (hdecode : Keeps Doc.Reordered decode)

include hdecode

theorem Items.Reordered.decodeAll : ∀ {is is' : Items}, is.Reordered is' → ∀ {as : List α},
    is.decodeAll decode = .ok as → is'.decodeAll decode = .ok as
  | _, _, .refl _, as, h => h
  | _, _, .item hd his, as, h => by
    obtain ⟨a, rest, ha, hrest, rfl⟩ := decodeAll_item_eq_ok.mp h
    exact decodeAll_item_eq_ok.mpr ⟨a, rest, hdecode hd ha, his.decodeAll hrest, rfl⟩

/-- A list is read alike if its items are: they keep their order. -/
theorem Doc.keeps_asList (n : Nat) : Keeps Doc.Reordered (Doc.asList decode n) := by
  rintro _ _ (_ | his | hms) as h
  · exact h
  · obtain ⟨_, hroom, h⟩ := bind_eq_ok.mp h
    exact bind_eq_ok.mpr ⟨(), hroom, his.decodeAll hdecode h⟩
  · cases h

end

/-! ## Tagged records -/

/-- The fields differ in the order of members only. -/
inductive Fields.Reordered : Fields → Fields → Prop
  | refl (fields : Fields) : Fields.Reordered fields fields
  | named {ms ms' : List (String × Json)} (h : ReorderedMembers ms ms') :
    Fields.Reordered (.named ms) (.named ms')
  | positional {js js' : List Json} (h : ReorderedItems js js') :
    Fields.Reordered (.positional js) (.positional js')

section

variable {α : Type} {all : List α} {name : α → String} {n : Nat}

/-- A member of a tagged record is the tag, which is there only once, or a field. -/
theorem tagged_member_eq_ok {tag : Option α} {a : α} {js : List (String × Json)}
    {key : Except Stop String} {d : Doc} {ms : Members} :
    (Members.member key d ms).tagged all name n tag = .ok (a, js) ↔
      ∃ k, key = .ok k ∧
        ((k = tagName ∧ tag = none ∧
            ∃ b, d.asTag all name = .ok b ∧ ms.tagged all name n (some b) = .ok (a, js)) ∨
          (k ≠ tagName ∧
            ∃ j rest, d.toJson n = .ok j ∧ ms.tagged all name n tag = .ok (a, rest) ∧
              (k, j) :: rest = js)) := by
  rw [Members.tagged, bind_eq_ok]
  refine exists_congr fun k => and_congr mapError_eq_ok ?_
  by_cases hk : k = tagName
  · simp only [hk, if_true, bind_eq_ok, unset_eq_ok, exists_const, true_and, not_true_eq_false,
      ne_eq, false_and, or_false]
  · simp only [hk, if_false, bind_eq_ok, sound, mapError_eq_ok, pure_eq_ok, Prod.exists,
      Prod.mk.injEq, false_and, false_or, ne_eq, not_false_eq_true, true_and, exists_and_left]
    refine exists_congr fun j => and_congr_right fun _ => ⟨?_, ?_⟩
    · rintro ⟨_, rest, hrest, rfl, hjs⟩
      exact ⟨rest, hrest, hjs⟩
    · rintro ⟨rest, hrest, hjs⟩
      exact ⟨a, rest, hrest, rfl, hjs⟩

/-- The tag is found among the members wherever it stands, and the others are left. -/
theorem Members.Reordered.tagged : ∀ {ms ms' : Members}, ms.Reordered ms' → ∀ {tag : Option α}
    {a : α} {js : List (String × Json)}, ms.tagged all name n tag = .ok (a, js) →
      ∃ js', ms'.tagged all name n tag = .ok (a, js') ∧ ReorderedMembers js js'
  | _, _, .refl _, tag, a, js, h => ⟨js, h, .refl js⟩
  | _, _, .member _ hd hms, tag, a, js, h => by
    obtain ⟨k, hk, ⟨htag, hnone, b, hb, hrest⟩ | ⟨htag, j, rest, hj, hrest, rfl⟩⟩ :=
      tagged_member_eq_ok.mp h
    · obtain ⟨js', hrest', hreordered⟩ := hms.tagged hrest
      have hb' := Doc.keeps_asTag all name hd hb
      exact ⟨js', tagged_member_eq_ok.mpr ⟨k, hk, .inl ⟨htag, hnone, b, hb', hrest'⟩⟩, hreordered⟩
    · obtain ⟨rest', hrest', hreordered⟩ := hms.tagged hrest
      obtain ⟨j', hj', hvalue⟩ := hd.toJson hj
      exact ⟨_, tagged_member_eq_ok.mpr ⟨k, hk, .inr ⟨htag, j', rest', hj', hrest', rfl⟩⟩,
        .cons k hvalue hreordered⟩
  | _, _, .swap _ _ _ _ _, tag, a, js, h => by
    obtain ⟨k, hk, ⟨htag, hnone, b, hb, hmore⟩ | ⟨htag, j, _, hj, hmore, rfl⟩⟩ :=
      tagged_member_eq_ok.mp h
    · obtain ⟨k', hk', ⟨-, hsome, -⟩ | ⟨htag', j', rest, hj', hrest, rfl⟩⟩ :=
        tagged_member_eq_ok.mp hmore
      · cases hsome
      · have hmore' := tagged_member_eq_ok.mpr ⟨k, hk, .inl ⟨htag, hnone, b, hb, hrest⟩⟩
        exact ⟨_, tagged_member_eq_ok.mpr ⟨k', hk', .inr ⟨htag', j', rest, hj', hmore', rfl⟩⟩,
          .refl _⟩
    · obtain ⟨k', hk', ⟨htag', hnone, b, hb, hrest⟩ | ⟨htag', j', rest, hj', hrest, rfl⟩⟩ :=
        tagged_member_eq_ok.mp hmore
      · have hmore' := tagged_member_eq_ok.mpr ⟨k, hk, .inr ⟨htag, j, _, hj, hrest, rfl⟩⟩
        exact ⟨_, tagged_member_eq_ok.mpr ⟨k', hk', .inl ⟨htag', hnone, b, hb, hmore'⟩⟩, .refl _⟩
      · have hmore' := tagged_member_eq_ok.mpr ⟨k, hk, .inr ⟨htag, j, rest, hj, hrest, rfl⟩⟩
        exact ⟨_, tagged_member_eq_ok.mpr ⟨k', hk', .inr ⟨htag', j', _, hj', hmore', rfl⟩⟩,
          .swap _ _ rest⟩
  | _, _, .trans hms hms', tag, a, js, h => by
    obtain ⟨js', h', hreordered⟩ := hms.tagged h
    obtain ⟨js'', h'', hreordered'⟩ := hms'.tagged h'
    exact ⟨js'', h'', .trans hreordered hreordered'⟩

/-- A tagged record is taken apart alike, with fields that differ in the order of members only. -/
theorem Doc.Reordered.tagged {d d' : Doc} (hd : d.Reordered d') {a : α} {fields : Fields}
    (h : d.tagged all name n = .ok (a, fields)) :
    ∃ fields', d'.tagged all name n = .ok (a, fields') ∧ fields.Reordered fields' := by
  cases hd with
  | refl => exact ⟨fields, h, .refl fields⟩
  | object hms =>
      obtain ⟨_, hroom, h⟩ := bind_eq_ok.mp h
      obtain ⟨⟨b, js⟩, hjs, h⟩ := bind_eq_ok.mp h
      cases h
      obtain ⟨js', hjs', hreordered⟩ := hms.tagged hjs
      refine ⟨.named js', ?_, .named hreordered⟩
      rw [Doc.tagged, hroom, ok_bind, hjs', ok_bind]
      rfl
  | array his =>
      cases his with
      | refl => exact ⟨fields, h, .refl fields⟩
      | item hd his =>
          obtain ⟨_, hroom, h⟩ := bind_eq_ok.mp h
          obtain ⟨b, hb, h⟩ := bind_eq_ok.mp h
          obtain ⟨js, hjs, h⟩ := bind_eq_ok.mp h
          cases h
          obtain ⟨js', hjs', hreordered⟩ := his.toJsons (mapError_eq_ok.mp hjs)
          refine ⟨.positional js', ?_, .positional hreordered⟩
          rw [Doc.tagged, hroom, ok_bind, Doc.keeps_asTag all name hd hb, ok_bind, hjs']
          rfl

end

/-! ## Whole texts -/

/-- A whole text is read alike if its document is. -/
theorem keeps_decodeText {α : Type} {decode : Doc → Decoded α}
    (h : Keeps Doc.Reordered decode) : Keeps Source.Reordered (decodeText decode) := by
  intro s s' hs a ha
  obtain ⟨b, hb, hend⟩ := bind_eq_ok.mp ha
  rw [hs.trailing] at hend
  exact bind_eq_ok.mpr ⟨b, h hs.doc hb, hend⟩

end RecordQuery.Json
