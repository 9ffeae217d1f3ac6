/-
  RecordQuery.Proofs.Json.ReorderedValue

  What is decoded from a value, rather than from a document, when its members are put in another
  order: scalars, alternatives and the tag among the members of an object.
-/

import RecordQuery.Proofs.Json.MemberOrder

namespace RecordQuery.Json

/-! ## Scalars and tags of values -/

section

variable {ε α : Type}

theorem keeps_of_scalar {f : Json → Except ε α} (harray : ∀ js a, f (.array js) ≠ .ok a)
    (hobject : ∀ ms a, f (.object ms) ≠ .ok a) : Keeps Reordered f := by
  rintro _ _ (_ | h | h) a ha
  · exact ha
  · exact absurd ha (harray _ a)
  · exact absurd ha (hobject _ a)

end

theorem keeps_asString : Keeps Reordered asString :=
  keeps_of_scalar (by rintro _ _ ⟨⟩) (by rintro _ _ ⟨⟩)

theorem keeps_asSigned : Keeps Reordered asSigned :=
  keeps_of_scalar (by rintro _ _ ⟨⟩) (by rintro _ _ ⟨⟩)

theorem ReorderedItems.mapM_asString : ∀ {js js' : List Json}, ReorderedItems js js' →
    ∀ {as : List String}, js.mapM asString = .ok as → js'.mapM asString = .ok as
  | _, _, .refl _, as, h => h
  | _, _, .cons hj hjs, as, h => by
    rw [List.mapM_cons] at h ⊢
    obtain ⟨a, ha, h⟩ := bind_eq_ok.mp h
    obtain ⟨rest, hrest, h⟩ := bind_eq_ok.mp h
    rw [keeps_asString hj ha, ok_bind, hjs.mapM_asString hrest, ok_bind]
    exact h

/-- A list of strings has no members in it, so it is read alike. -/
theorem keeps_asStrings : Keeps Reordered asStrings := by
  rintro _ _ (_ | hjs | hms) as h
  · exact h
  · exact hjs.mapM_asString h
  · cases h

theorem ReorderedMembers.eq_nil : ∀ {ms ms' : List (String × Json)}, ReorderedMembers ms ms' →
    ms = [] → ms' = []
  | _, _, .refl _, h => h
  | _, _, .trans hms hms', h => hms'.eq_nil (hms.eq_nil h)

/-- What stands for nothing does so in any order of its members. -/
theorem Reordered.isUnit {j j' : Json} (hj : Reordered j j') (h : j.isUnit = true) :
    j'.isUnit = true := by
  cases hj with
  | refl => exact h
  | array => cases h
  | @object ms ms' hms =>
      cases ms with
      | nil =>
          rw [hms.eq_nil rfl]
          rfl
      | cons m ms => cases h

section

variable {α : Type} {all : List α} {name : α → String}

/-- An object is read as a variant if it has one member, with its name for a key and nothing for a
    value. -/
theorem object_asVariant_eq_ok {ms : List (String × Json)} {a : α} :
    (Json.object ms).asVariant all name = .ok a ↔
      ∃ key j, ms = [(key, j)] ∧ variant all name key = .ok a ∧ j.isUnit = true := by
  constructor
  · intro h
    unfold Json.asVariant at h
    split at h
    next => contradiction
    next key j heq =>
      obtain rfl := Json.object.inj heq
      obtain ⟨b, hb, h⟩ := bind_eq_ok.mp h
      split at h
      next hunit =>
        cases h
        exact ⟨key, j, rfl, hb, hunit⟩
      next => cases h
    next => cases h
    next => cases h
  · rintro ⟨key, j, rfl, hkey, hunit⟩
    rw [Json.asVariant, hkey, ok_bind, if_pos hunit]
    rfl

/-- The only member of an object stays its only member. -/
theorem ReorderedMembers.asVariant : ∀ {ms ms' : List (String × Json)}, ReorderedMembers ms ms' →
    ∀ {a : α}, (Json.object ms).asVariant all name = .ok a →
      (Json.object ms').asVariant all name = .ok a
  | _, _, .refl _, a, h => h
  | _, _, .cons key hj hms, a, h => by
    obtain ⟨k, j, hsingle, hkey, hunit⟩ := object_asVariant_eq_ok.mp h
    simp only [List.cons.injEq, Prod.mk.injEq] at hsingle
    obtain ⟨⟨rfl, rfl⟩, rfl⟩ := hsingle
    rw [hms.eq_nil rfl]
    exact object_asVariant_eq_ok.mpr ⟨key, _, rfl, hkey, hj.isUnit hunit⟩
  | _, _, .swap _ _ _, a, h => by cases h
  | _, _, .trans hms hms', a, h => hms'.asVariant (hms.asVariant h)

variable (all name)

theorem keeps_asVariant : Keeps Reordered (Json.asVariant all name) := by
  rintro _ _ (_ | hjs | hms) a h
  · exact h
  · cases h
  · exact hms.asVariant h

theorem keeps_asTag : Keeps Reordered (Json.asTag all name) :=
  keeps_of_scalar (by rintro _ _ ⟨⟩) (by rintro _ _ ⟨⟩)

variable {all name}

/-- A member is the tag, which has not been there before, or it is passed over. -/
theorem tagAmong_cons_eq_ok {tag : Option α} {a : α} {key : String} {j : Json}
    {ms : List (String × Json)} :
    tagAmong all name tag ((key, j) :: ms) = .ok a ↔
      (key = tagName ∧ tag = none ∧
          ∃ b, j.asTag all name = .ok b ∧ tagAmong all name (some b) ms = .ok a) ∨
        (key ≠ tagName ∧ tagAmong all name tag ms = .ok a) := by
  rw [tagAmong]
  by_cases hkey : key = tagName
  · simp only [hkey, if_true, bind_eq_ok, unset_eq_ok, exists_const, true_and, not_true_eq_false,
      ne_eq, false_and, or_false]
  · simp only [hkey, if_false, false_and, false_or, ne_eq, not_false_eq_true, true_and]

/-- The tag is the same wherever it stands. -/
theorem ReorderedMembers.tagAmong : ∀ {ms ms' : List (String × Json)}, ReorderedMembers ms ms' →
    ∀ {tag : Option α} {a : α}, tagAmong all name tag ms = .ok a →
      Json.tagAmong all name tag ms' = .ok a
  | _, _, .refl _, tag, a, h => h
  | _, _, .cons _ hj hms, tag, a, h => by
    obtain ⟨htag, hnone, b, hb, hrest⟩ | ⟨htag, hrest⟩ := tagAmong_cons_eq_ok.mp h
    · have hb' := keeps_asTag all name hj hb
      exact tagAmong_cons_eq_ok.mpr (.inl ⟨htag, hnone, b, hb', hms.tagAmong hrest⟩)
    · exact tagAmong_cons_eq_ok.mpr (.inr ⟨htag, hms.tagAmong hrest⟩)
  | _, _, .swap (key, j) (key', j') ms, tag, a, h => by
    obtain ⟨htag, hnone, b, hb, hmore⟩ | ⟨htag, hmore⟩ := tagAmong_cons_eq_ok.mp h
    · obtain ⟨-, hsome, -⟩ | ⟨htag', hrest⟩ := tagAmong_cons_eq_ok.mp hmore
      · cases hsome
      · have hmore' := tagAmong_cons_eq_ok.mpr (.inl ⟨htag, hnone, b, hb, hrest⟩)
        exact tagAmong_cons_eq_ok.mpr (.inr ⟨htag', hmore'⟩)
    · obtain ⟨htag', hnone, b, hb, hrest⟩ | ⟨htag', hrest⟩ := tagAmong_cons_eq_ok.mp hmore
      · have hmore' := (tagAmong_cons_eq_ok (j := j)).mpr (.inr ⟨htag, hrest⟩)
        exact tagAmong_cons_eq_ok.mpr (.inl ⟨htag', hnone, b, hb, hmore'⟩)
      · have hmore' := (tagAmong_cons_eq_ok (j := j)).mpr (.inr ⟨htag, hrest⟩)
        exact tagAmong_cons_eq_ok.mpr (.inr ⟨htag', hmore'⟩)
  | _, _, .trans hms hms', tag, a, h => hms'.tagAmong (hms.tagAmong h)

end

end RecordQuery.Json
