/-
  RecordQuery.Proofs.Unicode

  Facts about character tables that hold for all characters of a class, read off the tables.
-/

import RecordQuery.Unicode.Class
import RecordQuery.Unicode.Lowercase

namespace RecordQuery.Unicode

/-! ## Tables as lists of points -/

/-- The code points of a table. -/
def RangeTable.points (t : RangeTable) : List Nat :=
  t.flatMap fun r => List.range' r.1 (r.2 + 1 - r.1)

theorem RangeTable.mem_points {t : RangeTable} {n : Nat} (h : t.contains n = true) :
    n ∈ t.points := by
  induction t with
  | nil => cases h
  | cons r t ih =>
      obtain ⟨first, last⟩ := r
      simp only [contains, Bool.and_eq_true, Bool.or_eq_true, decide_eq_true_eq] at h
      obtain ⟨hfirst, hlast | hrest⟩ := h
      · apply List.mem_append_left
        rw [List.mem_range'_1]
        dsimp only
        omega
      · exact List.mem_append_right _ (ih hrest)

/-- What holds of the code points of a table holds of the characters in it. -/
theorem RangeTable.forall_of_points {t : RangeTable} {p : Char → Prop}
    (h : ∀ n ∈ t.points, p (Char.ofNat n)) {c : Char} (hc : t.contains c.toNat = true) : p c := by
  have := h c.toNat (mem_points hc)
  rwa [Char.ofNat_toNat] at this

/-! ## Classes -/

theorem not_isAlphanumeric_of_isWhiteSpace {c : Char} (h : isWhiteSpace c = true) :
    isAlphanumeric c = false :=
  RangeTable.forall_of_points (p := fun c => isAlphanumeric c = false) (by decide +kernel) h

theorem isAlphanumeric_of_isDigit {c : Char} (h : c.isDigit = true) : isAlphanumeric c = true := by
  have hc : RangeTable.contains [(0x30, 0x39)] c.toNat = true := by
    simp only [Char.isDigit, Bool.and_eq_true, decide_eq_true_eq] at h
    simp only [RangeTable.contains, Bool.and_eq_true, Bool.or_eq_true, decide_eq_true_eq]
    exact ⟨h.1, .inl h.2⟩
  exact RangeTable.forall_of_points (p := fun c => isAlphanumeric c = true) (by decide) hc

/-! ## Lowercase -/

/-- No shift moves a character below the capital letters. -/
theorem lowercaseChar_of_lt {c : Char} (h : c.toNat < 0x41) : lowercaseChar c = [c] := by
  -- The one character with a lowercase of two characters is far above.
  have hdot : c ≠ '\u0130' := by
    rintro rfl
    exact absurd h (by decide)
  rw [lowercaseChar, if_neg hdot, lowercaseShifts, ShiftTable.apply, if_pos h]

theorem lowercaseAfter_of_lt {cs : List Char} (h : ∀ c ∈ cs, c.toNat < 0x41) :
    ∀ before, lowercaseAfter before cs = cs := by
  induction cs with
  | nil => exact fun _ => rfl
  | cons c cs ih =>
      intro before
      have hc := h c List.mem_cons_self
      -- Only a capital sigma looks at the characters around it.
      have hsigma : c ≠ 'Σ' := by
        rintro rfl
        exact absurd hc (by decide)
      rw [lowercaseAfter, if_neg hsigma, lowercaseChar_of_lt hc,
        ih fun d hd => h d (List.mem_cons_of_mem c hd)]
      rfl

/-- Text without letters is lowercase. -/
theorem lowercase_of_lt {s : String} (h : ∀ c ∈ s.toList, c.toNat < 0x41) : lowercase s = s := by
  rw [lowercase, lowercaseAfter_of_lt h, String.ofList_toList]

end RecordQuery.Unicode
