/-
  RecordQuery.Proofs.Text.Integer

  Which texts are numerals. A numeral is a run of decimal digits behind an optional sign, and the
  readers of numerals accept exactly those whose number has the type that is wanted. Zeros in front
  are allowed, and the digits of the least signed integer are those of no positive one.
-/

import RecordQuery.Proofs.Except
import RecordQuery.Proofs.Text.Numeral

namespace RecordQuery.Text

/-! ## What numerals are -/

/-- The characters are the decimal digits of the number, with or without zeros in front. -/
def WritesDigits (cs : List Char) (n : Nat) : Prop :=
  cs ≠ [] ∧ (∀ c ∈ cs, c.isDigit = true) ∧ Nat.ofDigitChars 10 cs 0 = n

/-- The characters are an unsigned numeral: digits, behind a plus sign or not. -/
inductive WritesNatural : List Char → Nat → Prop
  | digits {ds : List Char} {n : Nat} (h : WritesDigits ds n) : WritesNatural ds n
  | plus {ds : List Char} {n : Nat} (h : WritesDigits ds n) : WritesNatural ('+' :: ds) n

/-- The characters are a signed numeral: digits, behind a sign or not. -/
inductive WritesInteger : List Char → Int → Prop
  | digits {ds : List Char} {n : Nat} (h : WritesDigits ds n) : WritesInteger ds n
  | plus {ds : List Char} {n : Nat} (h : WritesDigits ds n) : WritesInteger ('+' :: ds) n
  | minus {ds : List Char} {n : Nat} (h : WritesDigits ds n) : WritesInteger ('-' :: ds) (-n)

/-- Digits start with no sign. -/
theorem WritesDigits.head_ne {c : Char} {cs : List Char} {n : Nat} (h : WritesDigits (c :: cs) n) :
    c ≠ '+' ∧ c ≠ '-' := by
  have hc : c.isDigit = true := h.2.1 c List.mem_cons_self
  constructor
  · rintro rfl
    exact absurd hc (by decide)
  · rintro rfl
    exact absurd hc (by decide)

theorem writesNatural_plus_iff {cs : List Char} {n : Nat} :
    WritesNatural ('+' :: cs) n ↔ WritesDigits cs n := by
  constructor
  · intro h
    cases h with
    | digits h => exact absurd rfl h.head_ne.1
    | plus h => exact h
  · exact .plus

theorem writesNatural_iff {cs : List Char} {n : Nat} (hplus : ∀ ds, cs ≠ '+' :: ds) :
    WritesNatural cs n ↔ WritesDigits cs n := by
  constructor
  · intro h
    cases h with
    | digits h => exact h
    | plus h => exact absurd rfl (hplus _)
  · exact .digits

theorem writesInteger_plus_iff {cs : List Char} {i : Int} :
    WritesInteger ('+' :: cs) i ↔ ∃ n : Nat, WritesDigits cs n ∧ i = n := by
  constructor
  · intro h
    cases h with
    | digits h => exact absurd rfl h.head_ne.1
    | plus h => exact ⟨_, h, rfl⟩
  · rintro ⟨n, h, rfl⟩
    exact .plus h

/-- Behind a hyphen digits write the negative of their value. -/
theorem writesInteger_minus_iff {cs : List Char} {i : Int} :
    WritesInteger ('-' :: cs) i ↔ ∃ n : Nat, WritesDigits cs n ∧ i = -n := by
  constructor
  · intro h
    cases h with
    | digits h => exact absurd rfl h.head_ne.2
    | minus h => exact ⟨_, h, rfl⟩
  · rintro ⟨n, h, rfl⟩
    exact .minus h

theorem writesInteger_iff {cs : List Char} {i : Int} (hplus : ∀ ds, cs ≠ '+' :: ds)
    (hminus : ∀ ds, cs ≠ '-' :: ds) :
    WritesInteger cs i ↔ ∃ n : Nat, WritesDigits cs n ∧ i = n := by
  constructor
  · intro h
    cases h with
    | digits h => exact ⟨_, h, rfl⟩
    | plus h => exact absurd rfl (hplus _)
    | minus h => exact absurd rfl (hminus _)
  · rintro ⟨n, h, rfl⟩
    exact .digits h

/-- Digits are read if the value is in range, and then to their value. -/
theorem readDigits_eq_ok_iff {bound : Nat} {beyond : NumeralFault} {cs : List Char} {n : Nat} :
    ∀ {acc : Nat}, acc ≤ bound →
      (readDigits bound beyond acc cs = .ok n ↔
        (∀ c ∈ cs, c.isDigit = true) ∧ Nat.ofDigitChars 10 cs acc = n ∧ n ≤ bound) := by
  induction cs with
  | nil =>
      intro acc hacc
      rw [readDigits, Nat.ofDigitChars_nil]
      constructor
      · intro h
        cases h
        exact ⟨by simp, rfl, hacc⟩
      · rintro ⟨-, rfl, -⟩
        rfl
  | cons c cs ih =>
      intro acc hacc
      constructor
      · intro h
        rw [readDigits] at h
        split at h
        next hc =>
          dsimp only at h
          split at h
          next hvalue =>
            obtain ⟨hcs, hn, hle⟩ := (ih hvalue).mp h
            exact ⟨List.forall_mem_cons.mpr ⟨hc, hcs⟩, by rw [Nat.ofDigitChars_cons, hn], hle⟩
          next => cases h
        next => cases h
      · rintro ⟨hcs, rfl, hle⟩
        exact readDigits_of_isDigit hcs hle

/-- Characters are read as digits exactly if they are the digits of a number in range. -/
theorem readDigits_eq_ok_iff_writes {bound : Nat} {beyond : NumeralFault} {cs : List Char} {n : Nat}
    (hcs : cs ≠ []) :
    readDigits bound beyond 0 cs = .ok n ↔ WritesDigits cs n ∧ n ≤ bound := by
  rw [readDigits_eq_ok_iff (Nat.zero_le bound)]
  constructor
  · rintro ⟨hdigits, hn, hle⟩
    exact ⟨⟨hcs, hdigits, hn⟩, hle⟩
  · rintro ⟨⟨-, hdigits, hn⟩, hle⟩
    exact ⟨hdigits, hn, hle⟩

/-! ## What is read -/

/-- Digits are read as an unsigned integer exactly if they write its value. -/
theorem readDigits_unsigned {cs : List Char} {n : UInt64} (hcs : cs ≠ []) :
    (readDigits maxUnsigned .tooLarge 0 cs).map UInt64.ofNat = .ok n ↔
      WritesDigits cs n.toNat := by
  rw [map_eq_ok]
  constructor
  · rintro ⟨m, hm, rfl⟩
    obtain ⟨hwrites, hle⟩ := (readDigits_eq_ok_iff_writes hcs).mp hm
    rw [UInt64.toNat_ofNat_of_lt' (Nat.lt_succ_of_le hle)]
    exact hwrites
  · intro h
    have hle : n.toNat ≤ maxUnsigned := Nat.le_of_lt_succ n.toNat_lt
    exact ⟨n.toNat, (readDigits_eq_ok_iff_writes hcs).mpr ⟨h, hle⟩, UInt64.ofNat_toNat⟩

/-- Digits without a hyphen are read as an integer exactly if they write its value. -/
theorem readDigits_nonnegative {cs : List Char} {n : Int64} (hcs : cs ≠ []) :
    (readDigits maxSigned .tooLarge 0 cs).map Int64.ofNat = .ok n ↔
      ∃ m : Nat, WritesDigits cs m ∧ n.toInt = m := by
  rw [map_eq_ok]
  constructor
  · rintro ⟨m, hm, rfl⟩
    obtain ⟨hwrites, hle⟩ := (readDigits_eq_ok_iff_writes hcs).mp hm
    exact ⟨m, hwrites, Int64.toInt_ofNat_of_lt (Nat.lt_succ_of_le hle)⟩
  · rintro ⟨m, hwrites, hn⟩
    have hlt := n.toInt_lt
    have hle : m ≤ maxSigned := by
      simp only [maxSigned]
      omega
    refine ⟨m, (readDigits_eq_ok_iff_writes hcs).mpr ⟨hwrites, hle⟩, ?_⟩
    apply Int64.toInt.inj
    rw [Int64.toInt_ofNat_of_lt (Nat.lt_succ_of_le hle), hn]

/-- Digits behind a hyphen are read as an integer exactly if they write its negative. They may write
    one more than without it. -/
theorem readDigits_negative {cs : List Char} {n : Int64} (hcs : cs ≠ []) :
    ((readDigits (maxSigned + 1) .tooSmall 0 cs).map fun m => Int64.ofInt (-m)) = .ok n ↔
      ∃ m : Nat, WritesDigits cs m ∧ n.toInt = -m := by
  rw [map_eq_ok]
  constructor
  · rintro ⟨i, hi, rfl⟩
    obtain ⟨m, hm, hi⟩ := bind_eq_ok.mp hi
    obtain rfl := pure_eq_ok.mp hi
    obtain ⟨hwrites, hle⟩ := (readDigits_eq_ok_iff_writes hcs).mp hm
    simp only [maxSigned] at hle
    exact ⟨m, hwrites, Int64.toInt_ofInt_of_le (by omega) (by omega)⟩
  · rintro ⟨m, hwrites, hn⟩
    have hge := n.le_toInt
    have hle : m ≤ maxSigned + 1 := by
      simp only [maxSigned]
      omega
    have hread : readDigits (maxSigned + 1) .tooSmall 0 cs = .ok m :=
      (readDigits_eq_ok_iff_writes hcs).mpr ⟨hwrites, hle⟩
    refine ⟨m, bind_eq_ok.mpr ⟨m, hread, rfl⟩, ?_⟩
    simp only [maxSigned] at hle
    apply Int64.toInt.inj
    rw [Int64.toInt_ofInt_of_le (by omega) (by omega), hn]

/-- A text is read as an unsigned number exactly if it is an unsigned numeral of that number. -/
theorem readUnsigned_eq_ok_iff {w : String} {n : UInt64} :
    readUnsigned w = .ok n ↔ WritesNatural w.toList n.toNat := by
  unfold readUnsigned
  split
  next hw =>
    rw [hw, writesNatural_iff (by simp)]
    exact ⟨fun h => (by cases h), fun h => absurd rfl h.1⟩
  next hw =>
    rw [hw, writesNatural_plus_iff]
    exact ⟨fun h => (by cases h), fun h => absurd rfl h.1⟩
  next cs hne hw =>
    rw [hw, writesNatural_plus_iff]
    exact readDigits_unsigned hne
  next cs hnil _ hplus =>
    rw [writesNatural_iff hplus]
    exact readDigits_unsigned hnil

/-- A text is read as a signed number exactly if it is a signed numeral of that number. -/
theorem readSigned_eq_ok_iff {w : String} {n : Int64} :
    readSigned w = .ok n ↔ WritesInteger w.toList n.toInt := by
  unfold readSigned
  split
  next hw =>
    rw [hw, writesInteger_iff (by simp) (by simp)]
    exact ⟨fun h => (by cases h), fun ⟨m, h, _⟩ => absurd rfl h.1⟩
  next hw =>
    rw [hw, writesInteger_plus_iff]
    exact ⟨fun h => (by cases h), fun ⟨m, h, _⟩ => absurd rfl h.1⟩
  next hw =>
    rw [hw, writesInteger_minus_iff]
    exact ⟨fun h => (by cases h), fun ⟨m, h, _⟩ => absurd rfl h.1⟩
  next cs hne hw =>
    rw [hw, writesInteger_plus_iff]
    exact readDigits_nonnegative hne
  next cs hne hw =>
    rw [hw, writesInteger_minus_iff]
    exact readDigits_negative hne
  next cs hnil _ _ hplus hminus =>
    rw [writesInteger_iff hplus hminus]
    exact readDigits_nonnegative hnil

end RecordQuery.Text
