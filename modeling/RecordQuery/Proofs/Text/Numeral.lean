/-
  RecordQuery.Proofs.Text.Numeral

  Numerals read back. A numeral that is written has a sign only if it is negative, and the least
  signed value fits although its digits alone would not.
-/

import RecordQuery.Text.Numeral

namespace RecordQuery.Text

/-! ## Digits -/

theorem le_ofDigitChars (cs : List Char) (acc : Nat) : acc ≤ Nat.ofDigitChars 10 cs acc := by
  rw [Nat.ofDigitChars_eq_ofDigitChars_zero]
  have : 1 * acc ≤ 10 ^ cs.length * acc := Nat.mul_le_mul_right acc (Nat.one_le_pow _ _ (by decide))
  omega

theorem readDigits_of_isDigit {bound : Nat} {beyond : NumeralFault} {cs : List Char}
    (hcs : ∀ c ∈ cs, c.isDigit = true) :
    ∀ {acc : Nat}, Nat.ofDigitChars 10 cs acc ≤ bound →
      readDigits bound beyond acc cs = .ok (Nat.ofDigitChars 10 cs acc) := by
  induction cs with
  | nil =>
      intro acc _
      simp [readDigits]
  | cons c cs ih =>
      intro acc hbound
      rw [Nat.ofDigitChars_cons] at hbound ⊢
      -- No digit makes the value smaller, so it is never too large on the way.
      have hvalue : 10 * acc + (c.toNat - '0'.toNat) ≤ bound :=
        Nat.le_trans (le_ofDigitChars cs _) hbound
      rw [readDigits, if_pos (hcs c List.mem_cons_self)]
      dsimp only
      rw [if_pos hvalue]
      exact ih (fun d hd => hcs d (List.mem_cons_of_mem c hd)) hbound

theorem isDigit_of_mem_toDigits {n : Nat} {c : Char} (h : c ∈ Nat.toDigits 10 n) :
    c.isDigit = true :=
  Nat.isDigit_of_mem_toDigits (by decide) (by decide) h

theorem digitChar_injective : ∀ m n : Fin 16, Nat.digitChar m = Nat.digitChar n → m = n := by
  decide

/-- Up to base sixteen there is a character for each digit, and the digits tell the number. -/
theorem toDigits_injective {b m n : Nat} (hb : 1 < b) (hb' : b ≤ 16)
    (h : Nat.toDigits b m = Nat.toDigits b n) : m = n := by
  have hpos (k : Nat) : 0 < (Nat.toDigits b k).length := Nat.length_toDigits_pos
  have hdigit {i j : Nat} (hi : i < b) (hj : j < b) (h : Nat.digitChar i = Nat.digitChar j) :
      i = j :=
    congrArg Fin.val (digitChar_injective ⟨i, by omega⟩ ⟨j, by omega⟩ h)
  -- The last digit is the remainder, and the digits in front of it are those of the quotient.
  induction m using Nat.strongRecOn generalizing n with
  | ind m ih =>
      rw [Nat.toDigits_eq_if hb, Nat.toDigits_eq_if (n := n) hb] at h
      have hlength := congrArg List.length h
      split at h <;> split at h
      next hm hn => exact hdigit hm hn (List.cons.inj h).1
      next hm hn =>
        have := hpos (n / b)
        simp only [hm, hn, if_true, if_false, List.length_append, List.length_singleton] at hlength
        omega
      next hm hn =>
        have := hpos (m / b)
        simp only [hm, hn, if_true, if_false, List.length_append, List.length_singleton] at hlength
        omega
      next hm hn =>
        obtain ⟨hfront, hlast⟩ := List.append_inj' h rfl
        have hquotient : m / b = n / b := ih (m / b) (Nat.div_lt_self (by omega) hb) hfront
        have hremainder : m % b = n % b :=
          hdigit (Nat.mod_lt m (by omega)) (Nat.mod_lt n (by omega)) (List.cons.inj hlast).1
        rw [← Nat.div_add_mod m b, hquotient, hremainder, Nat.div_add_mod]

/-- The digits of a number within the bound are read as it. -/
theorem readDigits_toDigits {bound n : Nat} (beyond : NumeralFault) (h : n ≤ bound) :
    readDigits bound beyond 0 (Nat.toDigits 10 n) = .ok n := by
  have hread : Nat.ofDigitChars 10 (Nat.toDigits 10 n) 0 = n := Nat.ofDigitChars_ten_toDigits
  rw [readDigits_of_isDigit (fun _ => isDigit_of_mem_toDigits) (by rw [hread]; exact h), hread]

/-- The digits of a number start with a digit, which is no sign. -/
theorem toDigits_eq_cons (n : Nat) :
    ∃ c cs, Nat.toDigits 10 n = c :: cs ∧ c ≠ '+' ∧ c ≠ '-' := by
  cases h : Nat.toDigits 10 n with
  | nil => exact absurd h Nat.toDigits_ne_nil
  | cons c cs =>
      have hc : c.isDigit = true := by
        apply isDigit_of_mem_toDigits (n := n)
        simp [h]
      refine ⟨c, cs, rfl, ?_, ?_⟩
      · rintro rfl
        exact absurd hc (by decide)
      · rintro rfl
        exact absurd hc (by decide)

/-! ## Numerals -/

/-- A written natural number is read back. -/
theorem readUnsigned_writeUnsigned (n : UInt64) : readUnsigned (writeUnsigned n) = .ok n := by
  have hn : n.toNat ≤ maxUnsigned := Nat.le_of_lt_succ n.toNat_lt
  have hdigits := readDigits_toDigits .tooLarge hn
  have hlist : (writeUnsigned n).toList = Nat.toDigits 10 n.toNat := Nat.toList_repr
  -- A digit stands in front, so none of the readings with a sign applies.
  obtain ⟨c, cs, hcs, hplus, -⟩ := toDigits_eq_cons n.toNat
  rw [hcs] at hlist hdigits
  unfold readUnsigned
  rw [hlist]
  split
  next h => cases h
  next h => exact absurd (List.cons.inj h).1 hplus
  next h => exact absurd (List.cons.inj h).1 hplus
  next =>
    rw [hdigits]
    exact congrArg Except.ok (UInt64.ofNat_toNat)

/-- The characters of a signed numeral: digits, behind a minus sign if it is negative. -/
theorem toList_writeSigned (n : Int64) :
    (writeSigned n).toList = Nat.toDigits 10 n.toInt.natAbs ∧ 0 ≤ n.toInt ∨
      (writeSigned n).toList = '-' :: Nat.toDigits 10 n.toInt.natAbs ∧ n.toInt < 0 := by
  unfold writeSigned
  cases h : n.toInt with
  | ofNat m => exact .inl ⟨Nat.toList_repr, Int.natCast_nonneg m⟩
  | negSucc m =>
      right
      refine ⟨?_, Int.negSucc_lt_zero m⟩
      show ("-" ++ Nat.repr (m + 1)).toList = _
      rw [String.toList_append, Nat.toList_repr]
      rfl

/-- A written integer is read back, the least one included. -/
theorem readSigned_writeSigned (n : Int64) : readSigned (writeSigned n) = .ok n := by
  have hlt := n.toInt_lt
  have hle := n.le_toInt
  obtain ⟨c, cs, hcs, hplus, hminus⟩ := toDigits_eq_cons n.toInt.natAbs
  unfold readSigned
  rcases toList_writeSigned n with ⟨hlist, hsign⟩ | ⟨hlist, hsign⟩
  · have hfits : n.toInt.natAbs ≤ maxSigned := by
      simp only [maxSigned]
      omega
    have hdigits := readDigits_toDigits .tooLarge hfits
    rw [hcs] at hlist hdigits
    rw [hlist]
    split
    next h => cases h
    next h => exact absurd (List.cons.inj h).1 hplus
    next h => exact absurd (List.cons.inj h).1 hminus
    next h => exact absurd (List.cons.inj h).1 hplus
    next h => exact absurd (List.cons.inj h).1 hminus
    next =>
      rw [hdigits]
      apply congrArg Except.ok
      apply Int64.toInt.inj
      rw [Int64.toInt_ofNat_of_lt (by omega)]
      omega
  -- Behind a minus sign one value more is allowed, which the least integer needs.
  · have hfits : n.toInt.natAbs ≤ maxSigned + 1 := by
      simp only [maxSigned]
      omega
    have hdigits := readDigits_toDigits .tooSmall hfits
    rw [hlist]
    split
    next h => cases h
    next h => exact absurd (List.cons.inj h).1 (by decide)
    next h => exact absurd (List.cons.inj h).2 Nat.toDigits_ne_nil
    next h => exact absurd (List.cons.inj h).1 (by decide)
    next h =>
      rw [← (List.cons.inj h).2, hdigits]
      apply congrArg Except.ok
      apply Int64.toInt.inj
      rw [Int64.toInt_ofInt_of_le (by omega) (by omega)]
      omega
    next hne => exact absurd rfl (hne _)

end RecordQuery.Text
