/-
  RecordQuery.Proofs.Text.Listing

  Listed texts are told apart, and each stands on one line. The characters that a listing writes for
  one character say where they end and which character it was, so a listed text can be taken apart
  from its front; and no line feed is among them.
-/

import Mathlib.Tactic.SplitIfs
import RecordQuery.Proofs.Text.Numeral
import RecordQuery.Text.Listing

namespace RecordQuery.Text

/-- What stands in front of the first of two marks is told apart by it. -/
theorem append_cons_inj_of_not_mem {α : Type} [BEq α] [LawfulBEq α] {a : α} {xs ys as bs : List α}
    (hxs : a ∉ xs) (hys : a ∉ ys) (h : xs ++ a :: as = ys ++ a :: bs) : xs = ys ∧ as = bs := by
  have hsplit := congrArg (List.splitOn a) h
  rw [List.splitOn_append_cons_self_of_not_mem hxs,
    List.splitOn_append_cons_self_of_not_mem hys] at hsplit
  obtain rfl := (List.cons.inj hsplit).1
  exact ⟨rfl, (List.cons.inj (List.append_cancel_left h)).2⟩

/-! ## Hexadecimal digits -/

theorem exists_digitChar_of_mem {n : Nat} {d : Char} (h : d ∈ Nat.toDigits 16 n) :
    ∃ k, d = Nat.digitChar k := by
  induction n using Nat.strongRecOn with
  | ind n ih =>
      rw [Nat.toDigits_eq_if (by decide)] at h
      split at h
      next => exact ⟨n, List.mem_singleton.mp h⟩
      next =>
        obtain h | h := List.mem_append.mp h
        · exact ih (n / 16) (by omega) h
        · exact ⟨n % 16, List.mem_singleton.mp h⟩

/-- A character is told by the digits of its number. -/
theorem hexDigits_injective {c d : Char} (h : hexDigits c = hexDigits d) : c = d :=
  Char.toNat_inj.mp (toDigits_injective (by decide) (by decide) h)

theorem closingBrace_not_mem_hexDigits (c : Char) : '\x7d' ∉ hexDigits c := by
  intro h
  obtain ⟨k, hk⟩ := exists_digitChar_of_mem h
  exact Nat.digitChar_ne '\x7d' (by decide) hk.symm

theorem lineFeed_not_mem_hexDigits (c : Char) : '\n' ∉ hexDigits c := by
  intro h
  obtain ⟨k, hk⟩ := exists_digitChar_of_mem h
  exact Nat.digitChar_ne '\n' (by decide) hk.symm

/-! ## One character -/

/-- What a backslash and one character stand for in a listing. -/
def listedEscape? : Char → Option Char
  | '0' => some '\x00'
  | 't' => some '\t'
  | 'r' => some '\r'
  | 'n' => some '\n'
  | '"' => some '"'
  | '\\' => some '\\'
  | _ => none

/-- The forms in which a listing can write a character. -/
inductive ListedAs (c : Char) : List Char → Prop
  | escape {e : Char} (he : listedEscape? e = some c) : ListedAs c ['\\', e]
  | plain (hfeed : c ≠ '\n') (hquote : c ≠ '"') (hslash : c ≠ '\\') : ListedAs c [c]
  | code : ListedAs c ('\\' :: 'u' :: '\x7b' :: (hexDigits c ++ ['\x7d']))

theorem listedAs_listedChar (c : Char) : ListedAs c (listedChar c) := by
  unfold listedChar
  split_ifs with hzero htab hreturn hfeed hquote hslash hvisible
  -- The first six forms are escapes.
  any_goals
    subst c
    exact .escape rfl
  · exact .plain hfeed hquote hslash
  · exact .code

namespace ListedAs

variable {c d : Char} {cs ds : List Char}

/-- A form says where it ends and which character it stands for. -/
theorem append_inj (hc : ListedAs c cs) (hd : ListedAs d ds) {as bs : List Char}
    (h : cs ++ as = ds ++ bs) : c = d ∧ as = bs := by
  cases hc with
  | escape he =>
      cases hd with
      | escape he' =>
          obtain ⟨-, rfl, rfl⟩ : '\\' = '\\' ∧ _ ∧ as = bs := by simpa using h
          exact ⟨Option.some.inj (he.symm.trans he'), rfl⟩
      | plain _ _ hslash => exact absurd (List.cons.inj h).1.symm hslash
      | code =>
          obtain rfl : _ = 'u' := (List.cons.inj (List.cons.inj h).2).1
          cases he
  | plain _ _ hslash =>
      cases hd with
      | escape => exact absurd (List.cons.inj h).1 hslash
      | plain => exact List.cons.inj h
      | code => exact absurd (List.cons.inj h).1 hslash
  | code =>
      cases hd with
      | escape he' =>
          obtain rfl : 'u' = _ := (List.cons.inj (List.cons.inj h).2).1
          cases he'
      | plain _ _ hslash => exact absurd (List.cons.inj h).1.symm hslash
      | code =>
          have hrest : hexDigits c ++ '\x7d' :: as = hexDigits d ++ '\x7d' :: bs := by
            simpa using h
          obtain ⟨hdigits, has⟩ := append_cons_inj_of_not_mem
            (closingBrace_not_mem_hexDigits c) (closingBrace_not_mem_hexDigits d) hrest
          exact ⟨hexDigits_injective hdigits, has⟩

/-- No form opens with the quote that ends a listed text. -/
theorem append_ne_quote (h : ListedAs c cs) (as bs : List Char) : cs ++ as ≠ '"' :: bs := by
  cases h with
  | escape he => simp
  | plain _ hquote _ => simp [hquote]
  | code => simp

/-- No listed character holds a line feed. -/
theorem lineFeed_not_mem (h : ListedAs c cs) : '\n' ∉ cs := by
  cases h with
  | @escape e he =>
      have hne : e ≠ '\n' := by
        rintro rfl
        cases he
      simp [hne.symm]
  | plain hfeed _ _ => simpa using hfeed.symm
  | code => simp [lineFeed_not_mem_hexDigits]

end ListedAs

/-! ## Whole texts -/

/-- Listed characters are told up to the quote behind them. -/
theorem flatMap_listedChar_append_inj {cs ds as bs : List Char}
    (h : cs.flatMap listedChar ++ '"' :: as = ds.flatMap listedChar ++ '"' :: bs) :
    cs = ds ∧ as = bs := by
  induction cs generalizing ds with
  | nil =>
      cases ds with
      | nil => exact ⟨rfl, (List.cons.inj h).2⟩
      | cons d ds =>
          rw [List.flatMap_cons, List.append_assoc] at h
          exact absurd h.symm ((listedAs_listedChar d).append_ne_quote _ _)
  | cons c cs ih =>
      rw [List.flatMap_cons, List.append_assoc] at h
      cases ds with
      | nil => exact absurd h ((listedAs_listedChar c).append_ne_quote _ _)
      | cons d ds =>
          rw [List.flatMap_cons, List.append_assoc] at h
          obtain ⟨rfl, hmore⟩ := (listedAs_listedChar c).append_inj (listedAs_listedChar d) h
          obtain ⟨rfl, has⟩ := ih hmore
          exact ⟨rfl, has⟩

/-- A text is told by how it is listed. -/
theorem listed_injective : Function.Injective listed := by
  intro s t h
  have hcs := (List.cons.inj (String.ofList_injective h)).2
  exact String.toList_injective (flatMap_listedChar_append_inj hcs).1

theorem lineFeed_not_mem_listed (s : String) : '\n' ∉ (listed s).toList := by
  have hcs : '\n' ∉ s.toList.flatMap listedChar := by
    intro h
    obtain ⟨c, -, hc⟩ := List.mem_flatMap.mp h
    exact (listedAs_listedChar c).lineFeed_not_mem hc
  simp [listed, hcs]

end RecordQuery.Text
