/-
  RecordQuery.Proofs.Json.Scalar

  Strings and numbers of JSON text read back. A string is read up to the quote that closes it,
  whatever follows; every escape that is written stands for one character, and none of them is half
  of a pair. An integer is read as far as its digits go, so what follows must not go on as a number.
-/

import Mathlib.Tactic.SplitIfs
import RecordQuery.Json.Printer
import RecordQuery.Json.Reader
import RecordQuery.Proofs.Except
import RecordQuery.Proofs.Text.Numeral

namespace RecordQuery.Json

open Text (Taken maxSigned maxUnsigned)

/-! ## Strings -/

/-- The ways to write a character: with a letter of its own, by its number, or as it is. -/
inductive Escape (c : Char) : List Char → Prop
  | letter {e : Char} (he : unescape? e = some c) : Escape c ['\\', e]
  | unit (hc : c.toNat < 0x20) :
    Escape c ['\\', 'u', '0', '0', hexDigit (c.toNat / 16), hexDigit (c.toNat % 16)]
  | plain (hquote : c ≠ '"') (hslash : c ≠ '\\') (hc : ¬ c.toNat < 0x20) : Escape c [c]

theorem escape_escapeChar (c : Char) : Escape c (escapeChar c) := by
  unfold escapeChar
  split_ifs with hquote hslash hb hf hn hr ht hc
  · exact .letter (by rw [hquote]; rfl)
  · exact .letter (by rw [hslash]; rfl)
  · exact .letter (by rw [hb]; rfl)
  · exact .letter (by rw [hf]; rfl)
  · exact .letter (by rw [hn]; rfl)
  · exact .letter (by rw [hr]; rfl)
  · exact .letter (by rw [ht]; rfl)
  · exact .unit hc
  · exact .plain hquote hslash hc

/-- The pieces were read up to a closing quote, behind which `rest` is left. -/
def Closes {n : Nat} (r : List Piece × Closed n) (ps : List Piece) (rest : List Char) : Prop :=
  ∃ h : rest.length < n, r = (ps, .ok ⟨rest, h⟩)

/-- The piece is the character, or the unit of a control character. -/
inductive Piece.StandsFor : Piece → Char → Prop
  | char (c : Char) : (Piece.char c).StandsFor c
  | unit {c : Char} (h : c.toNat < 0x20) : (Piece.unit c.toNat).StandsFor c

/-- A unit of a control character pairs with nothing. -/
theorem joinPieces_cons {p : Piece} {c : Char} (h : p.StandsFor c) (ps : List Piece) :
    joinPieces (p :: ps) = (joinPieces ps).map (c :: ·) := by
  cases h with
  | char => rw [joinPieces]
  | unit h =>
      have hhigh : isHighSurrogate c.toNat = false := by
        simp only [isHighSurrogate, Bool.and_eq_false_iff, decide_eq_false_iff_not]
        omega
      have hlow : isLowSurrogate c.toNat = false := by
        simp only [isLowSurrogate, Bool.and_eq_false_iff, decide_eq_false_iff_not]
        omega
      rw [joinPieces.eq_def]
      simp only [hhigh, hlow, Char.ofNat_toNat, Bool.false_eq_true, if_false]

theorem hexValue?_hexDigit : ∀ n < 16, hexValue? (hexDigit n) = some n := by
  decide

/-- Two digits behind two zeros are the unit of a number below 256. -/
theorem hexUnit?_hexDigit {n : Nat} (h : n < 256) :
    hexUnit? '0' '0' (hexDigit (n / 16)) (hexDigit (n % 16)) = some n := by
  have hzero : hexValue? '0' = some 0 := by decide
  rw [hexUnit?, hzero, hexValue?_hexDigit _ (by omega), hexValue?_hexDigit _ (by omega)]
  show some (16 * (16 * (16 * 0 + 0) + n / 16) + n % 16) = some n
  congr 1
  omega

/-- What stands in front of a reading is one piece more. -/
theorem Closes.more {m n : Nat} {r : List Piece × Closed m} {ps : List Piece} {rest : List Char}
    (h : Closes r ps rest) (p : Piece) (hle : m ≤ n) :
    Closes (p :: r.1, r.2.widen hle) (p :: ps) rest := by
  obtain ⟨hlt, rfl⟩ := h
  exact ⟨Nat.lt_of_lt_of_le hlt hle, rfl⟩

section

variable {cs rest : List Char} {ps : List Piece}

theorem closes_quote (rest : List Char) : Closes (readPieces ('"' :: rest)) [] rest := by
  rw [readPieces]
  exact ⟨Nat.lt_succ_self _, rfl⟩

theorem closes_letter {e c : Char} (he : unescape? e = some c)
    (h : Closes (readPieces cs) ps rest) :
    Closes (readPieces ('\\' :: e :: cs)) (.char c :: ps) rest := by
  have hu : e ≠ 'u' := by
    rintro rfl
    cases he
  rw [readPieces]
  · simp only [he]
    exact h.more _ _
  · exact hu

theorem closes_unit {a b c d : Char} {n : Nat} (hunit : hexUnit? a b c d = some n)
    (h : Closes (readPieces cs) ps rest) :
    Closes (readPieces ('\\' :: 'u' :: a :: b :: c :: d :: cs)) (.unit n :: ps) rest := by
  rw [readPieces]
  simp only [hunit]
  exact h.more _ _

theorem closes_char {c : Char} (hquote : c ≠ '"') (hslash : c ≠ '\\') (hc : ¬ c.toNat < 0x20)
    (h : Closes (readPieces cs) ps rest) :
    Closes (readPieces (c :: cs)) (.char c :: ps) rest := by
  rw [readPieces]
  · rw [if_neg hc]
    exact h.more _ _
  · exact fun h _ => hslash h
  · exact fun _ h _ => hslash h
  · exact fun _ _ h _ => hslash h
  · exact hquote

/-- However a character is written, it is read as one piece that stands for it. -/
theorem Escape.closes {c : Char} {es : List Char} (he : Escape c es)
    (h : Closes (readPieces cs) ps rest) :
    ∃ p : Piece, p.StandsFor c ∧ Closes (readPieces (es ++ cs)) (p :: ps) rest := by
  cases he with
  | letter he => exact ⟨.char c, .char c, closes_letter he h⟩
  | unit hc => exact ⟨.unit c.toNat, .unit hc, closes_unit (hexUnit?_hexDigit (by omega)) h⟩
  | plain hquote hslash hc => exact ⟨.char c, .char c, closes_char hquote hslash hc h⟩

end

/-- The text of a string is read up to the quote behind it, and its pieces are its characters. -/
theorem closes_escapedChars (cs rest : List Char) :
    ∃ ps, Closes (readPieces (cs.flatMap escapeChar ++ '"' :: rest)) ps rest ∧
      joinPieces ps = .ok cs := by
  induction cs with
  | nil => exact ⟨[], closes_quote rest, rfl⟩
  | cons c cs ih =>
      obtain ⟨ps, hcloses, hjoin⟩ := ih
      obtain ⟨p, hp, hread⟩ := (escape_escapeChar c).closes hcloses
      refine ⟨p :: ps, ?_, ?_⟩
      · rw [List.flatMap_cons, List.append_assoc]
        exact hread
      · rw [joinPieces_cons hp, hjoin]
        rfl

theorem toList_writeString (s : String) :
    (writeString s).toList = '"' :: (s.toList.flatMap escapeChar ++ ['"']) := by
  rw [writeString, String.toList_ofList]

/-! ## Numbers -/

/-- No character in front of the text can be part of a number. -/
def EndsNumber (cs : List Char) : Prop :=
  ∀ c ∈ cs.head?, c.isDigit = false ∧ c ≠ '.' ∧ c ≠ 'e' ∧ c ≠ 'E'

/-- The value was read and left `rest`. -/
def Takes {α : Type} {n : Nat} (r : Except Stop (Taken α n)) (a : α) (rest : List Char) : Prop :=
  ∃ h : rest.length < n, r = .ok ⟨a, rest, h⟩

theorem takeWhile_isDigit_append {ds rest : List Char} (hds : ∀ d ∈ ds, d.isDigit = true)
    (hrest : EndsNumber rest) : (ds ++ rest).takeWhile Char.isDigit = ds := by
  rw [List.takeWhile_append_of_pos hds]
  cases rest with
  | nil => simp
  | cons c cs =>
      have hc : c.isDigit = false := (hrest c rfl).1
      rw [List.takeWhile_cons_of_neg (by simp [hc]), List.append_nil]

theorem dropWhile_isDigit_append {ds rest : List Char} (hds : ∀ d ∈ ds, d.isDigit = true)
    (hrest : EndsNumber rest) : (ds ++ rest).dropWhile Char.isDigit = rest := by
  rw [List.dropWhile_append_of_pos hds]
  cases rest with
  | nil => rfl
  | cons c cs =>
      have hc : c.isDigit = false := (hrest c rfl).1
      rw [List.dropWhile_cons_of_neg (by simp [hc])]

/-- Digits are read as far as they go. -/
theorem takes_digits {d : Char} {ds rest : List Char} (hds : ∀ c ∈ d :: ds, c.isDigit = true)
    (hrest : EndsNumber rest) : Takes (readDigits (d :: ds ++ rest)) (d :: ds) rest := by
  have hd := hds d List.mem_cons_self
  have htail : ∀ c ∈ ds, c.isDigit = true := fun c hc => hds c (List.mem_cons_of_mem d hc)
  have hlt : rest.length < (d :: (ds ++ rest)).length := by
    simp only [List.length_cons, List.length_append]
    omega
  refine ⟨hlt, ?_⟩
  show readDigits (d :: (ds ++ rest)) = _
  rw [readDigits, if_pos hd]
  simp only [takeWhile_isDigit_append htail hrest, dropWhile_isDigit_append htail hrest]

/-- The first digit of a number is a zero only if it is the only one. -/
theorem toDigits_head_zero {n : Nat} {ds : List Char} (h : Nat.toDigits 10 n = '0' :: ds) :
    n = 0 := by
  induction n using Nat.strongRecOn generalizing ds with
  | ind n ih =>
      rcases Nat.lt_or_ge n 10 with hlt | hge
      · rw [Nat.toDigits_of_lt_base hlt] at h
        exact Nat.digitChar_eq_zero.mp (List.cons.inj h).1
      -- A longer number starts with the digits of its tenth part, which is not zero.
      · rw [Nat.toDigits_of_base_le (by decide) hge] at h
        cases hq : Nat.toDigits 10 (n / 10) with
        | nil => exact absurd hq Nat.toDigits_ne_nil
        | cons c cs =>
            rw [hq] at h
            obtain rfl : c = '0' := (List.cons.inj h).1
            have hzero := ih (n / 10) (by omega) hq
            omega

theorem takes_integer (n : Nat) {rest : List Char} (hrest : EndsNumber rest) :
    Takes (readInteger (Nat.toDigits 10 n ++ rest)) (Nat.toDigits 10 n) rest := by
  cases hn : Nat.toDigits 10 n with
  | nil => exact absurd hn Nat.toDigits_ne_nil
  | cons d ds =>
      have hdigits : ∀ c ∈ d :: ds, c.isDigit = true := by
        intro c hc
        rw [← hn] at hc
        exact Text.isDigit_of_mem_toDigits hc
      obtain ⟨hlt, htaken⟩ := takes_digits hdigits hrest
      refine ⟨hlt, ?_⟩
      rw [readInteger, bind_of_ok _ htaken]
      split
      next hvalue =>
        -- More digits behind a zero would be those of zero itself, which has one.
        simp only at hvalue
        rw [hvalue] at hn
        rw [toDigits_head_zero hn] at hn
        cases hn
      next => rfl

theorem takes_noFraction {rest : List Char} (hrest : EndsNumber rest) :
    Takes (readFraction rest) [] rest := by
  refine ⟨Nat.lt_succ_self _, ?_⟩
  unfold readFraction
  split
  next => exact absurd rfl (hrest _ rfl).2.1
  next => rfl

theorem takes_noExponent {rest : List Char} (hrest : EndsNumber rest) :
    Takes (readExponent rest) none rest := by
  refine ⟨Nat.lt_succ_self _, ?_⟩
  unfold readExponent
  split
  next => exact absurd rfl (hrest _ rfl).2.2.1
  next => exact absurd rfl (hrest _ rfl).2.2.2
  next => rfl

/-- Digits without fraction and exponent are an integer if its type has room for it. -/
theorem takes_unsigned (negative : Bool) {n : Nat} {i : Int} {rest : List Char}
    (hrest : EndsNumber rest)
    (hmake : ∀ text, makeNumber negative (Nat.toDigits 10 n) [] none text = .ok (.integer i)) :
    Takes (readUnsigned negative (Nat.toDigits 10 n ++ rest)) (.ok (.integer i)) rest := by
  obtain ⟨hd, hdigits⟩ := takes_integer n hrest
  obtain ⟨_, hfraction⟩ := takes_noFraction hrest
  obtain ⟨_, hexponent⟩ := takes_noExponent hrest
  refine ⟨hd, ?_⟩
  rw [readUnsigned, bind_of_ok _ hdigits, bind_of_ok _ hfraction, bind_of_ok _ hexponent]
  simp only [hmake]
  rfl

theorem makeNumber_nonnegative {n : Nat} (h : n ≤ maxUnsigned) (text : List Char) :
    makeNumber false (Nat.toDigits 10 n) [] none text = .ok (.integer n) := by
  have hvalue : Nat.ofDigitChars 10 (Nat.toDigits 10 n) 0 = n := Nat.ofDigitChars_ten_toDigits
  simp [makeNumber, hvalue, Nat.not_lt.mpr h]

theorem makeNumber_negative {n : Nat} (hpos : 0 < n) (h : n ≤ maxSigned + 1) (text : List Char) :
    makeNumber true (Nat.toDigits 10 n) [] none text = .ok (.integer (-n)) := by
  have hvalue : Nat.ofDigitChars 10 (Nat.toDigits 10 n) 0 = n := Nat.ofDigitChars_ten_toDigits
  simp [makeNumber, hvalue, Nat.ne_of_gt hpos, Nat.not_lt.mpr h]

/-- Integers that have a signed or an unsigned type of 64 bits. -/
def FitsInteger (i : Int) : Prop :=
  -(maxSigned : Int) - 1 ≤ i ∧ i ≤ maxUnsigned

/-- The text of an integer is read up to its last digit. -/
theorem takes_writeNumber {i : Int} (hi : FitsInteger i) {rest : List Char}
    (hrest : EndsNumber rest) :
    Takes (readNumber ((writeNumber (.integer i)).toList ++ rest)) (.ok (.integer i)) rest := by
  obtain ⟨hlow, hhigh⟩ := hi
  cases i with
  | ofNat n =>
      have hlist : (writeNumber (.integer (.ofNat n))).toList = Nat.toDigits 10 n :=
        Nat.toList_repr
      have hn : n ≤ maxUnsigned := Int.ofNat_le.mp hhigh
      have hread := takes_unsigned false hrest (makeNumber_nonnegative hn)
      -- A digit stands in front, so no sign is read.
      obtain ⟨c, cs, hcs, -, hminus⟩ := Text.toDigits_eq_cons n
      rw [hlist, hcs, List.cons_append, readNumber]
      · rw [hcs] at hread
        exact hread
      · intro ds h
        exact hminus (List.cons.inj h).1
  | negSucc n =>
      have hlist : (writeNumber (.integer (.negSucc n))).toList = '-' :: Nat.toDigits 10 (n + 1) := by
        show ("-" ++ Nat.repr (n + 1)).toList = _
        rw [String.toList_append, Nat.toList_repr]
        rfl
      have hn : n + 1 ≤ maxSigned + 1 := by omega
      obtain ⟨hlt, hread⟩ := takes_unsigned true hrest (makeNumber_negative (Nat.succ_pos n) hn)
      rw [hlist]
      refine ⟨Nat.lt_succ_of_lt hlt, ?_⟩
      show readNumber ('-' :: (Nat.toDigits 10 (n + 1) ++ rest)) = _
      rw [readNumber, bind_of_ok _ hread]
      rfl

end RecordQuery.Json
