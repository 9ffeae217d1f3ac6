/-
  RecordQuery.Proofs.Vocabulary

  Words and keywords. A word is a keyword if it has the key of its spelling, and no two keywords
  have one key. The rendering of a query spells every keyword by its name, whatever the vocabulary,
  so it can be read in those vocabularies that spell keywords by their names.
-/

import RecordQuery.Proofs.Text.Numeral
import RecordQuery.Proofs.Token.Scanning
import RecordQuery.Vocabulary.Standard

namespace RecordQuery

/-! ## Keywords -/

namespace Keyword

theorem isWord_name (k : Keyword) : IsWord k.name := by
  cases k <;> decide

theorem lowercase_name (k : Keyword) : Unicode.lowercase k.name = k.name := by
  cases k <;> rfl

end Keyword

namespace Vocabulary

variable {v : Vocabulary}

/-- A word stands for the keyword whose key it has once it is normalized. -/
theorem keyword?_eq_some_iff {w : String} {k : Keyword} :
    v.keyword? w = some k ↔ v.config.key k = v.config.normalize w := by
  unfold keyword?
  dsimp only
  constructor
  · intro h
    simpa using List.find?_some h
  · intro h
    cases hfind : Keyword.all.find? fun j => v.config.key j == v.config.normalize w with
    | none =>
        rw [List.find?_eq_none] at hfind
        exact absurd (by simpa using h) (hfind k k.mem_all)
    | some j =>
        have hj : v.config.key j = v.config.normalize w := by simpa using List.find?_some hfind
        -- The first keyword with the key is the only one, since keys are distinct.
        exact congrArg some (v.key_injective (hj.trans h.symm))

/-- The spelling of a keyword stands for it. -/
theorem keyword?_spelling (v : Vocabulary) (k : Keyword) : v.keyword? (v.spelling k) = some k :=
  keyword?_eq_some_iff.mpr rfl

/-- Every keyword is spelt by its name. -/
def SpeltByName (v : Vocabulary) : Prop :=
  ∀ k, v.spelling k = k.name

theorem speltByName_standard : standard.SpeltByName :=
  fun _ => rfl

/-- The same vocabulary with another bound on nesting. -/
def withNesting (v : Vocabulary) (n : UInt64) : Vocabulary :=
  { v with config := { v.config with maxNesting := n } }

/-- The limit on nesting has no part in how keywords are spelt. -/
theorem SpeltByName.withNesting (h : v.SpeltByName) (n : UInt64) :
    (v.withNesting n).SpeltByName :=
  h

theorem SpeltByName.keyword?_name (h : v.SpeltByName) (k : Keyword) :
    v.keyword? k.name = some k := by
  rw [← h k]
  exact v.keyword?_spelling k

theorem SpeltByName.key_eq (h : v.SpeltByName) (k : Keyword) : v.config.key k = k.name := by
  have hname : v.config.keywords k = k.name := h k
  rw [Config.key, hname, Config.normalize]
  -- Names are lowercase already, so the flag for case makes no difference.
  split
  next => rfl
  next => exact k.lowercase_name

end Vocabulary

/-! ## Numerals -/

/-- The text is made of digits and minus signs. -/
def IsNumeral (w : String) : Prop :=
  w.toList ≠ [] ∧ ∀ c ∈ w.toList, c.isDigit = true ∨ c = '-'

theorem isNumeral_writeUnsigned (n : UInt64) : IsNumeral (Text.writeUnsigned n) := by
  have hlist : (Text.writeUnsigned n).toList = Nat.toDigits 10 n.toNat := Nat.toList_repr
  rw [IsNumeral, hlist]
  exact ⟨Nat.toDigits_ne_nil, fun c hc => .inl (Text.isDigit_of_mem_toDigits hc)⟩

/-- A written integer is a numeral, with a hyphen for its sign. -/
theorem isNumeral_writeSigned (n : Int64) : IsNumeral (Text.writeSigned n) := by
  rcases Text.toList_writeSigned n with ⟨hlist, -⟩ | ⟨hlist, -⟩
  · rw [IsNumeral, hlist]
    exact ⟨Nat.toDigits_ne_nil, fun c hc => .inl (Text.isDigit_of_mem_toDigits hc)⟩
  · rw [IsNumeral, hlist]
    refine ⟨List.cons_ne_nil _ _, fun c hc => ?_⟩
    rcases List.mem_cons.mp hc with rfl | hc
    · exact .inr rfl
    · exact .inl (Text.isDigit_of_mem_toDigits hc)

/-- Numerals are words. -/
theorem IsNumeral.isWord {w : String} (h : IsNumeral w) : IsWord w := by
  refine ⟨h.1, fun c hc => ?_⟩
  rcases h.2 c hc with hdigit | rfl
  · simp [isWordChar, Unicode.isAlphanumeric_of_isDigit hdigit]
  · rfl

/-- No numeral holds a letter. -/
theorem IsNumeral.toNat_lt {w : String} (h : IsNumeral w) :
    ∀ c ∈ w.toList, c.toNat < 0x41 := by
  intro c hc
  rcases h.2 c hc with hdigit | rfl
  · simp only [Char.isDigit, Bool.and_eq_true, decide_eq_true_eq] at hdigit
    have hle : c.toNat ≤ 57 := hdigit.2
    omega
  · decide

/-- Names of keywords are letters, so no numeral is one. -/
theorem IsNumeral.keyword?_eq_none {v : Vocabulary} {w : String} (h : IsNumeral w)
    (hv : v.SpeltByName) : v.keyword? w = none := by
  cases hk : v.keyword? w with
  | none => rfl
  | some k =>
      rw [Vocabulary.keyword?_eq_some_iff, hv.key_eq, Vocabulary.Config.normalize,
        Unicode.lowercase_of_lt h.toNat_lt, ite_self] at hk
      have hletter : (k.name.toList.any fun c => 0x41 ≤ c.toNat) = true := by
        cases k <;> decide
      -- The key of a numeral is the numeral, which has no letter.
      obtain ⟨c, hc, hle⟩ := List.any_eq_true.mp hletter
      rw [hk] at hc
      exact absurd (h.toNat_lt c hc) (Nat.not_lt.mpr (of_decide_eq_true hle))

end RecordQuery
