/-
  RecordQuery.Proofs.Vocabulary.StandardNames

  The names of the standard vocabulary, said of their characters. Both patterns are tied to both
  ends of the text, so a name is matched as a whole: one place after the other by a set of
  characters, the last one perhaps by a star.
-/

import RecordQuery.Proofs.Pattern.Matching
import RecordQuery.Vocabulary.Standard

namespace RecordQuery

/-! ## Sets of characters -/

namespace CharSet

variable {c d : Char}

@[simp] theorem contains_single : (single d).contains c = true ↔ c = d := by
  simp only [single, contains, Bool.and_eq_true, decide_eq_true_eq, ← Char.toNat_inj]
  omega

theorem contains_union {left right : CharSet} :
    (union left right).contains c = true ↔ left.contains c = true ∨ right.contains c = true := by
  rw [contains, Bool.or_eq_true]

theorem contains_range {first last : Char} :
    (range first last).contains c = (decide (first.val ≤ c.val) && decide (c.val ≤ last.val)) :=
  rfl

@[simp] theorem contains_asciiLetter : asciiLetter.contains c = c.isAlpha := by
  show ((range 'A' 'Z').contains c || (range 'a' 'z').contains c) =
    (decide ('A'.val ≤ c.val ∧ c.val ≤ 'Z'.val) ||
      decide ('a'.val ≤ c.val) && decide (c.val ≤ 'z'.val))
  rw [contains_range, contains_range, Bool.decide_and]

@[simp] theorem contains_asciiAlphanumeric : asciiAlphanumeric.contains c = c.isAlphanum := by
  show (asciiLetter.contains c || (range '0' '9').contains c) =
    (c.isAlpha || decide ('0'.val ≤ c.val) && decide (c.val ≤ '9'.val))
  rw [contains_asciiLetter, contains_range]

end CharSet

/-! ## Pieces of patterns -/

namespace Pattern

variable {p : Pattern} {set : CharSet} {cs : List Char} {atStart atEnd : Bool}

/-- Behind the anchor of the start a pattern matches from the start on only. -/
theorem matches_startOfText_concat :
    (concat .startOfText p).Matches atStart cs atEnd ↔
      atStart = true ∧ p.Matches atStart cs atEnd := by
  constructor
  · rintro ⟨xs, ys, rfl, ⟨rfl, hstart⟩, hp⟩
    exact ⟨hstart, by simpa using hp⟩
  · rintro ⟨hstart, hp⟩
    exact ⟨[], cs, rfl, ⟨rfl, hstart⟩, by simpa using hp⟩

/-- In front of the anchor of the end a pattern matches up to the end only. -/
theorem matches_concat_endOfText :
    (concat p .endOfText).Matches atStart cs atEnd ↔
      atEnd = true ∧ p.Matches atStart cs atEnd := by
  constructor
  · rintro ⟨xs, ys, rfl, hp, ⟨rfl, hend⟩⟩
    exact ⟨hend, by simpa using hp⟩
  · rintro ⟨hend, hp⟩
    exact ⟨cs, [], (List.append_nil cs).symm, by simpa using hp, rfl, hend⟩

/-- A place for one character takes one, and what is behind it is no start any more. -/
theorem matches_chars_concat :
    (concat (.chars set) p).Matches atStart cs atEnd ↔
      ∃ c ds, cs = c :: ds ∧ set.contains c = true ∧ p.Matches false ds atEnd := by
  constructor
  · rintro ⟨xs, ds, rfl, ⟨c, rfl, hc⟩, hp⟩
    exact ⟨c, ds, rfl, hc, by simpa using hp⟩
  · rintro ⟨c, ds, rfl, hc, hp⟩
    exact ⟨[c], ds, rfl, ⟨c, rfl, hc⟩, by simpa using hp⟩

/-- Rounds of one character each read as many characters of the set. -/
theorem rounds_chars {n : Nat} :
    Rounds (Pattern.chars set).Matches n atStart cs atEnd ↔
      cs.length = n ∧ ∀ c ∈ cs, set.contains c = true := by
  induction n generalizing cs atStart with
  | zero =>
      show cs = [] ↔ _
      constructor
      · rintro rfl
        simp
      · rintro ⟨hlen, -⟩
        exact List.length_eq_zero_iff.mp hlen
  | succ n ih =>
      constructor
      · rintro ⟨xs, ys, rfl, ⟨c, rfl, hc⟩, hmore⟩
        obtain ⟨hlen, hall⟩ := ih.mp hmore
        exact ⟨congrArg (· + 1) hlen, List.forall_mem_cons.mpr ⟨hc, hall⟩⟩
      · rintro ⟨hlen, hall⟩
        obtain ⟨c, ds, rfl⟩ := List.exists_cons_of_length_eq_add_one hlen
        obtain ⟨hc, hds⟩ := List.forall_mem_cons.mp hall
        exact ⟨[c], ds, rfl, ⟨c, rfl, hc⟩, ih.mpr ⟨Nat.succ_inj.mp hlen, hds⟩⟩

/-- Any number of characters of the set, one after the other. -/
theorem matches_many :
    (many set).Matches atStart cs atEnd ↔ ∀ c ∈ cs, set.contains c = true := by
  show (∃ n, 0 ≤ n ∧ (∀ m ∈ (none : Option Nat), n ≤ m) ∧
    Rounds (Pattern.chars set).Matches n atStart cs atEnd) ↔ _
  simp [rounds_chars]

/-- At most one character of the set. -/
theorem matches_atMostOne :
    (repeated (.chars set) 0 (some 1)).Matches atStart cs atEnd ↔
      cs = [] ∨ ∃ c, cs = [c] ∧ set.contains c = true := by
  show (∃ n, 0 ≤ n ∧ (∀ m ∈ some 1, n ≤ m) ∧
    Rounds (Pattern.chars set).Matches n atStart cs atEnd) ↔ _
  simp only [rounds_chars]
  constructor
  · rintro ⟨n, -, hle, hlen, hall⟩
    have hone : cs.length ≤ 1 := Nat.le_trans (Nat.le_of_eq hlen) (hle 1 rfl)
    match cs, hone with
    | [], _ => exact .inl rfl
    | [c], _ => exact .inr ⟨c, rfl, hall c List.mem_cons_self⟩
  · rintro (rfl | ⟨c, rfl, hc⟩)
    · exact ⟨0, Nat.le_refl 0, by simp, rfl, by simp⟩
    · exact ⟨1, Nat.zero_le 1, by simp, rfl, List.forall_mem_singleton.mpr hc⟩

/-- A pattern that only matches from the start of a text to its end is found in the texts that it
    matches as a whole. -/
theorem isMatch_iff_of_anchored (hp : p.BoundsOrdered) {P : List Char → Prop}
    (hanchored : ∀ {atStart xs atEnd},
      p.Matches atStart xs atEnd ↔ atStart = true ∧ atEnd = true ∧ P xs) {text : String} :
    p.isMatch text = true ↔ P text.toList := by
  rw [isMatch_iff hp]
  simp only [hanchored, List.isEmpty_iff]
  constructor
  · rintro ⟨before, xs, after, htext, rfl, rfl, hxs⟩
    rw [htext]
    simpa using hxs
  · intro h
    exact ⟨[], text.toList, [], by simp, rfl, rfl, h⟩

/-! ## The two patterns of the standard vocabulary -/

/-- The characters of a field: a star alone, or a letter or underscore and then letters, digits,
    underscores and points. -/
def IsFieldName (cs : List Char) : Prop :=
  cs = ['*'] ∨
    ∃ c ds, cs = c :: ds ∧ (c.isAlpha ∨ c = '_') ∧ ∀ d ∈ ds, d.isAlphanum ∨ d = '_' ∨ d = '.'

/-- The characters of a namespace: a letter, digit or underscore, then letters, digits, underscores,
    points and hyphens, and at the end perhaps a star. -/
def IsNamespaceName (cs : List Char) : Prop :=
  ∃ c ds star, cs = c :: (ds ++ star) ∧ (c.isAlphanum ∨ c = '_') ∧
    (∀ d ∈ ds, d.isAlphanum ∨ d = '_' ∨ d = '.' ∨ d = '-') ∧ (star = [] ∨ star = ['*'])

/-- The pattern of fields matches whole texts only, and of these the names of fields. -/
theorem matches_fieldName :
    fieldName.Matches atStart cs atEnd ↔ atStart = true ∧ atEnd = true ∧ IsFieldName cs := by
  rw [fieldName, matches_startOfText_concat, matches_concat_endOfText]
  -- Between the anchors there is a star, or else an identifier.
  refine and_congr_right fun _ => and_congr_right fun _ => ?_
  show (_ ∨ _) ↔ _
  refine or_congr ?_ ?_
  · show (∃ c, cs = [c] ∧ _) ↔ _
    simp
  · rw [matches_chars_concat]
    simp only [matches_many, CharSet.contains_union, CharSet.contains_single,
      CharSet.contains_asciiLetter, CharSet.contains_asciiAlphanumeric, or_assoc]

/-- The pattern of namespaces matches whole texts only, and of these the names of namespaces. -/
theorem matches_namespaceName :
    namespaceName.Matches atStart cs atEnd ↔
      atStart = true ∧ atEnd = true ∧ IsNamespaceName cs := by
  rw [namespaceName, matches_startOfText_concat, matches_chars_concat]
  refine and_congr_right fun _ => ?_
  constructor
  · rintro ⟨c, _, rfl, hc, ds, star, rfl, hds, hstar⟩
    obtain ⟨hend, hstar⟩ := matches_concat_endOfText.mp hstar
    refine ⟨hend, c, ds, star, rfl, ?_, ?_, ?_⟩
    · simpa [CharSet.contains_union] using hc
    · simpa [CharSet.contains_union, or_assoc] using matches_many.mp hds
    · simpa using matches_atMostOne.mp hstar
  · rintro ⟨hend, c, ds, star, rfl, hc, hds, hstar⟩
    refine ⟨c, ds ++ star, rfl, ?_, ds, star, rfl, matches_many.mpr ?_,
      matches_concat_endOfText.mpr ⟨hend, matches_atMostOne.mpr ?_⟩⟩
    · simpa [CharSet.contains_union] using hc
    · simpa [CharSet.contains_union, or_assoc] using hds
    · simpa using hstar

theorem isMatch_fieldName {text : String} :
    fieldName.isMatch text = true ↔ IsFieldName text.toList :=
  isMatch_iff_of_anchored (by simp [fieldName, many, BoundsOrdered]) matches_fieldName

theorem isMatch_namespaceName {text : String} :
    namespaceName.isMatch text = true ↔ IsNamespaceName text.toList :=
  isMatch_iff_of_anchored (by simp [namespaceName, many, BoundsOrdered]) matches_namespaceName

/-! ## Characters of names -/

/-- A character among the first 128 that is no kind of blank and ends no line. -/
def IsPlain (c : Char) : Prop :=
  c.toNat < 0x80 ∧ Unicode.isWhiteSpace c = false

/-- Both kinds of names are made of letters, digits and these signs. -/
theorem isPlain_of_isAlphanum_or {c : Char}
    (h : c.isAlphanum = true ∨ c ∈ ['_', '.', '-', '*']) : IsPlain c := by
  rcases h with halnum | hsign
  · have hlt : c.toNat < 0x80 := by
      rw [← CharSet.contains_asciiAlphanumeric] at halnum
      simp only [CharSet.asciiAlphanumeric, CharSet.asciiLetter, CharSet.contains,
        Bool.or_eq_true, Bool.and_eq_true, decide_eq_true_eq] at halnum
      have hZ : 'Z'.toNat = 90 := rfl
      have hz : 'z'.toNat = 122 := rfl
      have h9 : '9'.toNat = 57 := rfl
      omega
    -- There are few enough of these characters to look at each.
    have hall : ∀ n, n < 0x80 → (Char.ofNat n).isAlphanum = true →
        Unicode.isWhiteSpace (Char.ofNat n) = false := by
      decide +kernel
    have hspace := hall c.toNat hlt
    rw [Char.ofNat_toNat] at hspace
    exact ⟨hlt, hspace halnum⟩
  · have hall : (['_', '.', '-', '*'].all fun d =>
        d.toNat < 0x80 && !Unicode.isWhiteSpace d) = true := by
      decide +kernel
    simpa [IsPlain] using List.all_eq_true.mp hall c hsign

theorem IsFieldName.isPlain {cs : List Char} (h : IsFieldName cs) : ∀ c ∈ cs, IsPlain c := by
  rcases h with rfl | ⟨c, ds, rfl, hc, hds⟩
  · exact List.forall_mem_singleton.mpr (isPlain_of_isAlphanum_or (.inr (by simp)))
  · refine List.forall_mem_cons.mpr ⟨isPlain_of_isAlphanum_or ?_, fun d hd =>
      isPlain_of_isAlphanum_or ?_⟩
    · refine hc.imp (fun halpha => ?_) (fun hsign => by simp [hsign])
      rw [Char.isAlphanum, halpha, Bool.true_or]
    · refine (hds d hd).imp_right fun hsign => ?_
      rcases hsign with rfl | rfl <;> simp

theorem IsNamespaceName.isPlain {cs : List Char} (h : IsNamespaceName cs) :
    ∀ c ∈ cs, IsPlain c := by
  obtain ⟨c, ds, star, rfl, hc, hds, hstar⟩ := h
  refine List.forall_mem_cons.mpr ⟨isPlain_of_isAlphanum_or ?_, List.forall_mem_append.mpr
    ⟨fun d hd => isPlain_of_isAlphanum_or ?_, fun d hd => isPlain_of_isAlphanum_or ?_⟩⟩
  · exact hc.imp_right fun hsign => by simp [hsign]
  · refine (hds d hd).imp_right fun hsign => ?_
    rcases hsign with rfl | rfl | rfl <;> simp
  · rcases hstar with rfl | rfl
    · cases hd
    · exact .inr (by simp [List.mem_singleton.mp hd])

end Pattern

/-! ## The words that the standard vocabulary takes for names -/

namespace Vocabulary

open Pattern

variable {engine : PatternEngine}

/-- The standard vocabulary is the one that a configuration without changes makes. -/
theorem ofConfig_default : ofConfig {} engine = .ok (standardIn engine) := by
  unfold ofConfig
  split
  next hnone => cases hnone.symm.trans engine.read?_standardField
  next field hfield =>
    obtain rfl := Option.some.inj (hfield.symm.trans engine.read?_standardField)
    split
    next hnone => cases hnone.symm.trans engine.read?_standardNamespace
    next source hsource =>
      obtain rfl := Option.some.inj (hsource.symm.trans engine.read?_standardNamespace)
      split
      next fault hfault => cases hfault.symm.trans keywordFault?_standard
      next => rfl

/-- The names of fields are the words with their characters that are no keywords. -/
theorem isField_standardIn_iff {w : String} :
    (standardIn engine).isField w = true ↔
      (standardIn engine).keyword? w = none ∧ IsFieldName w.toList := by
  rw [isField, Bool.and_eq_true, Option.isNone_iff_eq_none]
  exact and_congr_right fun _ => isMatch_fieldName

theorem isNamespace_standardIn_iff {w : String} :
    (standardIn engine).isNamespace w = true ↔
      (standardIn engine).keyword? w = none ∧ IsNamespaceName w.toList := by
  rw [isNamespace, Bool.and_eq_true, Option.isNone_iff_eq_none]
  exact and_congr_right fun _ => isMatch_namespaceName

/-- In every engine, a word names a field in the standard vocabulary exactly if it is no keyword and
    has the characters of a field, and likewise for namespaces. No name holds a blank, a line break
    or a character beyond the first 128. -/
theorem standard_takes_names (engine : PatternEngine) (w : String) :
    ((standardIn engine).isField w = true ↔
      (standardIn engine).keyword? w = none ∧ IsFieldName w.toList) ∧
    ((standardIn engine).isNamespace w = true ↔
      (standardIn engine).keyword? w = none ∧ IsNamespaceName w.toList) ∧
    ((standardIn engine).isField w = true ∨ (standardIn engine).isNamespace w = true →
      ∀ c ∈ w.toList, c.toNat < 0x80 ∧ Unicode.isWhiteSpace c = false) := by
  refine ⟨isField_standardIn_iff, isNamespace_standardIn_iff, fun hname => ?_⟩
  rcases hname with hfield | hsource
  · exact (isField_standardIn_iff.mp hfield).2.isPlain
  · exact (isNamespace_standardIn_iff.mp hsource).2.isPlain

/-- A namespace that ends in a star is no field. With a line feed behind it, or a letter beyond
    the first 128 in it, a word is no name at all. -/
theorem starred_taken_lineFeed_refused :
    (standard.isNamespace "2024.img-*" = true ∧ standard.isField "2024.img-*" = false ∧
      ∀ c ∈ "2024.img-*".toList, c.toNat < 0x80 ∧ Unicode.isWhiteSpace c = false) ∧
    ∀ w ∈ ["name\n", "na\u00efve", "\u212A"],
      standard.isField w = false ∧ standard.isNamespace w = false := by
  constructor
  · obtain ⟨hfield, hsource, hplain⟩ := standard_takes_names .dialect "2024.img-*"
    have hall : ("024.img-".toList.all fun d => d.isAlphanum || d == '.' || d == '-') = true := by
      decide
    have htaken : standard.isNamespace "2024.img-*" = true := by
      refine hsource.mpr ⟨by decide +kernel, '2', "024.img-".toList, ['*'], rfl, .inl rfl,
        fun d hd => ?_, .inr rfl⟩
      have hd' := List.all_eq_true.mp hall d hd
      simp only [Bool.or_eq_true, beq_iff_eq] at hd'
      rcases hd' with (halnum | hpoint) | hhyphen
      · exact .inl halnum
      · exact .inr (.inr (.inl hpoint))
      · exact .inr (.inr (.inr hhyphen))
    refine ⟨htaken, Bool.eq_false_iff.mpr fun h => ?_, hplain (.inr htaken)⟩
    rcases (hfield.mp h).2 with hstar | ⟨c, ds, hw, hc, -⟩
    · exact absurd hstar (by decide)
    · obtain rfl : '2' = c := (List.cons.inj hw).1
      exact absurd hc (by decide)
  · intro w hw
    obtain ⟨-, -, hplain⟩ := standard_takes_names .dialect w
    have hodd : (w.toList.all fun c => decide (c.toNat < 0x80) && !Unicode.isWhiteSpace c) ≠
        true := by
      revert w
      decide +kernel
    have hnot : ¬ ∀ c ∈ w.toList, c.toNat < 0x80 ∧ Unicode.isWhiteSpace c = false := by
      intro hall
      exact hodd (List.all_eq_true.mpr fun c hc => by simp [hall c hc])
    exact ⟨Bool.eq_false_iff.mpr fun h => hnot (hplain (.inl h)),
      Bool.eq_false_iff.mpr fun h => hnot (hplain (.inr h))⟩

end Vocabulary

end RecordQuery
