/-
  RecordQuery.Proofs.Pattern.Matching

  What patterns match. A pattern matches a stretch of a text, which may touch the start of the text,
  its end, both or neither. Anchors match the empty stretch, and only where it touches that end. A
  search reads the text once and keeps what could still be completed; it succeeds exactly if some
  stretch of the text is matched.
-/

import RecordQuery.Pattern.Basic

namespace RecordQuery.Pattern

/-! ## Stretches that a pattern matches -/

/-- A property of stretches: whether one touches the start of the text, its characters, and whether
    it touches the end. -/
abbrev Meaning := Bool → List Char → Bool → Prop

/-- A stretch of one kind and a stretch of another behind it. Only an empty stretch lets the other
    one touch the same end of the text. -/
def Behind (M N : Meaning) : Meaning := fun atStart cs atEnd =>
  ∃ xs ys, cs = xs ++ ys ∧ M atStart xs (atEnd && ys.isEmpty) ∧ N (atStart && xs.isEmpty) ys atEnd

/-- As many stretches of one kind, one behind the other. -/
def Rounds (M : Meaning) : Nat → Meaning
  | 0 => fun _ cs _ => cs = []
  | n + 1 => Behind M (Rounds M n)

/-- The pattern matches a stretch. -/
def Matches : Pattern → Meaning
  | .empty => fun _ cs _ => cs = []
  | .chars set => fun _ cs _ => ∃ c, cs = [c] ∧ set.contains c = true
  | .startOfText => fun atStart cs _ => cs = [] ∧ atStart = true
  | .endOfText => fun _ cs atEnd => cs = [] ∧ atEnd = true
  | .concat left right => Behind left.Matches right.Matches
  | .either left right => fun atStart cs atEnd =>
    left.Matches atStart cs atEnd ∨ right.Matches atStart cs atEnd
  | .repeated body least most => fun atStart cs atEnd =>
    ∃ n, least ≤ n ∧ (∀ m ∈ most, n ≤ m) ∧ Rounds body.Matches n atStart cs atEnd

/-- No repetition asks for more rounds than it allows. -/
def BoundsOrdered : Pattern → Prop
  | .empty | .chars _ | .startOfText | .endOfText => True
  | .concat left right | .either left right => left.BoundsOrdered ∧ right.BoundsOrdered
  | .repeated body least most => body.BoundsOrdered ∧ ∀ m ∈ most, least ≤ m

section

variable {M N : Meaning} {c : Char} {cs : List Char} {atStart atEnd : Bool}

theorem behind_nil : Behind M N atStart [] atEnd ↔ M atStart [] atEnd ∧ N atStart [] atEnd := by
  constructor
  · rintro ⟨xs, ys, hnil, hM, hN⟩
    obtain ⟨rfl, rfl⟩ := List.append_eq_nil_iff.mp hnil.symm
    simp only [List.isEmpty_nil, Bool.and_true] at hM hN
    exact ⟨hM, hN⟩
  · rintro ⟨hM, hN⟩
    exact ⟨[], [], rfl, by simpa using hM, by simpa using hN⟩

/-- The first character belongs to the first stretch, or that one is empty. -/
theorem behind_cons :
    Behind M N atStart (c :: cs) atEnd ↔
      (∃ xs ys, cs = xs ++ ys ∧ M atStart (c :: xs) (atEnd && ys.isEmpty) ∧ N false ys atEnd) ∨
        M atStart [] false ∧ N atStart (c :: cs) atEnd := by
  constructor
  · rintro ⟨xs, ys, hcs, hM, hN⟩
    cases xs with
    | nil =>
        obtain rfl : c :: cs = ys := hcs
        exact .inr ⟨by simpa using hM, by simpa using hN⟩
    | cons d xs =>
        simp only [List.cons_append, List.cons.injEq] at hcs
        obtain ⟨rfl, rfl⟩ := hcs
        exact .inl ⟨xs, ys, rfl, hM, by simpa using hN⟩
  · rintro (⟨xs, ys, rfl, hM, hN⟩ | ⟨hM, hN⟩)
    · exact ⟨c :: xs, ys, rfl, hM, by simpa using hN⟩
    · exact ⟨[], c :: cs, rfl, by simpa using hM, by simpa using hN⟩

theorem rounds_nil {n : Nat} : Rounds M n atStart [] atEnd ↔ n = 0 ∨ M atStart [] atEnd := by
  induction n with
  | zero => simp [Rounds]
  | succ n ih =>
      rw [Rounds, behind_nil, ih]
      constructor
      · rintro ⟨hM, -⟩
        exact .inr hM
      · rintro (hzero | hM)
        · omega
        · exact ⟨hM, .inr hM⟩

/-- The first character belongs to some round; those in front of it are empty. -/
theorem rounds_cons {n : Nat} :
    Rounds M n atStart (c :: cs) atEnd ↔
      ∃ k, k < n ∧ (k + 1 = n ∨ M atStart [] false) ∧ ∃ xs ys, cs = xs ++ ys ∧
        M atStart (c :: xs) (atEnd && ys.isEmpty) ∧ Rounds M k false ys atEnd := by
  induction n with
  | zero => simp [Rounds]
  | succ n ih =>
      rw [Rounds, behind_cons, ih]
      constructor
      · rintro (hfirst | ⟨hM, k, hk, -, hmore⟩)
        · exact ⟨n, Nat.lt_succ_self n, .inl rfl, hfirst⟩
        · exact ⟨k, Nat.lt_succ_of_lt hk, .inr hM, hmore⟩
      · rintro ⟨k, hk, hempty, hmore⟩
        by_cases hkn : k = n
        · subst hkn
          exact .inl hmore
        · have hM : M atStart [] false := hempty.resolve_left (by omega)
          exact .inr ⟨hM, k, by omega, .inr hM, hmore⟩

end

/-! ## Matching one character after the other -/

variable {p q : Pattern} {c : Char} {cs : List Char} {atStart atEnd : Bool}

/-- A pattern can match no characters exactly if it is found to. -/
theorem nullable_iff (hp : p.BoundsOrdered) :
    p.nullable atStart atEnd = true ↔ p.Matches atStart [] atEnd := by
  induction p with
  | empty => simp [nullable, Matches]
  | chars set => simp [nullable, Matches]
  | startOfText => simp [nullable, Matches]
  | endOfText => simp [nullable, Matches]
  | concat left right ihl ihr =>
      rw [nullable, Bool.and_eq_true, ihl hp.1, ihr hp.2, Matches, behind_nil]
  | either left right ihl ihr =>
      rw [nullable, Bool.or_eq_true, ihl hp.1, ihr hp.2, Matches]
  | repeated body least most ih =>
      rw [nullable, Bool.or_eq_true, ih hp.1, beq_iff_eq]
      constructor
      · intro h
        exact ⟨least, Nat.le_refl _, hp.2, rounds_nil.mpr h⟩
      · rintro ⟨n, hn, -, hrounds⟩
        refine (rounds_nil.mp hrounds).imp_left fun hzero => ?_
        omega

/-- Nothing is gained by putting a pattern behind the one that matches nothing. -/
theorem matches_andThen :
    (p.andThen q).Matches atStart cs atEnd ↔ (Pattern.concat p q).Matches atStart cs atEnd := by
  cases p with
  | empty =>
      show q.Matches atStart cs atEnd ↔ _
      constructor
      · intro h
        exact ⟨[], cs, rfl, rfl, by simpa using h⟩
      · rintro ⟨xs, ys, rfl, rfl, h⟩
        simpa using h
  | _ => rfl

/-- What is left of a pattern, with another one behind it. -/
theorem exists_mem_map_andThen {ps : List Pattern} :
    (∃ r ∈ ps.map (·.andThen q), r.Matches false cs atEnd) ↔
      ∃ xs ys, cs = xs ++ ys ∧ (∃ r ∈ ps, r.Matches false xs (atEnd && ys.isEmpty)) ∧
        q.Matches false ys atEnd := by
  constructor
  · rintro ⟨_, hmem, h⟩
    obtain ⟨r, hr, rfl⟩ := List.mem_map.mp hmem
    obtain ⟨xs, ys, hcs, hxs, hys⟩ := matches_andThen.mp h
    exact ⟨xs, ys, hcs, ⟨r, hr, hxs⟩, by simpa using hys⟩
  · rintro ⟨xs, ys, hcs, ⟨r, hr, hxs⟩, hys⟩
    refine ⟨r.andThen q, List.mem_map_of_mem hr, matches_andThen.mpr ?_⟩
    exact ⟨xs, ys, hcs, hxs, by simpa using hys⟩

/-- The rounds that may be left behind one that has taken characters, if empty rounds in front of it
    count as they are needed. -/
theorem exists_rounds_iff {least k : Nat} {most : Option Nat} {empty : Bool}
    (hmost : most ≠ some 0) (hle : ∀ m ∈ most, least ≤ m) :
    (∃ n, least ≤ n ∧ (∀ m ∈ most, n ≤ m) ∧ k < n ∧ (k + 1 = n ∨ empty = true)) ↔
      (if empty then 0 else least - 1) ≤ k ∧ ∀ m ∈ most.map (· - 1), k ≤ m := by
  have hbound : (∀ m ∈ most.map (· - 1), k ≤ m) ↔ ∀ m ∈ most, k + 1 ≤ m := by
    cases most with
    | none => simp
    | some m =>
        have hm : m ≠ 0 := fun hzero => hmost (congrArg some hzero)
        simp only [Option.map_some, Option.mem_def, Option.some.injEq, forall_eq']
        omega
  rw [hbound]
  cases empty with
  | false =>
      simp only [Bool.false_eq_true, or_false, if_false]
      constructor
      · rintro ⟨n, hn, hmax, -, rfl⟩
        exact ⟨by omega, hmax⟩
      · rintro ⟨hn, hmax⟩
        exact ⟨k + 1, by omega, hmax, Nat.lt_succ_self k, rfl⟩
  | true =>
      simp only [or_true, and_true, if_true, Nat.zero_le, true_and]
      constructor
      · rintro ⟨n, -, hmax, hk⟩ m hm
        have := hmax m hm
        omega
      · intro hmax
        refine ⟨max (k + 1) least, Nat.le_max_right _ _, fun m hm => ?_, Nat.le_max_left _ _⟩
        exact Nat.max_le.mpr ⟨hmax m hm, hle m hm⟩

/-- A pattern matches a stretch with a first character if what is left once that is read matches the
    others. -/
theorem exists_residue_iff (hp : p.BoundsOrdered) :
    (∃ r ∈ p.residues atStart c, r.Matches false cs atEnd) ↔
      p.Matches atStart (c :: cs) atEnd := by
  induction p generalizing cs atEnd with
  | empty => simp [residues, Matches]
  | chars set =>
      rw [residues]
      constructor
      · rintro ⟨r, hr, h⟩
        split at hr
        next hc =>
          obtain rfl := List.mem_singleton.mp hr
          obtain rfl : cs = [] := h
          exact ⟨c, rfl, hc⟩
        next => cases hr
      · rintro ⟨d, hcs, hd⟩
        simp only [List.cons.injEq] at hcs
        obtain ⟨rfl, rfl⟩ := hcs
        rw [if_pos hd]
        exact ⟨.empty, List.mem_singleton_self _, rfl⟩
  | startOfText => simp [residues, Matches]
  | endOfText => simp [residues, Matches]
  | concat left right ihl ihr =>
      rw [residues, Matches, behind_cons, ← nullable_iff hp.1, ← ihr hp.2]
      simp only [List.mem_append, or_and_right, exists_or, exists_mem_map_andThen, ihl hp.1]
      refine or_congr_right ?_
      cases left.nullable atStart false <;> simp
  | either left right ihl ihr =>
      show _ ↔ left.Matches atStart (c :: cs) atEnd ∨ right.Matches atStart (c :: cs) atEnd
      rw [residues, ← ihl hp.1, ← ihr hp.2]
      simp only [List.mem_append, or_and_right, exists_or]
  | repeated body least most ih =>
      rw [residues, Matches]
      simp only [rounds_cons, ← nullable_iff hp.1]
      by_cases hmost : most = some 0
      · rw [if_pos hmost]
        constructor
        · rintro ⟨r, hr, -⟩
          cases hr
        · rintro ⟨n, -, hmax, k, hk, -⟩
          have hzero : n ≤ 0 := hmax 0 hmost
          omega
      · -- Both sides choose the rounds that follow the one with the character.
        rw [if_neg hmost, exists_mem_map_andThen]
        simp only [ih hp.1, Matches]
        constructor
        · rintro ⟨xs, ys, hcs, hxs, k, hk, hmax, hys⟩
          obtain ⟨n, hn, hnmax, hkn, hempty⟩ := (exists_rounds_iff hmost hp.2).mpr ⟨hk, hmax⟩
          exact ⟨n, hn, hnmax, k, hkn, hempty, xs, ys, hcs, hxs, hys⟩
        · rintro ⟨n, hn, hnmax, k, hkn, hempty, xs, ys, hcs, hxs, hys⟩
          obtain ⟨hk, hmax⟩ := (exists_rounds_iff hmost hp.2).mp ⟨n, hn, hnmax, hkn, hempty⟩
          exact ⟨xs, ys, hcs, hxs, k, hk, hmax, hys⟩

theorem boundsOrdered_andThen (hp : p.BoundsOrdered) (hq : q.BoundsOrdered) :
    (p.andThen q).BoundsOrdered := by
  cases p with
  | empty => exact hq
  | _ => exact ⟨hp, hq⟩

theorem boundsOrdered_of_mem_residues (hp : p.BoundsOrdered) :
    ∀ r ∈ p.residues atStart c, r.BoundsOrdered := by
  induction p with
  | empty => simp [residues]
  | chars set =>
      rw [residues]
      split <;> simp [BoundsOrdered]
  | startOfText => simp [residues]
  | endOfText => simp [residues]
  | concat left right ihl ihr =>
      rw [residues, List.forall_mem_append, List.forall_mem_map]
      refine ⟨fun r hr => boundsOrdered_andThen (ihl hp.1 r hr) hp.2, ?_⟩
      split
      next => exact ihr hp.2
      next => simp
  | either left right ihl ihr =>
      rw [residues, List.forall_mem_append]
      exact ⟨ihl hp.1, ihr hp.2⟩
  | repeated body least most ih =>
      rw [residues]
      split
      next => simp
      next =>
        refine List.forall_mem_map.mpr fun r hr => boundsOrdered_andThen (ih hp.1 r hr) ⟨hp.1, ?_⟩
        intro left hleft
        obtain ⟨m, hm, rfl⟩ := Option.map_eq_some_iff.mp hleft
        have hle : least ≤ m := hp.2 m hm
        split <;> omega

/-! ## Searching -/

/-- The pattern matches some stretch at the front of the characters up to the end of the text. -/
def MatchesFront (p : Pattern) (atStart : Bool) (cs : List Char) : Prop :=
  ∃ xs after, cs = xs ++ after ∧ p.Matches atStart xs after.isEmpty

/-- The pattern matches some stretch of the characters up to the end of the text. -/
def OccursIn (p : Pattern) (atStart : Bool) (cs : List Char) : Prop :=
  ∃ before rest, cs = before ++ rest ∧ p.MatchesFront (atStart && before.isEmpty) rest

theorem matchesFront_nil (hp : p.BoundsOrdered) :
    p.MatchesFront atStart [] ↔ p.nullable atStart true = true := by
  rw [nullable_iff hp]
  constructor
  · rintro ⟨xs, after, hnil, h⟩
    obtain ⟨rfl, rfl⟩ := List.append_eq_nil_iff.mp hnil.symm
    exact h
  · intro h
    exact ⟨[], [], rfl, h⟩

/-- A pattern matches at the front of a text if it matches no characters there, or one of its
    residues goes on behind the first one. -/
theorem matchesFront_cons (hp : p.BoundsOrdered) :
    p.MatchesFront atStart (c :: cs) ↔
      p.nullable atStart false = true ∨ ∃ r ∈ p.residues atStart c, r.MatchesFront false cs := by
  rw [nullable_iff hp]
  constructor
  · rintro ⟨xs, after, hcs, h⟩
    cases xs with
    | nil =>
        obtain rfl : c :: cs = after := hcs
        exact .inl h
    | cons d xs =>
        simp only [List.cons_append, List.cons.injEq] at hcs
        obtain ⟨rfl, rfl⟩ := hcs
        obtain ⟨r, hr, hxs⟩ := (exists_residue_iff hp).mpr h
        exact .inr ⟨r, hr, xs, after, rfl, hxs⟩
  · rintro (h | ⟨r, hr, xs, after, rfl, hxs⟩)
    · exact ⟨[], c :: cs, rfl, h⟩
    · exact ⟨c :: xs, after, rfl, (exists_residue_iff hp).mp ⟨r, hr, hxs⟩⟩

theorem occursIn_nil : p.OccursIn atStart [] ↔ p.MatchesFront atStart [] := by
  constructor
  · rintro ⟨before, rest, hnil, h⟩
    obtain ⟨rfl, rfl⟩ := List.append_eq_nil_iff.mp hnil.symm
    simpa using h
  · intro h
    exact ⟨[], [], rfl, by simpa using h⟩

/-- A pattern occurs in a text at its front or further on. -/
theorem occursIn_cons :
    p.OccursIn atStart (c :: cs) ↔ p.MatchesFront atStart (c :: cs) ∨ p.OccursIn false cs := by
  constructor
  · rintro ⟨before, rest, hcs, h⟩
    cases before with
    | nil =>
        obtain rfl : c :: cs = rest := hcs
        exact .inl (by simpa using h)
    | cons d before =>
        simp only [List.cons_append, List.cons.injEq] at hcs
        obtain ⟨rfl, rfl⟩ := hcs
        exact .inr ⟨before, rest, rfl, by simpa using h⟩
  · rintro (h | ⟨before, rest, rfl, h⟩)
    · exact ⟨[], c :: cs, rfl, by simpa using h⟩
    · exact ⟨c :: before, rest, rfl, by simpa using h⟩

/-- A search succeeds if one of the patterns to be completed matches from here on, or the pattern
    that is searched for occurs from here on. -/
theorem search_iff (hp : p.BoundsOrdered) {active : List Pattern}
    (hactive : ∀ r ∈ active, r.BoundsOrdered) :
    p.search active atStart cs = true ↔
      (∃ r ∈ active, r.MatchesFront atStart cs) ∨ p.OccursIn atStart cs := by
  induction cs generalizing active atStart with
  | nil =>
      have hfront : ∀ r ∈ active, (r.nullable atStart true = true ↔ r.MatchesFront atStart []) :=
        fun r hr => (matchesFront_nil (hactive r hr)).symm
      rw [search, List.any_cons, Bool.or_eq_true, List.any_eq_true, occursIn_nil,
        matchesFront_nil hp, or_comm]
      exact or_congr_left (exists_congr fun r => and_congr_right fun hr => hfront r hr)
  | cons c cs ih =>
      have hall : ∀ r ∈ p :: active, r.BoundsOrdered := List.forall_mem_cons.mpr ⟨hp, hactive⟩
      have hmore : ∀ r ∈ ((p :: active).flatMap (residues atStart c)).eraseDups,
          r.BoundsOrdered := by
        intro r hr
        rw [List.mem_eraseDups] at hr
        obtain ⟨q, hq, hr⟩ := List.mem_flatMap.mp hr
        exact boundsOrdered_of_mem_residues (hall q hq) r hr
      -- Each of the patterns matches nothing here, or goes on with the character.
      have hfront : (∃ r ∈ p :: active, r.MatchesFront atStart (c :: cs)) ↔
          (∃ r ∈ p :: active, r.nullable atStart false = true) ∨
            ∃ r ∈ ((p :: active).flatMap (residues atStart c)).eraseDups,
              r.MatchesFront false cs := by
        simp only [List.mem_eraseDups, List.mem_flatMap]
        constructor
        · rintro ⟨q, hq, h⟩
          rcases (matchesFront_cons (hall q hq)).mp h with hnull | ⟨r, hr, hrest⟩
          · exact .inl ⟨q, hq, hnull⟩
          · exact .inr ⟨r, ⟨q, hq, hr⟩, hrest⟩
        · rintro (⟨q, hq, hnull⟩ | ⟨r, ⟨q, hq, hr⟩, hrest⟩)
          · exact ⟨q, hq, (matchesFront_cons (hall q hq)).mpr (.inl hnull)⟩
          · exact ⟨q, hq, (matchesFront_cons (hall q hq)).mpr (.inr ⟨r, hr, hrest⟩)⟩
      rw [search, Bool.or_eq_true, List.any_eq_true, ih hmore, ← or_assoc, ← hfront,
        occursIn_cons, ← or_assoc]
      refine or_congr_left ?_
      rw [or_comm]
      simp

/-- A text is accepted exactly if some stretch of it is matched. -/
theorem isMatch_iff (hp : p.BoundsOrdered) {text : String} :
    p.isMatch text = true ↔
      ∃ before xs after, text.toList = before ++ (xs ++ after) ∧
        p.Matches before.isEmpty xs after.isEmpty := by
  rw [isMatch, search_iff hp (by simp)]
  constructor
  · rintro (⟨r, hr, -⟩ | ⟨before, _, htext, xs, after, rfl, h⟩)
    · cases hr
    · exact ⟨before, xs, after, htext, h⟩
  · rintro ⟨before, xs, after, htext, h⟩
    exact .inr ⟨before, xs ++ after, htext, xs, after, rfl, h⟩

end RecordQuery.Pattern
