/-
  RecordQuery.Proofs.Grammar.Balance

  The depth of a cursor is balanced, over every stream of tokens and for every limit: at each moment
  of a recognition it is the number of `not` operands and groups that are open, it is raised and
  lowered within the bounds of a machine word, and what is recognized leaves it as it was.
-/

import RecordQuery.Proofs.Grammar.OpenLevels

namespace RecordQuery

open Production

variable {v : Vocabulary}

/-- At every moment the counter is the number of `not` operands and groups that are open. -/
theorem Moment.counted_of_after {c : Cursor} (hc : c.depth = 0) {n : Nat} {m : Moment}
    (h : (front c).after v n = .moment m) : m.Counted v :=
  after_induct Counted.step ⟨hc, hc ▸ Nat.zero_le _⟩ h

theorem depth_of_yields {α : Type} {n : Cursor → Nat}
    {r : (c : Cursor) → Except SyntaxError (Parsed α (n c))} {c : Cursor} (h : KeepsDepth (of r) c)
    {p : Parsed α (n c)} (hp : r c = .ok p) : p.rest.depth = c.depth :=
  h p.value p.rest (of_eq_ok.mpr (yields_of_ok hp))

/-- The counter of nesting is balanced, whatever the limit and the tokens are. Step by step the
    recognizer's answer is found, and at every moment on the way: - the counter is the number of
    `not` operands and groups that are open, and at most the limit; - in front of a phrase of
    criteria, and where the limit is asked about, these are the levels that the tokens that have
    been passed leave open; - what is to be recognized next is then recognized as its production
    does it; - the next step raises the counter if it opens something, within a machine word, lowers
    it from above zero if it closes something, and else leaves it as it is. What is recognized of
    criteria leaves the counter as it was in front of it, wherever it starts. -/
theorem nesting_counter_balanced (v : Vocabulary) (lexemes : List Lexeme)
    (ending : Except LexicalError Position) :
    (∃ n, (Moment.front { lexemes, ending }).after v n =
      .ended (Grammar.query v { lexemes, ending })) ∧
    (∀ n m, (Moment.front { lexemes, ending }).after v n = .moment m →
      (m.cursor.depth = m.opened.length ∧ m.cursor.depth ≤ v.maxNesting) ∧
      (m.atPhrase = true → levels? v (m.passed { lexemes, ending }) = some m.opened) ∧
      (∀ x P more, m.tasks = .recognize x :: more → x.production? v = some P →
        m.Does v more m.emitted (P m.cursor)) ∧
      ∀ m', m.next v = .moment m' → m.Counts m') ∧
    ∀ (c : Cursor) (p : Parsed (List Action) c.size),
      (Grammar.disjunction v c = .ok p ∨ Grammar.conjunction v c = .ok p ∨
        Grammar.unary v c = .ok p ∨ Grammar.atom v c = .ok p) → p.rest.depth = c.depth := by
  refine ⟨Moment.answers v _, fun n m h => ?_, fun c p h => ?_⟩
  · have hcounted := Moment.counted_of_after rfl h
    refine ⟨⟨hcounted.depth_eq, hcounted.depth_le⟩, Moment.levels?_passed h,
      fun x P more hx hP => Moment.does_production hx hP, fun m' hnext => ?_⟩
    exact hcounted.counts (Moment.step_of_next hnext)
  · obtain ⟨hchain, -, hunary, hatom⟩ := (KeepsDepth.composes v).criteria
    rcases h with h | h | h | h
    · exact depth_of_yields (hchain .or c trivial) h
    · exact depth_of_yields (hchain .and c trivial) h
    · exact depth_of_yields (hunary c trivial) h
    · exact depth_of_yields (hatom c trivial) h

/-- A group that is negated, with a negation in it. -/
def nestedNegationText : String :=
  "delete where a = 1 and not (b = 2 or not c = 3)"

/-- The moment that comes next, if the recognition goes on. -/
def Sequel.moment? : Sequel → Option Moment
  | .moment m => some m
  | .ended _ => none

theorem Sequel.moment?_eq_some_iff {s : Sequel} {m : Moment} :
    s.moment? = some m ↔ s = .moment m := by
  cases s <;> simp [moment?]

/-- The moment after some steps in front of a text, with a limit of three levels. -/
def momentOf? (text : String) (n : Nat) : Option Moment :=
  ((Moment.front (.front text)).after (.withNesting .standard 3) n).moment?

/-- In the group two levels are open, and its criteria leave them open. The `not` in it opens a
    third one, for which the limit just has room. -/
theorem nesting_counter_of_nestedNegationText :
    ∃ v c m₁ more p m₂ m₃, v = Vocabulary.standard.withNesting 3 ∧
      c = Cursor.front nestedNegationText ∧
      (Moment.front c).after v 27 = .moment m₁ ∧ m₁.tasks = .recognize (.chain .or) :: more ∧
      m₁.Does v more m₁.emitted (of (Grammar.chain v .or) m₁.cursor) ∧
      Grammar.disjunction v m₁.cursor = .ok p ∧ m₁.cursor.depth = 2 ∧ p.rest.depth = 2 ∧
      (Moment.front c).after v 44 = .moment m₂ ∧ m₂.tasks.head? = some (.enter .negation) ∧
      levels? v (m₂.passed c) = some [.group, .negation] ∧ m₂.cursor.depth = 2 ∧
      m₂.next v = .moment m₃ ∧ m₂.Counts m₃ := by
  let v := Vocabulary.standard.withNesting 3
  have hfirst : (momentOf? nestedNegationText 27).map (fun m => (m.tasks.head?, m.opened,
      (Grammar.disjunction v m.cursor).toOption.isSome)) =
      some (some (.recognize (.chain .or)), [.group, .negation], true) := by decide +kernel
  have hsecond : (momentOf? nestedNegationText 44).map (fun m => (m.tasks.head?, m.opened, m.atPhrase,
      (m.next v).moment?.isSome)) =
      some (some (.enter .negation), [.group, .negation], true, true) := by decide +kernel
  obtain ⟨m₁, hm₁, hfacts₁⟩ := Option.map_eq_some_iff.mp hfirst
  obtain ⟨m₂, hm₂, hfacts₂⟩ := Option.map_eq_some_iff.mp hsecond
  simp only [Prod.mk.injEq] at hfacts₁ hfacts₂
  obtain ⟨hhead₁, hopened₁, hok⟩ := hfacts₁
  obtain ⟨hhead₂, hopened₂, hphrase, hgoes⟩ := hfacts₂
  obtain ⟨more, hmore⟩ := List.head?_eq_some_iff.mp hhead₁
  obtain ⟨p, hp⟩ := Option.isSome_iff_exists.mp hok
  obtain ⟨m₃, hm₃⟩ := Option.isSome_iff_exists.mp hgoes
  replace hm₁ := Sequel.moment?_eq_some_iff.mp hm₁
  replace hm₂ := Sequel.moment?_eq_some_iff.mp hm₂
  replace hm₃ := Sequel.moment?_eq_some_iff.mp hm₃
  obtain ⟨-, hmoments, hkept⟩ := nesting_counter_balanced v (lex nestedNegationText).lexemes
    (lex nestedNegationText).ending
  obtain ⟨⟨hdepth₁, -⟩, -, hdoes, -⟩ := hmoments 27 m₁ hm₁
  obtain ⟨⟨hdepth₂, -⟩, hlevels, -, hcounts⟩ := hmoments 44 m₂ hm₂
  rw [hopened₁] at hdepth₁
  rw [hopened₂] at hdepth₂
  have hlevels₂ := hlevels hphrase
  rw [hopened₂] at hlevels₂
  replace hp := eq_ok_of_toOption hp
  exact ⟨v, _, m₁, more, p, m₂, m₃, rfl, rfl, hm₁, hmore, hdoes _ _ more hmore rfl, hp, hdepth₁,
    (hkept _ _ (.inl hp)).trans hdepth₁, hm₂, hhead₂, hlevels₂, hdepth₂, hm₃, hcounts m₃ hm₃⟩

end RecordQuery
