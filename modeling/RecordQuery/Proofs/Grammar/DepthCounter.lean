/-
  RecordQuery.Proofs.Grammar.DepthCounter

  The depth that a cursor counts. It is raised where a `not` operand or a group is opened and
  lowered where that one is closed, and nothing else touches it: so at every moment it is the number
  of those that are open.
-/

import RecordQuery.Proofs.Grammar.Composition
import RecordQuery.Proofs.Grammar.Stepwise

namespace RecordQuery

open Production

variable {v : Vocabulary} {α β : Type}

/-! ## What keeps the depth -/

/-- Wherever the production succeeds, the depth is what it was at its start. -/
def KeepsDepth {α : Type} (P : Production α) (c : Cursor) : Prop :=
  ∀ a d, P c = .ok (a, d) → d.depth = c.depth

namespace KeepsDepth

variable {c : Cursor}

theorem pure (a : α) : KeepsDepth (pure a) c := by
  intro b d h
  obtain ⟨-, rfl⟩ := Prod.mk.inj (pure_eq_ok.mp h)
  rfl

/-- A sequence keeps the depth if its parts do. -/
theorem bind {P : Production α} {F : α → Production β} (hP : KeepsDepth P c)
    (hF : ∀ a d, P c = .ok (a, d) → KeepsDepth (F a) d) : KeepsDepth (P >>= F) c := by
  intro b e h
  obtain ⟨⟨a, d⟩, ha, hb⟩ := bind_eq_ok.mp h
  exact (hF a d ha b e hb).trans (hP a d ha)

theorem skip : KeepsDepth skip c := by
  intro u d h
  obtain ⟨_, -, h⟩ := bind_eq_ok.mp h
  obtain ⟨-, rfl⟩ := Prod.mk.inj (pure_eq_ok.mp h)
  rfl

/-- A level that is entered is left again. -/
theorem deeper {P : Production α} (hP : KeepsDepth P c.enter) : KeepsDepth (deeper P) c := by
  intro a d h
  obtain ⟨⟨b, e⟩, he, heq⟩ := map_eq_ok.mp h
  obtain ⟨-, rfl⟩ := Prod.mk.inj heq
  rw [Cursor.leave, hP b e he]
  rfl

/-- Every production keeps the depth, at every cursor. -/
theorem composes (v : Vocabulary) : Composes v (fun _ => True) @KeepsDepth where
  enter _ := trivial
  pure _ := pure
  bind hP hF := bind hP fun a d h => hF a d h trivial
  look _ f := by
    intro a d h
    obtain ⟨-, rfl⟩ := Prod.mk.inj (Except.ok.inj h)
    rfl
  skip _ _ := skip
  refuse _ e := by
    intro a d h
    cases h
  checkRoom _ _ := by
    intro u d h
    obtain ⟨_, -, heq⟩ := map_eq_ok.mp h
    obtain ⟨-, rfl⟩ := Prod.mk.inj heq
    rfl
  judged judge _ _ := by
    intro w d h
    exact (named_eq_ok_iff.mp h).2.1.depth
  deeper := deeper

/-- No move counts. -/
theorem move (m : Move) : KeepsDepth (m.run v) c := by
  have h := composes v
  have hpure (as : List Action) (d : Cursor) : KeepsDepth (Pure.pure as) d := pure as
  cases m with
  | pass => exact skip.bind fun _ _ _ => hpure _ _
  | closeParen => exact (h.demand trivial rfl _).bind fun _ _ _ => hpure _ _
  | keyword k => exact (h.demand trivial rfl _).bind fun _ _ _ => hpure _ _
  | selectorName => exact (h.named trivial _ _).bind fun _ _ _ => hpure _ _
  | fieldName => exact (h.named trivial _ _).bind fun _ _ _ => hpure _ _
  | namespaceName => exact (h.named trivial _ _).bind fun _ _ _ => hpure _ _
  | literal => exact (h.literal trivial).bind fun _ _ _ => hpure _ _
  | integer => exact (h.demand trivial rfl _).bind fun _ _ _ => hpure _ _
  | limit => exact (h.demand trivial rfl _).bind fun _ _ _ => hpure _ _
  | emit a => exact hpure _ _
  | refuse e => exact h.refuse trivial e

end KeepsDepth

/-! ## What is open -/

/-- What a task closes. -/
def Task.closes? : Task → Option Opening
  | .leave x => some x
  | _ => none

/-- What the tasks close, the innermost first. -/
def openedIn (ts : List Task) : List Opening :=
  ts.filterMap Task.closes?

/-- The `not` operands and groups that are open, the innermost first: those that are still to be
    closed. -/
def Moment.opened (m : Moment) : List Opening :=
  openedIn m.tasks

/-- What tasks have to close is closed by one after the other. -/
theorem openedIn_append (ts us : List Task) : openedIn (ts ++ us) = openedIn ts ++ openedIn us :=
  List.filterMap_append

theorem openedIn_accepting {f : Token → Option α} {t : Token} {behind : α → List Task}
    {instead : List Task} (hbehind : ∀ a, openedIn (behind a) = []) (hinstead : openedIn instead = []) :
    openedIn (accepting f t behind instead) = [] := by
  rw [accepting]
  split
  next a _ => exact hbehind a
  next => exact hinstead

/-- A nonterminal opens nothing before its first step. -/
theorem openedIn_tasks (n : Nonterminal) (t : Token) : openedIn (n.tasks v t) = [] := by
  cases n with
  | selector | comparison | orderItems => rfl
  | chain op => cases op <;> rfl
  | operands op => exact openedIn_accepting (fun _ => by cases op <;> rfl) rfl
  | unary | atom | atEnd =>
      rw [Nonterminal.tasks]
      split <;> rfl
  | query | selectorRest | direction =>
      exact openedIn_accepting (fun _ => rfl) (openedIn_accepting (fun _ => rfl) rfl)
  | comparisonRest =>
      exact openedIn_accepting (fun _ => rfl) (openedIn_accepting (fun _ => rfl)
        (openedIn_accepting (fun _ => rfl) rfl))
  | _ => exact openedIn_accepting (fun _ => rfl) rfl

theorem Opening.openedIn_tasks (x : Opening) : openedIn x.tasks = [x] := by
  cases x <;> rfl

/-! ## The counter -/

namespace Moment

/-- The counter is the number of `not` operands and groups that are open, and at most the limit. -/
structure Counted (v : Vocabulary) (m : Moment) : Prop where
  depth_eq : m.cursor.depth = m.opened.length
  depth_le : m.cursor.depth ≤ v.maxNesting

/-- What a step does to the counter. Where something is opened it is raised, and has room in a
    machine word; where something is closed it is lowered, and is not zero; elsewhere it stays. -/
inductive Counts (m m' : Moment) : Prop
  | raised {x : Opening} {more : List Task} (h : m.tasks = .enter x :: more)
      (fits : m.cursor.depth + 1 < UInt64.size) (depth_eq : m'.cursor.depth = m.cursor.depth + 1)
  | lowered {x : Opening} {more : List Task} (h : m.tasks = .leave x :: more)
      (pos : 0 < m.cursor.depth) (depth_eq : m'.cursor.depth = m.cursor.depth - 1)
  | kept (h : ∀ x more, m.tasks ≠ .enter x :: more ∧ m.tasks ≠ .leave x :: more)
      (depth_eq : m'.cursor.depth = m.cursor.depth)

variable {m m' : Moment}

/-- A step keeps the counter at the number of levels to be closed. -/
theorem Counted.step (h : m.Counted v) (hs : Step v m m') : m'.Counted v := by
  obtain ⟨hdepth, hle⟩ := h
  cases hs with
  | @recognize n more c as =>
      refine ⟨?_, hle⟩
      rw [opened, openedIn_append, RecordQuery.openedIn_tasks]
      exact hdepth
  | move hrun =>
      have hkept := KeepsDepth.move _ _ _ hrun
      exact ⟨hkept.trans hdepth, Nat.le_trans (Nat.le_of_eq hkept) hle⟩
  | @enter x more c as room =>
      refine ⟨?_, room⟩
      -- What is counted here is closed behind the tasks of the opening.
      rw [opened, openedIn_append, x.openedIn_tasks]
      exact congrArg (· + 1) hdepth
  | leave => exact ⟨congrArg (· - 1) hdepth, Nat.le_trans (Nat.sub_le _ _) hle⟩

/-- A step changes the counter by what it opens or closes. -/
theorem Counted.counts (h : m.Counted v) (hs : Step v m m') : m.Counts m' := by
  cases hs with
  | recognize => exact .kept (by simp) rfl
  | move hrun => exact .kept (by simp) (KeepsDepth.move _ _ _ hrun)
  | enter room =>
      exact .raised rfl (Nat.lt_of_le_of_lt room v.config.maxNesting.toNat_lt_size) rfl
  | leave =>
      have hpos := h.depth_eq
      exact .lowered rfl (Nat.lt_of_lt_of_eq (Nat.succ_pos _) hpos.symm) rfl

end Moment

end RecordQuery
