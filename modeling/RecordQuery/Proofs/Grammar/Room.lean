/-
  RecordQuery.Proofs.Grammar.Room

  Only criteria ask for room. All other productions are the same functions in vocabularies that
  differ in nothing but how deep criteria may nest, so none of them fails for nesting too deep.
-/

import RecordQuery.Proofs.Grammar.Lockstep
import RecordQuery.Proofs.Vocabulary

namespace RecordQuery

open Production

variable {α β : Type} {v : Vocabulary}

/-! ## The same productions -/

/-- Productions that go on alike from what a first one reads. -/
theorem Production.bind_congr {P : Production α} {F F' : α → Production β} {c : Cursor}
    (h : ∀ a d, P c = .ok (a, d) → F a d = F' a d) : (P >>= F) c = (P >>= F') c := by
  rw [bind_apply, bind_apply]
  cases hP : P c with
  | error e => rfl
  | ok p => exact h p.1 p.2 hP

/-- Comparisons do not look at the limit. -/
theorem comparison_withNesting (n : UInt64) :
    of (Grammar.comparison (v.withNesting n)) = of (Grammar.comparison v) :=
  rfl

theorem moreFields_withNesting (n : UInt64) (c : Cursor) :
    of (Grammar.moreFields (v.withNesting n)) c = of (Grammar.moreFields v) c := by
  rw [of_moreFields, of_moreFields (v := v)]
  refine bind_congr fun
    | some (), d, h => ?_
    | none, d, _ => rfl
  have hcomma := size_lt_of_passes (passes_of_accept rfl h)
  refine bind_congr fun name e h => ?_
  have hname := size_lt_of_passes (named_eq_ok_iff.mp h).2.1
  rw [bind_apply, bind_apply, moreFields_withNesting n e]
termination_by c.size
decreasing_by omega

theorem selector_withNesting (n : UInt64) :
    Grammar.selector (v.withNesting n) = Grammar.selector v := by
  have hmore : of (Grammar.moreFields (v.withNesting n)) = of (Grammar.moreFields v) :=
    funext (moreFields_withNesting n)
  rw [selector_eq, selector_eq, hmore]
  rfl

theorem sourceClause_withNesting (n : UInt64) :
    Grammar.sourceClause (v.withNesting n) = Grammar.sourceClause v :=
  rfl

/-- The items of an order do not look at the limit. -/
theorem orderItems_withNesting (n : UInt64) (c : Cursor) :
    of (Grammar.orderItems (v.withNesting n)) c = of (Grammar.orderItems v) c := by
  rw [of_orderItems, of_orderItems (v := v)]
  refine bind_congr fun name d h => ?_
  have hname := size_lt_of_passes (named_eq_ok_iff.mp h).2.1
  refine bind_congr fun written e h => ?_
  obtain ⟨p, -, -, rfl⟩ := of_eq_ok.mp h
  have hwritten := p.shorter
  refine bind_congr fun
    | some (), f, h => ?_
    | none, f, _ => rfl
  have hcomma := size_lt_of_passes (passes_of_accept rfl h)
  dsimp only
  rw [bind_apply, bind_apply, orderItems_withNesting n f]
termination_by c.size
decreasing_by
  simp only [Cursor.size] at *
  omega

theorem orderClause_withNesting (n : UInt64) :
    Grammar.orderClause (v.withNesting n) = Grammar.orderClause v := by
  have hitems : of (Grammar.orderItems (v.withNesting n)) = of (Grammar.orderItems v) :=
    funext (orderItems_withNesting n)
  rw [orderClause_eq, orderClause_eq, hitems]
  rfl

theorem limitClause_withNesting (n : UInt64) :
    Grammar.limitClause (v.withNesting n) = Grammar.limitClause v :=
  rfl

/-! ## No failure for nesting too deep -/

/-- A production that is the same however deep criteria may nest does not fail for that. -/
theorem ne_tooDeep_of_const {P : Vocabulary → Production α} {c : Cursor} {limit : Nat}
    {p : Position} (hsame : ∀ n, P (v.withNesting n) = P v)
    (hsteps : ∀ w : Vocabulary, Follows w w (P w) (P w) c) :
    P v c ≠ .error (.nestingTooDeep limit p) := by
  intro h
  -- The error tells the limit of every vocabulary in which the production is run.
  have hlimit (w : Vocabulary) (hw : P w c = .error (.nestingTooDeep limit p)) :
      limit = w.maxNesting := by
    obtain ⟨l, hl, -⟩ | ⟨ts, d, m, -, -, hshows, -⟩ := (hsteps w).error hw
    · cases hl
    · exact hshows.1
  have hzero := hlimit (v.withNesting 0) (by rw [hsame, h])
  have hone := hlimit (v.withNesting 1) (by rw [hsame, h])
  cases hzero.symm.trans hone

end RecordQuery
