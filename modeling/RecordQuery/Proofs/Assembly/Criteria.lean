/-
  RecordQuery.Proofs.Assembly.Criteria

  The actions of criteria, wherever they run. Every production of criteria emits the actions of a
  condition, from whatever cursor it starts. They run in every assembly, whatever waits on its
  stack, and put one criteria on top that does not depend on the assembly. Besides the stack they
  touch the slot for the first error alone: it takes their first bad numeral if it is free, and
  counts those that it cannot take.
-/

import RecordQuery.Proofs.Assembly.Replay
import RecordQuery.Proofs.Grammar.Chain
import RecordQuery.Vocabulary.Standard

namespace RecordQuery

/-! ## What productions emit -/

/-- Whenever the reading succeeds, it yields the actions of something. -/
def Emits {α : Type} {n : Nat} (r : Except SyntaxError (Parsed (List Action) n))
    (actions : α → List Action) : Prop :=
  ∀ p, r = .ok p → ∃ x, p.value = actions x

namespace Grammar

variable {v : Vocabulary} {c : Cursor}

theorem emits_comparison (c : Cursor) : Emits (comparison v c) Condition.actions := by
  intro p h
  obtain ⟨name, -, h⟩ := bind_eq_ok.mp h
  -- The token behind the field tells which of the three comparisons this is.
  dsimp only at h
  split at h
  next op _ =>
    obtain ⟨_, -, h⟩ := bind_eq_ok.mp h
    obtain ⟨operand, -, h⟩ := bind_eq_ok.mp h
    obtain rfl := pure_eq_ok.mp h
    exact ⟨.value name.value op operand.value, rfl⟩
  next =>
    split at h
    next op _ =>
      obtain ⟨_, -, h⟩ := bind_eq_ok.mp h
      obtain ⟨operand, -, h⟩ := bind_eq_ok.mp h
      obtain rfl := pure_eq_ok.mp h
      exact ⟨.range name.value op operand.value, rfl⟩
    next =>
      obtain ⟨eaten, -, h⟩ := bind_eq_ok.mp h
      cases eaten with
      | none => cases h
      | some _ =>
          obtain ⟨operand, -, h⟩ := bind_eq_ok.mp h
          obtain rfl := pure_eq_ok.mp h
          exact ⟨.index name.value operand.value, rfl⟩

theorem emits_chain {op : BoolOp} (first : Emits (operand v op c) Condition.actions)
    (more : ∀ p : Parsed (List Action) c.size,
      Emits (operands v op p.rest) (Condition.chainActions op)) :
    Emits (chain v op c) Condition.actions := by
  intro p h
  rw [chain_eq] at h
  obtain ⟨q, hq, h⟩ := bind_eq_ok.mp h
  obtain ⟨r, hr, h⟩ := bind_eq_ok.mp h
  obtain rfl := pure_eq_ok.mp h
  obtain ⟨t, ht⟩ := first q hq
  obtain ⟨ts, hts⟩ := more q r hr
  exact ⟨ts.foldl (.compound op) t, by rw [Condition.actions_foldl, ← ht, ← hts]⟩

theorem emits_operands {op : BoolOp}
    (right : ∀ b : Parsed Unit c.size, Emits (operand v op b.rest) Condition.actions)
    (more : ∀ (b : Parsed Unit c.size) (p : Parsed (List Action) b.rest.size),
      Emits (operands v op p.rest) (Condition.chainActions op)) :
    Emits (operands v op c) (Condition.chainActions op) := by
  intro p h
  rw [operands_eq] at h
  obtain ⟨eaten, -, h⟩ := bind_eq_ok.mp h
  cases eaten with
  | none =>
      obtain rfl := pure_eq_ok.mp h
      exact ⟨[], rfl⟩
  | some b =>
      obtain ⟨q, hq, h⟩ := bind_eq_ok.mp h
      obtain ⟨r, hr, h⟩ := bind_eq_ok.mp h
      obtain rfl := pure_eq_ok.mp h
      obtain ⟨t, ht⟩ := right b q hq
      obtain ⟨ts, hts⟩ := more b q r hr
      exact ⟨t :: ts, by rw [Condition.chainActions_cons, ← ht, ← hts]⟩

theorem emits_negation (hk : c.keyword? v = some .not)
    (operand : ∀ b : Parsed Unit c.size, Emits (unary v b.rest.enter) Condition.actions) :
    Emits (unary v c) Condition.actions := by
  intro p h
  rw [unary, dif_pos hk] at h
  obtain ⟨_, -, h⟩ := bind_eq_ok.mp h
  obtain ⟨b, -, h⟩ := bind_eq_ok.mp h
  obtain ⟨q, hq, h⟩ := bind_eq_ok.mp h
  obtain rfl := pure_eq_ok.mp h
  obtain ⟨t, ht⟩ := operand b q hq
  exact ⟨.negated t, by rw [Condition.actions, ← ht]⟩

/-- Parentheses emit nothing of their own. -/
theorem emits_group (ht : c.token = .openParen)
    (inside : ∀ b : Parsed Unit c.size, Emits (chain v .or b.rest.enter) Condition.actions) :
    Emits (atom v c) Condition.actions := by
  intro p h
  rw [atom, dif_pos ht] at h
  obtain ⟨_, -, h⟩ := bind_eq_ok.mp h
  obtain ⟨b, -, h⟩ := bind_eq_ok.mp h
  obtain ⟨q, hq, h⟩ := bind_eq_ok.mp h
  obtain ⟨_, -, h⟩ := bind_eq_ok.mp h
  obtain rfl := pure_eq_ok.mp h
  exact inside b q hq

/-- Every production of criteria emits the actions of a condition. The induction follows the calls
    of the recognizer. -/
theorem emits_criteria (v : Vocabulary) :
    (∀ op c, Emits (chain v op c) Condition.actions) ∧
    (∀ op c, Emits (operands v op c) (Condition.chainActions op)) ∧
    (∀ c, Emits (unary v c) Condition.actions) ∧ ∀ c, Emits (atom v c) Condition.actions := by
  refine recognizer_induct v ?_ ?_ ?_ ?_ ?_ ?_
  · intro op c first more
    refine emits_chain ?_ more
    cases op <;> exact first
  · intro op c right more
    refine emits_operands (fun b => ?_) more
    cases op <;> exact right b
  · intro c hk operand
    exact emits_negation hk operand
  · intro c hk hatom
    rwa [unary, dif_neg hk]
  · intro c ht inside
    exact emits_group ht inside
  · intro c ht
    rw [atom, dif_neg ht]
    exact emits_comparison c

end Grammar

/-! ## The slot for the first error -/

namespace FirstError

variable {ε : Type}

/-- A slot that holds an error counts the others. -/
theorem foldl_record_of_some {s : FirstError ε} {e : ε} (h : s.first = some e) (faults : List ε) :
    faults.foldl record s = { first := some e, dropped := s.dropped + faults.length } := by
  induction faults generalizing s with
  | nil =>
      rw [← h]
      rfl
  | cons fault faults ih =>
      have hkept : (s.record fault).first = some e := by
        rw [record, h]
      have hcounted : (s.record fault).dropped = s.dropped + 1 := by
        rw [record, h]
      rw [List.foldl_cons, ih hkept, hcounted, List.length_cons, Nat.add_right_comm]
      rfl

/-- A free slot takes the first error and counts the others. -/
theorem foldl_record_of_none {s : FirstError ε} (h : s.first = none) (faults : List ε) :
    faults.foldl record s =
      { first := faults.head?, dropped := s.dropped + (faults.length - 1) } := by
  cases faults with
  | nil =>
      rw [List.head?_nil, ← h]
      rfl
  | cons fault faults =>
      have htaken : s.record fault = { s with first := some fault } := by
        rw [record, h]
      rw [List.foldl_cons, htaken, foldl_record_of_some rfl]
      rfl

end FirstError

/-! ## Running criteria -/

/-- The actions of criteria run in every assembly. They leave the stack as it is, but for one
    criteria on top, which is the same in every assembly, and leave all other parts as they are, but
    for the slot for the first error. A slot that is free takes the first of their bad numerals, if
    there is one, and counts the others; a slot that is not free keeps its error and counts them
    all. -/
theorem criteria_actions_compose {v : Vocabulary} {c : Cursor} {p : Parsed (List Action) c.size}
    (h : Grammar.disjunction v c = .ok p ∨ Grammar.conjunction v c = .ok p ∨
      Grammar.unary v c = .ok p ∨ Grammar.atom v c = .ok p) :
    ∃ (tree : Criteria) (faults : List ValueError), ∀ a : Assembly, ∃ errors,
      a.run p.value = .ok { a with stack := .criteria tree :: a.stack, errors } ∧
      (a.errors.first = none → errors =
        { first := faults.head?, dropped := a.errors.dropped + (faults.length - 1) }) ∧
      ∀ e, a.errors.first = some e → errors =
        { first := some e, dropped := a.errors.dropped + faults.length } := by
  obtain ⟨hchain, -, hunary, hatom⟩ := Grammar.emits_criteria v
  obtain ⟨t, ht⟩ : ∃ t : Condition, p.value = t.actions := by
    rcases h with h | h | h | h
    · exact hchain .or c p h
    · exact hchain .and c p h
    · exact hunary c p h
    · exact hatom c p h
  refine ⟨t.standIn, t.faults, fun a => ⟨t.faults.foldl FirstError.record a.errors, ?_, ?_, ?_⟩⟩
  · rw [ht]
    exact Assembly.run_condition t a
  · intro hfree
    exact FirstError.foldl_record_of_none hfree t.faults
  · intro e he
    exact FirstError.foldl_record_of_some he t.faults

/-- The actions that are recognized in a text of criteria. -/
def criteriaActions? (v : Vocabulary) (text : String) : Option (List Action) :=
  (Cursor.ofText text >>= fun c => (Grammar.disjunction v c).map Parsed.value).toOption

theorem exists_of_criteriaActions? {v : Vocabulary} {text : String} {as : List Action}
    (h : criteriaActions? v text = some as) :
    ∃ c p, Cursor.ofText text = .ok c ∧ Grammar.disjunction v c = .ok p ∧ p.value = as := by
  obtain ⟨c, hc, h⟩ := bind_eq_ok.mp (eq_ok_of_toOption h)
  obtain ⟨p, hp, rfl⟩ := map_eq_ok.mp h
  exact ⟨c, p, hc, hp, rfl⟩

/-- A negated group with a bad numeral in it, and a comparison behind it. -/
def groupText : String :=
  "not (a = 'x' or k < ten) and b in c"

/-- Its actions make one tree of it on top of whatever else is pending. -/
theorem groupText_runs_anywhere :
    ∃ c p, Cursor.ofText groupText = .ok c ∧ Grammar.disjunction .standard c = .ok p ∧
      ∀ a : Assembly, ∃ errors, a.run p.value = .ok { a with
        stack := .criteria (.compound .and
          (.negated (.compound .or (.value "a" .equal "x") (.range "k" .lessThan 0)))
          (.index "b" "c")) :: a.stack
        errors } := by
  have hactions : criteriaActions? .standard groupText = some
      [.push "a", .push "=", .push "x", .addValueCriteria, .push "or", .push "k", .push "<",
        .push "ten", .addRangeCriteria, .addCompoundCriteria, .addNegatedCriteria, .push "and",
        .push "b", .push "c", .addIndexCriteria, .addCompoundCriteria] := by
    decide +kernel
  obtain ⟨c, p, hc, hp, has⟩ := exists_of_criteriaActions? hactions
  obtain ⟨tree, faults, hrun⟩ := criteria_actions_compose (.inl hp)
  refine ⟨c, p, hc, hp, fun a => ?_⟩
  -- The tree is the one that the actions make of nothing.
  obtain ⟨_, hempty, -⟩ := hrun {}
  rw [has] at hempty
  obtain rfl := Operand.criteria.inj (List.cons.inj (Assembly.mk.inj (Except.ok.inj hempty)).1).1
  obtain ⟨errors, ha, -⟩ := hrun a
  exact ⟨errors, ha⟩

/-- A slot that holds an error does not stay as it is: the next bad numeral is counted. -/
theorem second_fault_counted :
    ∃ c p a b, Cursor.ofText "b < y" = .ok c ∧ Grammar.disjunction .standard c = .ok p ∧
      ({} : Assembly).run [.push "a", .push "<", .push "x", .addRangeCriteria] = .ok a ∧
      a.errors.isSet = true ∧ a.run p.value = .ok b ∧ b ≠ { a with stack := b.stack } ∧
      a.errors.dropped = 0 ∧ b.errors.dropped = 1 := by
  have hactions : criteriaActions? .standard "b < y" =
      some [.push "b", .push "<", .push "y", .addRangeCriteria] := by
    decide +kernel
  obtain ⟨c, p, hc, hp, has⟩ := exists_of_criteriaActions? hactions
  let a : Assembly := {
    stack := [.criteria (.range "a" .lessThan 0)]
    errors := { first := some (.invalidRangeValue "a" "x" .invalidDigit) } }
  let b : Assembly := {
    stack := [.criteria (.range "b" .lessThan 0), .criteria (.range "a" .lessThan 0)]
    errors := { first := some (.invalidRangeValue "a" "x" .invalidDigit), dropped := 1 } }
  refine ⟨c, p, a, b, hc, hp, rfl, rfl, ?_, by decide, rfl, rfl⟩
  rw [has]
  rfl

end RecordQuery
