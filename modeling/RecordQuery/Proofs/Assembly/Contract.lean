/-
  RecordQuery.Proofs.Assembly.Contract

  The contract between actions and the stack. Each action names the operands that it takes: it fails
  exactly if they are not on top of the stack, and otherwise it puts its result in their place,
  leaves what is below them alone and sets no other part of the query than its own.
-/

import Mathlib.Data.Set.List
import RecordQuery.Proofs.Assembly.Step

namespace RecordQuery

/-! ## What actions need and what they change -/

namespace Action

/-- The operands of the action are on top of the stack, or are all that is on it. -/
def Finds : Action → OperandStack → Prop
  | .push _, _ | .setSelectOp, _ | .setDeleteOp, _ | .setNamespace _, _ | .setLimit _, _ => True
  | .setSimpleSelector, .literal _ :: _ => True
  | .addOrderSelector, .literal _ :: _ => True
  | .setFunctionSelector, .literal _ :: .literal _ :: _ => True
  | .addIndexCriteria, .literal _ :: .literal _ :: _ => True
  | .addValueCriteria, .literal _ :: .literal op :: .literal _ :: _ => op ∈ ["=", "!="]
  | .addRangeCriteria, .literal _ :: .literal op :: .literal _ :: _ => op ∈ ["<", "<=", ">", ">="]
  | .setCriteria, .criteria _ :: _ => True
  | .addNegatedCriteria, .criteria _ :: _ => True
  | .addCompoundCriteria, .criteria _ :: .literal op :: .criteria _ :: _ => op ∈ ["and", "or"]
  | .setOrderDirection, .literal d :: .orderSpec _ :: _ => d ∈ ["asc", "desc"]
  | .setCompoundSelector, s => ∀ x ∈ s, x.kind = .literal
  | .setOrder, s => ∀ x ∈ s, x.kind = .orderSpec
  | _, _ => False

/-- The number of operands that an action takes from a stack. -/
def arity (x : Action) (s : OperandStack) : Nat :=
  match x with
  | .push _ | .setSelectOp | .setDeleteOp | .setNamespace _ | .setLimit _ => 0
  | .setSimpleSelector | .setCriteria | .addNegatedCriteria | .addOrderSelector => 1
  | .setFunctionSelector | .addIndexCriteria | .setOrderDirection => 2
  | .addValueCriteria | .addRangeCriteria | .addCompoundCriteria => 3
  | .setCompoundSelector | .setOrder => s.length

/-- The kind of the operand that an action puts on the stack, if it puts one there. -/
def result? : Action → Option OperandKind
  | .push _ => some .literal
  | .addValueCriteria | .addRangeCriteria | .addIndexCriteria | .addCompoundCriteria
  | .addNegatedCriteria => some .criteria
  | .addOrderSelector | .setOrderDirection => some .orderSpec
  | _ => none

end Action

namespace Assembly

/-- The parts of an assembly besides its stack. -/
inductive Part where
  | operation
  | source
  | selector
  | criteria
  | order
  | limit
  | errors
deriving DecidableEq, Repr

/-- Both assemblies have the same in a part. -/
def Agree (a b : Assembly) : Part → Prop
  | .operation => a.operation = b.operation
  | .source => a.source = b.source
  | .selector => a.selector = b.selector
  | .criteria => a.criteria = b.criteria
  | .order => a.order = b.order
  | .limit => a.limit = b.limit
  | .errors => a.errors = b.errors

end Assembly

/-- The parts that an action may set. A query that deletes has its selector from the start, and an
    action that reads a numeral may find a bad one. -/
def Action.sets : Action → List Assembly.Part
  | .setSelectOp => [.operation]
  | .setDeleteOp => [.operation, .selector]
  | .setSimpleSelector | .setCompoundSelector | .setFunctionSelector => [.selector]
  | .setNamespace _ => [.source]
  | .setCriteria => [.criteria]
  | .setOrder => [.order]
  | .setLimit _ => [.limit, .errors]
  | .addRangeCriteria => [.errors]
  | _ => []

/-! ### Symbols and kinds -/

/-- The symbols of a list of operators that leaves none out. -/
theorem mem_symbols_iff {α : Type} (symbol : α → String) (ops : List α) {s : String}
    (hops : ∀ op, op ∈ ops) : s ∈ ops.map symbol ↔ ∃ op, s = symbol op := by
  simp [hops, eq_comm]

theorem mem_valueSymbols_iff {s : String} : s ∈ ["=", "!="] ↔ ∃ op : ValueOp, s = op.symbol :=
  mem_symbols_iff ValueOp.symbol ValueOp.all (by rintro ⟨⟩ <;> decide)

theorem mem_rangeSymbols_iff {s : String} :
    s ∈ ["<", "<=", ">", ">="] ↔ ∃ op : RangeOp, s = op.symbol :=
  mem_symbols_iff RangeOp.symbol RangeOp.all (by rintro ⟨⟩ <;> decide)

theorem mem_boolSymbols_iff {s : String} : s ∈ ["and", "or"] ↔ ∃ op : BoolOp, s = op.symbol :=
  mem_symbols_iff BoolOp.symbol BoolOp.all (by rintro ⟨⟩ <;> decide)

theorem mem_directionSymbols_iff {s : String} :
    s ∈ ["asc", "desc"] ↔ ∃ d : Direction, s = d.symbol :=
  mem_symbols_iff Direction.symbol Direction.all (by rintro ⟨⟩ <;> decide)

/-- Operands of a kind that holds values of one type are what they were made from, whichever way
    the stack is read. -/
theorem forall_kind_iff {α : Type} {g : α → Operand} {kind : OperandKind}
    (hg : ∀ x : Operand, x.kind = kind ↔ x ∈ Set.range g) {s : OperandStack} :
    (∀ x ∈ s, x.kind = kind) ↔ ∃ as : List α, s = (as.map g).reverse := by
  have hrange : (∃ as, List.map g as = s) ↔ ∀ x ∈ s, x ∈ Set.range g := by
    rw [← Set.mem_range, Set.range_list_map]
    rfl
  simp only [hg, ← hrange]
  constructor
  · rintro ⟨as, rfl⟩
    exact ⟨as.reverse, by rw [List.map_reverse, List.reverse_reverse]⟩
  · rintro ⟨as, rfl⟩
    exact ⟨as.reverse, List.map_reverse⟩

theorem kind_eq_literal_iff (x : Operand) : x.kind = .literal ↔ x ∈ Set.range Operand.literal := by
  cases x <;> simp [Operand.kind]

theorem kind_eq_orderSpec_iff (x : Operand) :
    x.kind = .orderSpec ↔ x ∈ Set.range Operand.orderSpec := by
  cases x <;> simp [Operand.kind]

namespace Assembly

variable {a b : Assembly} {x : Action}

/-! ### Where the table speaks -/

/-- An action that the table speaks of finds its operands. -/
theorem finds_of_step (h : a.Step x b) : x.Finds a.stack := by
  cases h with
  | push | setSelectOp | setDeleteOp | setNamespace | setLimit | setBadLimit => trivial
  | setSimpleSelector h | setFunctionSelector h | setCriteria h | addIndexCriteria h
  | addNegatedCriteria h | addOrderSelector h =>
      rw [h]
      trivial
  | @addValueCriteria _ _ op _ h =>
      rw [h]
      exact mem_valueSymbols_iff.mpr ⟨op, rfl⟩
  | @addRangeCriteria _ _ op _ _ h | @addBadRangeCriteria _ _ op _ _ h =>
      rw [h]
      exact mem_rangeSymbols_iff.mpr ⟨op, rfl⟩
  | @addCompoundCriteria _ _ op _ h =>
      rw [h]
      exact mem_boolSymbols_iff.mpr ⟨op, rfl⟩
  | @setOrderDirection d _ _ h =>
      rw [h]
      exact mem_directionSymbols_iff.mpr ⟨d, rfl⟩
  | setCompoundSelector h => exact (forall_kind_iff kind_eq_literal_iff).mpr ⟨_, h⟩
  | setOrder h => exact (forall_kind_iff kind_eq_orderSpec_iff).mpr ⟨_, h⟩

/-- Where an action finds its operands the table speaks of it. -/
theorem step_of_finds (h : x.Finds a.stack) : ∃ b, a.Step x b := by
  generalize hs : a.stack = s at h
  unfold Action.Finds at h
  split at h
  · exact ⟨_, .push _⟩
  · exact ⟨_, .setSelectOp⟩
  · exact ⟨_, .setDeleteOp⟩
  · exact ⟨_, .setNamespace _⟩
  next word =>
    cases hword : Text.readUnsigned word with
    | ok n => exact ⟨_, .setLimit hword⟩
    | error fault => exact ⟨_, .setBadLimit hword⟩
  · exact ⟨_, .setSimpleSelector hs⟩
  · exact ⟨_, .addOrderSelector hs⟩
  · exact ⟨_, .setFunctionSelector hs⟩
  · exact ⟨_, .addIndexCriteria hs⟩
  · obtain ⟨op, rfl⟩ := mem_valueSymbols_iff.mp h
    exact ⟨_, .addValueCriteria hs⟩
  next word _ _ _ =>
    obtain ⟨op, rfl⟩ := mem_rangeSymbols_iff.mp h
    cases hword : Text.readSigned word with
    | ok bound => exact ⟨_, .addRangeCriteria hs hword⟩
    | error fault => exact ⟨_, .addBadRangeCriteria hs hword⟩
  · exact ⟨_, .setCriteria hs⟩
  · exact ⟨_, .addNegatedCriteria hs⟩
  · obtain ⟨op, rfl⟩ := mem_boolSymbols_iff.mp h
    exact ⟨_, .addCompoundCriteria hs⟩
  · obtain ⟨d, rfl⟩ := mem_directionSymbols_iff.mp h
    exact ⟨_, .setOrderDirection hs⟩
  · obtain ⟨fields, rfl⟩ := (forall_kind_iff kind_eq_literal_iff).mp h
    exact ⟨_, .setCompoundSelector hs⟩
  · obtain ⟨order, rfl⟩ := (forall_kind_iff kind_eq_orderSpec_iff).mp h
    exact ⟨_, .setOrder hs⟩
  · exact h.elim

/-- An action fails exactly where its operands are not on top of the stack. -/
theorem apply_eq_error_iff : (∃ e, a.apply x = .error e) ↔ ¬ x.Finds a.stack := by
  constructor
  · rintro ⟨e, he⟩ hfinds
    obtain ⟨b, hb⟩ := step_of_finds hfinds
    rw [apply_of_step hb] at he
    cases he
  · intro hfinds
    cases h : a.apply x with
    | error e => exact ⟨e, rfl⟩
    | ok b => exact absurd (finds_of_step (step_of_apply h)) hfinds

/-! ### What a step leaves alone -/

/-- What a step does to the stack: the operands of the action go, its result comes, and all that is
    below stays. -/
theorem stack_of_step (h : a.Step x b) :
    ∃ taken put below, a.stack = taken ++ below ∧ b.stack = put ++ below ∧
      taken.length = x.arity a.stack ∧ put.map Operand.kind = x.result?.toList := by
  cases h with
  | push text => exact ⟨[], [_], a.stack, rfl, rfl, rfl, rfl⟩
  | setSelectOp | setDeleteOp | setNamespace | setLimit | setBadLimit =>
      exact ⟨[], [], a.stack, rfl, rfl, rfl, rfl⟩
  | setSimpleSelector h | setCriteria h => exact ⟨[_], [], _, h, rfl, rfl, rfl⟩
  | addNegatedCriteria h | addOrderSelector h => exact ⟨[_], [_], _, h, rfl, rfl, rfl⟩
  | setFunctionSelector h => exact ⟨[_, _], [], _, h, rfl, rfl, rfl⟩
  | addIndexCriteria h | setOrderDirection h => exact ⟨[_, _], [_], _, h, rfl, rfl, rfl⟩
  | addValueCriteria h | addRangeCriteria h | addBadRangeCriteria h | addCompoundCriteria h =>
      exact ⟨[_, _, _], [_], _, h, rfl, rfl, rfl⟩
  | setCompoundSelector | setOrder =>
      exact ⟨a.stack, [], [], (List.append_nil _).symm, rfl, rfl, rfl⟩

/-- A step changes no part of the query but those that its action sets. -/
theorem agree_of_step (h : a.Step x b) {part : Part} (hpart : part ∉ x.sets) :
    a.Agree b part := by
  cases h <;> cases part <;> first | rfl | simp [Action.sets] at hpart

/-! ### Runs -/

/-- A run fails exactly if it comes to an action whose operands are not there. -/
theorem run_eq_error_iff {actions : List Action} :
    (∃ e, a.run actions = .error e) ↔
      ∃ ran x rest b, actions = ran ++ x :: rest ∧ a.run ran = .ok b ∧ ¬ x.Finds b.stack := by
  constructor
  · rintro ⟨e, he⟩
    induction actions generalizing a with
    | nil => cases he
    | cons y ys ih =>
        cases hy : a.apply y with
        | error fault => exact ⟨[], y, ys, a, rfl, rfl, apply_eq_error_iff.mp ⟨fault, hy⟩⟩
        | ok c =>
            rw [run_cons_of_ok hy] at he
            obtain ⟨ran, x, rest, b, rfl, hran, hx⟩ := ih he
            exact ⟨y :: ran, x, rest, b, rfl, (run_cons_of_ok hy).trans hran, hx⟩
  · rintro ⟨ran, x, rest, b, rfl, hran, hx⟩
    obtain ⟨e, he⟩ := apply_eq_error_iff.mpr hx
    refine ⟨e, ?_⟩
    rw [run_append_of_ok hran, run_cons, he]
    rfl

end Assembly

/-- The contract of actions. A run fails exactly where it comes to an action whose operands are not
    there, and so does each action by itself. An action that does not fail does what the table says:
    it takes its operands and no others off the stack, puts its one result there if it has one, and
    changes no part of the query that is not its own. -/
theorem actions_fail_without_operands_only :
    (∀ actions : List Action, (∃ e, ({} : Assembly).run actions = .error e) ↔
      ∃ ran x rest a, actions = ran ++ x :: rest ∧ ({} : Assembly).run ran = .ok a ∧
        ¬ x.Finds a.stack) ∧
    ∀ (a : Assembly) (x : Action),
      ((∃ e, a.apply x = .error e) ↔ ¬ x.Finds a.stack) ∧
      ∀ b, a.apply x = .ok b →
        a.Step x b ∧
        (∃ taken put below, a.stack = taken ++ below ∧ b.stack = put ++ below ∧
          taken.length = x.arity a.stack ∧ put.map Operand.kind = x.result?.toList) ∧
        ∀ part, part ∉ x.sets → a.Agree b part := by
  refine ⟨fun actions => Assembly.run_eq_error_iff, fun a x => ⟨Assembly.apply_eq_error_iff, ?_⟩⟩
  intro b hb
  have hstep := Assembly.step_of_apply hb
  exact ⟨hstep, Assembly.stack_of_step hstep, fun _ hpart => Assembly.agree_of_step hstep hpart⟩

/-- A direction needs a sort key below it: the name of a field, which was never made one, is
    refused. -/
theorem direction_needs_sort_key :
    (∃ e, ({} : Assembly).run [.push "name", .push "desc", .setOrderDirection] = .error e) ∧
    Assembly.Step { stack := [.literal "desc", .orderSpec { field := "name" }] }
      .setOrderDirection
      { stack := [.orderSpec { field := "name", written := some .descending }] } := by
  constructor
  · apply (actions_fail_without_operands_only.1 _).mpr
    exact ⟨[.push "name", .push "desc"], .setOrderDirection, [], _, rfl, rfl, id⟩
  · exact ((actions_fail_without_operands_only.2 _ _).2 _ rfl).1

end RecordQuery
