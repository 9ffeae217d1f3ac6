/-
  RecordQuery.Proofs.Assembly.Replay

  Running the actions of a draft. The actions of a condition put one criteria on top of whatever
  stack they find and touch nothing else but the slot for the first error; the actions of a whole
  draft therefore always run to the end, and finishing gives what reading the draft gives.
-/

import RecordQuery.Compile
import RecordQuery.Proofs.Draft
import RecordQuery.Proofs.Except

namespace RecordQuery

/-! ## Errors that wait -/

/-- The value, unless there is an error: then the first one. -/
def report {ε α : Type} (faults : List ε) (value : α) : Except ε α :=
  match faults with
  | [] => .ok value
  | e :: _ => .error e

/-- What waits from one reading is reported in front of what waits from the next. -/
theorem report_bind {ε α β : Type} (xs ys : List ε) (a : α) (f : α → β) :
    (report xs a >>= fun x => report ys (f x)) = report (xs ++ ys) (f a) := by
  cases xs <;> rfl

theorem report_map {ε α β : Type} (xs : List ε) (a : α) (f : α → β) :
    (report xs a >>= fun x => pure (f x)) = report xs (f a) := by
  cases xs <;> rfl

namespace FirstError

variable {ε α : Type}

/-- Only the first of all recorded errors stays in the slot. -/
theorem first_foldl_record (faults : List ε) (s : FirstError ε) :
    (faults.foldl record s).first = s.first.or faults.head? := by
  induction faults generalizing s with
  | nil => simp
  | cons e es ih =>
      rw [List.foldl_cons, ih]
      -- The error that comes first is kept or becomes the one in the slot.
      cases h : s.first <;> simp [record, h]

/-- Errors that are recorded one after the other are reported by the first of them. -/
theorem toExcept_foldl_record (faults : List ε) (value : α) :
    (faults.foldl record {}).toExcept value = report faults value := by
  unfold toExcept
  rw [first_foldl_record]
  cases faults <;> rfl

end FirstError

/-! ## What a condition leaves behind -/

namespace Condition

/-- The criteria with zero for every word that is no integer. -/
def standIn : Condition → Criteria
  | .value field op text => .value field op text
  | .range field op word =>
    match Text.readSigned word with
    | .ok bound => .range field op bound
    | .error _ => .range field op 0
  | .index field text => .index field text
  | .compound op left right => .compound op left.standIn right.standIn
  | .negated condition => .negated condition.standIn

/-- The words that are no integers, from left to right. -/
def faults : Condition → List ValueError
  | .range field _ word =>
    match Text.readSigned word with
    | .ok _ => []
    | .error fault => [.invalidRangeValue field word fault]
  | .value _ _ _ | .index _ _ => []
  | .compound _ left right => left.faults ++ right.faults
  | .negated condition => condition.faults

theorem read_eq_report (c : Condition) : c.read = report c.faults c.standIn := by
  induction c with
  | value field op text => rfl
  | range field op word =>
      cases h : Text.readSigned word <;> simp [read, faults, standIn, h, report]
  | index field text => rfl
  | compound op left right ihl ihr =>
      simp only [read, ihl, ihr, faults, standIn, report_map]
      -- The faults of the left operand come before those of the right one.
      exact report_bind left.faults right.faults left.standIn
        fun l => Criteria.compound op l right.standIn
  | negated condition ih =>
      simp only [read, ih, faults, standIn, report_map]

end Condition

/-! ## What a draft leaves behind -/

namespace Draft

/-- The words of a clause with criteria that are no integers. -/
def filterFaults (filter : Option Condition) : List ValueError :=
  match filter with
  | some condition => condition.faults
  | none => []

/-- The bound of a clause, zero for a word that is no numeral. -/
def limitStandIn (limit : Option String) : Option UInt64 :=
  match limit with
  | some word =>
    match Text.readUnsigned word with
    | .ok n => some n
    | .error _ => some 0
  | none => none

/-- The word of a clause that bounds the number of results, if it is no numeral. -/
def limitFaults (limit : Option String) : List ValueError :=
  match limit with
  | some word =>
    match Text.readUnsigned word with
    | .ok _ => []
    | .error fault => [.invalidLimit word fault]
  | none => []

/-- The query with zero for every word that is no numeral. -/
def standIn : Draft → Query
  | .select selector source filter order limit =>
    { operation := .select, source, selector, criteria := filter.map Condition.standIn, order
      limit := limitStandIn limit }
  | .delete source filter limit =>
    { operation := .delete, source, selector := .identity
      criteria := filter.map Condition.standIn, limit := limitStandIn limit }

/-- The words of a draft that are no numerals, from left to right. -/
def faults : Draft → List ValueError
  | .select _ _ filter _ limit | .delete _ filter limit =>
    filterFaults filter ++ limitFaults limit

theorem readFilter_eq_report (filter : Option Condition) :
    readFilter filter = report (filterFaults filter) (filter.map Condition.standIn) := by
  cases filter with
  | none => rfl
  | some c =>
      simp only [readFilter, filterFaults, Option.map_some, c.read_eq_report]
      cases c.faults <;> rfl

theorem readLimit_eq_report (limit : Option String) :
    readLimit limit = report (limitFaults limit) (limitStandIn limit) := by
  cases limit with
  | none => rfl
  | some word =>
      cases h : Text.readUnsigned word <;> simp [readLimit, limitFaults, limitStandIn, h, report]

theorem read_eq_report (d : Draft) : d.read = report d.faults d.standIn := by
  cases d <;>
    simp only [read, readFilter_eq_report, readLimit_eq_report, report_map] <;>
    exact report_bind ..

end Draft

namespace Assembly

/-! ## Single actions -/

@[simp] theorem run_nil (a : Assembly) : a.run [] = .ok a := rfl

theorem run_cons (a : Assembly) (x : Action) (xs : List Action) :
    a.run (x :: xs) = a.apply x >>= fun b => b.run xs := by
  simp [run]

/-- An action that succeeds leaves the rest of the run to what it makes. -/
theorem run_cons_of_ok {a b : Assembly} {x : Action} {xs : List Action}
    (h : a.apply x = .ok b) : a.run (x :: xs) = b.run xs := by
  rw [run_cons]
  exact bind_of_ok _ h

theorem run_append_of_ok {a b : Assembly} {xs ys : List Action}
    (h : a.run xs = .ok b) : a.run (xs ++ ys) = b.run ys := by
  rw [run_append]
  exact bind_of_ok _ h

@[simp] theorem run_push (a : Assembly) (text : String) (xs : List Action) :
    a.run (.push text :: xs) = (a.push (.literal text)).run xs :=
  run_cons_of_ok rfl

theorem apply_addValueCriteria (a : Assembly) (field text : String) (op : ValueOp)
    (below : OperandStack) :
    apply { a with stack := .literal text :: .literal op.symbol :: .literal field :: below }
        .addValueCriteria =
      .ok { a with stack := .criteria (.value field op text) :: below } := by
  cases op <;> rfl

theorem apply_addRangeCriteria (a : Assembly) (field word : String) (op : RangeOp)
    (below : OperandStack) :
    apply { a with stack := .literal word :: .literal op.symbol :: .literal field :: below }
        .addRangeCriteria =
      .ok { a with
        stack := .criteria (Condition.range field op word).standIn :: below
        errors := (Condition.range field op word).faults.foldl FirstError.record a.errors } := by
  have hop : RangeOp.ofSymbol op.symbol = .ok op := RangeOp.ofSymbol_symbol op
  cases h : Text.readSigned word <;>
    simp [apply, addRangeCriteria, OperandStack.popLiteral, OperandStack.asLiteral,
      OperandStack.popSymbol, Except.map, bind, Except.bind, pure, Except.pure, hop, h,
      Condition.standIn, Condition.faults]

theorem apply_addCompoundCriteria (a : Assembly) (op : BoolOp) (left right : Criteria)
    (below : OperandStack) :
    apply { a with stack := .criteria right :: .literal op.symbol :: .criteria left :: below }
        .addCompoundCriteria =
      .ok { a with stack := .criteria (.compound op left right) :: below } := by
  cases op <;> rfl

/-! ## Conditions -/

/-- The assembly once the actions of a condition have run: its criteria on top, its faults
    recorded. -/
def absorb (a : Assembly) (c : Condition) : Assembly :=
  { a with
    stack := .criteria c.standIn :: a.stack
    errors := c.faults.foldl FirstError.record a.errors }

/-- The actions of a condition run in every assembly, whatever waits on its stack. -/
theorem run_condition (c : Condition) (a : Assembly) : a.run c.actions = .ok (a.absorb c) := by
  induction c generalizing a with
  | value field op text =>
      simp only [Condition.actions, run_push]
      exact run_cons_of_ok (apply_addValueCriteria a field text op a.stack)
  | range field op word =>
      simp only [Condition.actions, run_push]
      exact run_cons_of_ok (apply_addRangeCriteria a field word op a.stack)
  | index field text =>
      simp only [Condition.actions, run_push]
      rfl
  | compound op left right ihl ihr =>
      -- The left criteria and the operator wait below while the right operand is built.
      have hr := ihr ((a.absorb left).push (.literal op.symbol))
      rw [Condition.actions, List.append_assoc, run_append_of_ok (ihl a), List.cons_append,
        run_push, run_append_of_ok hr]
      have hjoin := apply_addCompoundCriteria
        (((a.absorb left).push (.literal op.symbol)).absorb right) op left.standIn right.standIn
        a.stack
      refine (run_cons_of_ok hjoin).trans ?_
      simp [absorb, push, Condition.standIn, Condition.faults]
  | negated condition ih =>
      rw [Condition.actions, run_append_of_ok (ih a)]
      rfl

/-! ## Runs of operands of one kind -/

/-- Operands that are all of one kind come off the stack as what they were made from. -/
theorem mapM_map_ok {α β ε : Type} {f : β → Except ε α} {g : α → β} (h : ∀ x, f (g x) = .ok x)
    (xs : List α) : (xs.map g).mapM f = .ok xs := by
  induction xs with
  | nil => rfl
  | cons x xs ih =>
      rw [List.map_cons, List.mapM_cons, bind_of_ok _ (h x), bind_of_ok _ ih]
      rfl

theorem drainLiterals_reverse (texts : List String) :
    OperandStack.drainLiterals (texts.map Operand.literal).reverse = .ok texts := by
  rw [OperandStack.drainLiterals, ← List.map_reverse,
    mapM_map_ok (g := Operand.literal) fun _ => rfl]
  simp [Except.map]

theorem drainOrderSpecs_reverse (specs : List OrderSpec) :
    OperandStack.drainOrderSpecs (specs.map Operand.orderSpec).reverse = .ok specs := by
  rw [OperandStack.drainOrderSpecs, ← List.map_reverse,
    mapM_map_ok (g := Operand.orderSpec) fun _ => rfl]
  simp [Except.map]

theorem run_pushes (a : Assembly) (texts : List String) (xs : List Action) :
    a.run (texts.map .push ++ xs) =
      run { a with stack := (texts.map Operand.literal).reverse ++ a.stack } xs := by
  induction texts generalizing a with
  | nil => rfl
  | cons text texts ih =>
      rw [List.map_cons, List.cons_append, run_push, ih]
      simp [push]

theorem run_orderSpec (a : Assembly) (spec : OrderSpec) :
    a.run spec.actions = .ok (a.push (.orderSpec spec)) := by
  obtain ⟨field, written⟩ := spec
  cases written with
  | none => rfl
  | some d => cases d <;> rfl

theorem run_orderSpecs (a : Assembly) (specs : List OrderSpec) :
    a.run (specs.flatMap OrderSpec.actions) =
      .ok { a with stack := (specs.map Operand.orderSpec).reverse ++ a.stack } := by
  induction specs generalizing a with
  | nil => rfl
  | cons spec specs ih =>
      rw [List.flatMap_cons, run_append_of_ok (run_orderSpec a spec), ih]
      simp [push]

/-! ## Clauses

Between two clauses nothing waits on the stack, so that the selector and the sort keys, which take
all there is, take their own operands only. -/

theorem run_selector (a : Assembly) (s : Selector) (h : a.stack = []) :
    a.run s.actions = .ok { a with selector := some s } := by
  obtain ⟨stack⟩ := a
  obtain rfl : stack = [] := h
  cases s with
  | simple field => rfl
  | function name field => rfl
  | compound fields =>
      rw [Selector.actions, run_pushes, List.append_nil]
      apply run_cons_of_ok
      rw [apply, setCompoundSelector, bind_of_ok _ (drainLiterals_reverse fields)]
      rfl

theorem run_source (a : Assembly) (source : Option String) (h : a.source = none) :
    a.run (Draft.sourceActions source) = .ok { a with source } := by
  cases source with
  -- No other clause sets the slot, so without this one it stays empty.
  | none => simp [Draft.sourceActions, ← h]
  | some name => rfl

theorem run_filter (a : Assembly) (filter : Option Condition) (h : a.criteria = none) :
    a.run (Draft.filterActions filter) =
      .ok { a with
        criteria := filter.map Condition.standIn
        errors := (Draft.filterFaults filter).foldl FirstError.record a.errors } := by
  cases filter with
  | none => simp [Draft.filterActions, Draft.filterFaults, ← h]
  | some c =>
      rw [Draft.filterActions, run_append_of_ok (run_condition c a)]
      rfl

theorem run_order (a : Assembly) (order : List OrderSpec) (hs : a.stack = [])
    (h : a.order = []) : a.run (Draft.orderActions order) = .ok { a with order } := by
  obtain ⟨stack⟩ := a
  obtain rfl : stack = [] := hs
  unfold Draft.orderActions
  split
  next ho => simp [ho, ← h]
  next ho =>
    rw [run_append_of_ok (run_orderSpecs _ order), List.append_nil]
    apply run_cons_of_ok
    rw [apply, setOrder, bind_of_ok _ (drainOrderSpecs_reverse order)]
    rfl

theorem run_limit (a : Assembly) (limit : Option String) (h : a.limit = none) :
    a.run (Draft.limitActions limit) =
      .ok { a with
        limit := Draft.limitStandIn limit
        errors := (Draft.limitFaults limit).foldl FirstError.record a.errors } := by
  cases limit with
  | none => simp [Draft.limitActions, Draft.limitFaults, Draft.limitStandIn, ← h]
  | some word =>
      apply run_cons_of_ok
      cases hw : Text.readUnsigned word <;>
        simp [apply, setLimit, Draft.limitStandIn, Draft.limitFaults, hw]

/-! ## Drafts -/

/-- The assembly once all actions of a draft have run: the stack is empty again. -/
def ofDraft (d : Draft) : Assembly :=
  { operation := d.standIn.operation
    source := d.standIn.source
    selector := some d.standIn.selector
    criteria := d.standIn.criteria
    order := d.standIn.order
    limit := d.standIn.limit
    errors := d.faults.foldl FirstError.record {} }

theorem run_actions (d : Draft) : ({} : Assembly).run d.actions = .ok (ofDraft d) := by
  cases d with
  | select selector source filter order limit =>
      -- Clause by clause; each one finds its own slot empty and leaves the stack empty.
      simp only [Draft.actions, List.cons_append, List.append_assoc]
      rw [run_cons_of_ok rfl, run_append_of_ok (run_selector _ selector rfl),
        run_append_of_ok (run_source _ source rfl), run_append_of_ok (run_filter _ filter rfl),
        run_append_of_ok (run_order _ order rfl rfl), run_limit _ limit rfl]
      simp [ofDraft, Draft.standIn, Draft.faults]
  | delete source filter limit =>
      simp only [Draft.actions, List.cons_append, List.append_assoc]
      rw [run_cons_of_ok rfl, run_append_of_ok (run_source _ source rfl),
        run_append_of_ok (run_filter _ filter rfl), run_limit _ limit rfl]
      simp [ofDraft, Draft.standIn, Draft.faults]

theorem finish_ofDraft (d : Draft) : (ofDraft d).finish = .ok d.read := by
  rw [Draft.read_eq_report, ← FirstError.toExcept_foldl_record]
  rfl

end Assembly

/-- Assembling the actions of a draft never breaks the contract between them and the stack: it
    reads the draft. -/
theorem assemble_actions (d : Draft) : assemble d.actions = .ok d.read := by
  rw [assemble, bind_of_ok _ (Assembly.run_actions d), Assembly.finish_ofDraft]

end RecordQuery
