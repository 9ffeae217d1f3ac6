/-
  RecordQuery.Proofs.Assembly.Step

  The table of actions: which operands an action finds on top of the stack and what it makes of
  them. There is one rule for each action, or two where a numeral may be bad. Running an action is
  following its rule, and it fails where no rule applies.
-/

import RecordQuery.Proofs.Assembly.Replay

namespace RecordQuery

/-! ## Symbols -/

/-- What is found by its symbol has that symbol. -/
theorem symbol_of_find {α : Type} {symbol : α → String} {all : List α} {s : String} {op : α}
    (h : (all.find? fun op => symbol op == s) = some op) : s = symbol op := by
  have hfound := List.find?_some h
  exact (beq_iff_eq.mp hfound).symm

theorem ValueOp.ofSymbol_eq_ok_iff {s : String} {op : ValueOp} :
    ofSymbol s = .ok op ↔ s = op.symbol := by
  refine ⟨fun h => ?_, fun h => h ▸ ofSymbol_symbol op⟩
  unfold ofSymbol at h
  split at h <;> cases h
  exact symbol_of_find ‹_›

theorem RangeOp.ofSymbol_eq_ok_iff {s : String} {op : RangeOp} :
    ofSymbol s = .ok op ↔ s = op.symbol := by
  refine ⟨fun h => ?_, fun h => h ▸ ofSymbol_symbol op⟩
  unfold ofSymbol at h
  split at h <;> cases h
  exact symbol_of_find ‹_›

theorem BoolOp.ofSymbol_eq_ok_iff {s : String} {op : BoolOp} :
    ofSymbol s = .ok op ↔ s = op.symbol := by
  refine ⟨fun h => ?_, fun h => h ▸ ofSymbol_symbol op⟩
  unfold ofSymbol at h
  split at h <;> cases h
  exact symbol_of_find ‹_›

theorem Direction.ofSymbol_eq_ok_iff {s : String} {d : Direction} :
    ofSymbol s = .ok d ↔ s = d.symbol := by
  refine ⟨fun h => ?_, fun h => h ▸ ofSymbol_symbol d⟩
  unfold ofSymbol at h
  split at h <;> cases h
  exact symbol_of_find ‹_›

/-! ## Taking operands -/

namespace OperandStack

variable {s below : OperandStack}

theorem asLiteral_eq_ok_iff {x : Operand} {text : String} :
    asLiteral x = .ok text ↔ x = .literal text := by
  cases x <;> simp [asLiteral]

theorem asOrderSpec_eq_ok_iff {x : Operand} {spec : OrderSpec} :
    asOrderSpec x = .ok spec ↔ x = .orderSpec spec := by
  cases x <;> simp [asOrderSpec]

theorem popLiteral_eq_ok_iff {text : String} :
    s.popLiteral = .ok (text, below) ↔ s = .literal text :: below := by
  cases s with
  | nil => simp [popLiteral]
  | cons x s => cases x <;> simp [popLiteral, asLiteral, Except.map]

theorem popCriteria_eq_ok_iff {c : Criteria} :
    s.popCriteria = .ok (c, below) ↔ s = .criteria c :: below := by
  cases s with
  | nil => simp [popCriteria]
  | cons x s => cases x <;> simp [popCriteria, asCriteria, Except.map]

theorem popOrderSpec_eq_ok_iff {spec : OrderSpec} :
    s.popOrderSpec = .ok (spec, below) ↔ s = .orderSpec spec :: below := by
  cases s with
  | nil => simp [popOrderSpec]
  | cons x s => cases x <;> simp [popOrderSpec, asOrderSpec, Except.map]

/-- An operator is taken off exactly if a literal lies on top whose text is its symbol. -/
theorem popSymbol_eq_ok_iff {α : Type} {wanted : SymbolClass}
    {ofSymbol : String → Except UnknownOperator α} {op : α} :
    s.popSymbol wanted ofSymbol = .ok (op, below) ↔
      ∃ symbol, s = .literal symbol :: below ∧ ofSymbol symbol = .ok op := by
  constructor
  · intro h
    obtain ⟨⟨symbol, rest⟩, hpop, h⟩ := bind_eq_ok.mp h
    dsimp only at h
    split at h
    next found hfound =>
      obtain ⟨rfl, rfl⟩ := Prod.mk.inj (pure_eq_ok.mp h)
      exact ⟨symbol, popLiteral_eq_ok_iff.mp hpop, hfound⟩
    next => cases h
  · rintro ⟨symbol, rfl, hop⟩
    refine (bind_of_ok _ (popLiteral_eq_ok_iff.mpr rfl)).trans ?_
    simp only [hop]
    rfl

/-- A sort key on top is changed in its place. -/
theorem modifyOrderSpec_eq_ok_iff {f : OrderSpec → OrderSpec} :
    s.modifyOrderSpec f = .ok below ↔
      ∃ spec rest, s = .orderSpec spec :: rest ∧ below = .orderSpec (f spec) :: rest := by
  rw [modifyOrderSpec, map_eq_ok]
  constructor
  · rintro ⟨⟨spec, rest⟩, hpop, rfl⟩
    exact ⟨spec, rest, popOrderSpec_eq_ok_iff.mp hpop, rfl⟩
  · rintro ⟨spec, rest, hs, rfl⟩
    exact ⟨(spec, rest), popOrderSpec_eq_ok_iff.mpr hs, rfl⟩

/-- Operands that are all read back as what they hold are all of one kind. -/
theorem eq_map_of_mapM {α : Type} {f : Operand → Except ContractViolation α} {g : α → Operand}
    (h : ∀ {x a}, f x = .ok a → x = g a) {as : List α} (hs : s.mapM f = .ok as) :
    s = as.map g := by
  induction s generalizing as with
  | nil =>
      obtain rfl := pure_eq_ok.mp hs
      rfl
  | cons x s ih =>
      rw [List.mapM_cons] at hs
      obtain ⟨a, ha, hs⟩ := bind_eq_ok.mp hs
      obtain ⟨more, hmore, hs⟩ := bind_eq_ok.mp hs
      obtain rfl := pure_eq_ok.mp hs
      rw [List.map_cons, h ha, ih hmore]

/-- The stack is drained of fields exactly if nothing else lies on it. The first of them lies at the
    bottom. -/
theorem drainLiterals_eq_ok_iff {fields : List String} :
    s.drainLiterals = .ok fields ↔ s = (fields.map Operand.literal).reverse := by
  constructor
  · intro h
    obtain ⟨texts, htexts, rfl⟩ := map_eq_ok.mp h
    rw [List.map_reverse, List.reverse_reverse]
    exact eq_map_of_mapM asLiteral_eq_ok_iff.mp htexts
  · rintro rfl
    exact Assembly.drainLiterals_reverse fields

/-- The stack is drained of sort keys exactly if nothing else lies on it. -/
theorem drainOrderSpecs_eq_ok_iff {specs : List OrderSpec} :
    s.drainOrderSpecs = .ok specs ↔ s = (specs.map Operand.orderSpec).reverse := by
  constructor
  · intro h
    obtain ⟨keys, hkeys, rfl⟩ := map_eq_ok.mp h
    rw [List.map_reverse, List.reverse_reverse]
    exact eq_map_of_mapM asOrderSpec_eq_ok_iff.mp hkeys
  · rintro rfl
    exact Assembly.drainOrderSpecs_reverse specs

end OperandStack

/-! ## The table of actions -/

/-- `a.Step x b`: the action `x` finds its operands in `a` and turns `a` into `b`. -/
inductive Assembly.Step (a : Assembly) : Action → Assembly → Prop
  | push (text : String) : a.Step (.push text) { a with stack := .literal text :: a.stack }
  | setSelectOp : a.Step .setSelectOp { a with operation := .select }
  | setDeleteOp :
      a.Step .setDeleteOp { a with operation := .delete, selector := some .identity }
  | setSimpleSelector {field : String} {below : OperandStack}
      (h : a.stack = .literal field :: below) :
      a.Step .setSimpleSelector { a with stack := below, selector := some (.simple field) }
  | setCompoundSelector {fields : List String}
      (h : a.stack = (fields.map Operand.literal).reverse) :
      a.Step .setCompoundSelector { a with stack := [], selector := some (.compound fields) }
  | setFunctionSelector {name field : String} {below : OperandStack}
      (h : a.stack = .literal field :: .literal name :: below) :
      a.Step .setFunctionSelector
        { a with stack := below, selector := some (.function name field) }
  | setNamespace (name : String) : a.Step (.setNamespace name) { a with source := some name }
  | setCriteria {c : Criteria} {below : OperandStack} (h : a.stack = .criteria c :: below) :
      a.Step .setCriteria { a with stack := below, criteria := some c }
  | addValueCriteria {field text : String} {op : ValueOp} {below : OperandStack}
      (h : a.stack = .literal text :: .literal op.symbol :: .literal field :: below) :
      a.Step .addValueCriteria { a with stack := .criteria (.value field op text) :: below }
  | addRangeCriteria {field word : String} {op : RangeOp} {bound : Int64} {below : OperandStack}
      (h : a.stack = .literal word :: .literal op.symbol :: .literal field :: below)
      (hword : Text.readSigned word = .ok bound) :
      a.Step .addRangeCriteria { a with stack := .criteria (.range field op bound) :: below }
  | addBadRangeCriteria {field word : String} {op : RangeOp} {fault : Text.NumeralFault}
      {below : OperandStack}
      (h : a.stack = .literal word :: .literal op.symbol :: .literal field :: below)
      (hword : Text.readSigned word = .error fault) :
      a.Step .addRangeCriteria { a with
        stack := .criteria (.range field op 0) :: below
        errors := a.errors.record (.invalidRangeValue field word fault) }
  | addIndexCriteria {field text : String} {below : OperandStack}
      (h : a.stack = .literal text :: .literal field :: below) :
      a.Step .addIndexCriteria { a with stack := .criteria (.index field text) :: below }
  | addCompoundCriteria {left right : Criteria} {op : BoolOp} {below : OperandStack}
      (h : a.stack = .criteria right :: .literal op.symbol :: .criteria left :: below) :
      a.Step .addCompoundCriteria
        { a with stack := .criteria (.compound op left right) :: below }
  | addNegatedCriteria {c : Criteria} {below : OperandStack} (h : a.stack = .criteria c :: below) :
      a.Step .addNegatedCriteria { a with stack := .criteria (.negated c) :: below }
  | setOrder {order : List OrderSpec} (h : a.stack = (order.map Operand.orderSpec).reverse) :
      a.Step .setOrder { a with stack := [], order := order }
  | addOrderSelector {field : String} {below : OperandStack}
      (h : a.stack = .literal field :: below) :
      a.Step .addOrderSelector { a with stack := .orderSpec { field } :: below }
  | setOrderDirection {d : Direction} {spec : OrderSpec} {below : OperandStack}
      (h : a.stack = .literal d.symbol :: .orderSpec spec :: below) :
      a.Step .setOrderDirection
        { a with stack := .orderSpec { spec with written := some d } :: below }
  | setLimit {word : String} {n : UInt64} (hword : Text.readUnsigned word = .ok n) :
      a.Step (.setLimit word) { a with limit := some n }
  | setBadLimit {word : String} {fault : Text.NumeralFault}
      (hword : Text.readUnsigned word = .error fault) :
      a.Step (.setLimit word)
        { a with limit := some 0, errors := a.errors.record (.invalidLimit word fault) }

namespace Assembly

open OperandStack

variable {a b : Assembly} {x : Action}

/-- An action that succeeds does what the table says. -/
theorem step_of_apply (h : a.apply x = .ok b) : a.Step x b := by
  cases x with
  | push text =>
      obtain rfl := Except.ok.inj h
      exact .push text
  | setSelectOp =>
      obtain rfl := Except.ok.inj h
      exact .setSelectOp
  | setDeleteOp =>
      obtain rfl := Except.ok.inj h
      exact .setDeleteOp
  | setSimpleSelector =>
      obtain ⟨⟨field, below⟩, hfield, h⟩ := bind_eq_ok.mp h
      obtain rfl := pure_eq_ok.mp h
      exact .setSimpleSelector (popLiteral_eq_ok_iff.mp hfield)
  | setCompoundSelector =>
      obtain ⟨fields, hfields, h⟩ := bind_eq_ok.mp h
      obtain rfl := pure_eq_ok.mp h
      exact .setCompoundSelector (drainLiterals_eq_ok_iff.mp hfields)
  | setFunctionSelector =>
      obtain ⟨⟨field, rest⟩, hfield, h⟩ := bind_eq_ok.mp h
      obtain ⟨⟨name, below⟩, hname, h⟩ := bind_eq_ok.mp h
      obtain rfl := pure_eq_ok.mp h
      obtain rfl := popLiteral_eq_ok_iff.mp hname
      exact .setFunctionSelector (popLiteral_eq_ok_iff.mp hfield)
  | setNamespace name =>
      obtain rfl := Except.ok.inj h
      exact .setNamespace name
  | setCriteria =>
      obtain ⟨⟨c, below⟩, hc, h⟩ := bind_eq_ok.mp h
      obtain rfl := pure_eq_ok.mp h
      exact .setCriteria (popCriteria_eq_ok_iff.mp hc)
  | addValueCriteria =>
      obtain ⟨⟨text, rest⟩, htext, h⟩ := bind_eq_ok.mp h
      obtain ⟨⟨op, rest'⟩, hop, h⟩ := bind_eq_ok.mp h
      obtain ⟨⟨field, below⟩, hfield, h⟩ := bind_eq_ok.mp h
      obtain rfl := pure_eq_ok.mp h
      obtain ⟨symbol, rfl, hsymbol⟩ := popSymbol_eq_ok_iff.mp hop
      obtain rfl := ValueOp.ofSymbol_eq_ok_iff.mp hsymbol
      obtain rfl := popLiteral_eq_ok_iff.mp hfield
      exact .addValueCriteria (popLiteral_eq_ok_iff.mp htext)
  | addRangeCriteria =>
      obtain ⟨⟨word, rest⟩, hword, h⟩ := bind_eq_ok.mp h
      obtain ⟨⟨op, rest'⟩, hop, h⟩ := bind_eq_ok.mp h
      obtain ⟨⟨field, below⟩, hfield, h⟩ := bind_eq_ok.mp h
      have hstack : a.stack = .literal word :: .literal op.symbol :: .literal field :: below := by
        obtain ⟨symbol, rfl, hsymbol⟩ := popSymbol_eq_ok_iff.mp hop
        obtain rfl := RangeOp.ofSymbol_eq_ok_iff.mp hsymbol
        obtain rfl := popLiteral_eq_ok_iff.mp hfield
        exact popLiteral_eq_ok_iff.mp hword
      dsimp only at h
      split at h
      next bound hbound =>
        obtain rfl := pure_eq_ok.mp h
        exact .addRangeCriteria hstack hbound
      next fault hfault =>
        obtain rfl := pure_eq_ok.mp h
        exact .addBadRangeCriteria hstack hfault
  | addIndexCriteria =>
      obtain ⟨⟨text, rest⟩, htext, h⟩ := bind_eq_ok.mp h
      obtain ⟨⟨field, below⟩, hfield, h⟩ := bind_eq_ok.mp h
      obtain rfl := pure_eq_ok.mp h
      obtain rfl := popLiteral_eq_ok_iff.mp hfield
      exact .addIndexCriteria (popLiteral_eq_ok_iff.mp htext)
  | addCompoundCriteria =>
      obtain ⟨⟨right, rest⟩, hright, h⟩ := bind_eq_ok.mp h
      obtain ⟨⟨op, rest'⟩, hop, h⟩ := bind_eq_ok.mp h
      obtain ⟨⟨left, below⟩, hleft, h⟩ := bind_eq_ok.mp h
      obtain rfl := pure_eq_ok.mp h
      obtain ⟨symbol, rfl, hsymbol⟩ := popSymbol_eq_ok_iff.mp hop
      obtain rfl := BoolOp.ofSymbol_eq_ok_iff.mp hsymbol
      obtain rfl := popCriteria_eq_ok_iff.mp hleft
      exact .addCompoundCriteria (popCriteria_eq_ok_iff.mp hright)
  | addNegatedCriteria =>
      obtain ⟨⟨c, below⟩, hc, h⟩ := bind_eq_ok.mp h
      obtain rfl := pure_eq_ok.mp h
      exact .addNegatedCriteria (popCriteria_eq_ok_iff.mp hc)
  | setOrder =>
      obtain ⟨order, horder, h⟩ := bind_eq_ok.mp h
      obtain rfl := pure_eq_ok.mp h
      exact .setOrder (drainOrderSpecs_eq_ok_iff.mp horder)
  | addOrderSelector =>
      obtain ⟨⟨field, below⟩, hfield, h⟩ := bind_eq_ok.mp h
      obtain rfl := pure_eq_ok.mp h
      exact .addOrderSelector (popLiteral_eq_ok_iff.mp hfield)
  | setOrderDirection =>
      obtain ⟨⟨d, rest⟩, hd, h⟩ := bind_eq_ok.mp h
      obtain ⟨below, hspec, h⟩ := bind_eq_ok.mp h
      obtain ⟨spec, below, rfl, rfl⟩ := modifyOrderSpec_eq_ok_iff.mp hspec
      obtain ⟨symbol, hs, hsymbol⟩ := popSymbol_eq_ok_iff.mp hd
      obtain rfl := Direction.ofSymbol_eq_ok_iff.mp hsymbol
      obtain rfl := pure_eq_ok.mp h
      exact .setOrderDirection hs
  | setLimit word =>
      obtain rfl := Except.ok.inj h
      unfold setLimit
      split
      next n hn => exact .setLimit hn
      next fault hfault => exact .setBadLimit hfault

theorem apply_withStack {s : OperandStack} (h : a.stack = s) (x : Action) :
    a.apply x = apply { a with stack := s } x := by
  rw [← h]

/-- An action does what the table says of it, so the table is no wider than the actions. -/
theorem apply_of_step (h : a.Step x b) : a.apply x = .ok b := by
  cases h with
  | push | setSelectOp | setDeleteOp | setNamespace => rfl
  | setSimpleSelector h | setFunctionSelector h | setCriteria h | addIndexCriteria h
  | addNegatedCriteria h | addOrderSelector h =>
      rw [apply_withStack h]
      rfl
  | setCompoundSelector h => exact bind_of_ok _ (drainLiterals_eq_ok_iff.mpr h)
  | setOrder h => exact bind_of_ok _ (drainOrderSpecs_eq_ok_iff.mpr h)
  | addValueCriteria h =>
      rw [apply_withStack h]
      exact apply_addValueCriteria a _ _ _ _
  | addCompoundCriteria h =>
      rw [apply_withStack h]
      exact apply_addCompoundCriteria a _ _ _ _
  | addRangeCriteria h hword | addBadRangeCriteria h hword =>
      rw [apply_withStack h, apply_addRangeCriteria a]
      simp only [Condition.standIn, Condition.faults, hword]
      rfl
  | @setOrderDirection d spec below h =>
      rw [apply_withStack h]
      cases d <;> rfl
  | setLimit hword | setBadLimit hword => simp only [apply, setLimit, hword]

/-- Running an action does what the table says, and fails where the table says nothing. -/
theorem apply_eq_ok_iff : a.apply x = .ok b ↔ a.Step x b :=
  ⟨step_of_apply, apply_of_step⟩

end Assembly

end RecordQuery
