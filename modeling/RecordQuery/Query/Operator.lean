/-
  RecordQuery.Query.Operator

  The operators of criteria and the directions of sorting. Each has a symbol, which is how a query
  writes it, and a name, which is how a JSON document writes it.
-/

namespace RecordQuery

/-- Operators that compare a field with a text. -/
inductive ValueOp where
  | equal
  | notEqual
deriving DecidableEq, Repr, Inhabited

/-- Operators that compare a field with an integer. -/
inductive RangeOp where
  | lessThan
  | lessEqual
  | greaterThan
  | greaterEqual
deriving DecidableEq, Repr, Inhabited

/-- Operators that combine two criteria. -/
inductive BoolOp where
  | and
  | or
deriving DecidableEq, Repr, Inhabited

/-- The order in which records are sorted by a field. -/
inductive Direction where
  | ascending
  | descending
deriving DecidableEq, Repr, Inhabited

/-- A symbol that belongs to no operator of the wanted kind. -/
structure UnknownOperator where
  symbol : String
deriving DecidableEq, Repr

/-- The wording of the error. -/
def UnknownOperator.message (e : UnknownOperator) : String :=
  "unknown operator '" ++ e.symbol ++ "'"

namespace ValueOp

/-- All operators, in the order in which messages list them. -/
def all : List ValueOp := [.equal, .notEqual]

/-- How query text writes the operator. -/
def symbol : ValueOp → String
  | .equal => "="
  | .notEqual => "!="

/-- How JSON writes the operator. -/
def name : ValueOp → String
  | .equal => "equal"
  | .notEqual => "not_equal"

/-- The operator that a symbol stands for. -/
def ofSymbol (s : String) : Except UnknownOperator ValueOp :=
  match all.find? fun op => op.symbol == s with
  | some op => .ok op
  | none => .error ⟨s⟩

end ValueOp

namespace RangeOp

/-- All operators, in the order in which messages list them. -/
def all : List RangeOp := [.lessThan, .lessEqual, .greaterThan, .greaterEqual]

/-- How query text writes the operator. -/
def symbol : RangeOp → String
  | .lessThan => "<"
  | .lessEqual => "<="
  | .greaterThan => ">"
  | .greaterEqual => ">="

/-- How JSON writes the operator. -/
def name : RangeOp → String
  | .lessThan => "less_than"
  | .lessEqual => "less_equal"
  | .greaterThan => "greater_than"
  | .greaterEqual => "greater_equal"

/-- The operator that a symbol stands for. -/
def ofSymbol (s : String) : Except UnknownOperator RangeOp :=
  match all.find? fun op => op.symbol == s with
  | some op => .ok op
  | none => .error ⟨s⟩

end RangeOp

namespace BoolOp

/-- All operators, in the order in which messages list them. -/
def all : List BoolOp := [.and, .or]

/-- How query text writes the operator in the standard vocabulary. -/
def symbol : BoolOp → String
  | .and => "and"
  | .or => "or"

/-- How JSON writes the operator. -/
def name : BoolOp → String
  | .and => "and"
  | .or => "or"

/-- The operator that a symbol stands for. -/
def ofSymbol (s : String) : Except UnknownOperator BoolOp :=
  match all.find? fun op => op.symbol == s with
  | some op => .ok op
  | none => .error ⟨s⟩

end BoolOp

namespace Direction

/-- All directions, in the order in which messages list them. -/
def all : List Direction := [.ascending, .descending]

/-- How query text writes the direction in the standard vocabulary. -/
def symbol : Direction → String
  | .ascending => "asc"
  | .descending => "desc"

/-- How JSON writes the direction. -/
def name : Direction → String
  | .ascending => "ascending"
  | .descending => "descending"

/-- The direction that a symbol stands for. -/
def ofSymbol (s : String) : Except UnknownOperator Direction :=
  match all.find? fun d => d.symbol == s with
  | some d => .ok d
  | none => .error ⟨s⟩

end Direction

/-! ## Symbols are unambiguous -/

@[simp] theorem ValueOp.ofSymbol_symbol (op : ValueOp) : ofSymbol op.symbol = .ok op := by
  cases op <;> rfl

@[simp] theorem RangeOp.ofSymbol_symbol (op : RangeOp) : ofSymbol op.symbol = .ok op := by
  cases op <;> rfl

@[simp] theorem BoolOp.ofSymbol_symbol (op : BoolOp) : ofSymbol op.symbol = .ok op := by
  cases op <;> rfl

@[simp] theorem Direction.ofSymbol_symbol (d : Direction) : ofSymbol d.symbol = .ok d := by
  cases d <;> rfl

end RecordQuery
