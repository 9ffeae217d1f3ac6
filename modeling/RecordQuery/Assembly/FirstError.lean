/-
  RecordQuery.Assembly.FirstError

  A slot that keeps the first error put into it and counts the others, so that work can go on and
  the error be reported at the end.
-/

namespace RecordQuery

/-- The first of a run of errors, if there was any. -/
structure FirstError (ε : Type) where
  first : Option ε := none
  /-- The number of errors that came after the first. -/
  dropped : Nat := 0
deriving DecidableEq, Repr

namespace FirstError

variable {ε α : Type}

/-- Whether the slot holds an error. -/
def isSet (s : FirstError ε) : Bool :=
  s.first.isSome

/-- Whether the next error would be kept. -/
def isFree (s : FirstError ε) : Bool :=
  s.first.isNone

/-- Keeps the error if it is the first, and counts it as dropped otherwise. -/
def record (s : FirstError ε) (e : ε) : FirstError ε :=
  match s.first with
  | some _ => { s with dropped := s.dropped + 1 }
  | none => { s with first := some e }

/-- The value, unless there was an error. -/
def toExcept (s : FirstError ε) (value : α) : Except ε α :=
  match s.first with
  | some e => .error e
  | none => .ok value

end FirstError

end RecordQuery
