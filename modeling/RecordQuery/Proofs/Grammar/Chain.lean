/-
  RecordQuery.Proofs.Grammar.Chain

  The productions of criteria, seen as those of the grammar: disjunctions and conjunctions are both
  chains, with one equation for both, and what holds of the calls that a production makes holds of
  the production.
-/

import RecordQuery.Proofs.Grammar.Derivation

namespace RecordQuery

namespace Grammar

variable (v : Vocabulary)

/-- A disjunction or a conjunction. -/
def chain (op : BoolOp) (c : Cursor) : Except SyntaxError (Parsed (List Action) c.size) :=
  match op with
  | .or => disjunction v c
  | .and => conjunction v c

/-- One operand of a chain. -/
def operand (op : BoolOp) (c : Cursor) : Except SyntaxError (Parsed (List Action) c.size) :=
  match op with
  | .or => conjunction v c
  | .and => unary v c

/-- The operands of a chain that follow its first. -/
def operands (op : BoolOp) (c : Cursor) :
    Except SyntaxError (Parsed (List Action) (c.size + 1)) :=
  match op with
  | .or => disjuncts v c
  | .and => conjuncts v c

theorem chain_eq (op : BoolOp) (c : Cursor) :
    chain v op c = (do
      let first ← operand v op c
      let more ← operands v op first.rest
      return ⟨first.value ++ more.value, more.rest,
        Nat.lt_of_le_of_lt (Nat.le_of_lt_succ more.shorter) first.shorter⟩) := by
  cases op with
  | or => exact disjunction.eq_1 v c
  | and => exact conjunction.eq_1 v c

theorem operands_eq (op : BoolOp) (c : Cursor) :
    operands v op c = (do
      match ← c.eat? v op.keyword with
      | none => return ⟨[], c, Nat.lt_succ_self _⟩
      | some behind =>
        let right ← operand v op behind.rest
        let more ← operands v op right.rest
        return ⟨.push op.symbol :: right.value ++ .addCompoundCriteria :: more.value, more.rest,
          Nat.lt_trans more.shorter
            (Nat.succ_lt_succ (Nat.lt_trans right.shorter behind.shorter))⟩) := by
  cases op with
  | or => exact disjuncts.eq_1 v c
  | and => exact conjuncts.eq_1 v c

/-- What holds of a chain, of its operands, of unaries and of atoms wherever it holds of the calls
    that they make holds of all of them. -/
theorem recognizer_induct {P Q : BoolOp → Cursor → Prop} {U A : Cursor → Prop}
    (hchain : ∀ op c, (match op with | .or => P .and c | .and => U c) →
      (∀ p : Parsed (List Action) c.size, Q op p.rest) → P op c)
    (hoperands : ∀ op c,
      (∀ b : Parsed Unit c.size, match op with | .or => P .and b.rest | .and => U b.rest) →
      (∀ (b : Parsed Unit c.size) (p : Parsed (List Action) b.rest.size), Q op p.rest) → Q op c)
    (hnegation : ∀ c, c.keyword? v = some .not →
      (∀ b : Parsed Unit c.size, U b.rest.enter) → U c)
    (hunary : ∀ c, c.keyword? v ≠ some .not → A c → U c)
    (hgroup : ∀ c, c.token = .openParen →
      (∀ b : Parsed Unit c.size, P .or b.rest.enter) → A c)
    (hcomparison : ∀ c, c.token ≠ .openParen → A c) :
    (∀ op c, P op c) ∧ (∀ op c, Q op c) ∧ (∀ c, U c) ∧ ∀ c, A c := by
  -- The six functions are two for each operator and the two that know of none.
  obtain ⟨h1, h2, h3, h4, h5, h6⟩ := disjunction.mutual_induct v
    (P .or) (Q .or) (P .and) (Q .and) U A (hchain .or) (hoperands .or) (hchain .and)
    (hoperands .and) hnegation hunary hgroup hcomparison
  refine ⟨?_, ?_, h5, h6⟩
  · intro op
    cases op <;> assumption
  · intro op
    cases op <;> assumption

end Grammar

end RecordQuery
