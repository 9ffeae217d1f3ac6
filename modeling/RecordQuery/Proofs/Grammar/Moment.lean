/-
  RecordQuery.Proofs.Grammar.Moment

  Recognizing a query one step at a time. The recognizer is a set of functions that call one
  another, and what it is doing between two calls is nowhere to be seen. Here its recursion is
  unrolled: what is still to be done stands on a stack of tasks, and a step does the first of them.
  A nonterminal is replaced by the tasks that the token in front of it asks for; every other task
  reads a token, emits an action, or counts a level of nesting. So a recognition is a sequence of
  moments, and its end is what the recognizer answers.
-/

import RecordQuery.Proofs.Grammar.Level

namespace RecordQuery

open Production

/-! ## Tasks -/

/-- What is recognized as a whole. The rest of a selector stands behind its first word, an operator
    and its operand behind the field of a comparison, and further fields, operands and sort keys
    behind the first. -/
inductive Nonterminal where
  | query
  | selector
  | selectorRest
  | moreFields
  | sourceClause
  | filterClause
  | chain (op : BoolOp)
  | operands (op : BoolOp)
  | unary
  | atom
  | comparison
  | comparisonRest
  | orderClause
  | orderItems
  | direction
  | moreItems
  | limitClause
  | atEnd
deriving DecidableEq, Repr

/-- What is done with the next token, or without one. None of this counts levels. -/
inductive Move where
  | pass
  | closeParen
  | keyword (k : Keyword)
  | selectorName
  | fieldName
  | namespaceName
  | literal
  | integer
  | limit
  | emit (a : Action)
  | refuse (expected : Expectation)
deriving DecidableEq, Repr

/-- One thing to do. -/
inductive Task where
  | recognize (n : Nonterminal)
  | move (m : Move)
  /-- Opens a `not` operand or a group, which begins with the next token. -/
  | enter (x : Opening)
  /-- Stands behind a `not` operand or a group that is open, and closes it. -/
  | leave (x : Opening)
deriving DecidableEq, Repr

/-- The actions that a move emits. -/
def Move.run (v : Vocabulary) : Move → Production (List Action)
  | .pass => do
    skip
    return []
  | .closeParen => do
    demand (exactly .closeParen) (.token .closeParen)
    return []
  | .keyword k => do
    demand (spelt v k) (.keyword (v.spelling k))
    return []
  | .selectorName => do
    let name ← named v .selector (judgeSelector v)
    return [.push name]
  | .fieldName => do
    let name ← named v .fieldName (judgeField v)
    return [.push name]
  | .namespaceName => do
    let name ← named v .namespaceName (judgeNamespace v)
    return [.setNamespace name]
  | .literal => do
    let text ← of fun c => c.literal v
    return [.push text]
  | .integer => do
    let w ← demand (Token.name? v) .integer
    return [.push w]
  | .limit => do
    let w ← demand (Token.name? v) .limit
    return [.setLimit w]
  | .emit a => return [a]
  | .refuse expected => Production.refuse expected

/-- The tasks that open a `not` operand or a group has in it, with those behind its end. -/
def Opening.tasks : Opening → List Task
  | .negation =>
    [.move .pass, .recognize .unary, .leave .negation, .move (.emit .addNegatedCriteria)]
  | .group =>
    [.move .pass, .recognize (.chain .or), .move .closeParen, .leave .group]

/-- Tasks behind the next token if it means something, and other tasks if it does not. -/
def accepting {α : Type} (f : Token → Option α) (t : Token) (behind : α → List Task)
    (instead : List Task := []) : List Task :=
  match f t with
  | some a => .move .pass :: behind a
  | none => instead

/-- The operands of a chain are conjunctions or unaries. -/
def BoolOp.operand : BoolOp → Nonterminal
  | .or => .chain .and
  | .and => .unary

/-- What a nonterminal is made of where the token `t` is next. -/
def Nonterminal.tasks (v : Vocabulary) (t : Token) : Nonterminal → List Task
  | .query =>
    accepting (spelt v .select) t
      (fun _ => [.move (.emit .setSelectOp), .recognize .selector, .recognize .sourceClause,
        .recognize .filterClause, .recognize .orderClause, .recognize .limitClause,
        .recognize .atEnd]) <|
    accepting (spelt v .delete) t
      (fun _ => [.move (.emit .setDeleteOp), .recognize .sourceClause, .recognize .filterClause,
        .recognize .limitClause, .recognize .atEnd])
      [.move (.refuse (.operation (v.spelling .select) (v.spelling .delete)))]
  | .selector => [.move .selectorName, .recognize .selectorRest]
  | .selectorRest =>
    accepting (exactly .openParen) t
      (fun _ => [.move .fieldName, .move .closeParen, .move (.emit .setFunctionSelector)]) <|
    accepting (exactly .comma) t
      (fun _ => [.move .fieldName, .recognize .moreFields, .move (.emit .setCompoundSelector)])
      [.move (.emit .setSimpleSelector)]
  | .moreFields =>
    accepting (exactly .comma) t fun _ => [.move .fieldName, .recognize .moreFields]
  | .sourceClause => accepting (spelt v .source) t fun _ => [.move .namespaceName]
  | .filterClause =>
    accepting (spelt v .filter) t fun _ => [.recognize (.chain .or), .move (.emit .setCriteria)]
  | .chain op => [.recognize op.operand, .recognize (.operands op)]
  | .operands op =>
    accepting (spelt v op.keyword) t fun _ =>
      [.move (.emit (.push op.symbol)), .recognize op.operand,
        .move (.emit .addCompoundCriteria), .recognize (.operands op)]
  | .unary =>
    match spelt v .not t with
    | some _ => [.enter .negation]
    | none => [.recognize .atom]
  | .atom =>
    match exactly .openParen t with
    | some _ => [.enter .group]
    | none => [.recognize .comparison]
  | .comparison => [.move .fieldName, .recognize .comparisonRest]
  | .comparisonRest =>
    accepting Token.valueOp? t
      (fun op => [.move (.emit (.push op.symbol)), .move .literal, .move (.emit .addValueCriteria)]) <|
    accepting Token.rangeOp? t
      (fun op => [.move (.emit (.push op.symbol)), .move .integer, .move (.emit .addRangeCriteria)]) <|
    accepting (spelt v .member) t (fun _ => [.move .literal, .move (.emit .addIndexCriteria)])
      [.move (.refuse (.comparison (v.spelling .member)))]
  | .orderClause =>
    accepting (spelt v .order) t fun _ =>
      [.move (.keyword .orderBy), .recognize .orderItems, .move (.emit .setOrder)]
  | .orderItems =>
    [.move .fieldName, .move (.emit .addOrderSelector), .recognize .direction, .recognize .moreItems]
  | .direction =>
    accepting (spelt v .asc) t
      (fun _ => [.move (.emit (.push Direction.ascending.symbol)),
        .move (.emit .setOrderDirection)]) <|
    accepting (spelt v .desc) t fun _ =>
      [.move (.emit (.push Direction.descending.symbol)), .move (.emit .setOrderDirection)]
  | .moreItems => accepting (exactly .comma) t fun _ => [.recognize .orderItems]
  | .limitClause => accepting (spelt v .limit) t fun _ => [.move .limit]
  | .atEnd =>
    match exactly .endOfText t with
    | some _ => []
    | none => [.move (.refuse (.token .endOfText))]

/-! ## Moments -/

/-- A moment of a recognition: what is still to be done, the next first, where it stands, and what
    has been emitted. -/
structure Moment where
  tasks : List Task
  cursor : Cursor
  emitted : List Action := []

/-- What comes after a moment: another one, or the end of the recognition. -/
inductive Sequel where
  | moment (m : Moment)
  | ended (answer : Except SyntaxError (List Action))

namespace Moment

variable (v : Vocabulary)

/-- The moment in front of a query. -/
def front (c : Cursor) : Moment :=
  ⟨[.recognize .query], c, []⟩

/-- What comes next: the first task is done. -/
def next (m : Moment) : Sequel :=
  match m.tasks with
  | [] => .ended (.ok m.emitted)
  | .recognize n :: more => .moment { m with tasks := n.tasks v m.cursor.token ++ more }
  | .move move :: more =>
    match move.run v m.cursor with
    | .ok (as, d) => .moment ⟨more, d, m.emitted ++ as⟩
    | .error e => .ended (.error e)
  | .enter x :: more =>
    match m.cursor.checkNesting v with
    | .ok () => .moment { m with tasks := x.tasks ++ more, cursor := m.cursor.enter }
    | .error e => .ended (.error e)
  | .leave _ :: more => .moment { m with tasks := more, cursor := m.cursor.leave }

/-- What comes after some steps. -/
def after (m : Moment) : Nat → Sequel
  | 0 => .moment m
  | n + 1 =>
    match m.next v with
    | .moment m' => m'.after n
    | .ended answer => .ended answer

/-- What a step can do. -/
inductive Step : Moment → Moment → Prop
  | recognize {n : Nonterminal} {more : List Task} {c : Cursor} {as : List Action} :
      Step ⟨.recognize n :: more, c, as⟩ ⟨n.tasks v c.token ++ more, c, as⟩
  | move {move : Move} {more : List Task} {c d : Cursor} {as bs : List Action}
      (h : move.run v c = .ok (bs, d)) : Step ⟨.move move :: more, c, as⟩ ⟨more, d, as ++ bs⟩
  | enter {x : Opening} {more : List Task} {c : Cursor} {as : List Action}
      (room : c.depth < v.maxNesting) :
      Step ⟨.enter x :: more, c, as⟩ ⟨x.tasks ++ more, c.enter, as⟩
  | leave {x : Opening} {more : List Task} {c : Cursor} {as : List Action} :
      Step ⟨.leave x :: more, c, as⟩ ⟨more, c.leave, as⟩

variable {v} {m m' : Moment}

theorem after_succ (h : m.next v = .moment m') (n : Nat) : m.after v (n + 1) = m'.after v n := by
  rw [after, h]

theorem step_of_next (h : m.next v = .moment m') : Step v m m' := by
  obtain ⟨tasks, c, as⟩ := m
  cases tasks with
  | nil => cases h
  | cons task more =>
      cases task with
      | recognize n =>
          obtain rfl := Sequel.moment.inj h
          exact .recognize
      | move move =>
          simp only [next] at h
          split at h
          next bs d hrun =>
            obtain rfl := Sequel.moment.inj h
            exact .move hrun
          next => cases h
      | enter x =>
          simp only [next] at h
          split at h
          next hroom =>
            obtain rfl := Sequel.moment.inj h
            exact .enter (Cursor.checkNesting_eq_ok_iff.mp hroom)
          next => cases h
      | leave x =>
          obtain rfl := Sequel.moment.inj h
          exact .leave

/-- What every step keeps holds at every moment. -/
theorem after_induct {I : Moment → Prop} (hstep : ∀ {m m'}, I m → Step v m m' → I m') {n : Nat}
    (hm : I m) (h : m.after v n = .moment m') : I m' := by
  induction n generalizing m with
  | zero =>
      obtain rfl := Sequel.moment.inj h
      exact hm
  | succ n ih =>
      rw [after] at h
      split at h
      next m₁ hnext => exact ih (hstep hm (step_of_next hnext)) h
      next => cases h

theorem after_add {j : Nat} (h : m.after v j = .moment m') (k : Nat) :
    m.after v (j + k) = m'.after v k := by
  induction j generalizing m with
  | zero =>
      obtain rfl := Sequel.moment.inj h
      rw [Nat.zero_add]
  | succ j ih =>
      rw [after] at h
      rw [Nat.add_right_comm]
      split at h
      next m₁ hm => exact (after_succ hm (j + k)).trans (ih h)
      next => cases h

end Moment

end RecordQuery
