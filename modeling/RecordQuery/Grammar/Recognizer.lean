/-
  RecordQuery.Grammar.Recognizer

  Recognizing queries. Each production of the grammar is a function from the cursor in front of it
  to the actions that build what it describes and the cursor behind it. One token of lookahead
  decides every choice.

    query      := select | delete
    select     := SELECT selector [FROM name] [WHERE disjunction] [ORDER BY items] [LIMIT word]
    delete     := DELETE [FROM name] [WHERE disjunction] [LIMIT word]
    selector   := name "(" field ")" | field ("," field)*
    disjunction := conjunction (OR conjunction)*
    conjunction := unary (AND unary)*
    unary      := NOT unary | atom
    atom       := "(" disjunction ")" | field comparison
    comparison := ("=" | "!=") literal | ("<" | "<=" | ">" | ">=") word | IN literal
    items      := field [ASC | DESC] ("," field [ASC | DESC])*

  Chains of one operator group to the left. The depth of a cursor counts the `not` operands and
  parentheses that are open; no more than the vocabulary allows may be.
-/

import RecordQuery.Action.Basic
import RecordQuery.Grammar.Cursor
import RecordQuery.Query.Operator

namespace RecordQuery

/-- The operator that compares a field with a literal. -/
def Token.valueOp? : Token → Option ValueOp
  | .equal => some .equal
  | .notEqual => some .notEqual
  | _ => none

/-- The operator that compares a field with an integer. -/
def Token.rangeOp? : Token → Option RangeOp
  | .less => some .lessThan
  | .lessEqual => some .lessEqual
  | .greater => some .greaterThan
  | .greaterEqual => some .greaterEqual
  | _ => none

theorem Token.ne_end_of_valueOp? {t : Token} {op : ValueOp} (h : t.valueOp? = some op) :
    t ≠ .endOfText := by
  rintro rfl
  simp [valueOp?] at h

theorem Token.ne_end_of_rangeOp? {t : Token} {op : RangeOp} (h : t.rangeOp? = some op) :
    t ≠ .endOfText := by
  rintro rfl
  simp [rangeOp?] at h

/-- Names of functions start with a letter or an underscore and hold letters, digits and
    underscores only. -/
def isFunctionName (name : String) : Bool :=
  match name.toList with
  | [] => false
  | c :: cs =>
    (Unicode.isAlphabetic c || c == '_')
      && (c :: cs).all fun d => Unicode.isAlphanumeric d || d == '_'

namespace Grammar

variable (v : Vocabulary)

/-! ## Criteria -/

/-- A field and what it is compared with. Whether a word is an integer is not asked here. -/
def comparison (c : Cursor) : Except SyntaxError (Parsed (List Action) c.size) := do
  let name ← c.field v
  let opened := name.rest
  match h : opened.token.valueOp? with
  | some op =>
    let behind ← opened.advance (Token.ne_end_of_valueOp? h)
    let operand ← behind.rest.literal v
    return ⟨[.push name.value, .push op.symbol, .push operand.value, .addValueCriteria],
      operand.rest,
      Nat.lt_trans operand.shorter (Nat.lt_trans behind.shorter name.shorter)⟩
  | none =>
    match h' : opened.token.rangeOp? with
    | some op =>
      let behind ← opened.advance (Token.ne_end_of_rangeOp? h')
      let operand ← behind.rest.word v .integer
      return ⟨[.push name.value, .push op.symbol, .push operand.value, .addRangeCriteria],
        operand.rest,
      Nat.lt_trans operand.shorter (Nat.lt_trans behind.shorter name.shorter)⟩
    | none =>
      match ← opened.eat? v .member with
      | some behind =>
        let operand ← behind.rest.literal v
        return ⟨[.push name.value, .push operand.value, .addIndexCriteria],
          operand.rest,
      Nat.lt_trans operand.shorter (Nat.lt_trans behind.shorter name.shorter)⟩
      | none => throw (opened.unexpected (.comparison (v.spelling .member)))

mutual

/-- Criteria: conjunctions with `or` between them. -/
def disjunction (c : Cursor) : Except SyntaxError (Parsed (List Action) c.size) := do
  let first ← conjunction c
  let more ← disjuncts first.rest
  return ⟨first.value ++ more.value, more.rest,
    Nat.lt_of_le_of_lt (Nat.le_of_lt_succ more.shorter) first.shorter⟩
termination_by 6 * c.size + 5
decreasing_by
  · omega
  · have := first.shorter
    simp only [Cursor.size] at *
    omega

/-- What follows the first operand of a disjunction. -/
def disjuncts (c : Cursor) : Except SyntaxError (Parsed (List Action) (c.size + 1)) := do
  match ← c.eat? v .or with
  | none => return ⟨[], c, Nat.lt_succ_self _⟩
  | some behind =>
    let right ← conjunction behind.rest
    let more ← disjuncts right.rest
    have := behind.shorter
    have := right.shorter
    have := more.shorter
    return ⟨.push BoolOp.or.symbol :: right.value ++ .addCompoundCriteria :: more.value, more.rest,
      by simp only [Cursor.size] at *; omega⟩
termination_by 6 * c.size + 4
decreasing_by
  · have := behind.shorter
    simp only [Cursor.size] at *
    omega
  · have := behind.shorter
    have := right.shorter
    simp only [Cursor.size] at *
    omega

/-- An operand of `or`: operands with `and` between them. -/
def conjunction (c : Cursor) : Except SyntaxError (Parsed (List Action) c.size) := do
  let first ← unary c
  let more ← conjuncts first.rest
  return ⟨first.value ++ more.value, more.rest,
    Nat.lt_of_le_of_lt (Nat.le_of_lt_succ more.shorter) first.shorter⟩
termination_by 6 * c.size + 3
decreasing_by
  · omega
  · have := first.shorter
    simp only [Cursor.size] at *
    omega

/-- What follows the first operand of a conjunction. -/
def conjuncts (c : Cursor) : Except SyntaxError (Parsed (List Action) (c.size + 1)) := do
  match ← c.eat? v .and with
  | none => return ⟨[], c, Nat.lt_succ_self _⟩
  | some behind =>
    let right ← unary behind.rest
    let more ← conjuncts right.rest
    have := behind.shorter
    have := right.shorter
    have := more.shorter
    return ⟨.push BoolOp.and.symbol :: right.value ++ .addCompoundCriteria :: more.value,
      more.rest, by simp only [Cursor.size] at *; omega⟩
termination_by 6 * c.size + 2
decreasing_by
  · have := behind.shorter
    simp only [Cursor.size] at *
    omega
  · have := behind.shorter
    have := right.shorter
    simp only [Cursor.size] at *
    omega

/-- An operand of `and`. A negation takes in as little as it can. -/
def unary (c : Cursor) : Except SyntaxError (Parsed (List Action) c.size) := do
  if h : c.keyword? v = some .not then
    c.checkNesting v
    let behind ← c.advance (Cursor.token_ne_end h)
    let operand ← unary behind.rest.enter
    return ⟨operand.value ++ [.addNegatedCriteria], operand.rest.leave,
      Nat.lt_trans operand.shorter behind.shorter⟩
  else atom c
termination_by 6 * c.size + 1
decreasing_by
  · have := behind.shorter
    simp only [Cursor.size, Cursor.lexemes_enter] at *
    omega
  · omega

/-- Criteria in parentheses, or one comparison. -/
def atom (c : Cursor) : Except SyntaxError (Parsed (List Action) c.size) := do
  if h : c.token = .openParen then
    c.checkNesting v
    let behind ← c.advance (by simp [h])
    let inside ← disjunction behind.rest.enter
    let closed ← inside.rest.expect .closeParen (by decide)
    return ⟨inside.value, closed.rest.leave,
      Nat.lt_trans closed.shorter (Nat.lt_trans inside.shorter behind.shorter)⟩
  else comparison v c
termination_by 6 * c.size
decreasing_by
  have := behind.shorter
  simp only [Cursor.size, Cursor.lexemes_enter] at *
  omega

end

/-! ## Selectors -/

/-- The further fields of a compound selector. -/
def moreFields (c : Cursor) : Except SyntaxError (Parsed (List String) (c.size + 1)) := do
  if h : c.token = .comma then
    let behind ← c.advance (by simp [h])
    let name ← behind.rest.field v
    let more ← moreFields name.rest
    have := behind.shorter
    have := name.shorter
    have := more.shorter
    return ⟨name.value :: more.value, more.rest, by simp only [Cursor.size] at *; omega⟩
  else return ⟨[], c, Nat.lt_succ_self _⟩
termination_by c.size
decreasing_by
  have := behind.shorter
  have := name.shorter
  simp only [Cursor.size] at *
  omega

/-- A selector. A parenthesis behind the first word makes it the name of a function. -/
def selector (c : Cursor) : Except SyntaxError (List Action × Cursor) := do
  let first ← c.word v .selector
  if h : first.rest.token = .openParen then
    if !isFunctionName first.value then throw (.invalidFunction first.value c.position)
    let behind ← first.rest.advance (by simp [h])
    let argument ← behind.rest.field v
    let closed ← argument.rest.expect .closeParen (by decide)
    return ([.push first.value, .push argument.value, .setFunctionSelector], closed.rest)
  else
    if !v.isField first.value then throw (.invalidField first.value c.position)
    let more ← moreFields v first.rest
    if more.value.isEmpty then return ([.push first.value, .setSimpleSelector], more.rest)
    else
      return (.push first.value :: more.value.map .push ++ [.setCompoundSelector], more.rest)

/-! ## Clauses -/

/-- The clause that names a namespace, if there is one. -/
def sourceClause (c : Cursor) : Except SyntaxError (List Action × Cursor) := do
  match ← c.eat? v .source with
  | none => return ([], c)
  | some behind =>
    let name ← behind.rest.word v .namespaceName
    if v.isNamespace name.value then return ([.setNamespace name.value], name.rest)
    else throw (.invalidNamespace name.value behind.rest.position)

/-- The clause that holds the criteria, if there is one. -/
def filterClause (c : Cursor) : Except SyntaxError (List Action × Cursor) := do
  match ← c.eat? v .filter with
  | none => return ([], c)
  | some behind =>
    let criteria ← disjunction v behind.rest
    return (criteria.value ++ [.setCriteria], criteria.rest)

/-- The direction behind a sort key, if one is written. -/
def direction (c : Cursor) : Except SyntaxError (Parsed (List Action) (c.size + 1)) := do
  match ← c.eat? v .asc with
  | some behind =>
    return ⟨[.push Direction.ascending.symbol, .setOrderDirection], behind.rest,
      Nat.lt_succ_of_lt behind.shorter⟩
  | none =>
    match ← c.eat? v .desc with
    | some behind =>
      return ⟨[.push Direction.descending.symbol, .setOrderDirection], behind.rest,
        Nat.lt_succ_of_lt behind.shorter⟩
    | none => return ⟨[], c, Nat.lt_succ_self _⟩

/-- One sort key or more. -/
def orderItems (c : Cursor) : Except SyntaxError (Parsed (List Action) c.size) := do
  let name ← c.field v
  let written ← direction v name.rest
  let key := .push name.value :: .addOrderSelector :: written.value
  have hn := name.shorter
  have hw := written.shorter
  if h : written.rest.token = .comma then
    let behind ← written.rest.advance (by simp [h])
    have hb := behind.shorter
    let more ← orderItems behind.rest
    have hm := more.shorter
    return ⟨key ++ more.value, more.rest, by simp only [Cursor.size] at *; omega⟩
  else return ⟨key, written.rest, by simp only [Cursor.size] at *; omega⟩
termination_by c.size
decreasing_by
  simp only [Cursor.size] at *
  omega

/-- The clause that sorts, if there is one. -/
def orderClause (c : Cursor) : Except SyntaxError (List Action × Cursor) := do
  match ← c.eat? v .order with
  | none => return ([], c)
  | some behind =>
    let start ← behind.rest.expectKeyword v .orderBy
    let items ← orderItems v start.rest
    return (items.value ++ [.setOrder], items.rest)

/-- The clause that bounds the number of results, if there is one. -/
def limitClause (c : Cursor) : Except SyntaxError (List Action × Cursor) := do
  match ← c.eat? v .limit with
  | none => return ([], c)
  | some behind =>
    let word ← behind.rest.word v .limit
    return ([.setLimit word.value], word.rest)

/-! ## Queries -/

/-- What follows the keyword of a query that selects. -/
def selectTail (c : Cursor) : Except SyntaxError (List Action × Cursor) := do
  let (selector, c) ← selector v c
  let (source, c) ← sourceClause v c
  let (filter, c) ← filterClause v c
  let (order, c) ← orderClause v c
  let (limit, c) ← limitClause v c
  return (.setSelectOp :: selector ++ source ++ filter ++ order ++ limit, c)

/-- What follows the keyword of a query that deletes. -/
def deleteTail (c : Cursor) : Except SyntaxError (List Action × Cursor) := do
  let (source, c) ← sourceClause v c
  let (filter, c) ← filterClause v c
  let (limit, c) ← limitClause v c
  return (.setDeleteOp :: source ++ filter ++ limit, c)

/-- A query up to the end of the text. -/
def query (c : Cursor) : Except SyntaxError (List Action) := do
  let (actions, rest) ←
    match ← c.eat? v .select with
    | some behind => selectTail v behind.rest
    | none =>
      match ← c.eat? v .delete with
      | some behind => deleteTail v behind.rest
      | none =>
        throw (c.unexpected (.operation (v.spelling .select) (v.spelling .delete)))
  if rest.token = .endOfText then return actions
  else throw (rest.unexpected (.token .endOfText))

end Grammar

/-- The actions that build the query a text writes in a vocabulary. -/
def recognize (v : Vocabulary) (text : String) : Except SyntaxError (List Action) := do
  Grammar.query v (← Cursor.ofText text)

end RecordQuery
