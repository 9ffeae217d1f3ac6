/-
  RecordQuery.Proofs.Grammar.Derivation

  The grammar of queries, stated over lists of tokens without a cursor, a lookahead or a depth that
  is counted up and down. Each rule says which tokens a phrase consists of and what is read from
  it; keywords are whatever words the vocabulary takes for them.

    query       := SELECT selector [FROM name] [WHERE disjunction] [ORDER BY items] [LIMIT word]
                 | DELETE [FROM name] [WHERE disjunction] [LIMIT word]
    selector    := name "(" field ")" | field ("," field)*
    disjunction := conjunction (OR conjunction)*
    conjunction := unary (AND unary)*
    unary       := NOT unary | atom
    atom        := "(" disjunction ")" | field comparison
    comparison  := ("=" | "!=") literal | ("<" | "<=" | ">" | ">=") word | IN literal
    items       := field [ASC | DESC] ("," field [ASC | DESC])*

  Disjunctions and conjunctions are both chains of operands: what is an operand of `or` is a chain
  of `and`, and what is an operand of `and` is a unary. A chain is read by folding its operands from
  the left. A derivation also tells the nesting of its criteria: how many `not` operands and
  parentheses are around the point that has the most of them around it.
-/

import Mathlib.Data.List.Forall2
import RecordQuery.Grammar.Recognizer
import RecordQuery.Proofs.Draft

namespace RecordQuery

/-- The keyword that stands between the operands of an operator. -/
def BoolOp.keyword : BoolOp → Keyword
  | .and => .and
  | .or => .or

namespace Grammar

variable (v : Vocabulary)

/-! ## Words -/

/-- The token is a word that the vocabulary takes for the keyword. -/
def Spells (t : Token) (k : Keyword) : Prop :=
  ∃ w, t = .word w ∧ v.keyword? w = some k

/-- What a literal says: a string its content, a word that is no keyword itself. -/
inductive Literal : Token → String → Prop
  | quoted (content : String) : Literal (.literal content) content
  | bare {w : String} (h : v.keyword? w = none) : Literal (.word w) w

/-! ## Criteria -/

/-- A field and what it is compared with. -/
inductive Comparison : List Token → Condition → Prop
  | value {f text : String} {t l : Token} {op : ValueOp} (hf : v.isField f = true)
      (ht : t.valueOp? = some op) (hl : Literal v l text) :
      Comparison [.word f, t, l] (.value f op text)
  | range {f w : String} {t : Token} {op : RangeOp} (hf : v.isField f = true)
      (ht : t.rangeOp? = some op) (hw : v.keyword? w = none) :
      Comparison [.word f, t, .word w] (.range f op w)
  | index {f text : String} {t l : Token} (hf : v.isField f = true)
      (ht : Spells v t .member) (hl : Literal v l text) :
      Comparison [.word f, t, l] (.index f text)

/-- The phrases that criteria are made of, with what is read from each. -/
inductive Phrase where
  /-- Operands with the operator between them: a disjunction or a conjunction. -/
  | chain (op : BoolOp) (condition : Condition)
  /-- One operand of a chain. -/
  | operand (op : BoolOp) (condition : Condition)
  /-- The operands of a chain that follow its first, each behind the operator. -/
  | operands (op : BoolOp) (conditions : List Condition)
  | unary (condition : Condition)
  | atom (condition : Condition)

/-- `Derives v n ts p`: the tokens `ts` are the phrase `p`, in which no more than `n` of the `not`
    operands and parentheses of `ts` are around any point, and `n` are around some point. -/
inductive Derives : Nat → List Token → Phrase → Prop
  | chain {m n : Nat} {ts us : List Token} {op : BoolOp} {c : Condition} {cs : List Condition}
      (first : Derives m ts (.operand op c)) (more : Derives n us (.operands op cs)) :
      Derives (max m n) (ts ++ us) (.chain op (cs.foldl (.compound op) c))
  | noOperands {op : BoolOp} : Derives 0 [] (.operands op [])
  | operands {m n : Nat} {k : Token} {ts us : List Token} {op : BoolOp} {c : Condition}
      {cs : List Condition} (hk : Spells v k op.keyword) (right : Derives m ts (.operand op c))
      (more : Derives n us (.operands op cs)) :
      Derives (max m n) (k :: (ts ++ us)) (.operands op (c :: cs))
  | conjunction {n : Nat} {ts : List Token} {c : Condition} (h : Derives n ts (.chain .and c)) :
      Derives n ts (.operand .or c)
  | unary {n : Nat} {ts : List Token} {c : Condition} (h : Derives n ts (.unary c)) :
      Derives n ts (.operand .and c)
  | negation {n : Nat} {k : Token} {ts : List Token} {c : Condition}
      (hk : Spells v k .not) (h : Derives n ts (.unary c)) :
      Derives (n + 1) (k :: ts) (.unary (.negated c))
  | atom {n : Nat} {ts : List Token} {c : Condition} (h : Derives n ts (.atom c)) :
      Derives n ts (.unary c)
  | group {n : Nat} {ts : List Token} {c : Condition} (inside : Derives n ts (.chain .or c)) :
      Derives (n + 1) (.openParen :: (ts ++ [.closeParen])) (.atom c)
  | comparison {ts : List Token} {c : Condition} (h : Comparison v ts c) :
      Derives 0 ts (.atom c)

/-! ## Lists -/

/-- Items with commas between them, at least one. -/
inductive Listed {α : Type} (item : List Token → α → Prop) : List Token → List α → Prop
  | one {ts : List Token} {a : α} (h : item ts a) : Listed item ts [a]
  | more {ts us : List Token} {a : α} {as : List α} (h : item ts a) (rest : Listed item us as) :
      Listed item (ts ++ .comma :: us) (a :: as)

theorem Listed.ne_nil {α : Type} {item : List Token → α → Prop} {ts : List Token} {as : List α}
    (h : Listed item ts as) : as ≠ [] := by
  cases h <;> exact List.cons_ne_nil _ _

/-- A word that can name a field. -/
inductive Field : List Token → String → Prop
  | word {f : String} (h : v.isField f = true) : Field [.word f] f

/-- A field to sort by, with or without a direction. -/
inductive OrderItem : List Token → OrderSpec → Prop
  | plain {f : String} (h : v.isField f = true) : OrderItem [.word f] { field := f }
  | ascending {f : String} {k : Token} (h : v.isField f = true) (hk : Spells v k .asc) :
      OrderItem [.word f, k] { field := f, written := some .ascending }
  | descending {f : String} {k : Token} (h : v.isField f = true) (hk : Spells v k .desc) :
      OrderItem [.word f, k] { field := f, written := some .descending }

/-- One field, several, or a function of one. -/
inductive DerivesSelector : List Token → Selector → Prop
  | simple {f : String} (h : v.isField f = true) : DerivesSelector [.word f] (.simple f)
  | compound {ts : List Token} {fields : List String} (h : Listed (Field v) ts fields)
      (several : 2 ≤ fields.length) : DerivesSelector ts (.compound fields)
  | function {name f : String} (hk : v.keyword? name = none) (hn : isFunctionName name = true)
      (h : v.isField f = true) :
      DerivesSelector [.word name, .openParen, .word f, .closeParen] (.function name f)

/-! ## Clauses -/

/-- The name of a namespace. -/
inductive NamespaceName : List Token → String → Prop
  | word {name : String} (h : v.isNamespace name = true) : NamespaceName [.word name] name

/-- A word that is no keyword, where a number of results should stand. -/
inductive LimitWord : List Token → String → Prop
  | word {w : String} (h : v.keyword? w = none) : LimitWord [.word w] w

/-- A clause behind its keywords, or nothing. -/
inductive Clause {α : Type} (keywords : List Keyword) (body : List Token → α → Prop) :
    List Token → Option α → Prop
  | absent : Clause keywords body [] none
  | present {ks ts : List Token} {a : α} (hk : List.Forall₂ (Spells v) ks keywords)
      (h : body ts a) : Clause keywords body (ks ++ ts) (some a)

/-- The clause that holds criteria, with their nesting. -/
inductive Filter : Nat → List Token → Option Condition → Prop
  | absent : Filter 0 [] none
  | present {n : Nat} {k : Token} {ts : List Token} {c : Condition} (hk : Spells v k .filter)
      (h : Derives v n ts (.chain .or c)) : Filter n (k :: ts) (some c)

/-- `DerivesQuery v n ts d`: the tokens `ts` write the draft `d`, whose criteria have the
    nesting `n`. -/
inductive DerivesQuery : Nat → List Token → Draft → Prop
  | select {n : Nat} {k : Token} {ss fs ws os ls : List Token} {selector : Selector}
      {source : Option String} {filter : Option Condition} {order : Option (List OrderSpec)}
      {limit : Option String}
      (hk : Spells v k .select) (hs : DerivesSelector v ss selector)
      (hf : Clause v [.source] (NamespaceName v) fs source) (hw : Filter v n ws filter)
      (ho : Clause v [.order, .orderBy] (Listed (OrderItem v)) os order)
      (hl : Clause v [.limit] (LimitWord v) ls limit) :
      DerivesQuery n (k :: (ss ++ fs ++ ws ++ os ++ ls))
        (.select selector source filter (order.getD []) limit)
  | delete {n : Nat} {k : Token} {fs ws ls : List Token} {source : Option String}
      {filter : Option Condition} {limit : Option String}
      (hk : Spells v k .delete) (hf : Clause v [.source] (NamespaceName v) fs source)
      (hw : Filter v n ws filter) (hl : Clause v [.limit] (LimitWord v) ls limit) :
      DerivesQuery n (k :: (fs ++ ws ++ ls)) (.delete source filter limit)

/-! ## Short chains -/

namespace Derives

variable {v : Vocabulary} {m n : Nat} {ts us : List Token} {op : BoolOp} {c d : Condition}

/-- One operand is a chain. -/
theorem chain_of_operand (h : Derives v n ts (.operand op c)) : Derives v n ts (.chain op c) := by
  have hchain := Derives.chain h .noOperands
  rw [Nat.max_zero, List.append_nil] at hchain
  exact hchain

/-- A unary is an operand of either operator. -/
theorem operand_of_unary (h : Derives v n ts (.unary c)) : Derives v n ts (.operand op c) := by
  cases op with
  | and => exact .unary h
  | or => exact .conjunction (chain_of_operand (.unary h))

/-- A conjunction is a disjunction of one operand. -/
theorem disjunction_of_chain (h : Derives v n ts (.chain op c)) :
    Derives v n ts (.chain .or c) := by
  cases op with
  | and => exact chain_of_operand (.conjunction h)
  | or => exact h

/-- Two operands with their operator between them. -/
theorem pair {k : Token} (hk : Spells v k op.keyword) (left : Derives v m ts (.operand op c))
    (right : Derives v n us (.operand op d)) :
    Derives v (max m n) (ts ++ k :: us) (.chain op (.compound op c d)) := by
  have hchain := Derives.chain left (.operands hk right .noOperands)
  rw [Nat.max_zero, List.append_nil] at hchain
  exact hchain

end Derives

end Grammar

end RecordQuery
