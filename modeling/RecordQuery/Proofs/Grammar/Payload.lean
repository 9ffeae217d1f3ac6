/-
  RecordQuery.Proofs.Grammar.Payload

  The texts that actions carry, in order, are those of the tokens. Names, numerals and the contents
  of strings go into an action as they are, operators and directions by their symbols, and nothing
  else of a text does. So no part of a text is lost on the way to its actions, none comes twice, and
  none changes its place.
-/

import RecordQuery.Proofs.Grammar.Acceptance
import RecordQuery.Vocabulary.Standard

namespace RecordQuery

/-! ## What tokens and actions carry -/

/-- The text that an action carries. -/
def Action.payload? : Action → Option String
  | .push text | .setNamespace text | .setLimit text => some text
  | _ => none

/-- The symbol of a keyword that stands for an operator between criteria or for a direction. -/
def Keyword.symbol? : Keyword → Option String
  | .and => some "and"
  | .or => some "or"
  | .asc => some "asc"
  | .desc => some "desc"
  | _ => none

/-- The text that a token should put into an action: the symbol of an operator or a direction, in
    whatever way it is written, and what a word or a string says. -/
def Token.payload? (v : Vocabulary) : Token → Option String
  | .word w =>
    match v.keyword? w with
    | some k => k.symbol?
    | none => some w
  | .literal content => some content
  | .equal => some "="
  | .notEqual => some "!="
  | .less => some "<"
  | .greater => some ">"
  | .lessEqual => some "<="
  | .greaterEqual => some ">="
  | .openParen | .closeParen | .comma | .endOfText => none

variable {v : Vocabulary}

/-- A word that is no keyword carries itself. -/
theorem Token.payload?_word {w : String} (h : v.keyword? w = none) :
    (Token.word w).payload? v = some w := by
  simp [payload?, h]

theorem Token.payload?_of_spells {t : Token} {k : Keyword} (h : Grammar.Spells v t k) :
    t.payload? v = k.symbol? := by
  obtain ⟨w, rfl, hw⟩ := h
  simp [payload?, hw]

theorem Token.payload?_of_valueOp? {t : Token} {op : ValueOp} (h : t.valueOp? = some op) :
    t.payload? v = some op.symbol := by
  cases t <;> cases h <;> rfl

theorem Token.payload?_of_rangeOp? {t : Token} {op : RangeOp} (h : t.rangeOp? = some op) :
    t.payload? v = some op.symbol := by
  cases t <;> cases h <;> rfl

/-- A literal carries its content. -/
theorem Token.payload?_of_literal {t : Token} {text : String} (h : Grammar.Literal v t text) :
    t.payload? v = some text := by
  cases h with
  | quoted content => rfl
  | bare hw => exact payload?_word hw

theorem BoolOp.symbol?_keyword (op : BoolOp) : op.keyword.symbol? = some op.symbol := by
  cases op <;> rfl

/-- The actions carry the texts of the tokens, in the order of the tokens. -/
def Carries (v : Vocabulary) (ts : List Token) (as : List Action) : Prop :=
  as.filterMap Action.payload? = ts.filterMap (Token.payload? v)

namespace Carries

variable {ts us : List Token} {as bs : List Action} {t : Token} {a : Action}

theorem nil : Carries v [] [] :=
  rfl

/-- Runs of tokens carry what they carry one behind the other. -/
theorem append (h : Carries v ts as) (h' : Carries v us bs) : Carries v (ts ++ us) (as ++ bs) := by
  rw [Carries, List.filterMap_append, List.filterMap_append, h, h']

theorem cons {text : String} (ht : t.payload? v = some text) (ha : a.payload? = some text)
    (h : Carries v ts as) : Carries v (t :: ts) (a :: as) := by
  rw [Carries, List.filterMap_cons_some ht, List.filterMap_cons_some ha, h]

/-- A token that carries nothing. -/
theorem token (ht : t.payload? v = none) (h : Carries v ts as) : Carries v (t :: ts) as := by
  rw [Carries, List.filterMap_cons_none ht, h]

/-- An action that carries nothing. -/
theorem action (ha : a.payload? = none) (h : Carries v ts as) : Carries v ts (a :: as) := by
  rw [Carries, List.filterMap_cons_none ha, h]

/-- Actions that carry nothing behind the others. -/
theorem append_action (h : Carries v ts as) (ha : a.payload? = none) : Carries v ts (as ++ [a]) := by
  have hboth := h.append (action ha nil)
  rwa [List.append_nil] at hboth

end Carries

namespace Grammar

variable {α : Type} {n : Nat} {ts : List Token}

/-! ## Criteria -/

/-- A comparison pushes its field, its operator and its text as they are written. -/
theorem carries_of_comparison {c : Condition} (h : Comparison v ts c) : Carries v ts c.actions := by
  cases h with
  | value hf ht hl =>
      have hf' := Token.payload?_word (v.keyword?_of_isField hf)
      exact .cons hf' rfl <| .cons (Token.payload?_of_valueOp? ht) rfl <|
        .cons (Token.payload?_of_literal hl) rfl <| .action rfl .nil
  | range hf ht hw =>
      have hf' := Token.payload?_word (v.keyword?_of_isField hf)
      exact .cons hf' rfl <| .cons (Token.payload?_of_rangeOp? ht) rfl <|
        .cons (Token.payload?_word hw) rfl <| .action rfl .nil
  | index hf ht hl =>
      have hf' := Token.payload?_word (v.keyword?_of_isField hf)
      exact .cons hf' rfl <| .token (Token.payload?_of_spells ht) <|
        .cons (Token.payload?_of_literal hl) rfl <| .action rfl .nil

/-- The actions of a phrase carry the texts of its tokens. The operator of two operands is pushed
    between their actions, which is where it stands. -/
theorem carries_of_derives {p : Phrase} (h : Derives v n ts p) : Carries v ts p.actions := by
  induction h with
  | chain _ _ ihfirst ihmore =>
      rw [Phrase.actions, Condition.actions_foldl]
      exact ihfirst.append ihmore
  | noOperands => exact .nil
  | @operands _ _ _ _ _ op _ _ hk _ _ ihright ihmore =>
      rw [Phrase.actions, Condition.chainActions_cons]
      have hop := (Token.payload?_of_spells hk).trans op.symbol?_keyword
      exact .cons hop rfl (ihright.append (.action rfl ihmore))
  | conjunction _ ih => exact ih
  | unary _ ih => exact ih
  | negation hk _ ih => exact .token (Token.payload?_of_spells hk) (ih.append_action rfl)
  | atom _ ih => exact ih
  | group _ ih =>
      have hinside := ih.append (.token (v := v) (t := .closeParen) rfl .nil)
      rw [List.append_nil] at hinside
      exact .token rfl hinside
  | comparison h => exact carries_of_comparison h

/-! ## Lists and clauses -/

/-- A list carries what its items do: commas carry nothing. -/
theorem carries_of_listed {item : List Token → α → Prop} {as : List α} (h : Listed item ts as)
    {f : α → List Action} (hitem : ∀ us a, item us a → Carries v us (f a)) :
    Carries v ts (as.flatMap f) := by
  induction h with
  | one h =>
      rw [List.flatMap_singleton]
      exact hitem _ _ h
  | more h _ ih =>
      rw [List.flatMap_cons]
      exact (hitem _ _ h).append (.token rfl ih)

theorem carries_of_field {f : String} (h : Field v ts f) : Carries v ts [.push f] := by
  cases h with
  | word h => exact .cons (Token.payload?_word (v.keyword?_of_isField h)) rfl .nil

theorem carries_of_orderItem {spec : OrderSpec} (h : OrderItem v ts spec) :
    Carries v ts spec.actions := by
  cases h with
  | plain h =>
      exact .cons (Token.payload?_word (v.keyword?_of_isField h)) rfl (.action rfl .nil)
  | ascending h hk =>
      exact .cons (Token.payload?_word (v.keyword?_of_isField h)) rfl <| .action rfl <|
        .cons (Token.payload?_of_spells hk) rfl (.action rfl .nil)
  | descending h hk =>
      exact .cons (Token.payload?_word (v.keyword?_of_isField h)) rfl <| .action rfl <|
        .cons (Token.payload?_of_spells hk) rfl (.action rfl .nil)

/-- A selector pushes its names in their order. That of a function comes before its argument in the
    text too. -/
theorem carries_of_selector {s : Selector} (h : DerivesSelector v ts s) :
    Carries v ts s.actions := by
  cases h with
  | simple h => exact (carries_of_field (.word h)).append_action rfl
  | @compound _ fields h _ =>
      have hfields := carries_of_listed h fun _ _ => carries_of_field
      rw [← List.map_eq_flatMap] at hfields
      exact hfields.append_action rfl
  | function hk _ h =>
      exact .cons (Token.payload?_word hk) rfl <| .token rfl <|
        .cons (Token.payload?_word (v.keyword?_of_isField h)) rfl <|
          .token rfl (.action rfl .nil)

/-- The keywords that open a clause carry nothing. -/
theorem carries_of_clause {keywords : List Keyword} {body : List Token → α → Prop}
    {f : Option α → List Action} (hkeywords : ∀ k ∈ keywords, k.symbol? = none)
    (hnone : f none = []) (hsome : ∀ us a, body us a → Carries v us (f (some a)))
    {x : Option α} (h : Clause v keywords body ts x) : Carries v ts (f x) := by
  cases h with
  | absent =>
      rw [hnone]
      exact .nil
  | present hk h =>
      induction hk with
      | nil => exact hsome _ _ h
      | cons hk _ ih =>
          obtain ⟨hsilent, hmore⟩ := List.forall_mem_cons.mp hkeywords
          exact .token ((Token.payload?_of_spells hk).trans hsilent) (ih hmore)

theorem carries_of_source {source : Option String}
    (h : Clause v [.source] (NamespaceName v) ts source) :
    Carries v ts (Draft.sourceActions source) := by
  refine carries_of_clause (by decide) rfl ?_ h
  rintro _ _ ⟨hname⟩
  exact .cons (Token.payload?_word (v.keyword?_of_isNamespace hname)) rfl .nil

theorem carries_of_filter {filter : Option Condition} (h : Filter v n ts filter) :
    Carries v ts (Draft.filterActions filter) := by
  cases h with
  | absent => exact .nil
  | present hk h =>
      exact .token (Token.payload?_of_spells hk) ((carries_of_derives h).append_action rfl)

theorem carries_of_order {order : Option (List OrderSpec)}
    (h : Clause v [.order, .orderBy] (Listed (OrderItem v)) ts order) :
    Carries v ts (Draft.orderActions (order.getD [])) := by
  refine carries_of_clause (f := fun o => Draft.orderActions (o.getD [])) (by decide) rfl ?_ h
  intro us specs hspecs
  rw [Option.getD_some, Draft.orderActions, if_neg hspecs.ne_nil]
  exact (carries_of_listed hspecs fun _ _ => carries_of_orderItem).append_action rfl

/-- The word of a limit is in the action that sets it. -/
theorem carries_of_limit {limit : Option String} (h : Clause v [.limit] (LimitWord v) ts limit) :
    Carries v ts (Draft.limitActions limit) := by
  refine carries_of_clause (by decide) rfl ?_ h
  rintro _ _ ⟨hw⟩
  exact .cons (Token.payload?_word hw) rfl .nil

/-! ## Queries -/

/-- The clauses of a query carry their texts in the order in which they stand. -/
theorem carries_of_query {d : Draft} (h : DerivesQuery v n ts d) : Carries v ts d.actions := by
  cases h with
  | select hk hs hf hw ho hl =>
      have hclauses := (((carries_of_selector hs).append (carries_of_source hf)).append
        (carries_of_filter hw)).append (carries_of_order ho) |>.append (carries_of_limit hl)
      exact .token (Token.payload?_of_spells hk) (.action rfl hclauses)
  | delete hk hf hw hl =>
      have hclauses := ((carries_of_source hf).append (carries_of_filter hw)).append
        (carries_of_limit hl)
      exact .token (Token.payload?_of_spells hk) (.action rfl hclauses)

end Grammar

/-- The actions of a text carry the names, the numerals and the contents of strings of the text, the
    symbols of its operators and directions, and nothing else, in the order of the text. -/
theorem actions_carry_text {text : String} {as : List Action} (h : recognize v text = .ok as) :
    ∃ ts, tokenize text = .ok ts ∧
      as.filterMap Action.payload? = ts.filterMap (Token.payload? v) := by
  obtain ⟨ts, n, d, hts, hd, -, rfl⟩ := recognize_eq_ok_iff.mp h
  refine ⟨_, hts, ?_⟩
  rw [List.filterMap_append]
  exact (Grammar.carries_of_query hd).trans (List.append_nil _).symm

/-- A query with a function, whose name is pushed only once its argument is read, and with operators
    and directions that are not written by their symbols. -/
def roundaboutText : String :=
  "select max(size) where not (a == 'x y' OR b in c) And d >= 1 order by size Desc limit 5"

/-- Names, operators, contents of strings and numerals come out in the order of the text. -/
theorem roundaboutText_payloads :
    ∃ as, recognize .standard roundaboutText = .ok as ∧
      as.filterMap Action.payload? =
        ["max", "size", "a", "=", "x y", "or", "b", "c", "and", "d", ">=", "1", "size", "desc",
          "5"] := by
  have has : (recognize .standard roundaboutText).toOption.isSome = true := by decide +kernel
  obtain ⟨as, has⟩ := Option.isSome_iff_exists.mp has
  have hrecognized := eq_ok_of_toOption has
  refine ⟨as, hrecognized, ?_⟩
  obtain ⟨ts, hts, hpayloads⟩ := actions_carry_text hrecognized
  have htokens : (tokenize roundaboutText).toOption.map
      (List.filterMap (Token.payload? .standard)) = some
        ["max", "size", "a", "=", "x y", "or", "b", "c", "and", "d", ">=", "1", "size", "desc",
          "5"] := by decide +kernel
  rw [hts] at htokens
  exact hpayloads.trans (Option.some.inj htokens)

end RecordQuery
