/-
  RecordQuery.Proofs.Query.RoundTrip

  Rendered queries compile back, as far as their nesting is allowed. The renderer puts every
  compound criterion into parentheses, while a text needs none for a long chain of one operator: so
  a query may compile from a text that does not nest and have a rendering that nests too deep.
-/

import RecordQuery.Proofs.Query.Rendering

namespace RecordQuery

variable {v : Vocabulary}

/-! ## Criteria as their rendering writes them -/

namespace Criteria

/-- The criteria as their rendering writes them. -/
def written : Criteria → Condition
  | .value field op text => .value field op text
  | .range field op bound => .range field op (Text.writeSigned bound)
  | .index field text => .index field text
  | .compound op left right => .compound op left.written right.written
  | .negated criteria => .negated criteria.written

/-- Criteria are read back from what their rendering writes: an integer is written as a numeral of
    its own. -/
theorem read_written (c : Criteria) : c.written.read = .ok c := by
  induction c with
  | value => rfl
  | range field op bound => rw [written, Condition.read, Text.readSigned_writeSigned]
  | index => rfl
  | compound op left right ihleft ihright =>
      rw [written, Condition.read, bind_of_ok _ ihleft, bind_of_ok _ ihright]
      rfl
  | negated c ih =>
      rw [written, Condition.read, bind_of_ok _ ih]
      rfl

end Criteria

namespace Grammar

/-- The name of a keyword spells it. -/
theorem spells_name (hv : v.SpeltByName) (k : Keyword) : Spells v (.word k.name) k :=
  ⟨k.name, rfl, hv.keyword?_name k⟩

/-! ## Derivations of renderings -/

/-- Criteria are derived from their tokens, each compound one behind a parenthesis. -/
theorem derives_written (hv : v.SpeltByName) {c : Criteria}
    (hc : ∀ f ∈ c.fields, v.isField f = true) :
    Derives v c.nesting c.tokens (.unary c.written) := by
  induction c with
  | value field op text =>
      have hf := hc field (by simp [Criteria.fields])
      exact .atom (.comparison (.value hf op.valueOp?_token (.quoted text)))
  | range field op bound =>
      have hf := hc field (by simp [Criteria.fields])
      have hbound := (isNumeral_writeSigned bound).keyword?_eq_none hv
      exact .atom (.comparison (.range hf op.rangeOp?_token hbound))
  | index field text =>
      have hf := hc field (by simp [Criteria.fields])
      exact .atom (.comparison (.index hf (spells_name hv .member) (.quoted text)))
  | compound op left right ihleft ihright =>
      have hleft := ihleft fun f hf => hc f (List.mem_append_left _ hf)
      have hright := ihright fun f hf => hc f (List.mem_append_right _ hf)
      -- The operands stand in one pair of parentheses, which is one level more than the deeper one.
      have hchain := Derives.pair (spells_name hv op.keyword) hleft.operand_of_unary
        hright.operand_of_unary
      have htokens : (Criteria.compound op left right).tokens =
          .openParen :: ((left.tokens ++ .word op.keyword.name :: right.tokens)
            ++ [.closeParen]) := by
        simp [Criteria.tokens]
      rw [htokens]
      exact .atom (.group hchain.disjunction_of_chain)
  | negated c ih => exact .negation (spells_name hv .not) (ih hc)

/-- Items with commas between them are a list. -/
theorem listed_intercalate {α : Type} {item : List Token → α → Prop} {tokens : α → List Token}
    {as : List α} (hne : as ≠ []) (h : ∀ a ∈ as, item (tokens a) a) :
    Listed item (List.intercalate [.comma] (as.map tokens)) as := by
  induction as with
  | nil => exact absurd rfl hne
  | cons a as ih =>
      have ha := h a List.mem_cons_self
      have hrest : ∀ b ∈ as, item (tokens b) b := fun b hb => h b (List.mem_cons_of_mem a hb)
      cases as with
      | nil =>
          rw [List.map_singleton, List.intercalate_singleton]
          exact .one ha
      | cons b bs =>
          rw [List.map_cons, List.map_cons, List.intercalate_cons_cons, List.append_assoc]
          exact .more ha (ih (List.cons_ne_nil b bs) hrest)

/-- A selector is derived from its tokens. -/
theorem derivesSelector_tokens {s : Selector} (h : s.WellFormed v) :
    DerivesSelector v s.tokens s := by
  cases s with
  | simple field => exact .simple h.1
  | function name field => exact .function h.1.1 h.1.2 h.2.1
  | compound fields =>
      refine .compound ?_ h.2
      apply listed_intercalate
      · rintro rfl
        exact absurd h.2 (by decide)
      · exact fun f hf => .word (h.1 f hf).1

theorem derives_orderItem (hv : v.SpeltByName) {spec : OrderSpec}
    (h : v.isField spec.field = true) : OrderItem v spec.tokens spec := by
  obtain ⟨field, written⟩ := spec
  cases written with
  | none => exact .plain h
  | some d =>
      cases d with
      | ascending => exact .ascending h (spells_name hv .asc)
      | descending => exact .descending h (spells_name hv .desc)

end Grammar

/-! ## Queries as their rendering writes them -/

namespace Query

/-- The query as its rendering writes it. -/
def written (q : Query) : Draft :=
  match q.operation with
  | .select =>
    .select q.selector q.source (q.criteria.map Criteria.written) q.order
      (q.limit.map Text.writeUnsigned)
  | .delete =>
    .delete q.source (q.criteria.map Criteria.written) (q.limit.map Text.writeUnsigned)

theorem readFilter_written (criteria : Option Criteria) :
    Draft.readFilter (criteria.map Criteria.written) = .ok criteria := by
  cases criteria with
  | none => rfl
  | some c =>
      rw [Option.map_some, Draft.readFilter, c.read_written]
      rfl

theorem readLimit_written (limit : Option UInt64) :
    Draft.readLimit (limit.map Text.writeUnsigned) = .ok limit := by
  cases limit with
  | none => rfl
  | some n => rw [Option.map_some, Draft.readLimit, Text.readUnsigned_writeUnsigned]

/-- What the rendering of a well-formed query writes reads as the query. -/
theorem read_written {q : Query} (h : q.WellFormed v) : q.written.read = .ok q := by
  cases hop : q.operation with
  | select =>
      rw [written, hop]
      dsimp only
      rw [Draft.read, bind_of_ok _ (readFilter_written _), bind_of_ok _ (readLimit_written _),
        ← hop]
      rfl
  | delete =>
      -- The rendering leaves out the selector and the order, which are always the same.
      obtain ⟨hselector, horder⟩ := h.delete hop
      rw [written, hop]
      dsimp only
      rw [Draft.read, bind_of_ok _ (readFilter_written _), bind_of_ok _ (readLimit_written _),
        ← hop, ← hselector, ← horder]
      rfl

end Query

namespace Grammar

/-- A clause is derived from its tokens, and a missing one from none. -/
theorem clause_tokens {α : Type} (hv : v.SpeltByName) {keywords : List Keyword}
    {body : List Token → α → Prop} {part : Option α} {tokens : α → List Token}
    (h : ∀ a ∈ part, body (tokens a) a) :
    Clause v keywords body (clauseTokens keywords (part.map tokens)) part := by
  cases part with
  | none => exact .absent
  | some a =>
      refine .present ?_ (h a rfl)
      rw [List.forall₂_map_left_iff, List.forall₂_same]
      exact fun k _ => spells_name hv k

/-- Sort keys are derived from their tokens. Without any the clause is missing. -/
theorem derives_order (hv : v.SpeltByName) {order : List OrderSpec}
    (h : ∀ spec ∈ order, v.isField spec.field = true) :
    ∃ written, Clause v [.order, .orderBy] (Listed (OrderItem v))
      (clauseTokens [.order, .orderBy] (orderTokens order)) written ∧
        written.getD [] = order := by
  cases order with
  | nil => exact ⟨none, .absent, rfl⟩
  | cons spec specs =>
      have hlisted : Listed (OrderItem v)
          (List.intercalate [.comma] ((spec :: specs).map OrderSpec.tokens)) (spec :: specs) :=
        listed_intercalate (List.cons_ne_nil _ _) fun s hs => derives_orderItem hv (h s hs)
      have hkeys := List.Forall₂.cons (spells_name hv .order)
        (.cons (spells_name hv .orderBy) .nil)
      exact ⟨some (spec :: specs), .present hkeys hlisted, rfl⟩

theorem derives_filter (hv : v.SpeltByName) {q : Query} (h : q.WellFormed v) :
    Filter v q.nesting (clauseTokens [.filter] (q.criteria.map Criteria.tokens))
      (q.criteria.map Criteria.written) := by
  unfold Query.nesting
  cases hq : q.criteria with
  | none => exact .absent
  | some c =>
      have hderives := derives_written hv fun f hf => (h.criteria c hq f hf).1
      exact .present (spells_name hv .filter) hderives.operand_of_unary.chain_of_operand

theorem derives_limit (hv : v.SpeltByName) (limit : Option UInt64) :
    Clause v [.limit] (LimitWord v)
      (clauseTokens [.limit] (limit.map fun n => [.word (Text.writeUnsigned n)]))
      (limit.map Text.writeUnsigned) := by
  cases limit with
  | none => exact .absent
  | some n =>
      have hword := (isNumeral_writeUnsigned n).keyword?_eq_none hv
      exact .present (.cons (spells_name hv .limit) .nil) (.word hword)

/-- A query is derived from its tokens, with the nesting that it has. -/
theorem derivesQuery_tokens (hv : v.SpeltByName) {q : Query} (h : q.WellFormed v) :
    DerivesQuery v q.nesting q.tokens q.written := by
  have hsource : Clause v [.source] (NamespaceName v)
      (clauseTokens [.source] (q.source.map fun name => [.word name])) q.source :=
    clause_tokens hv fun name hname => .word (h.source name hname).1
  have hfilter := derives_filter hv h
  obtain ⟨order, horder, hwritten⟩ := derives_order hv fun spec hspec => (h.order spec hspec).1
  have hlimit := derives_limit hv q.limit
  cases hop : q.operation with
  | select =>
      have hselector := derivesSelector_tokens (h.select hop)
      have htokens : q.tokens = .word Keyword.select.name :: (q.selector.tokens
          ++ clauseTokens [.source] (q.source.map fun name => [.word name])
          ++ clauseTokens [.filter] (q.criteria.map Criteria.tokens)
          ++ clauseTokens [.order, .orderBy] (orderTokens q.order)
          ++ clauseTokens [.limit] (q.limit.map fun n => [.word (Text.writeUnsigned n)])) := by
        rw [Query.tokens, hop]
        rfl
      have hselect := DerivesQuery.select (spells_name hv .select) hselector hsource hfilter
        horder hlimit
      rw [hwritten] at hselect
      rw [htokens, Query.written, hop]
      exact hselect
  | delete =>
      have htokens : q.tokens = .word Keyword.delete.name ::
          (clauseTokens [.source] (q.source.map fun name => [.word name])
          ++ clauseTokens [.filter] (q.criteria.map Criteria.tokens)
          ++ clauseTokens [.limit] (q.limit.map fun n => [.word (Text.writeUnsigned n)])) := by
        rw [Query.tokens, hop, (h.delete hop).2]
        simp [orderTokens, clauseTokens]
      rw [htokens, Query.written, hop]
      exact .delete (spells_name hv .delete) hsource hfilter hlimit

end Grammar

/-! ## Compiling renderings -/

/-- The rendering of a well-formed query compiles to the query if the vocabulary allows its
    nesting. -/
theorem compileWith_render {q : Query} (hv : v.SpeltByName) (h : q.WellFormed v)
    (hn : q.nesting ≤ v.maxNesting) : compileWith v q.render = .ok q := by
  rw [compileWith_of_derives (tokenize_of_writes (writes_query h))
    (Grammar.derivesQuery_tokens hv h) hn, Query.read_written h]
  rfl

/-- The rendering of a well-formed query that nests deeper is refused for that reason. -/
theorem compileWith_render_tooDeep {q : Query} (hv : v.SpeltByName) (h : q.WellFormed v)
    (hn : v.maxNesting < q.nesting) :
    ∃ p, compileWith v q.render = .error (.malformed (.nestingTooDeep v.maxNesting p)) :=
  compileWith_tooDeep (tokenize_of_writes (writes_query h)) (Grammar.derivesQuery_tokens hv h) hn

/-- Rendering a well-formed query and compiling the text gives the query again as long as no path
    of its criteria has more compound and negated nodes than the vocabulary allows; beyond that the
    text is refused for its nesting. -/
theorem compileWith_render_by_nesting (v : Vocabulary) (hv : v.SpeltByName) (q : Query)
    (h : q.WellFormed v) :
    (q.nesting ≤ v.maxNesting → compileWith v q.render = .ok q) ∧
      (¬ q.nesting ≤ v.maxNesting →
        ∃ p, compileWith v q.render = .error (.malformed (.nestingTooDeep v.maxNesting p))) := by
  constructor
  · intro hn
    exact compileWith_render hv h hn
  · intro hn
    exact compileWith_render_tooDeep hv h (Nat.lt_of_not_le hn)

/-- A query with every clause, a text that needs escapes, and the extreme integers. -/
def extremeQuery : Query where
  operation := .select
  source := some "images.*"
  selector := .function "count" "*"
  criteria := some (.negated (.compound .or (.value "a" .notEqual "\"\\\n\x00'")
    (.range "b" .lessEqual (-0x8000_0000_0000_0000))))
  order := [{ field := "a", written := some .descending }, { field := "b" }]
  limit := some 0xFFFF_FFFF_FFFF_FFFF

/-- The limit on nesting has no part in this. -/
theorem wellFormed_extremeQuery (n : UInt64) :
    extremeQuery.WellFormed (Vocabulary.standard.withNesting n) where
  select _ := by
    -- The bound on nesting does not matter for names.
    show (Vocabulary.standard.keyword? "count" = none ∧ _) ∧ Vocabulary.standard.FieldWord "*"
    decide
  delete hop := by cases hop
  source := by
    show ∀ name ∈ extremeQuery.source, Vocabulary.standard.NamespaceWord name
    decide
  criteria := by
    show ∀ c ∈ extremeQuery.criteria, ∀ f ∈ c.fields, Vocabulary.standard.FieldWord f
    decide
  order := by
    show ∀ spec ∈ extremeQuery.order, Vocabulary.standard.FieldWord spec.field
    decide

/-- Its criteria are a `not` and a parenthesis deep: two levels are enough for it, one is not. -/
theorem compileWith_render_extremeQuery :
    ((Vocabulary.standard.withNesting 2).SpeltByName ∧
      extremeQuery.WellFormed (Vocabulary.standard.withNesting 2) ∧
      compileWith (Vocabulary.standard.withNesting 2) extremeQuery.render = .ok extremeQuery) ∧
    ∃ p, compileWith (Vocabulary.standard.withNesting 1) extremeQuery.render =
      .error (.malformed (.nestingTooDeep 1 p)) := by
  have htwo := compileWith_render_by_nesting _ (Vocabulary.speltByName_standard.withNesting 2)
    extremeQuery (wellFormed_extremeQuery 2)
  have hone := compileWith_render_by_nesting _ (Vocabulary.speltByName_standard.withNesting 1)
    extremeQuery (wellFormed_extremeQuery 1)
  refine ⟨⟨Vocabulary.speltByName_standard.withNesting 2, wellFormed_extremeQuery 2, ?_⟩, ?_⟩
  · exact htwo.1 (by decide)
  · exact hone.2 (by decide)

end RecordQuery
