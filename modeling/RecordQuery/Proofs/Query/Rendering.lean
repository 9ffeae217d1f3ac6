/-
  RecordQuery.Proofs.Query.Rendering

  The tokens that the rendering of a query is scanned as. A rendering separates its words by
  spaces and quotes every literal, so nothing in it runs together.
-/

import RecordQuery.Proofs.Query.WellFormed
import RecordQuery.Proofs.Vocabulary
import RecordQuery.Query.Basic

namespace RecordQuery

/-! ## Operators -/

/-- The token of an operator that compares with a text. -/
def ValueOp.token : ValueOp → Token
  | .equal => .equal
  | .notEqual => .notEqual

/-- The token of an operator that compares with an integer. -/
def RangeOp.token : RangeOp → Token
  | .lessThan => .less
  | .lessEqual => .lessEqual
  | .greaterThan => .greater
  | .greaterEqual => .greaterEqual

/-- The keyword of a direction. -/
def Direction.keyword : Direction → Keyword
  | .ascending => .asc
  | .descending => .desc

@[simp] theorem ValueOp.valueOp?_token (op : ValueOp) : op.token.valueOp? = some op := by
  cases op <;> rfl

@[simp] theorem RangeOp.rangeOp?_token (op : RangeOp) : op.token.rangeOp? = some op := by
  cases op <;> rfl

theorem BoolOp.name_keyword (op : BoolOp) : op.keyword.name = op.symbol := by
  cases op <;> rfl

theorem Direction.name_keyword (d : Direction) : d.keyword.name = d.symbol := by
  cases d <;> rfl

/-- An operator is rendered as a text that is read as its token. -/
theorem writes_valueOp (op : ValueOp) : Writes op.symbol [op.token] := by
  cases op with
  | equal =>
      have hsymbol : ValueOp.equal.symbol.toList = ['='] := rfl
      exact writes_token hsymbol (fun _ h => h.read_operator.1) (by decide) (by decide)
  | notEqual =>
      have hsymbol : ValueOp.notEqual.symbol.toList = ['!', '='] := rfl
      exact writes_token hsymbol (fun _ _ => rfl) (by decide) (by decide)

theorem writes_rangeOp (op : RangeOp) : Writes op.symbol [op.token] := by
  cases op with
  | lessThan =>
      have hsymbol : RangeOp.lessThan.symbol.toList = ['<'] := rfl
      exact writes_token hsymbol (fun _ h => h.read_operator.2.1) (by decide) (by decide)
  | lessEqual =>
      have hsymbol : RangeOp.lessEqual.symbol.toList = ['<', '='] := rfl
      exact writes_token hsymbol (fun _ _ => rfl) (by decide) (by decide)
  | greaterThan =>
      have hsymbol : RangeOp.greaterThan.symbol.toList = ['>'] := rfl
      exact writes_token hsymbol (fun _ h => h.read_operator.2.2) (by decide) (by decide)
  | greaterEqual =>
      have hsymbol : RangeOp.greaterEqual.symbol.toList = ['>', '='] := rfl
      exact writes_token hsymbol (fun _ _ => rfl) (by decide) (by decide)

/-! ## Pieces -/

/-- A space ends any token. -/
theorem Writes.append_space {s : String} {ts : List Token} (h : Writes s ts) :
    Delimited (s ++ " ") ts := by
  rw [← List.append_nil ts]
  exact h.append_delimited delimited_space rfl (by decide)

/-- A comma ends any token. -/
theorem Writes.append_comma {s : String} {ts : List Token} (h : Writes s ts) :
    Delimited (s ++ ", ") (ts ++ [.comma]) := by
  have hstring : ", " = "," ++ " " := rfl
  have hcomma := h.append_delimited delimited_comma rfl (by decide)
  have hspaced := hcomma.append_delimited delimited_space
  rw [String.append_assoc, ← hstring, List.append_nil] at hspaced
  exact hspaced

theorem Writes.append_openParen {s : String} {ts : List Token} (h : Writes s ts) :
    Delimited (s ++ "(") (ts ++ [.openParen]) :=
  h.append_delimited delimited_openParen rfl (by decide)

theorem Writes.append_closeParen {s : String} {ts : List Token} (h : Writes s ts) :
    Delimited (s ++ ")") (ts ++ [.closeParen]) :=
  h.append_delimited delimited_closeParen rfl (by decide)

theorem writes_keyword (k : Keyword) : Writes k.name [.word k.name] :=
  writes_word k.isWord_name

/-- A keyword between two spaces. -/
theorem delimited_keyword (k : Keyword) : Delimited (" " ++ k.name ++ " ") [.word k.name] :=
  (delimited_space.append (writes_keyword k)).append_space

/-- Texts with commas between them. -/
theorem writes_intercalate {texts : List String} {tss : List (List Token)}
    (h : List.Forall₂ Writes texts tss) :
    Writes (String.intercalate ", " texts) (List.intercalate [.comma] tss) := by
  induction h with
  | nil =>
      intro cs us hcs _
      simpa using hcs
  | @cons text ts texts tss htext hrest ih =>
      cases hrest with
      | nil => simpa using htext
      | @cons text' ts' texts tss _ _ =>
          rw [String.intercalate_cons_cons, List.intercalate_cons_cons]
          exact htext.append_comma.append ih

/-! ## Criteria -/

/-- The tokens of rendered criteria. -/
def Criteria.tokens : Criteria → List Token
  | .value field op text => [.word field, op.token, .literal text]
  | .range field op bound => [.word field, op.token, .word (Text.writeSigned bound)]
  | .index field text => [.word field, .word Keyword.member.name, .literal text]
  | .compound op left right =>
    .openParen :: (left.tokens ++ .word op.keyword.name :: (right.tokens ++ [.closeParen]))
  | .negated criteria => .word Keyword.not.name :: criteria.tokens

/-- Rendered criteria are read as their tokens. -/
theorem writes_criteria {c : Criteria} (h : ∀ f ∈ c.fields, IsWord f) :
    Writes c.render c.tokens := by
  induction c with
  | value field op text =>
      have hfield := writes_word (h field (by simp [Criteria.fields]))
      have hop := (hfield.append_space.append (writes_valueOp op)).append_space
      exact (hop.append_delimited (delimited_quote text)).writes
  | range field op bound =>
      have hfield := writes_word (h field (by simp [Criteria.fields]))
      have hop := (hfield.append_space.append (writes_rangeOp op)).append_space
      exact hop.append (writes_word (isNumeral_writeSigned bound).isWord)
  | index field text =>
      have hfield := writes_word (h field (by simp [Criteria.fields]))
      have hin : Delimited (field ++ " in ") [.word field, .word Keyword.member.name] := by
        have hspaced := hfield.append_space.append (writes_keyword .member)
        have hstring : field ++ " in " = field ++ " " ++ Keyword.member.name ++ " " := by
          rw [String.append_assoc, String.append_assoc]
          rfl
        rw [hstring]
        exact hspaced.append_space
      exact (hin.append_delimited (delimited_quote text)).writes
  | compound op left right ihleft ihright =>
      have hleft := ihleft fun f hf => h f (List.mem_append_left _ hf)
      have hright := ihright fun f hf => h f (List.mem_append_right _ hf)
      have hop := writes_keyword op.keyword
      have hopened := (delimited_openParen.append hleft).append_space
      have hclosed := ((hopened.append hop).append_space.append hright).append_closeParen
      -- The pieces of the rendering, each with its tokens.
      have htokens : (Criteria.compound op left right).tokens =
          [.openParen] ++ left.tokens ++ [.word op.keyword.name] ++ right.tokens
            ++ [.closeParen] := by
        simp [Criteria.tokens]
      rw [htokens, Criteria.render, ← op.name_keyword]
      exact hclosed.writes
  | negated c ih =>
      have hnot := (writes_keyword .not).append_space
      exact hnot.append (ih h)

/-! ## Selectors and sort keys -/

/-- The tokens of a rendered selector. -/
def Selector.tokens : Selector → List Token
  | .simple field => [.word field]
  | .compound fields => List.intercalate [.comma] (fields.map fun f => [.word f])
  | .function name field => [.word name, .openParen, .word field, .closeParen]

/-- The name of a function is a word. -/
theorem isWord_of_isFunctionName {name : String} (h : isFunctionName name = true) :
    IsWord name := by
  unfold isFunctionName at h
  split at h
  next => cases h
  next c cs hname =>
    rw [IsWord, hname]
    rw [Bool.and_eq_true] at h
    -- Function names are made of fewer characters than words.
    refine ⟨List.cons_ne_nil _ _, fun d hd => ?_⟩
    have hd' := List.all_eq_true.mp h.2 d hd
    rw [Bool.or_eq_true] at hd'
    rcases hd' with hletter | hunderscore
    · simp [isWordChar, hletter]
    · simp [isWordChar, hunderscore]

/-- A rendered selector is read as its tokens. -/
theorem writes_selector {v : Vocabulary} {s : Selector} (h : s.WellFormed v) :
    Writes s.render s.tokens := by
  cases s with
  | simple field => exact writes_word h.2
  | compound fields =>
      apply writes_intercalate
      rw [List.forall₂_map_right_iff, List.forall₂_same]
      exact fun f hf => writes_word (h.1 f hf).2
  | function name field =>
      have hname := writes_word (isWord_of_isFunctionName h.1.2)
      have hopened := hname.append_openParen.append (writes_word h.2.2)
      exact hopened.append_closeParen.writes

/-- The tokens of a rendered sort key. -/
def OrderSpec.tokens (spec : OrderSpec) : List Token :=
  match spec.written with
  | some d => [.word spec.field, .word d.keyword.name]
  | none => [.word spec.field]

/-- A rendered sort key is read as its tokens. -/
theorem writes_orderSpec {spec : OrderSpec} (h : IsWord spec.field) :
    Writes spec.render spec.tokens := by
  obtain ⟨field, written⟩ := spec
  cases written with
  | none => exact writes_word h
  | some d =>
      have hdirection := writes_keyword d.keyword
      rw [d.name_keyword] at hdirection
      show Writes (field ++ " " ++ d.symbol) [.word field, .word d.keyword.name]
      rw [d.name_keyword]
      exact (writes_word h).append_space.append hdirection

/-! ## Queries -/

/-- The tokens of a rendered clause, which is left out with the part it belongs to. -/
def clauseTokens (keywords : List Keyword) (part : Option (List Token)) : List Token :=
  match part with
  | some ts => keywords.map (fun k => .word k.name) ++ ts
  | none => []

/-- The tokens of rendered sort keys, if there are any. -/
def orderTokens (order : List OrderSpec) : Option (List Token) :=
  if order.isEmpty then none else some (List.intercalate [.comma] (order.map OrderSpec.tokens))

/-- The tokens of a rendered query. -/
def Query.tokens (q : Query) : List Token :=
  (match q.operation with
    | .select => .word Keyword.select.name :: q.selector.tokens
    | .delete => [.word Keyword.delete.name])
  ++ clauseTokens [.source] (q.source.map fun name => [.word name])
  ++ clauseTokens [.filter] (q.criteria.map Criteria.tokens)
  ++ clauseTokens [.order, .orderBy] (orderTokens q.order)
  ++ clauseTokens [.limit] (q.limit.map fun n => [.word (Text.writeUnsigned n)])

/-- A clause starts with a space, or is not there at all. -/
theorem breaks_clause (keyword : String) (part : Option String) :
    Breaks (Query.clause keyword part).toList := by
  intro c hc
  cases part with
  | none => simp [Query.clause] at hc
  | some text =>
      obtain rfl : ' ' = c := by simpa [Query.clause] using hc
      decide

/-- A rendered clause is read as its keywords and the tokens of its body. -/
theorem writes_clause {keyword : String} {keywords : List Keyword}
    (hk : Delimited (" " ++ keyword ++ " ") (keywords.map fun k => .word k.name))
    {part : Option String} {tokens : Option (List Token)} (h : Option.Rel Writes part tokens) :
    Writes (Query.clause keyword part) (clauseTokens keywords tokens) := by
  cases h with
  | none =>
      intro cs us hcs _
      simpa [Query.clause, clauseTokens] using hcs
  | some htext => exact hk.append htext

theorem Writes.append_clause {text keyword : String} {ts : List Token} (keywords : List Keyword)
    {part : Option String} {tokens : Option (List Token)} (h : Writes text ts)
    (hk : Delimited (" " ++ keyword ++ " ") (keywords.map fun k => .word k.name))
    (hpart : Option.Rel Writes part tokens) :
    Writes (text ++ Query.clause keyword part) (ts ++ clauseTokens keywords tokens) :=
  h.append (writes_clause hk hpart) (breaks_clause keyword part)

/-- The two keywords of the clause that sorts. -/
theorem delimited_orderBy :
    Delimited (" " ++ "order by" ++ " ") ([Keyword.order, .orderBy].map fun k => .word k.name) := by
  have hstring : " " ++ "order by" ++ " " =
      " " ++ Keyword.order.name ++ " " ++ (Keyword.orderBy.name ++ " ") := rfl
  rw [hstring]
  exact (delimited_keyword .order).append_delimited (writes_keyword .orderBy).append_space

/-- Rendered sort keys are read as tokens with commas between them. -/
theorem writes_order {order : List OrderSpec} (h : ∀ spec ∈ order, IsWord spec.field) :
    Option.Rel Writes (Query.renderOrder order) (orderTokens order) := by
  unfold Query.renderOrder orderTokens
  split
  next => exact .none
  next =>
    refine .some (writes_intercalate ?_)
    rw [List.forall₂_map_left_iff, List.forall₂_map_right_iff, List.forall₂_same]
    exact fun spec hspec => writes_orderSpec (h spec hspec)

/-- A part that may be missing and is written as its tokens where it is not. -/
theorem writes_part {α : Type} {text : α → String} {tokens : α → List Token} {part : Option α}
    (h : ∀ a ∈ part, Writes (text a) (tokens a)) :
    Option.Rel Writes (part.map text) (part.map tokens) := by
  cases part with
  | none => exact .none
  | some a => exact .some (h a rfl)

/-- A rendered query is read as its tokens. -/
theorem writes_query {v : Vocabulary} {q : Query} (h : q.WellFormed v) :
    Writes q.render q.tokens := by
  have hsource : Option.Rel Writes q.source (q.source.map fun name => [.word name]) := by
    have hnames := writes_part fun name hname => writes_word (h.source name hname).2
    rwa [Option.map_id'] at hnames
  have hcriteria :
      Option.Rel Writes (q.criteria.map Criteria.render) (q.criteria.map Criteria.tokens) :=
    writes_part fun c hc => writes_criteria fun f hf => (h.criteria c hc f hf).2
  have horder := writes_order fun spec hspec => (h.order spec hspec).2
  have hlimit : Option.Rel Writes (q.limit.map Text.writeUnsigned)
      (q.limit.map fun n => [.word (Text.writeUnsigned n)]) :=
    writes_part fun n _ => writes_word (isNumeral_writeUnsigned n).isWord
  -- The operation and its selector stand in front of the clauses.
  have hhead : Writes
      (match q.operation with
        | .select => "select " ++ q.selector.render
        | .delete => "delete")
      (match q.operation with
        | .select => .word Keyword.select.name :: q.selector.tokens
        | .delete => [.word Keyword.delete.name]) := by
    cases hop : q.operation with
    | select => exact (writes_keyword .select).append_space.append (writes_selector (h.select hop))
    | delete => exact writes_keyword .delete
  have hfrom := hhead.append_clause [.source] (delimited_keyword .source) hsource
  have hwhere := hfrom.append_clause [.filter] (delimited_keyword .filter) hcriteria
  have hsorted := hwhere.append_clause [.order, .orderBy] delimited_orderBy horder
  exact hsorted.append_clause [.limit] (delimited_keyword .limit) hlimit

end RecordQuery
