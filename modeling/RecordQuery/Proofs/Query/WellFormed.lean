/-
  RecordQuery.Proofs.Query.WellFormed

  Well-formed queries: their names are words that the vocabulary takes for names, and their parts
  fit their operation. Whatever compiles is well formed. The nesting of a query counts what its
  rendering puts into parentheses or behind a `not`.
-/

import RecordQuery.Proofs.Compilation
import RecordQuery.Proofs.Token.Scanning

namespace RecordQuery

/-- A word that can name a field. -/
def Vocabulary.FieldWord (v : Vocabulary) (w : String) : Prop :=
  v.isField w = true ∧ IsWord w

/-- A word that can name a namespace. -/
def Vocabulary.NamespaceWord (v : Vocabulary) (w : String) : Prop :=
  v.isNamespace w = true ∧ IsWord w

instance (v : Vocabulary) (w : String) : Decidable (v.FieldWord w) :=
  inferInstanceAs (Decidable (_ ∧ _))

instance (v : Vocabulary) (w : String) : Decidable (v.NamespaceWord w) :=
  inferInstanceAs (Decidable (_ ∧ _))

variable {v : Vocabulary}

/-! ## Well-formed parts -/

/-- The fields of a selector are fields, several if it is compound, and a function has the name of
    one. -/
def Selector.WellFormed (v : Vocabulary) : Selector → Prop
  | .simple field => v.FieldWord field
  | .compound fields => (∀ f ∈ fields, v.FieldWord f) ∧ 2 ≤ fields.length
  | .function name field =>
    (v.keyword? name = none ∧ isFunctionName name = true) ∧ v.FieldWord field

namespace Criteria

/-- The fields that criteria name, from left to right. -/
def fields : Criteria → List String
  | .value field _ _ | .range field _ _ | .index field _ => [field]
  | .compound _ left right => left.fields ++ right.fields
  | .negated criteria => criteria.fields

/-- The greatest number of compound and negated criteria on a path to a comparison. -/
def nesting : Criteria → Nat
  | .value _ _ _ | .range _ _ _ | .index _ _ => 0
  | .compound _ left right => max left.nesting right.nesting + 1
  | .negated criteria => criteria.nesting + 1

end Criteria

namespace Query

/-- The nesting of the criteria of a query, if it has any. -/
def nesting (q : Query) : Nat :=
  match q.criteria with
  | some criteria => criteria.nesting
  | none => 0

/-- The names of the query are names in the vocabulary, and its parts fit its operation. -/
structure WellFormed (v : Vocabulary) (q : Query) : Prop where
  select : q.operation = .select → q.selector.WellFormed v
  delete : q.operation = .delete → q.selector = .identity ∧ q.order = []
  source : ∀ name ∈ q.source, v.NamespaceWord name
  criteria : ∀ criteria ∈ q.criteria, ∀ f ∈ criteria.fields, v.FieldWord f
  order : ∀ spec ∈ q.order, v.FieldWord spec.field

end Query

/-! ## What is derived is well formed -/

namespace Condition

/-- The fields that a condition names, from left to right. -/
def fields : Condition → List String
  | .value field _ _ | .range field _ _ | .index field _ => [field]
  | .compound _ left right => left.fields ++ right.fields
  | .negated condition => condition.fields

theorem fields_foldl (op : BoolOp) (first : Condition) (operands : List Condition) :
    (operands.foldl (compound op) first).fields = first.fields ++ operands.flatMap fields := by
  induction operands generalizing first with
  | nil => simp
  | cons c cs ih => simp [ih, fields]

/-- Reading the integers of a condition leaves its fields alone. -/
theorem fields_read {c : Condition} {criteria : Criteria} (h : c.read = .ok criteria) :
    criteria.fields = c.fields := by
  induction c generalizing criteria with
  | value =>
      cases h
      rfl
  | range field op word =>
      rw [read] at h
      split at h
      next =>
        cases h
        rfl
      next => cases h
  | index =>
      cases h
      rfl
  | compound op left right ihleft ihright =>
      obtain ⟨l, hl, h⟩ := bind_eq_ok.mp h
      obtain ⟨r, hr, h⟩ := bind_eq_ok.mp h
      obtain rfl := pure_eq_ok.mp h
      rw [Criteria.fields, fields, ihleft hl, ihright hr]
  | negated c ih =>
      obtain ⟨k, hk, h⟩ := bind_eq_ok.mp h
      obtain rfl := pure_eq_ok.mp h
      rw [Criteria.fields, fields, ih hk]

end Condition

namespace Grammar

/-- The fields that a phrase names. -/
def Phrase.fields : Phrase → List String
  | .chain _ c | .operand _ c | .unary c | .atom c => c.fields
  | .operands _ cs => cs.flatMap Condition.fields

/-- The field of a comparison is a word of it that names a field. -/
theorem fields_of_comparison {ts : List Token} {c : Condition} (h : Comparison v ts c) :
    ∀ f ∈ c.fields, v.isField f = true ∧ .word f ∈ ts := by
  cases h with
  | value hf => simp [Condition.fields, hf]
  | range hf => simp [Condition.fields, hf]
  | index hf => simp [Condition.fields, hf]

/-- Every field of a phrase is a word among its tokens. -/
theorem fields_of_derives {n : Nat} {ts : List Token} {p : Phrase} (h : Derives v n ts p) :
    ∀ f ∈ p.fields, v.isField f = true ∧ .word f ∈ ts := by
  -- Along the derivation: what encloses a phrase only adds tokens around its own.
  induction h with
  | chain _ _ ihfirst ihmore =>
      intro f hf
      rw [Phrase.fields, Condition.fields_foldl] at hf
      rcases List.mem_append.mp hf with hf | hf
      · obtain ⟨hfield, hmem⟩ := ihfirst f hf
        exact ⟨hfield, List.mem_append_left _ hmem⟩
      · obtain ⟨hfield, hmem⟩ := ihmore f hf
        exact ⟨hfield, List.mem_append_right _ hmem⟩
  | noOperands => simp [Phrase.fields]
  | operands _ _ _ ihright ihmore =>
      intro f hf
      rw [Phrase.fields, List.flatMap_cons] at hf
      rcases List.mem_append.mp hf with hf | hf
      · obtain ⟨hfield, hmem⟩ := ihright f hf
        exact ⟨hfield, List.mem_cons_of_mem _ (List.mem_append_left _ hmem)⟩
      · obtain ⟨hfield, hmem⟩ := ihmore f hf
        exact ⟨hfield, List.mem_cons_of_mem _ (List.mem_append_right _ hmem)⟩
  | conjunction _ ih => exact ih
  | unary _ ih => exact ih
  | negation _ _ ih =>
      intro f hf
      obtain ⟨hfield, hmem⟩ := ih f hf
      exact ⟨hfield, List.mem_cons_of_mem _ hmem⟩
  | atom _ ih => exact ih
  | group _ ih =>
      intro f hf
      obtain ⟨hfield, hmem⟩ := ih f hf
      exact ⟨hfield, List.mem_cons_of_mem _ (List.mem_append_left _ hmem)⟩
  | comparison h => exact fields_of_comparison h

/-- Every item of a list has its tokens among those of the list. -/
theorem Listed.exists_item {α : Type} {item : List Token → α → Prop} {ts : List Token}
    {as : List α} (h : Listed item ts as) : ∀ a ∈ as, ∃ us, item us a ∧ us ⊆ ts := by
  induction h with
  | @one ts b hb =>
      intro a ha
      obtain rfl := List.mem_singleton.mp ha
      exact ⟨ts, hb, List.Subset.refl ts⟩
  | @more ts us b bs hb _ ih =>
      intro a ha
      rcases List.mem_cons.mp ha with rfl | ha
      · exact ⟨ts, hb, List.subset_append_left ts _⟩
      · obtain ⟨vs, ha, hvs⟩ := ih a ha
        refine ⟨vs, ha, fun t ht => ?_⟩
        exact List.mem_append_right ts (List.mem_cons_of_mem .comma (hvs ht))

/-- A selector that is derived from words is well formed. -/
theorem wellFormed_of_selector {ts : List Token} {s : Selector} (h : DerivesSelector v ts s)
    (hw : ∀ w, .word w ∈ ts → IsWord w) : s.WellFormed v := by
  cases h with
  | simple hf => exact ⟨hf, hw _ (by simp)⟩
  | compound hl hseveral =>
      refine ⟨fun f hf => ?_, hseveral⟩
      obtain ⟨us, hitem, hus⟩ := hl.exists_item f hf
      cases hitem with
      | word hfield => exact ⟨hfield, hw f (hus (by simp))⟩
  | function hk hname hf => exact ⟨⟨hk, hname⟩, hf, hw _ (by simp)⟩

theorem field_of_orderItem {ts : List Token} {spec : OrderSpec} (h : OrderItem v ts spec) :
    v.isField spec.field = true ∧ .word spec.field ∈ ts := by
  cases h with
  | plain hf => simp [hf]
  | ascending hf => simp [hf]
  | descending hf => simp [hf]

theorem wellFormed_of_source {ts : List Token} {source : Option String} {keys : List Keyword}
    (h : Clause v keys (NamespaceName v) ts source) (hw : ∀ w, .word w ∈ ts → IsWord w) :
    ∀ name ∈ source, v.NamespaceWord name := by
  cases h with
  | absent => simp
  | present _ hname =>
      cases hname with
      | word hname =>
          rintro name ⟨⟩
          exact ⟨hname, hw _ (by simp)⟩

theorem wellFormed_of_order {ts : List Token} {order : Option (List OrderSpec)}
    {keys : List Keyword} (h : Clause v keys (Listed (OrderItem v)) ts order)
    (hw : ∀ w, .word w ∈ ts → IsWord w) :
    ∀ spec ∈ order.getD [], v.FieldWord spec.field := by
  cases h with
  | absent => simp
  | present _ hl =>
      intro spec hspec
      obtain ⟨us, hitem, hus⟩ := hl.exists_item spec hspec
      obtain ⟨hfield, hmem⟩ := field_of_orderItem hitem
      exact ⟨hfield, hw _ (List.mem_append_right _ (hus hmem))⟩

/-- The fields of criteria that are derived from words can be written. -/
theorem wellFormed_of_filter {n : Nat} {ts : List Token} {filter : Option Condition}
    {criteria : Option Criteria} (h : Filter v n ts filter)
    (hread : Draft.readFilter filter = .ok criteria) (hw : ∀ w, .word w ∈ ts → IsWord w) :
    ∀ k ∈ criteria, ∀ f ∈ k.fields, v.FieldWord f := by
  cases h with
  | absent =>
      cases hread
      simp
  | @present _ _ _ c _ hderives =>
      intro k hk f hf
      -- Reading a condition keeps its fields, and these are words of the text.
      obtain rfl : criteria = some k := hk
      cases hc : c.read with
      | error e =>
          rw [Draft.readFilter, hc] at hread
          cases hread
      | ok k' =>
          rw [Draft.readFilter, hc] at hread
          cases hread
          rw [Condition.fields_read hc] at hf
          obtain ⟨hfield, hmem⟩ := fields_of_derives hderives f hf
          exact ⟨hfield, hw f (List.mem_cons_of_mem _ hmem)⟩

/-- A query that is derived from words is well formed. -/
theorem wellFormed_of_derives {n : Nat} {ts : List Token} {d : Draft} {q : Query}
    (h : DerivesQuery v n ts d) (hread : d.read = .ok q) (hw : ∀ w, .word w ∈ ts → IsWord w) :
    q.WellFormed v := by
  cases h with
  | select hk hs hf hfilter ho hl =>
      obtain ⟨criteria, hcriteria, hread⟩ := bind_eq_ok.mp hread
      -- Neither the bound nor its word is part of what makes a query well formed.
      obtain ⟨limit, -, hread⟩ := bind_eq_ok.mp hread
      obtain rfl := pure_eq_ok.mp hread
      exact {
        select := fun _ => wellFormed_of_selector hs fun w hmem => hw w (by simp [hmem])
        delete := fun hop => by cases hop
        source := wellFormed_of_source hf fun w hmem => hw w (by simp [hmem])
        criteria := wellFormed_of_filter hfilter hcriteria fun w hmem => hw w (by simp [hmem])
        order := wellFormed_of_order ho fun w hmem => hw w (by simp [hmem]) }
  | delete hk hf hfilter hl =>
      obtain ⟨criteria, hcriteria, hread⟩ := bind_eq_ok.mp hread
      obtain ⟨limit, -, hread⟩ := bind_eq_ok.mp hread
      obtain rfl := pure_eq_ok.mp hread
      exact {
        select := fun hop => by cases hop
        delete := fun _ => ⟨rfl, rfl⟩
        source := wellFormed_of_source hf fun w hmem => hw w (by simp [hmem])
        criteria := wellFormed_of_filter hfilter hcriteria fun w hmem => hw w (by simp [hmem])
        order := by simp }

end Grammar

/-- Whatever compiles is well formed. -/
theorem wellFormed_of_compileWith {text : String} {q : Query} (h : compileWith v text = .ok q) :
    q.WellFormed v := by
  obtain ⟨ts, n, d, hts, hd, -, hread⟩ := derives_of_compileWith h
  exact Grammar.wellFormed_of_derives hd hread fun w hw => isWord_of_tokenize hts hw

end RecordQuery
