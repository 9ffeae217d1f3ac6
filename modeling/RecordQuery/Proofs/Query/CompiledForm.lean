/-
  RecordQuery.Proofs.Query.CompiledForm

  What every compiled query has, whatever the vocabulary and the text: parts that fit its operation,
  names that the vocabulary takes for names, and criteria whose negations stay within the nesting
  that the vocabulary allows. Chains of operands make criteria as deep as they are long, so only the
  negations of a path are bounded, not its nodes.
-/

import RecordQuery.Proofs.Query.Number
import RecordQuery.Proofs.Query.WellFormed
import RecordQuery.Proofs.Vocabulary

namespace RecordQuery

variable {v : Vocabulary}

/-! ## Negations on a path -/

/-- The greatest number of negated criteria on a path to a comparison. -/
def Criteria.negations : Criteria → Nat
  | .value _ _ _ | .range _ _ _ | .index _ _ => 0
  | .compound _ left right => max left.negations right.negations
  | .negated criteria => criteria.negations + 1

theorem Condition.negations_foldl_le {op : BoolOp} {n : Nat} {first : Condition}
    {operands : List Condition} (hfirst : first.standIn.negations ≤ n)
    (h : ∀ c ∈ operands, c.standIn.negations ≤ n) :
    (operands.foldl (compound op) first).standIn.negations ≤ n := by
  induction operands generalizing first with
  | nil => exact hfirst
  | cons c cs ih =>
      rw [List.foldl_cons]
      have hc : c.standIn.negations ≤ n := h c List.mem_cons_self
      -- Joining two operands puts none of them behind a further negation.
      exact ih (Nat.max_le.mpr ⟨hfirst, hc⟩) fun d hd => h d (List.mem_cons_of_mem c hd)

namespace Grammar

/-- The conditions that are read from a phrase. -/
def Phrase.conditions : Phrase → List Condition
  | .chain _ c | .operand _ c | .unary c | .atom c => [c]
  | .operands _ cs => cs

theorem negations_of_comparison {ts : List Token} {c : Condition} (h : Comparison v ts c) :
    c.standIn.negations = 0 := by
  cases h with
  | value => rfl
  | range =>
      rw [Condition.standIn]
      split <;> rfl
  | index => rfl

/-- No condition of a phrase has more negations on a path than the phrase nests. -/
theorem negations_of_derives {n : Nat} {ts : List Token} {p : Phrase} (h : Derives v n ts p) :
    ∀ c ∈ p.conditions, c.standIn.negations ≤ n := by
  -- Along the derivation: a `not` counts for both, a parenthesis for the nesting only.
  induction h with
  | @chain m n ts us op first operands _ _ ihfirst ihmore =>
      intro c hc
      obtain rfl := List.mem_singleton.mp hc
      have hfirst : first.standIn.negations ≤ m := ihfirst first List.mem_cons_self
      refine Condition.negations_foldl_le (Nat.le_trans hfirst (Nat.le_max_left m n)) ?_
      intro d hd
      exact Nat.le_trans (ihmore d hd) (Nat.le_max_right m n)
  | noOperands =>
      intro c hc
      exact absurd hc List.not_mem_nil
  | @operands m n k ts us op first operands _ _ _ ihright ihmore =>
      intro c hc
      rcases List.mem_cons.mp hc with rfl | hc
      · exact Nat.le_trans (ihright c List.mem_cons_self) (Nat.le_max_left m n)
      · exact Nat.le_trans (ihmore c hc) (Nat.le_max_right m n)
  | conjunction _ ih => exact ih
  | unary _ ih => exact ih
  | @negation n k ts d _ _ ih =>
      intro c hc
      obtain rfl := List.mem_singleton.mp hc
      have hd : d.standIn.negations ≤ n := ih d List.mem_cons_self
      exact Nat.succ_le_succ hd
  | atom _ ih => exact ih
  | group _ ih =>
      intro c hc
      exact Nat.le_succ_of_le (ih c hc)
  | comparison h =>
      intro c hc
      obtain rfl := List.mem_singleton.mp hc
      exact Nat.le_of_eq (negations_of_comparison h)

theorem negations_of_filter {n : Nat} {ts : List Token} {filter : Option Condition}
    (h : Filter v n ts filter) :
    ∀ criteria ∈ filter.map Condition.standIn, criteria.negations ≤ n := by
  cases h with
  | absent => simp
  | @present _ _ _ c _ hderives =>
      rintro criteria ⟨⟩
      exact negations_of_derives hderives c List.mem_cons_self

theorem negations_of_derivesQuery {n : Nat} {ts : List Token} {d : Draft}
    (h : DerivesQuery v n ts d) : ∀ criteria ∈ d.standIn.criteria, criteria.negations ≤ n := by
  cases h with
  | select _ _ _ hw => exact negations_of_filter hw
  | delete _ _ hw => exact negations_of_filter hw

end Grammar

/-! ## Names of functions -/

theorem isFunctionName_iff {name : String} :
    isFunctionName name = true ↔
      ∃ c cs, name.toList = c :: cs ∧ (Unicode.isAlphabetic c = true ∨ c = '_') ∧
        ∀ d ∈ c :: cs, Unicode.isAlphanumeric d = true ∨ d = '_' := by
  unfold isFunctionName
  split
  next hnil => simp [hnil]
  next c cs hname =>
    rw [hname, Bool.and_eq_true, Bool.or_eq_true, beq_iff_eq, List.all_eq_true]
    constructor
    · rintro ⟨hfirst, hall⟩
      refine ⟨c, cs, rfl, hfirst, fun d hd => ?_⟩
      have hd' := hall d hd
      rwa [Bool.or_eq_true, beq_iff_eq] at hd'
    · rintro ⟨d, ds, hcons, hfirst, hall⟩
      obtain ⟨rfl, rfl⟩ := List.cons.inj hcons
      refine ⟨hfirst, fun d hd => ?_⟩
      rw [Bool.or_eq_true, beq_iff_eq]
      exact hall d hd

/-! ## Compiled queries -/

/-- A compiled query that deletes has the identity selector and does not sort. One that selects has
    a field, several fields, or a function of a field with a name of letters, digits and
    underscores. All its fields and its namespace are names in the vocabulary, and no path of its
    criteria has more negations than the vocabulary lets criteria nest. -/
theorem compiled_query_form (v : Vocabulary) (text : String) (q : Query)
    (h : compileWith v text = .ok q) :
    (q.operation = .delete → q.selector = .identity ∧ q.order = []) ∧
    (q.operation = .select →
      (∃ f, q.selector = .simple f) ∨
      (∃ fs, q.selector = .compound fs ∧ 2 ≤ fs.length) ∨
      ∃ name f, q.selector = .function name f ∧ v.keyword? name = none ∧
        ∃ c cs, name.toList = c :: cs ∧ (Unicode.isAlphabetic c = true ∨ c = '_') ∧
          ∀ d ∈ c :: cs, Unicode.isAlphanumeric d = true ∨ d = '_') ∧
    (q.operation = .select → ∀ f ∈ q.selector.fields, v.isField f = true) ∧
    (∀ name ∈ q.source, v.isNamespace name = true) ∧
    (∀ criteria ∈ q.criteria,
      (∀ f ∈ criteria.fields, v.isField f = true) ∧ criteria.negations ≤ v.maxNesting) ∧
    ∀ spec ∈ q.order, v.isField spec.field = true := by
  have hq : q.WellFormed v := wellFormed_of_compileWith h
  obtain ⟨ts, n, d, -, hd, hn, hread⟩ := derives_of_compileWith h
  have hquery : d.standIn = q := by
    rw [d.read_eq_report, report_eq_ok_iff] at hread
    exact hread.2
  have hnegations : ∀ criteria ∈ q.criteria, criteria.negations ≤ n := by
    rw [← hquery]
    exact Grammar.negations_of_derivesQuery hd
  refine ⟨hq.delete, fun hop => ?_, fun hop => ?_, fun name hname => (hq.source name hname).1,
    fun criteria hc => ⟨fun f hf => (hq.criteria criteria hc f hf).1,
      Nat.le_trans (hnegations criteria hc) hn⟩,
    fun spec hspec => (hq.order spec hspec).1⟩
  · have hselector := hq.select hop
    cases hs : q.selector with
    | simple f => exact .inl ⟨f, rfl⟩
    | compound fs =>
        rw [hs] at hselector
        exact .inr (.inl ⟨fs, rfl, hselector.2⟩)
    | function name f =>
        rw [hs] at hselector
        exact .inr (.inr ⟨name, f, rfl, hselector.1.1, isFunctionName_iff.mp hselector.1.2⟩)
  · have hselector := hq.select hop
    cases hs : q.selector with
    | simple f =>
        rw [hs] at hselector
        intro g hg
        obtain rfl := List.mem_singleton.mp hg
        exact hselector.1
    | compound fs =>
        rw [hs] at hselector
        exact fun g hg => (hselector.1 g hg).1
    | function name f =>
        rw [hs] at hselector
        intro g hg
        obtain rfl := List.mem_singleton.mp hg
        exact hselector.2.1

/-- A text whose criteria nest as deep as two levels allow, both of them negations. -/
def nestedText : String :=
  "select count(*) from images.* where not not a = 'x' and b > 1 order by b desc, a limit 5"

/-- The query of the text. -/
def nestedQuery : Query where
  operation := .select
  source := some "images.*"
  selector := .function "count" "*"
  criteria := some (.compound .and (.negated (.negated (.value "a" .equal "x")))
    (.range "b" .greaterThan 1))
  order := [{ field := "b", written := some .descending }, { field := "a" }]
  limit := some 5

/-- With two levels of nesting the text compiles: its function has a name, and its negations use up
    both levels. -/
theorem compiled_form_of_nestedText :
    compileWith (Vocabulary.standard.withNesting 2) nestedText = .ok nestedQuery ∧
      (∃ name f, nestedQuery.selector = .function name f ∧
        (Vocabulary.standard.withNesting 2).keyword? name = none) ∧
      ∀ criteria ∈ nestedQuery.criteria, criteria.negations = 2 ∧
        criteria.negations ≤ (Vocabulary.standard.withNesting 2).maxNesting := by
  have hcompile : compileWith (Vocabulary.standard.withNesting 2) nestedText = .ok nestedQuery := by
    apply eq_ok_of_toOption
    decide +kernel
  obtain ⟨-, hselector, -, -, hcriteria, -⟩ := compiled_query_form _ nestedText nestedQuery hcompile
  refine ⟨hcompile, ?_, fun criteria hc => ⟨?_, (hcriteria criteria hc).2⟩⟩
  · obtain ⟨f, hf⟩ | ⟨fs, hfs, -⟩ | ⟨name, f, hf, hname, -⟩ := hselector rfl
    · cases hf
    · cases hfs
    · exact ⟨name, f, hf, hname⟩
  · obtain rfl := Option.some.inj hc
    rfl

end RecordQuery
