/-
  RecordQuery.Proofs.Query.Recompiling

  Which compiled queries have a rendering that compiles back to them. Those that nest no deeper
  than the vocabulary allows do. Others are compiled from chains: the operands of one operator stand
  side by side in a text, whatever their number, and their rendering nests as deep as they are many.
-/

import RecordQuery.Proofs.Query.RoundTrip

namespace RecordQuery

/-! ## Chains -/

/-- Words with spaces between them. -/
theorem writes_words {ws : List String} (h : ∀ w ∈ ws, IsWord w) :
    Writes (String.intercalate " " ws) (ws.map .word) := by
  induction ws with
  | nil =>
      intro cs us hcs _
      simpa using hcs
  | cons w ws ih =>
      have hw := writes_word (h w List.mem_cons_self)
      have hrest : ∀ u ∈ ws, IsWord u := fun u hu => h u (List.mem_cons_of_mem w hu)
      cases ws with
      | nil => simpa using hw
      | cons u us =>
          rw [String.intercalate_cons_cons]
          exact hw.append_space.append (ih hrest)

/-- A comparison, and `n` more of the same behind an `and` each. -/
def chainWords (n : Nat) : List String :=
  ["a", "in", "b"] ++ (List.replicate n ["and", "a", "in", "b"]).flatten

/-- A text that selects by a chain of `n + 1` comparisons. -/
def chainText (n : Nat) : String :=
  String.intercalate " " (["select", "*", "where"] ++ chainWords n)

/-- The criteria of the text, whose operands group to the left. -/
def chainCriteria : Nat → Criteria
  | 0 => .index "a" "b"
  | n + 1 => .compound .and (chainCriteria n) (.index "a" "b")

/-- The query of the text. -/
def chainQuery (n : Nat) : Query :=
  { operation := .select, selector := .simple "*", criteria := some (chainCriteria n) }

theorem nesting_chainCriteria (n : Nat) : (chainCriteria n).nesting = n := by
  induction n with
  | zero => rfl
  | succ n ih =>
      rw [chainCriteria, Criteria.nesting, ih]
      exact congrArg (· + 1) (Nat.max_zero n)

theorem written_chainCriteria (n : Nat) :
    (chainCriteria n).written =
      (List.replicate n (.index "a" "b")).foldl (.compound .and) (.index "a" "b") := by
  induction n with
  | zero => rfl
  | succ n ih =>
      rw [List.replicate_succ', List.foldl_append, ← ih]
      rfl

theorem isWord_of_mem_chainText {n : Nat} {w : String}
    (h : w ∈ ["select", "*", "where"] ++ chainWords n) : IsWord w := by
  simp only [chainWords, List.mem_append, List.mem_flatten, List.mem_replicate, List.mem_cons,
    List.not_mem_nil, or_false] at h
  rcases h with (rfl | rfl | rfl) | (rfl | rfl | rfl) | ⟨l, ⟨-, rfl⟩, h⟩
  · decide
  · decide
  · decide
  · decide
  · decide
  · decide
  · simp only [List.mem_cons, List.not_mem_nil, or_false] at h
    rcases h with rfl | rfl | rfl | rfl <;> decide

theorem derives_chainWords (n : Nat) :
    Grammar.Derives .standard 0 ((chainWords n).map .word) (.chain .and (chainCriteria n).written)
    := by
  have hv := Vocabulary.speltByName_standard
  have hfield : Vocabulary.standard.isField "a" = true := rfl
  have hword : Vocabulary.standard.keyword? "b" = none := rfl
  have hcomparison : Grammar.Derives .standard 0 (["a", "in", "b"].map .word)
      (.operand .and (.index "a" "b")) :=
    .unary (.atom (.comparison (.index hfield (Grammar.spells_name hv .member) (.bare hword))))
  -- All operands but the first stand behind an `and`, and none of them nests.
  have hmore : Grammar.Derives .standard 0
      ((List.replicate n ["and", "a", "in", "b"]).flatten.map .word)
      (.operands .and (List.replicate n (.index "a" "b"))) := by
    induction n with
    | zero => exact .noOperands
    | succ n ih =>
        rw [List.replicate_succ, List.replicate_succ, List.flatten_cons, List.map_append]
        exact .operands (Grammar.spells_name hv .and) hcomparison ih
  rw [written_chainCriteria, chainWords, List.map_append]
  exact .chain hcomparison hmore

/-- A chain compiles whatever its length: no parenthesis of the text is open anywhere. -/
theorem compile_chainText (n : Nat) : compile (chainText n) = .ok (chainQuery n) := by
  have hv := Vocabulary.speltByName_standard
  have hfield : Vocabulary.standard.isField "*" = true := rfl
  have hfilter : Grammar.Filter .standard 0 (.word "where" :: (chainWords n).map .word)
      (some (chainCriteria n).written) :=
    .present (Grammar.spells_name hv .filter) (derives_chainWords n).disjunction_of_chain
  have hderives := Grammar.DerivesQuery.select (Grammar.spells_name hv .select)
    (.simple hfield) .absent hfilter .absent .absent
  have htokens : tokenize (chainText n) = .ok (_ ++ [.endOfText]) :=
    tokenize_of_writes (writes_words fun _ => isWord_of_mem_chainText)
  have hread : Draft.readFilter (some (chainCriteria n).written) = .ok (some (chainCriteria n)) :=
    Query.readFilter_written (some (chainCriteria n))
  rw [List.append_nil, List.append_nil] at hderives
  rw [compile, compileWith_of_derives htokens hderives (Nat.zero_le _), mapError_eq_ok, Draft.read,
    bind_of_ok _ hread]
  rfl

/-! ## Recompiling -/

/-- The rendering of a compiled query compiles to the query exactly if no more than 256 compound
    and negated criteria are on a path; otherwise it is refused for its nesting. -/
theorem recompiles_iff_nesting_le (text : String) (q : Query) (h : compile text = .ok q) :
    (compile q.render = .ok q ↔ q.nesting ≤ 256) ∧
      (256 < q.nesting →
        ∃ p, compile q.render = .error (.malformed (.nestingTooDeep 256 p))) := by
  have hv := Vocabulary.speltByName_standard
  have hq : q.WellFormed .standard := wellFormed_of_compileWith h
  have hdeep : 256 < q.nesting →
      ∃ p, compile q.render = .error (.malformed (.nestingTooDeep 256 p)) :=
    compileWith_render_tooDeep hv hq
  refine ⟨⟨fun hok => ?_, compileWith_render hv hq⟩, hdeep⟩
  -- If the query nested deeper, its rendering would be refused.
  by_contra hn
  obtain ⟨p, hp⟩ := hdeep (by omega)
  rw [hp] at hok
  cases hok

/-- Two comparisons with an `and` between them recompile. -/
theorem recompiles_short_chain :
    compile (chainText 1) = .ok (chainQuery 1) ∧
      compile (chainQuery 1).render = .ok (chainQuery 1) := by
  have h := recompiles_iff_nesting_le (chainText 1) (chainQuery 1) (compile_chainText 1)
  exact ⟨compile_chainText 1, h.1.mpr (by decide)⟩

/-- A chain of 258 comparisons compiles, and its rendering does not. -/
theorem long_chain_not_recompiles :
    compile (chainText 257) = .ok (chainQuery 257) ∧
      compile (chainQuery 257).render ≠ .ok (chainQuery 257) := by
  have hcompile := compile_chainText 257
  refine ⟨hcompile, fun hok => ?_⟩
  -- Two parentheses for three operands, and so on: 257 for 258.
  have hdeep : 256 < (chainQuery 257).nesting := by
    show 256 < (chainCriteria 257).nesting
    rw [nesting_chainCriteria]
    decide
  obtain ⟨p, hp⟩ := compileWith_render_tooDeep Vocabulary.speltByName_standard
    (wellFormed_of_compileWith hcompile) hdeep
  rw [compile, hp] at hok
  cases hok

end RecordQuery
