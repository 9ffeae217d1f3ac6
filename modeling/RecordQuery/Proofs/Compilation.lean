/-
  RecordQuery.Proofs.Compilation

  What compiling a text comes to. The actions that are recognized in a text always fit together, so
  compiling fails only for the text itself or for one of its numerals; and what the actions build
  is the query that the grammar reads off the tokens.
-/

import RecordQuery.Proofs.Assembly.Replay
import RecordQuery.Proofs.Grammar.Acceptance

namespace RecordQuery

variable {v : Vocabulary} {text : String}

theorem compileWith_of_error {e : SyntaxError} (h : recognize v text = .error e) :
    compileWith v text = .error (.malformed e) := by
  rw [compileWith, h]

/-- Compiling a derived text reads its draft. -/
theorem compileWith_of_derives {ts : List Token} {n : Nat} {d : Draft}
    (hts : tokenize text = .ok (ts ++ [.endOfText])) (hd : Grammar.DerivesQuery v n ts d)
    (hn : n ≤ v.maxNesting) : compileWith v text = d.read.mapError .badValue := by
  have h : recognize v text = .ok d.actions :=
    recognize_eq_ok_iff.mpr ⟨ts, n, d, hts, hd, hn, rfl⟩
  rw [compileWith, h]
  dsimp only
  rw [assemble_actions]
  cases d.read <;> rfl

/-- Compiling a text that nests too deep fails for that reason. -/
theorem compileWith_tooDeep {ts : List Token} {n : Nat} {d : Draft}
    (hts : tokenize text = .ok (ts ++ [.endOfText])) (hd : Grammar.DerivesQuery v n ts d)
    (hn : v.maxNesting < n) :
    ∃ p, compileWith v text = .error (.malformed (.nestingTooDeep v.maxNesting p)) := by
  obtain ⟨p, hp⟩ := recognize_tooDeep hts hd hn
  exact ⟨p, compileWith_of_error hp⟩

/-- What compiles is derived, and reads to the query. -/
theorem derives_of_compileWith {q : Query} (h : compileWith v text = .ok q) :
    ∃ ts n d, tokenize text = .ok (ts ++ [.endOfText]) ∧ Grammar.DerivesQuery v n ts d ∧
      n ≤ v.maxNesting ∧ d.read = .ok q := by
  cases hr : recognize v text with
  | error e =>
      rw [compileWith_of_error hr] at h
      cases h
  | ok actions =>
      obtain ⟨ts, n, d, hts, hd, hn, -⟩ := recognize_eq_ok_iff.mp hr
      rw [compileWith_of_derives hts hd hn, mapError_eq_ok] at h
      exact ⟨ts, n, d, hts, hd, hn, h⟩

/-- Recognized actions run to the end on an empty stack, and the query is finished or waits for a
    numeral; a text is malformed exactly if it is not recognized. -/
theorem compileWith_never_broken (v : Vocabulary) (text : String) :
    (∀ actions, recognize v text = .ok actions →
      ∃ a r, ({} : Assembly).run actions = .ok a ∧ a.finish = .ok r ∧
        compileWith v text = r.mapError .badValue) ∧
    ∀ e, compileWith v text = .error (.malformed e) ↔ recognize v text = .error e := by
  have hruns : ∀ actions, recognize v text = .ok actions →
      ∃ a r, ({} : Assembly).run actions = .ok a ∧ a.finish = .ok r ∧
        compileWith v text = r.mapError .badValue := by
    intro actions h
    obtain ⟨ts, n, d, hts, hd, hn, rfl⟩ := recognize_eq_ok_iff.mp h
    exact ⟨Assembly.ofDraft d, d.read, Assembly.run_actions d, Assembly.finish_ofDraft d,
      compileWith_of_derives hts hd hn⟩
  refine ⟨hruns, fun e => ⟨fun h => ?_, compileWith_of_error⟩⟩
  cases hr : recognize v text with
  | error e' =>
      rw [compileWith_of_error hr] at h
      cases h
      rfl
  | ok actions =>
      -- Recognized actions end in a query or in a bad value.
      obtain ⟨a, r, -, -, hcompile⟩ := hruns actions hr
      rw [hcompile] at h
      cases r <;> cases h

/-- A text compiles to the query that the grammar reads off its tokens, in whatever way it derives
    them. -/
theorem compileWith_eq_ok_iff_derives (v : Vocabulary) (text : String) (q : Query) :
    compileWith v text = .ok q ↔
      ∃ ts, tokenize text = .ok (ts ++ [.endOfText]) ∧
        (∃ n d, Grammar.DerivesQuery v n ts d ∧ n ≤ v.maxNesting) ∧
        ∀ n d, Grammar.DerivesQuery v n ts d → d.read = .ok q := by
  constructor
  · intro h
    obtain ⟨ts, n, d, hts, hd, hn, -⟩ := derives_of_compileWith h
    refine ⟨ts, hts, ⟨n, d, hd, hn⟩, fun m d' hd' => ?_⟩
    by_cases hm : m ≤ v.maxNesting
    · rw [compileWith_of_derives hts hd' hm, mapError_eq_ok] at h
      exact h
    -- A derivation that nests too deep would have the text refused.
    · obtain ⟨p, hp⟩ := compileWith_tooDeep hts hd' (by omega)
      rw [hp] at h
      cases h
  · rintro ⟨ts, hts, ⟨n, d, hd, hn⟩, hread⟩
    rw [compileWith_of_derives hts hd hn, mapError_eq_ok]
    exact hread n d hd

end RecordQuery
