/-
  RecordQuery.Proofs.Grammar.Composition

  From the moves to the recognizer. A property of productions that the moves have, and a sequence
  together with its parts, is one that every production has: the recognizer asks about tokens and
  moves behind them, and does nothing else with a cursor.
-/

import RecordQuery.Proofs.Grammar.Production

namespace RecordQuery

/-- What makes `Q` a property of all productions, at the cursors with the property `I`. -/
structure Composes (v : Vocabulary) (I : Cursor → Prop)
    (Q : {α : Type} → Production α → Cursor → Prop) : Prop where
  enter {c : Cursor} (hc : I c) : I c.enter
  pure {α : Type} {c : Cursor} (hc : I c) (a : α) : Q (pure a) c
  bind {α β : Type} {P : Production α} {F : α → Production β} {c : Cursor} (hP : Q P c)
    (hF : ∀ a d, P c = .ok (a, d) → I d → Q (F a) d) : Q (P >>= F) c
  look {α : Type} {c : Cursor} (hc : I c) (f : Token → α) : Q (Production.look f) c
  skip {c : Cursor} (hc : I c) (ht : c.token ≠ .endOfText) : Q Production.skip c
  refuse {α : Type} {c : Cursor} (hc : I c) (e : Expectation) :
    Q (Production.refuse e : Production α) c
  checkRoom {c : Cursor} (hc : I c) (ht : c.token ≠ .endOfText) : Q (Production.checkRoom v) c
  judged {c : Cursor} {e : Expectation} (judge : String → Token → Option NameFault)
    (hc : I c) (hread : Q (Production.demand (Token.name? v) e) c) :
    Q (Production.named v e judge) c
  deeper {α : Type} {P : Production α} {c : Cursor} (hP : Q P c.enter) :
    Q (Production.deeper P) c

namespace Composes

open Production

variable {v : Vocabulary} {I : Cursor → Prop} {Q : {α : Type} → Production α → Cursor → Prop}
  (h : Composes v I @Q) {α : Type} {c : Cursor}

include h

/-! ## Moves -/

/-- To accept a token is to look at it and perhaps to skip it. -/
theorem accept (hc : I c) {f : Token → Option α} (hend : f .endOfText = none) :
    Q (accept f) c := by
  refine h.bind (h.look hc f) fun o d ho hd => ?_
  obtain ⟨rfl, rfl⟩ := Prod.mk.inj (Except.ok.inj ho)
  cases hf : f c.token with
  | none => exact h.pure hd none
  | some a =>
      have ht : c.token ≠ .endOfText := fun ht => by simp [ht, hend] at hf
      exact h.bind (h.skip hd ht) fun _ e _ he => h.pure he (some a)

/-- To demand a token is to accept it or to refuse. -/
theorem demand (hc : I c) {f : Token → Option α} (hend : f .endOfText = none) (e : Expectation) :
    Q (demand f e) c :=
  h.bind (h.accept hc hend) fun
    | some a, _, _, hd => h.pure hd a
    | none, _, _, hd => h.refuse hd e

/-- To descend is to look at the limit and to skip. -/
theorem descend (hc : I c) {f : Token → Option Unit} (hend : f .endOfText = none) :
    Q (descend v f) c := by
  refine h.bind (h.look hc f) fun o d ho hd => ?_
  obtain ⟨rfl, rfl⟩ := Prod.mk.inj (Except.ok.inj ho)
  cases hf : f c.token with
  | none => exact h.pure hd none
  | some _ =>
      have ht : c.token ≠ .endOfText := fun ht => by simp [ht, hend] at hf
      refine h.bind (h.checkRoom hd ht) fun _ e hroom he => ?_
      obtain rfl : c = e := by
        obtain ⟨u, -, hu⟩ := map_eq_ok.mp hroom
        exact (Prod.mk.inj hu).2
      exact h.bind (h.skip he ht) fun _ _ _ hf => h.pure hf _

theorem named (hc : I c) (e : Expectation) (judge : String → Token → Option NameFault) :
    Q (named v e judge) c :=
  h.judged judge hc (h.demand hc rfl e)

/-- A literal is accepted as a string or demanded as a name. -/
theorem literal (hc : I c) : Q (of fun c => c.literal v) c := by
  rw [of_literal]
  exact h.bind (h.accept hc rfl) fun
    | some content, _, _, hd => h.pure hd content
    | none, _, _, hd => h.demand hd rfl _

/-! ## Criteria -/

theorem comparison (hc : I c) : Q (of (Grammar.comparison v)) c := by
  rw [of_comparison]
  refine h.bind (h.named hc _ _) fun name d _ hd => ?_
  refine h.bind (h.accept hd rfl) fun
    | some op, m, _, hm => ?_
    | none, m, _, hm => ?_
  · exact h.bind (h.literal hm) fun text _ _ he => h.pure he _
  · refine h.bind (h.accept hm rfl) fun
      | some op, l, _, hl => ?_
      | none, l, _, hl => ?_
    · exact h.bind (h.demand hl rfl _) fun w _ _ he => h.pure he _
    · refine h.bind (h.accept hl rfl) fun
        | some _, k, _, hk => ?_
        | none, k, _, hk => h.refuse hk _
      exact h.bind (h.literal hk) fun text _ _ he => h.pure he _

/-- The four productions of criteria call each other. The induction follows the calls of the
    recognizer. -/
theorem criteria :
    (∀ op c, I c → Q (of (Grammar.chain v op)) c) ∧
      (∀ op c, I c → Q (of (Grammar.operands v op)) c) ∧
      (∀ c, I c → Q (of (Grammar.unary v)) c) ∧ ∀ c, I c → Q (of (Grammar.atom v)) c := by
  refine Grammar.recognizer_induct v ?chain ?operands ?negation ?unary ?group ?comparison
  case chain =>
    intro op c hfirst hmore hc
    have hoperand : Q (of (Grammar.operand v op)) c := by
      cases op <;> exact hfirst hc
    rw [of_chain]
    refine h.bind hoperand fun first d hd hI => ?_
    obtain ⟨p, -, -, rfl⟩ := of_eq_ok.mp hd
    exact h.bind (hmore p hI) fun more _ _ he => h.pure he _
  case operands =>
    intro op c hright hmore hc
    rw [of_operands]
    refine h.bind (h.accept hc rfl) fun
      | none, d, _, hI => h.pure hI _
      | some (), d, hd, hI => ?_
    obtain ⟨b, rfl⟩ := parsed_of_passes (passes_of_accept rfl hd)
    have hoperand : Q (of (Grammar.operand v op)) b.rest := by
      cases op <;> exact hright b hI
    refine h.bind hoperand fun right e he hJ => ?_
    obtain ⟨p, -, -, rfl⟩ := of_eq_ok.mp he
    exact h.bind (hmore b p hJ) fun more _ _ hf => h.pure hf _
  case negation =>
    intro c hnot hoperand hc
    have hspelt : spelt v .not c.token = some () := spelt_eq_some_iff.mpr (keyword?_eq c ▸ hnot)
    rw [of_unary]
    refine h.bind (h.descend hc rfl) fun
      | some (), d, hd, hI => ?_
      | none, d, hd, hI => ?_
    · obtain ⟨b, rfl⟩ := parsed_of_passes (passes_of_descend rfl hd).2
      exact h.bind (h.deeper (hoperand b (h.enter hI))) fun operand _ _ he => h.pure he _
    · cases hspelt.symm.trans (eq_of_descend hd).1
  case unary =>
    intro c hnot hatom hc
    rw [of_unary]
    refine h.bind (h.descend hc rfl) fun
      | some (), d, hd, hI => ?_
      | none, d, hd, hI => ?_
    · have hspelt := spelt_eq_some_iff.mp (passes_of_descend rfl hd).1
      exact absurd (keyword?_eq c ▸ hspelt) hnot
    · rw [(eq_of_descend hd).2]
      exact hatom hc
  case group =>
    intro c hopen hinside hc
    rw [of_atom]
    refine h.bind (h.descend hc rfl) fun
      | some (), d, hd, hI => ?_
      | none, d, hd, hI => ?_
    · obtain ⟨b, rfl⟩ := parsed_of_passes (passes_of_descend rfl hd).2
      refine h.deeper (h.bind (hinside b (h.enter hI)) fun inside e _ he => ?_)
      exact h.bind (h.demand he rfl _) fun _ _ _ hf => h.pure hf _
    · cases (exactly_eq_some_iff.mpr hopen).symm.trans (eq_of_descend hd).1
  case comparison =>
    intro c hopen hc
    rw [of_atom]
    refine h.bind (h.descend hc rfl) fun
      | some (), d, hd, hI => ?_
      | none, d, hd, hI => ?_
    · exact absurd (exactly_eq_some_iff.mp (passes_of_descend rfl hd).1) hopen
    · exact h.comparison hI

/-! ## Selectors and clauses -/

theorem moreFields (c : Cursor) (hc : I c) : Q (of (Grammar.moreFields v)) c := by
  rw [of_moreFields]
  refine h.bind (h.accept hc rfl) fun
    | some (), d, hd, hI => ?_
    | none, d, _, hI => h.pure hI _
  have hcomma := size_lt_of_passes (passes_of_accept rfl hd)
  refine h.bind (h.named hI _ _) fun name e he hJ => ?_
  have hname := size_lt_of_passes (named_eq_ok_iff.mp he).2.1
  exact h.bind (moreFields e hJ) fun more _ _ hf => h.pure hf _
termination_by c.size
decreasing_by omega

theorem selector (hc : I c) : Q (Grammar.selector v) c := by
  rw [selector_eq]
  refine h.bind (h.named hc _ _) fun first d _ hd => ?_
  refine h.bind (h.accept hd rfl) fun
    | some (), e, _, he => ?_
    | none, e, _, he => ?_
  · refine h.bind (h.named he _ _) fun argument f _ hf => ?_
    exact h.bind (h.demand hf rfl _) fun _ _ _ hg => h.pure hg _
  · exact h.bind (h.moreFields e he) fun more _ _ hf => h.pure hf _

theorem sourceClause (hc : I c) : Q (Grammar.sourceClause v) c := by
  rw [sourceClause_eq]
  refine h.bind (h.accept hc rfl) fun
    | none, d, _, hd => h.pure hd _
    | some (), d, _, hd => ?_
  exact h.bind (h.named hd _ _) fun name _ _ he => h.pure he _

theorem filterClause (hc : I c) : Q (Grammar.filterClause v) c := by
  rw [filterClause_eq]
  refine h.bind (h.accept hc rfl) fun
    | none, d, _, hd => h.pure hd _
    | some (), d, _, hd => ?_
  exact h.bind (h.criteria.1 .or d hd) fun _ _ _ he => h.pure he _

theorem direction (hc : I c) : Q (of (Grammar.direction v)) c := by
  rw [of_direction]
  refine h.bind (h.accept hc rfl) fun
    | some (), d, _, hd => h.pure hd _
    | none, d, _, hd => ?_
  exact h.bind (h.accept hd rfl) fun
    | some (), e, _, he => h.pure he _
    | none, e, _, he => h.pure he _

theorem orderItems (c : Cursor) (hc : I c) : Q (of (Grammar.orderItems v)) c := by
  rw [of_orderItems]
  refine h.bind (h.named hc _ _) fun name d hd hI => ?_
  have hname := size_lt_of_passes (named_eq_ok_iff.mp hd).2.1
  refine h.bind (h.direction hI) fun written e he hJ => ?_
  obtain ⟨p, -, -, rfl⟩ := of_eq_ok.mp he
  have hwritten := p.shorter
  refine h.bind (h.accept hJ rfl) fun
    | some (), f, hf, hK => ?_
    | none, f, _, hK => h.pure hK _
  have hcomma := size_lt_of_passes (passes_of_accept rfl hf)
  exact h.bind (orderItems f hK) fun more _ _ hg => h.pure hg _
termination_by c.size
decreasing_by
  simp only [Cursor.size] at *
  omega

theorem orderClause (hc : I c) : Q (Grammar.orderClause v) c := by
  rw [orderClause_eq]
  refine h.bind (h.accept hc rfl) fun
    | none, d, _, hd => h.pure hd _
    | some (), d, _, hd => ?_
  refine h.bind (h.demand hd rfl _) fun _ e _ he => ?_
  exact h.bind (h.orderItems e he) fun items _ _ hf => h.pure hf _

theorem limitClause (hc : I c) : Q (Grammar.limitClause v) c := by
  rw [limitClause_eq]
  refine h.bind (h.accept hc rfl) fun
    | none, d, _, hd => h.pure hd _
    | some (), d, _, hd => ?_
  exact h.bind (h.demand hd rfl _) fun w _ _ he => h.pure he _

/-! ## Queries -/

theorem selectTail (hc : I c) : Q (Grammar.selectTail v) c := by
  rw [selectTail_eq]
  refine h.bind (h.selector hc) fun _ _ _ h₁ => ?_
  refine h.bind (h.sourceClause h₁) fun _ _ _ h₂ => ?_
  refine h.bind (h.filterClause h₂) fun _ _ _ h₃ => ?_
  refine h.bind (h.orderClause h₃) fun _ _ _ h₄ => ?_
  exact h.bind (h.limitClause h₄) fun _ _ _ h₅ => h.pure h₅ _

theorem deleteTail (hc : I c) : Q (Grammar.deleteTail v) c := by
  rw [deleteTail_eq]
  refine h.bind (h.sourceClause hc) fun _ _ _ h₁ => ?_
  refine h.bind (h.filterClause h₁) fun _ _ _ h₂ => ?_
  exact h.bind (h.limitClause h₂) fun _ _ _ h₃ => h.pure h₃ _

theorem atEnd (hc : I c) (actions : List Action) : Q (Production.atEnd actions) c :=
  h.bind (h.look hc _) fun
    | some (), _, _, hd => h.pure hd _
    | none, _, _, hd => h.refuse hd _

/-- What holds of every move, and of every sequence of what it holds of, holds of queries. -/
theorem query (hc : I c) : Q (Production.query v) c := by
  refine h.bind (h.accept hc rfl) fun
    | some (), d, _, hd => ?_
    | none, d, _, hd => ?_
  · exact h.bind (h.selectTail hd) fun _ _ _ he => h.atEnd he _
  · refine h.bind (h.accept hd rfl) fun
      | some (), e, _, he => ?_
      | none, e, _, he => h.refuse he _
    exact h.bind (h.deleteTail he) fun _ _ _ hf => h.atEnd hf _

end Composes

end RecordQuery
