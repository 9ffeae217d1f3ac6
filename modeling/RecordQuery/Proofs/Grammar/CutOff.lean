/-
  RecordQuery.Proofs.Grammar.CutOff

  What a limit on nesting does to a run. With more room a run is the same, or the run with less room
  is cut off: it stops for its nesting in front of a token that the other run moves behind, and
  whatever the other run ends with is found behind that token. So a limit never changes what is read
  or which error is found; it only lets a run end too early.
-/

import RecordQuery.Proofs.Grammar.TooDeep

namespace RecordQuery

open Production

variable {α β : Type} {v : Vocabulary} {n : UInt64} {c d : Cursor} {k : Nat}

/-! ## Where a run ends -/

/-- What a run from `c` ends with is found behind at least `k` tokens. Nothing is said of a run that
    stops for its nesting. -/
structure EndsBehind (k : Nat) (c : Cursor) (r : Except SyntaxError (α × Cursor)) : Prop where
  ok {a : α} {d : Cursor} (h : r = .ok (a, d)) : ∃ ts, c.Passes ts d ∧ k ≤ ts.length
  error {e : SyntaxError} (h : r = .error e) (hkind : e.kind ≠ .nestingTooDeep) :
    (∃ l, e = .lexical l ∧ c.ending = .error l) ∨
      ∃ ts d, c.Passes ts d ∧ k ≤ ts.length ∧ e.position = d.position

namespace EndsBehind

/-- A run that looks at the classes of tokens only ends behind where it starts. -/
theorem of_follows {P : Production α} (h : Follows v v P P c) : EndsBehind 0 c (P c) where
  ok h' := by
    obtain ⟨ts, hp, -⟩ := h.ok h'
    exact ⟨ts, hp, Nat.zero_le _⟩
  error h' _ := by
    refine (h.error h').imp_right fun ⟨ts, d, m, hp, _, hshows, _⟩ => ?_
    exact ⟨ts, d, hp, Nat.zero_le _, hshows.position_eq⟩

/-- Behind many tokens is behind fewer. -/
theorem mono {j : Nat} {r : Except SyntaxError (α × Cursor)} (h : EndsBehind k c r)
    (hj : j ≤ k) : EndsBehind j c r where
  ok h' := by
    obtain ⟨ts, hp, hk⟩ := h.ok h'
    exact ⟨ts, hp, Nat.le_trans hj hk⟩
  error h' hkind := by
    refine (h.error h' hkind).imp_right fun ⟨ts, d, hp, hk, hpos⟩ => ?_
    exact ⟨ts, d, hp, Nat.le_trans hj hk, hpos⟩

/-- A run from behind some tokens, seen from in front of them. -/
theorem behind {ts : List Token} {r : Except SyntaxError (α × Cursor)} (h : EndsBehind k d r)
    (hp : c.Passes ts d) : EndsBehind (ts.length + k) c r where
  ok h' := by
    obtain ⟨us, hus, hk⟩ := h.ok h'
    exact ⟨ts ++ us, hp.trans hus, by rw [List.length_append]; omega⟩
  error h' hkind := by
    rw [← hp.ending]
    refine (h.error h' hkind).imp_right fun ⟨us, m, hus, hk, hpos⟩ => ?_
    exact ⟨ts ++ us, m, hp.trans hus, by rw [List.length_append]; omega, hpos⟩

/-- An error is found where it is found, whatever should have been read. -/
theorem of_error {e : SyntaxError} (h : EndsBehind k c (.error e : Except _ (α × Cursor))) :
    EndsBehind k c (.error e : Except _ (β × Cursor)) where
  ok h' := by cases h'
  error h' hkind := by
    obtain rfl := Except.error.inj h'
    exact h.error rfl hkind

/-- A sequence ends behind its first part, wherever the second one ends. -/
theorem bind {P : Production α} {F : α → Production β} (hP : EndsBehind k c (P c))
    (hF : ∀ a d, P c = .ok (a, d) → d.Settled → EndsBehind 0 d (F a d)) :
    EndsBehind k c ((P >>= F) c) := by
  cases h : P c with
  | error e =>
      rw [bind_apply, bind_of_error _ h]
      exact (h ▸ hP).of_error
  | ok p =>
      obtain ⟨ts, hp, hk⟩ := hP.ok h
      rw [bind_apply, bind_of_ok _ h]
      exact ((hF p.1 p.2 h hp.settled).behind hp).mono (Nat.le_add_right_of_le hk)

theorem deeper {P : Production α} (h : EndsBehind k c.enter (P c.enter)) :
    EndsBehind k c (deeper P c) where
  ok h' := by
    obtain ⟨⟨b, e⟩, hb, heq⟩ := map_eq_ok.mp h'
    obtain ⟨rfl, rfl⟩ := Prod.mk.inj heq
    obtain ⟨ts, hp, hk⟩ := h.ok hb
    exact ⟨ts, hp.leave, hk⟩
  error h' hkind := by
    refine (h.error (map_eq_error.mp h') hkind).imp_right fun ⟨ts, e, hp, hk, hpos⟩ => ?_
    exact ⟨ts, e.leave, hp.leave, hk, hpos⟩

/-- What opens a level is passed, unless there is no room for the level. -/
theorem descend {f : Token → Option Unit} (hend : f .endOfText = none)
    (hf : f c.token = some ()) : EndsBehind 1 c (descend v f c) where
  ok {a d} h := by
    cases a with
    | none => cases hf.symm.trans (eq_of_descend h).1
    | some u => exact ⟨_, (passes_of_descend hend h).2, Nat.le_refl _⟩
  error h hkind := by
    rw [descend_of_some hf, map_eq_error] at h
    obtain h | ⟨_, -, h⟩ := bind_eq_error.mp h
    · rw [checkRoom, map_eq_error, Cursor.checkNesting] at h
      split at h
      next =>
        obtain rfl := Except.error.inj h
        exact absurd rfl hkind
      next => cases h
    · exact .inl (lexical_of_skip h)

end EndsBehind

/-! ## Cut off runs -/

/-- A run from `c` with less room, and one with more: they are the same, or the first is cut off in
    front of a token that the second moves behind. -/
inductive CutOff (v : Vocabulary) (c : Cursor) (r r' : Except SyntaxError (α × Cursor)) : Prop
  | same (heq : r = r') (h : EndsBehind 0 c r')
  | cut {ts : List Token} {d : Cursor} (hp : c.Passes ts d)
      (hr : r = .error (.nestingTooDeep v.maxNesting d.position))
      (h : EndsBehind (ts.length + 1) c r')

namespace CutOff

/-- The run with more room ends behind where both start. -/
theorem endsBehind {r r' : Except SyntaxError (α × Cursor)} (h : CutOff v c r r') :
    EndsBehind 0 c r' := by
  cases h with
  | same _ h => exact h
  | cut _ _ h => exact h.mono (Nat.zero_le _)

/-- What asks for no room runs alike. -/
theorem of_follows {P P' : Production α} (h : Follows v v P P c) (heq : P c = P' c) :
    CutOff v c (P c) (P' c) :=
  .same heq (heq ▸ .of_follows h)

/-- A run without tokens is not cut off. -/
theorem pure (hs : c.Settled) (a : α) :
    CutOff v c ((pure a : Production α) c) ((Pure.pure a : Production α) c) :=
  of_follows (Follows.pure hs a) rfl

theorem accept (hs : c.Settled) (k : Keyword) :
    CutOff v c (accept (spelt v k) c) (Production.accept (spelt (v.withNesting n) k) c) :=
  of_follows (Follows.accept hs (respects_spelt k) rfl) rfl

/-- A run that is cut off behind some tokens is cut off in front of them. -/
theorem behind {ts : List Token} {r r' : Except SyntaxError (α × Cursor)} (h : CutOff v d r r')
    (hp : c.Passes ts d) : CutOff v c r r' := by
  cases h with
  | same heq h => exact .same heq ((h.behind hp).mono (Nat.zero_le _))
  | cut hp' hr h =>
      refine .cut (hp.trans hp') hr ((h.behind hp).mono ?_)
      rw [List.length_append, Nat.add_assoc]

/-- A sequence is cut off where its first part is, or where its second one is after the same start.
    -/
theorem bind {P P' : Production α} {F F' : α → Production β} (hP : CutOff v c (P c) (P' c))
    (hF : ∀ a d, P' c = .ok (a, d) → d.Settled → CutOff v d (F a d) (F' a d)) :
    CutOff v c ((P >>= F) c) ((P' >>= F') c) := by
  cases hP with
  | same heq hends =>
      rw [bind_apply, bind_apply, heq]
      cases h : P' c with
      | error e => exact .same rfl (h ▸ hends).of_error
      | ok p =>
          obtain ⟨ts, hp, -⟩ := hends.ok h
          exact (hF p.1 p.2 h hp.settled).behind hp
  | cut hp hr hends =>
      -- The first run is cut off before it gets to what follows.
      refine .cut hp (bind_of_error _ hr) (hends.bind fun a d h hd => ?_)
      exact (hF a d h hd).endsBehind

/-- Where there is no room for a level the first run is cut off, and the second one passes the token
    that opens it. -/
theorem descend (hn : v.maxNesting ≤ n.toNat) (hs : c.Settled) {f : Token → Option Unit}
    (hend : f .endOfText = none) :
    CutOff v c (descend v f c) (Production.descend (v.withNesting n) f c) := by
  cases ho : f c.token with
  | none =>
      rw [descend_of_none ho, descend_of_none ho]
      exact pure hs none
  | some u =>
      have hends : EndsBehind 1 c (Production.descend (v.withNesting n) f c) := .descend hend ho
      by_cases hroom : c.depth < v.maxNesting
      · have hcheck : c.checkNesting v = .ok () := Cursor.checkNesting_eq_ok_iff.mpr hroom
        have hcheck' : c.checkNesting (v.withNesting n) = .ok () :=
          Cursor.checkNesting_eq_ok_iff.mpr (Nat.lt_of_lt_of_le hroom hn)
        refine .same ?_ (hends.mono (Nat.zero_le _))
        rw [descend_of_some ho, descend_of_some ho, checkRoom, checkRoom, hcheck, hcheck']
      · have hcheck := Cursor.checkNesting_of_le (Nat.not_lt.mp hroom)
        refine .cut (.refl hs) ?_ hends
        rw [descend_of_some ho, checkRoom, hcheck]
        rfl

theorem deeper {P P' : Production α} (h : CutOff v c.enter (P c.enter) (P' c.enter)) :
    CutOff v c (deeper P c) (Production.deeper P' c) := by
  cases h with
  | same heq hends => exact .same (congrArg _ heq) hends.deeper
  | cut hp hr hends => exact .cut hp.leave (map_eq_error.mpr hr) hends.deeper

/-! ### Productions -/

variable (hn : v.maxNesting ≤ n.toNat)
include hn

/-- Only where a level is opened do the two runs of a phrase differ, and from there the second has
    moved on. -/
theorem criteria :
    (∀ op c, c.Settled →
      CutOff v c (of (Grammar.chain v op) c) (of (Grammar.chain (v.withNesting n) op) c)) ∧
    (∀ op c, c.Settled →
      CutOff v c (of (Grammar.operands v op) c) (of (Grammar.operands (v.withNesting n) op) c)) ∧
    (∀ c, c.Settled →
      CutOff v c (of (Grammar.unary v) c) (of (Grammar.unary (v.withNesting n)) c)) ∧
    ∀ c, c.Settled →
      CutOff v c (of (Grammar.atom v) c) (of (Grammar.atom (v.withNesting n)) c) := by
  refine Grammar.recognizer_induct v ?chain ?operands ?negation ?unary ?group ?comparison
  case chain =>
    intro op c hfirst hmore hs
    have hoperand : CutOff v c (of (Grammar.operand v op) c)
        (of (Grammar.operand (v.withNesting n) op) c) := by
      cases op <;> exact hfirst hs
    rw [of_chain, of_chain]
    refine hoperand.bind fun first d h hd => ?_
    obtain ⟨p, -, -, rfl⟩ := of_eq_ok.mp h
    exact (hmore p hd).bind fun more _ _ he => pure he _
  case operands =>
    intro op c hright hmore hs
    rw [of_operands (v := v.withNesting n), of_operands (v := v)]
    refine (accept hs _).bind fun
      | none, d, _, hd => pure hd _
      | some (), d, h, hd => ?_
    obtain ⟨b, rfl⟩ := parsed_of_passes (passes_of_accept rfl h)
    have hoperand : CutOff v b.rest (of (Grammar.operand v op) b.rest)
        (of (Grammar.operand (v.withNesting n) op) b.rest) := by
      cases op <;> exact hright b hd
    refine hoperand.bind fun right e h he => ?_
    obtain ⟨p, -, -, rfl⟩ := of_eq_ok.mp h
    exact (hmore b p he).bind fun more _ _ hf => pure hf _
  case negation =>
    intro c hc hoperand hs
    have hnot : spelt v .not c.token = some () := spelt_eq_some_iff.mpr (keyword?_eq c ▸ hc)
    rw [of_unary (v := v.withNesting n), of_unary (v := v)]
    refine (descend hn hs rfl).bind fun
      | some (), d, h, hd => ?_
      | none, d, h, hd => ?_
    · obtain ⟨b, rfl⟩ := parsed_of_passes (passes_of_descend rfl h).2
      exact (deeper (hoperand b hd)).bind fun operand _ _ he => pure he _
    · cases hnot.symm.trans (eq_of_descend h).1
  case unary =>
    intro c hc hatom hs
    rw [of_unary (v := v.withNesting n), of_unary (v := v)]
    refine (descend hn hs rfl).bind fun
      | some (), d, h, hd => ?_
      | none, d, h, hd => ?_
    · have hnot := spelt_eq_some_iff.mp (passes_of_descend rfl h).1
      exact absurd ((keyword?_eq c).trans hnot) hc
    · rw [(eq_of_descend h).2]
      exact hatom hs
  case group =>
    intro c hc hinside hs
    have hopen : exactly .openParen c.token = some () := exactly_eq_some_iff.mpr hc
    rw [of_atom (v := v.withNesting n), of_atom (v := v)]
    refine (descend hn hs rfl).bind fun
      | some (), d, h, hd => ?_
      | none, d, h, hd => ?_
    · obtain ⟨b, rfl⟩ := parsed_of_passes (passes_of_descend rfl h).2
      refine deeper ((hinside b hd).bind fun inside e _ he => ?_)
      refine (of_follows (Follows.demand he (respects_exactly (by simp)) rfl _ _) rfl).bind ?_
      exact fun _ _ _ hf => pure hf _
    · cases hopen.symm.trans (eq_of_descend h).1
  case comparison =>
    intro c hc hs
    rw [of_atom (v := v.withNesting n), of_atom (v := v)]
    refine (descend hn hs rfl).bind fun
      | some (), d, h, hd => ?_
      | none, d, h, hd => ?_
    · exact absurd (exactly_eq_some_iff.mp (passes_of_descend rfl h).1) hc
    · refine of_follows (Follows.comparison (.refl v) hd) ?_
      rw [comparison_withNesting]

/-- Only the clause with criteria asks for room. -/
theorem filterClause (hs : c.Settled) :
    CutOff v c (Grammar.filterClause v c) (Grammar.filterClause (v.withNesting n) c) := by
  rw [filterClause_eq, filterClause_eq]
  refine (accept hs _).bind fun
    | none, d, _, hd => pure hd _
    | some (), d, _, hd => ?_
  exact ((criteria hn).1 .or d hd).bind fun _ _ _ he => pure he _

theorem selectTail (hs : c.Settled) :
    CutOff v c (Grammar.selectTail v c) (Grammar.selectTail (v.withNesting n) c) := by
  rw [selectTail_eq, selectTail_eq]
  refine (of_follows (Follows.selector (.refl v) hs) ?_).bind fun _ _ _ h₁ => ?_
  · rw [selector_withNesting]
  refine (of_follows (Follows.sourceClause (.refl v) h₁) rfl).bind fun _ _ _ h₂ => ?_
  refine (filterClause hn h₂).bind fun _ _ _ h₃ => ?_
  refine (of_follows (Follows.orderClause (.refl v) h₃) ?_).bind fun _ _ _ h₄ => ?_
  · rw [orderClause_withNesting]
  exact (of_follows (Follows.limitClause h₄) rfl).bind fun _ _ _ h₅ => pure h₅ _

theorem deleteTail (hs : c.Settled) :
    CutOff v c (Grammar.deleteTail v c) (Grammar.deleteTail (v.withNesting n) c) := by
  rw [deleteTail_eq, deleteTail_eq]
  refine (of_follows (Follows.sourceClause (.refl v) hs) rfl).bind fun _ _ _ h₁ => ?_
  refine (filterClause hn h₁).bind fun _ _ _ h₂ => ?_
  exact (of_follows (Follows.limitClause h₂) rfl).bind fun _ _ _ h₃ => pure h₃ _

omit hn in
theorem atEnd (hs : c.Settled) (actions : List Action) :
    CutOff v c (atEnd actions c) (Production.atEnd actions c) :=
  of_follows (Follows.atEnd hs actions) rfl

/-- A query with less room is the query with more, or cut off in front of its end. -/
theorem query (hs : c.Settled) :
    CutOff v c (query v c) (Production.query (v.withNesting n) c) := by
  refine (accept hs _).bind fun
    | some (), d, _, hd => ?_
    | none, d, _, hd => ?_
  · exact (selectTail hn hd).bind fun _ _ _ he => atEnd he _
  · refine (accept hd _).bind fun
      | some (), e, _, he => ?_
      | none, e, _, he => of_follows (Follows.refuse he _ _) rfl
    exact (deleteTail hn he).bind fun _ _ _ hf => atEnd hf _

end CutOff

/-! ## Whole texts -/

section

variable {text : String}

/-- An error that is found behind more tokens has a later position. -/
theorem EndsBehind.offset_lt {r : Except SyntaxError (α × Cursor)} {ts : List Token}
    {e : SyntaxError} (h : EndsBehind (ts.length + 1) (Cursor.front text) r)
    (hp : (Cursor.front text).Passes ts d) (hr : r = .error e) (hkind : e.kind ≠ .nestingTooDeep) :
    d.position.offset < e.position.offset := by
  obtain ⟨l, rfl, hl⟩ | ⟨us, m, hus, hlt, hpos⟩ := h.error hr hkind
  · exact hp.tokenAt.offset_lt_error hl
  · rw [hpos]
    exact hp.tokenAt.offset_lt hus.tokenAt hlt

/-- With more room a text is recognized alike, or it is cut off in front of what is found then. -/
theorem recognize_withNesting (hn : v.maxNesting ≤ n.toNat) (text : String) :
    recognize v text = recognize (v.withNesting n) text ∨
      ∃ p, recognize v text = .error (.nestingTooDeep v.maxNesting p) ∧
        ∀ e, recognize (v.withNesting n) text = .error e → e.kind ≠ .nestingTooDeep →
          p.offset < e.position.offset := by
  by_cases hs : (Cursor.front text).Settled
  · rw [recognize_of_settled hs, recognize_of_settled hs]
    cases CutOff.query hn hs with
    | same heq _ => exact .inl (congrArg _ heq)
    | cut hp hr hends =>
        refine .inr ⟨_, map_eq_error.mpr hr, fun e he hkind => ?_⟩
        exact hends.offset_lt hp (map_eq_error.mp he) hkind
  · obtain ⟨l, hl, hending⟩ := recognize_of_not_settled (v := v) hs
    obtain ⟨l', hl', hending'⟩ := recognize_of_not_settled (v := v.withNesting n) hs
    obtain rfl : l = l' := Except.error.inj (hending.symm.trans hending')
    exact .inl (hl.trans hl'.symm)

/-- A limit on nesting only cuts off. What is accepted with less room is accepted with more, as the
    same actions. What is accepted with more room only is refused with less at the first token that
    opens a level beyond the limit. What is refused with more room, and not for its nesting, is
    refused with less room for the same reason, or for its nesting at an earlier position. -/
theorem nesting_limit_only_cuts_off (hn : v.maxNesting ≤ n.toNat) (text : String) :
    (∀ as, recognize v text = .ok as → recognize (v.withNesting n) text = .ok as) ∧
    (∀ as e, recognize (v.withNesting n) text = .ok as → recognize v text = .error e →
      ∃ p, e = .nestingTooDeep v.maxNesting p ∧ TooDeepAt v text p) ∧
    ∀ e, recognize (v.withNesting n) text = .error e → e.kind ≠ .nestingTooDeep →
      recognize v text = .error e ∨
        ∃ p, recognize v text = .error (.nestingTooDeep v.maxNesting p) ∧
          p.offset < e.position.offset := by
  obtain hsame | ⟨p, hp, hearlier⟩ := recognize_withNesting hn text
  · refine ⟨fun as h => hsame.symm.trans h, fun as e hwide hnarrow => ?_, fun e h _ => ?_⟩
    · cases (hsame.symm.trans hnarrow).symm.trans hwide
    · exact .inl (hsame.trans h)
  · refine ⟨fun as h => ?_, fun as e _ hnarrow => ?_, fun e h hkind => ?_⟩
    · cases hp.symm.trans h
    · obtain rfl : _ = e := Except.error.inj (hp.symm.trans hnarrow)
      exact ⟨p, rfl, tooDeepAt_of_recognize hp⟩
    · exact .inr ⟨p, hp, hearlier e h hkind⟩

end

/-- A closed group, and a negated one behind it that opens two levels. -/
def negatedGroupText : String :=
  "delete where (a = 1) and not (b = 2)"

/-- Room for one level is too little for the negated group, and the text is cut off at its
    parenthesis. -/
theorem negated_group_cut_off :
    (∃ as, recognize (Vocabulary.standard.withNesting 2) negatedGroupText = .ok as) ∧
      recognize (Vocabulary.standard.withNesting 1) negatedGroupText =
        .error (.nestingTooDeep 1 ⟨29, 1, 30⟩) ∧
      TooDeepAt (Vocabulary.standard.withNesting 1) negatedGroupText ⟨29, 1, 30⟩ := by
  have hwide : ((recognize (Vocabulary.standard.withNesting 2)
      negatedGroupText).toOption).isSome = true := by decide +kernel
  have hnarrow : recognize (Vocabulary.standard.withNesting 1) negatedGroupText =
      .error (.nestingTooDeep 1 ⟨29, 1, 30⟩) := by decide +kernel
  obtain ⟨as, has⟩ := Option.isSome_iff_exists.mp hwide
  have haccepted := eq_ok_of_toOption has
  obtain ⟨p, hp, hdeep⟩ := (nesting_limit_only_cuts_off
    (v := Vocabulary.standard.withNesting 1) (n := 2) (by decide) negatedGroupText).2.1 as _
      haccepted hnarrow
  obtain ⟨-, rfl⟩ := SyntaxError.nestingTooDeep.inj hp
  exact ⟨⟨as, haccepted⟩, hnarrow, hdeep⟩

end RecordQuery
