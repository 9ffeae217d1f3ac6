/-
  RecordQuery.Proofs.Grammar.Soundness

  Whatever is recognized can be derived. Each production that succeeds has moved over tokens that
  the grammar derives, emits the actions of what is read from them, and has kept within the nesting
  that the vocabulary allows.
-/

import RecordQuery.Proofs.Grammar.Chain
import RecordQuery.Proofs.Grammar.Passage

namespace RecordQuery

namespace Grammar

variable {v : Vocabulary}

/-! ## Stretches of text -/

/-- The actions that build what is read from a phrase. -/
def Phrase.actions : Phrase → List Action
  | .chain _ c | .operand _ c | .unary c | .atom c => c.actions
  | .operands op cs => Condition.chainActions op cs

/-- Between the cursors `c` and `d` stands the phrase `p`, nested no deeper than `c` allows. -/
def Spans (v : Vocabulary) (c : Cursor) (p : Phrase) (d : Cursor) : Prop :=
  ∃ n ts, c.Passes ts d ∧ Derives v n ts p ∧ c.depth + n ≤ v.maxNesting

namespace Spans

variable {b c m d : Cursor} {p : Phrase} {op : BoolOp} {t : Condition} {ts : List Condition}
  {k : Token}

/-- A phrase leaves as many levels open as it finds. -/
theorem depth (h : Spans v c p d) : d.depth = c.depth := by
  obtain ⟨_, _, hp, _⟩ := h
  exact hp.depth

theorem settled (h : Spans v c p d) : d.Settled := by
  obtain ⟨_, _, hp, _⟩ := h
  exact hp.settled

/-- A phrase with the same tokens and the same nesting stands there too. -/
theorem weaken {q : Phrase} (h : Spans v c p d)
    (hpq : ∀ {n ts}, Derives v n ts p → Derives v n ts q) : Spans v c q d := by
  obtain ⟨n, us, hp, hd, hn⟩ := h
  exact ⟨n, us, hp, hpq hd, hn⟩

/-- An operand and those behind it stand there as a chain. -/
theorem chain (h : Spans v c (.operand op t) m) (h' : Spans v m (.operands op ts) d) :
    Spans v c (.chain op (ts.foldl (.compound op) t)) d := by
  obtain ⟨n, us, hp, hd, hn⟩ := h
  obtain ⟨n', us', hp', hd', hn'⟩ := h'
  rw [hp.depth] at hn'
  exact ⟨max n n', us ++ us', hp.trans hp', .chain hd hd', by omega⟩

/-- A keyword, an operand and those behind it stand there as further operands. -/
theorem operands (hb : c.Passes [k] b) (hk : Spells v k op.keyword)
    (h : Spans v b (.operand op t) m) (h' : Spans v m (.operands op ts) d) :
    Spans v c (.operands op (t :: ts)) d := by
  obtain ⟨n, us, hp, hd, hn⟩ := h
  obtain ⟨n', us', hp', hd', hn'⟩ := h'
  rw [hp.depth] at hn'
  rw [hb.depth] at hn hn'
  exact ⟨max n n', k :: (us ++ us'), hb.trans (hp.trans hp'), .operands hk hd hd', by omega⟩

/-- Behind a `not`, a unary one level deeper stands there as its negation. -/
theorem negation (hb : c.Passes [k] b) (hk : Spells v k .not)
    (h : Spans v b.enter (.unary t) d) : Spans v c (.unary (.negated t)) d.leave := by
  obtain ⟨n, us, hp, hd, hn⟩ := h
  rw [Cursor.depth_enter, hb.depth] at hn
  exact ⟨n + 1, k :: us, hb.trans hp.leave, .negation hk hd, by omega⟩

/-- A disjunction one level deeper stands there as an atom between its parentheses. -/
theorem group (hb : c.Passes [.openParen] b)
    (h : Spans v b.enter (.chain .or t) m) (hd : m.Passes [.closeParen] d) :
    Spans v c (.atom t) d.leave := by
  obtain ⟨n, us, hp, ht, hn⟩ := h
  rw [Cursor.depth_enter, hb.depth] at hn
  exact ⟨n + 1, _, hb.trans (hp.trans hd).leave, .group ht, by omega⟩

/-- A comparison stands there as an atom, which opens no level. -/
theorem comparison {us : List Token} (hp : c.Passes us d) (h : Comparison v us t)
    (hc : c.depth ≤ v.maxNesting) : Spans v c (.atom t) d :=
  ⟨0, us, hp, .comparison h, hc⟩

end Spans

/-! ## Criteria -/

/-- Every success of the reading is a phrase of the given kind and emits its actions. -/
def Sound (v : Vocabulary) (c : Cursor) {n : Nat} {α : Type}
    (r : Except SyntaxError (Parsed (List Action) n)) (phrase : α → Phrase) : Prop :=
  c.Settled → c.depth ≤ v.maxNesting →
    ∀ as d, Yields r as d → ∃ x, as = (phrase x).actions ∧ Spans v c (phrase x) d

/-- A comparison that is read is derived as one, and its actions are those of its parts. -/
theorem sound_comparison (c : Cursor) : Sound v c (comparison v c) .atom := by
  intro _ hc as d hy
  obtain ⟨name, hname, hy⟩ := yields_bind.mp hy
  obtain ⟨hpn, hf⟩ := Cursor.yields_field.mp (yields_of_ok hname)
  -- The token behind the field tells which of the three comparisons this is.
  simp only at hy
  split at hy
  next op hop =>
    obtain ⟨behind, hb, hy⟩ := yields_bind.mp hy
    obtain ⟨operand, ho, hy⟩ := yields_bind.mp hy
    have hpb := Cursor.passes_of_advance hb rfl
    obtain ⟨l, hpl, hl⟩ := Cursor.yields_literal.mp (yields_of_ok ho)
    obtain ⟨rfl, rfl⟩ := yields_pure.mp hy
    exact ⟨.value name.value op operand.value, rfl,
      .comparison (hpn.trans (hpb.trans hpl)) (.value hf hop hl) hc⟩
  next hvalue =>
    split at hy
    next op hop =>
      obtain ⟨behind, hb, hy⟩ := yields_bind.mp hy
      obtain ⟨operand, ho, hy⟩ := yields_bind.mp hy
      have hpb := Cursor.passes_of_advance hb rfl
      obtain ⟨hpw, hw⟩ := Cursor.yields_word.mp (yields_of_ok ho)
      obtain ⟨rfl, rfl⟩ := yields_pure.mp hy
      exact ⟨.range name.value op operand.value, rfl,
        .comparison (hpn.trans (hpb.trans hpw)) (.range hf hop hw) hc⟩
    next hrange =>
      obtain ⟨eaten, hb, hy⟩ := yields_bind.mp hy
      cases eaten with
      | none => exact absurd hy not_yields_error
      | some behind =>
          obtain ⟨operand, ho, hy⟩ := yields_bind.mp hy
          obtain ⟨k, hpb, hk⟩ := Cursor.eat?_eq_some_iff.mp ⟨behind, hb, rfl⟩
          obtain ⟨l, hpl, hl⟩ := Cursor.yields_literal.mp (yields_of_ok ho)
          obtain ⟨rfl, rfl⟩ := yields_pure.mp hy
          exact ⟨.index name.value operand.value, rfl,
            .comparison (hpn.trans (hpb.trans hpl)) (.index hf hk hl) hc⟩

/-- A chain is sound if its first operand is, and those behind it are. -/
theorem sound_chain {op : BoolOp} {c : Cursor} (first : Sound v c (operand v op c) (.operand op))
    (more : ∀ p : Parsed (List Action) c.size,
      Sound v p.rest (operands v op p.rest) (.operands op)) :
    Sound v c (chain v op c) (.chain op) := by
  intro hs hc as d hy
  rw [chain_eq] at hy
  obtain ⟨p, hp, hy⟩ := yields_bind.mp hy
  obtain ⟨q, hq, hy⟩ := yields_bind.mp hy
  obtain ⟨t, ht, hspan⟩ := first hs hc _ _ (yields_of_ok hp)
  have hdepth := hspan.depth
  -- The first operand ends where the others start, at the depth where it started.
  obtain ⟨ts, hts, hspan'⟩ := more p hspan.settled (by omega) _ _ (yields_of_ok hq)
  obtain ⟨rfl, rfl⟩ := yields_pure.mp hy
  refine ⟨_, ?_, hspan.chain hspan'⟩
  rw [Phrase.actions, Condition.actions_foldl, ht, hts]
  rfl

/-- Further operands are sound if each is, read behind its keyword. -/
theorem sound_operands {op : BoolOp} {c : Cursor}
    (right : ∀ b : Parsed Unit c.size, Sound v b.rest (operand v op b.rest) (.operand op))
    (more : ∀ (b : Parsed Unit c.size) (p : Parsed (List Action) b.rest.size),
      Sound v p.rest (operands v op p.rest) (.operands op)) :
    Sound v c (operands v op c) (.operands op) := by
  intro hs hc as d hy
  rw [operands_eq] at hy
  obtain ⟨eaten, hb, hy⟩ := yields_bind.mp hy
  cases eaten with
  | none =>
      obtain ⟨rfl, rfl⟩ := yields_pure.mp hy
      -- No operator: the chain is over and the cursor has not moved.
      exact ⟨[], rfl, 0, [], .refl hs, .noOperands, hc⟩
  | some b =>
      obtain ⟨k, hpb, hk⟩ := Cursor.eat?_eq_some_iff.mp ⟨b, hb, rfl⟩
      obtain ⟨p, hp, hy⟩ := yields_bind.mp hy
      obtain ⟨q, hq, hy⟩ := yields_bind.mp hy
      have hbdepth := hpb.depth
      obtain ⟨t, ht, hspan⟩ := right b hpb.settled (by omega) _ _ (yields_of_ok hp)
      have hdepth := hspan.depth
      obtain ⟨ts, hts, hspan'⟩ := more b p hspan.settled (by omega) _ _ (yields_of_ok hq)
      obtain ⟨rfl, rfl⟩ := yields_pure.mp hy
      refine ⟨t :: ts, ?_, .operands hpb hk hspan hspan'⟩
      rw [Phrase.actions, Condition.chainActions_cons, ht, hts]
      rfl

/-- A negation is sound if its operand is, read one level deeper. -/
theorem sound_negation {c : Cursor} (hk : c.keyword? v = some .not)
    (operand : ∀ b : Parsed Unit c.size, Sound v b.rest.enter (unary v b.rest.enter) .unary) :
    Sound v c (unary v c) .unary := by
  intro hs hc as d hy
  rw [unary, dif_pos hk] at hy
  obtain ⟨u, hn, hy⟩ := yields_bind.mp hy
  obtain ⟨b, hb, hy⟩ := yields_bind.mp hy
  obtain ⟨p, hp, hy⟩ := yields_bind.mp hy
  -- The check leaves room for one level more, and that is where the operand is read.
  have hlt := Cursor.checkNesting_eq_ok_iff.mp hn
  have hpb := Cursor.passes_of_advance hb rfl
  have hbdepth := hpb.depth
  obtain ⟨t, ht, hspan⟩ := operand b hpb.settled
    (by rw [Cursor.depth_enter]; omega) _ _ (yields_of_ok hp)
  obtain ⟨rfl, rfl⟩ := yields_pure.mp hy
  refine ⟨.negated t, ?_, .negation hpb (Cursor.keyword?_eq_some_iff.mp hk) hspan⟩
  rw [Phrase.actions, Condition.actions, ht]
  rfl

/-- A group is sound if the disjunction inside of it is, read one level deeper. -/
theorem sound_group {c : Cursor} (ht : c.token = .openParen)
    (inside : ∀ b : Parsed Unit c.size,
      Sound v b.rest.enter (chain v .or b.rest.enter) (.chain .or)) :
    Sound v c (atom v c) .atom := by
  intro hs hc as d hy
  rw [atom, dif_pos ht] at hy
  obtain ⟨u, hn, hy⟩ := yields_bind.mp hy
  obtain ⟨b, hb, hy⟩ := yields_bind.mp hy
  obtain ⟨p, hp, hy⟩ := yields_bind.mp hy
  obtain ⟨q, hq, hy⟩ := yields_bind.mp hy
  -- Leaving the parenthesis goes back to the depth in front of it.
  have hlt := Cursor.checkNesting_eq_ok_iff.mp hn
  have hpb := Cursor.passes_of_advance hb ht
  have hpq := (Cursor.yields_expect _).mp (yields_of_ok hq)
  have hbdepth := hpb.depth
  obtain ⟨t, hv, hspan⟩ := inside b hpb.settled
    (by rw [Cursor.depth_enter]; omega) _ _ (yields_of_ok hp)
  obtain ⟨rfl, rfl⟩ := yields_pure.mp hy
  exact ⟨t, hv, .group hpb hspan hpq⟩

/-- What is sound for one kind of phrase is sound for every kind that derives the same tokens. -/
theorem Sound.weaken {c : Cursor} {n : Nat} {α : Type}
    {r : Except SyntaxError (Parsed (List Action) n)} {f g : α → Phrase} (h : Sound v c r f)
    (hactions : ∀ x, (f x).actions = (g x).actions)
    (hderives : ∀ x {n ts}, Derives v n ts (f x) → Derives v n ts (g x)) : Sound v c r g := by
  intro hs hc as d hy
  obtain ⟨x, hx, hspan⟩ := h hs hc as d hy
  exact ⟨x, hx.trans (hactions x), hspan.weaken (hderives x)⟩

/-- Every production of criteria is sound. The induction follows the calls of the recognizer. -/
theorem sound_criteria (v : Vocabulary) :
    (∀ op c, Sound v c (chain v op c) (.chain op)) ∧
    (∀ op c, Sound v c (operands v op c) (.operands op)) ∧
    (∀ c, Sound v c (unary v c) .unary) ∧ ∀ c, Sound v c (atom v c) .atom := by
  refine recognizer_induct v ?_ ?_ ?_ ?_ ?_ ?_
  · intro op c first more
    -- An operand of `or` is a conjunction, an operand of `and` a unary.
    refine sound_chain ?_ more
    cases op with
    | or => exact first.weaken (fun _ => rfl) fun _ => .conjunction
    | and => exact first.weaken (fun _ => rfl) fun _ => .unary
  · intro op c right more
    refine sound_operands (fun b => ?_) more
    cases op with
    | or => exact (right b).weaken (fun _ => rfl) fun _ => .conjunction
    | and => exact (right b).weaken (fun _ => rfl) fun _ => .unary
  · intro c hk operand
    exact sound_negation hk operand
  · intro c hk hatom
    rw [unary, dif_neg hk]
    exact hatom.weaken (fun _ => rfl) fun _ => .atom
  · intro c ht inside
    exact sound_group ht inside
  · intro c ht
    rw [atom, dif_neg ht]
    exact sound_comparison c

theorem sound_operand (op : BoolOp) (c : Cursor) :
    Sound v c (operand v op c) (.operand op) := by
  -- An operand of `or` is a conjunction, an operand of `and` a unary.
  cases op with
  | or => exact ((sound_criteria v).1 .and c).weaken (fun _ => rfl) fun _ => .conjunction
  | and => exact ((sound_criteria v).2.2.1 c).weaken (fun _ => rfl) fun _ => .unary

/-! ## Selectors -/

/-- Further fields are read as a list behind a comma, or there are none. -/
theorem sound_moreFields (c : Cursor) : c.Settled → ∀ names d, Yields (moreFields v c) names d →
    names = [] ∧ d = c ∨
      ∃ ts, c.Passes (.comma :: ts) d ∧ Listed (Field v) ts names := by
  induction c using moreFields.induct with
  | case1 c ht ih =>
      intro _ names d hy
      rw [moreFields, dif_pos ht] at hy
      obtain ⟨b, hb, hy⟩ := yields_bind.mp hy
      obtain ⟨name, hn, hy⟩ := yields_bind.mp hy
      obtain ⟨more, hm, hy⟩ := yields_bind.mp hy
      have hpb := Cursor.passes_of_advance hb ht
      obtain ⟨hpn, hf⟩ := Cursor.yields_field.mp (yields_of_ok hn)
      obtain ⟨rfl, rfl⟩ := yields_pure.mp hy
      right
      rcases ih b name hpn.settled _ _ (yields_of_ok hm) with ⟨hnil, hrest⟩ | ⟨ts, hpm, hl⟩
      -- The field is the last one, or others follow it.
      · refine ⟨[.word name.value], ?_, ?_⟩
        · rw [hrest]
          exact hpb.trans hpn
        · rw [hnil]
          exact .one (.word hf)
      · exact ⟨_, hpb.trans (hpn.trans hpm), .more (.word hf) hl⟩
  | case2 c ht =>
      intro _ names d hy
      rw [moreFields, dif_neg ht] at hy
      obtain ⟨rfl, rfl⟩ := yields_pure.mp hy
      exact .inl ⟨rfl, rfl⟩

/-- A selector that is read is derived as one of its three forms. -/
theorem sound_selector {c d : Cursor} {as : List Action} (h : selector v c = .ok (as, d)) :
    ∃ ts s, c.Passes ts d ∧ DerivesSelector v ts s ∧ as = s.actions := by
  obtain ⟨first, hw, h⟩ := bind_eq_ok.mp h
  obtain ⟨hpw, hk⟩ := Cursor.yields_word.mp (yields_of_ok hw)
  split at h
  next ht =>
    -- A parenthesis makes the word the name of a function.
    dsimp only at h
    split at h
    next => cases h
    next hname =>
    obtain ⟨b, hb, h⟩ := bind_eq_ok.mp h
    obtain ⟨argument, ha, h⟩ := bind_eq_ok.mp h
    obtain ⟨closed, hc, h⟩ := bind_eq_ok.mp h
    have hpb := Cursor.passes_of_advance hb ht
    obtain ⟨hpa, hf⟩ := Cursor.yields_field.mp (yields_of_ok ha)
    have hpc := (Cursor.yields_expect _).mp (yields_of_ok hc)
    obtain ⟨rfl, rfl⟩ := Prod.mk.inj (pure_eq_ok.mp h)
    exact ⟨_, _, hpw.trans (hpb.trans (hpa.trans hpc)),
      .function hk (by simpa using hname) hf, rfl⟩
  next ht =>
    -- Without one the word is the first field.
    dsimp only at h
    split at h
    next => cases h
    next hfield =>
    obtain ⟨more, hm, h⟩ := bind_eq_ok.mp h
    have hf : v.isField first.value = true := by simpa using hfield
    rcases sound_moreFields _ hpw.settled _ _ (yields_of_ok hm) with ⟨hnil, hrest⟩ | ⟨ts, hpm, hl⟩
    · rw [hnil, hrest] at h
      obtain ⟨rfl, rfl⟩ := Prod.mk.inj (pure_eq_ok.mp h)
      exact ⟨_, _, hpw, .simple hf, rfl⟩
    · have hne := hl.ne_nil
      rw [if_neg (by simpa using hne)] at h
      obtain ⟨rfl, rfl⟩ := Prod.mk.inj (pure_eq_ok.mp h)
      refine ⟨_, .compound (first.value :: more.value), hpw.trans hpm,
        .compound (.more (.word hf) hl) ?_, rfl⟩
      have := List.length_pos_iff.mpr hne
      simp only [List.length_cons]
      omega

/-! ## Clauses -/

theorem sound_sourceClause {c d : Cursor} {as : List Action} (hs : c.Settled)
    (h : sourceClause v c = .ok (as, d)) :
    ∃ ts source, c.Passes ts d ∧ Clause v [.source] (NamespaceName v) ts source ∧
      as = Draft.sourceActions source := by
  obtain ⟨eaten, hb, h⟩ := bind_eq_ok.mp h
  cases eaten with
  | none =>
      obtain ⟨rfl, rfl⟩ := Prod.mk.inj (pure_eq_ok.mp h)
      exact ⟨[], none, .refl hs, .absent, rfl⟩
  | some b =>
      obtain ⟨k, hpb, hk⟩ := Cursor.eat?_eq_some_iff.mp ⟨b, hb, rfl⟩
      obtain ⟨name, hn, h⟩ := bind_eq_ok.mp h
      obtain ⟨hpn, -⟩ := Cursor.yields_word.mp (yields_of_ok hn)
      -- The word is read as any other and then checked to be a name.
      split at h
      next hname =>
        obtain ⟨rfl, rfl⟩ := Prod.mk.inj (pure_eq_ok.mp h)
        exact ⟨_, some name.value, hpb.trans hpn, .present (.cons hk .nil) (.word hname), rfl⟩
      next => cases h

/-- The criteria of a clause are derived with a nesting that the vocabulary allows. -/
theorem sound_filterClause {c d : Cursor} {as : List Action} (hs : c.Settled)
    (hc : c.depth ≤ v.maxNesting) (h : filterClause v c = .ok (as, d)) :
    ∃ n ts filter, c.Passes ts d ∧ Filter v n ts filter ∧ c.depth + n ≤ v.maxNesting ∧
      as = Draft.filterActions filter := by
  obtain ⟨eaten, hb, h⟩ := bind_eq_ok.mp h
  cases eaten with
  | none =>
      obtain ⟨rfl, rfl⟩ := Prod.mk.inj (pure_eq_ok.mp h)
      exact ⟨0, [], none, .refl hs, .absent, hc, rfl⟩
  | some b =>
      obtain ⟨k, hpb, hk⟩ := Cursor.eat?_eq_some_iff.mp ⟨b, hb, rfl⟩
      obtain ⟨criteria, hcr, h⟩ := bind_eq_ok.mp h
      have hbdepth := hpb.depth
      obtain ⟨t, ht, n, ts, hpc, hd, hn⟩ := (sound_criteria v).1 .or b.rest hpb.settled
        (by omega) _ _ (yields_of_ok hcr)
      obtain ⟨rfl, rfl⟩ := Prod.mk.inj (pure_eq_ok.mp h)
      refine ⟨n, _, some t, hpb.trans hpc, .present hk hd, by omega, ?_⟩
      rw [ht]
      rfl

/-- The actions of the direction behind a field, and the sort key that both are. -/
theorem sound_direction {c d : Cursor} {as : List Action} {f : String} (hs : c.Settled)
    (hf : v.isField f = true) (hy : Yields (direction v c) as d) :
    ∃ ts spec, c.Passes ts d ∧ OrderItem v (.word f :: ts) spec ∧
      spec.actions = .push f :: .addOrderSelector :: as := by
  unfold direction at hy
  obtain ⟨asc, ha, hy⟩ := yields_bind.mp hy
  cases asc with
  | some b =>
      obtain ⟨k, hpb, hk⟩ := Cursor.eat?_eq_some_iff.mp ⟨b, ha, rfl⟩
      obtain ⟨rfl, rfl⟩ := yields_pure.mp hy
      exact ⟨_, _, hpb, .ascending hf hk, rfl⟩
  | none =>
      -- Only without `asc` the other direction is asked for.
      obtain ⟨desc, hd, hy⟩ := yields_bind.mp hy
      cases desc with
      | some b =>
          obtain ⟨k, hpb, hk⟩ := Cursor.eat?_eq_some_iff.mp ⟨b, hd, rfl⟩
          obtain ⟨rfl, rfl⟩ := yields_pure.mp hy
          exact ⟨_, _, hpb, .descending hf hk, rfl⟩
      | none =>
          obtain ⟨rfl, rfl⟩ := yields_pure.mp hy
          exact ⟨_, _, .refl hs, .plain hf, rfl⟩

/-- The items of an order are derived as a list of sort keys. -/
theorem sound_orderItems (c : Cursor) : ∀ as d, Yields (orderItems v c) as d →
    ∃ ts specs, c.Passes ts d ∧ Listed (OrderItem v) ts specs ∧
      as = specs.flatMap OrderSpec.actions := by
  induction c using orderItems.induct with
  | case1 c ih =>
      intro as d hy
      rw [orderItems] at hy
      obtain ⟨name, hn, hy⟩ := yields_bind.mp hy
      obtain ⟨written, hw, hy⟩ := yields_bind.mp hy
      obtain ⟨hpn, hf⟩ := Cursor.yields_field.mp (yields_of_ok hn)
      obtain ⟨ts, spec, hpw, hitem, hspec⟩ := sound_direction hpn.settled hf (yields_of_ok hw)
      have hpi : c.Passes (.word name.value :: ts) written.rest := hpn.trans hpw
      dsimp only at hy
      -- A comma announces another item.
      split at hy
      next ht =>
        obtain ⟨b, hb, hy⟩ := yields_bind.mp hy
        obtain ⟨more, hm, hy⟩ := yields_bind.mp hy
        have hpb := Cursor.passes_of_advance hb ht
        obtain ⟨us, specs, hpm, hl, hspecs⟩ := ih name written b _ _ (yields_of_ok hm)
        obtain ⟨rfl, rfl⟩ := yields_pure.mp hy
        refine ⟨_, spec :: specs, hpi.trans (hpb.trans hpm), .more hitem hl, ?_⟩
        rw [List.flatMap_cons, hspec, hspecs]
      next ht =>
        obtain ⟨rfl, rfl⟩ := yields_pure.mp hy
        refine ⟨_, [spec], hpi, .one hitem, ?_⟩
        rw [List.flatMap_singleton, hspec]

theorem sound_orderClause {c d : Cursor} {as : List Action} (hs : c.Settled)
    (h : orderClause v c = .ok (as, d)) :
    ∃ ts order, c.Passes ts d ∧ Clause v [.order, .orderBy] (Listed (OrderItem v)) ts order ∧
      as = Draft.orderActions (order.getD []) := by
  obtain ⟨eaten, hb, h⟩ := bind_eq_ok.mp h
  cases eaten with
  | none =>
      obtain ⟨rfl, rfl⟩ := Prod.mk.inj (pure_eq_ok.mp h)
      exact ⟨[], none, .refl hs, .absent, rfl⟩
  | some b =>
      obtain ⟨k, hpb, hk⟩ := Cursor.eat?_eq_some_iff.mp ⟨b, hb, rfl⟩
      obtain ⟨start, hst, h⟩ := bind_eq_ok.mp h
      obtain ⟨items, hi, h⟩ := bind_eq_ok.mp h
      obtain ⟨k', hps, hk'⟩ := Cursor.yields_expectKeyword.mp (yields_of_ok hst)
      obtain ⟨ts, specs, hpi, hl, hspecs⟩ := sound_orderItems start.rest _ _ (yields_of_ok hi)
      obtain ⟨rfl, rfl⟩ := Prod.mk.inj (pure_eq_ok.mp h)
      refine ⟨_, some specs, (hpb.trans hps).trans hpi,
        .present (.cons hk (.cons hk' .nil)) hl, ?_⟩
      -- The clause has an item, so its actions are not those of no order.
      rw [Option.getD_some, Draft.orderActions, if_neg hl.ne_nil, hspecs]

/-- The word behind the keyword of a limit is derived as it is written. Whether it is a number is
    not asked. -/
theorem sound_limitClause {c d : Cursor} {as : List Action} (hs : c.Settled)
    (h : limitClause v c = .ok (as, d)) :
    ∃ ts limit, c.Passes ts d ∧ Clause v [.limit] (LimitWord v) ts limit ∧
      as = Draft.limitActions limit := by
  obtain ⟨eaten, hb, h⟩ := bind_eq_ok.mp h
  cases eaten with
  | none =>
      obtain ⟨rfl, rfl⟩ := Prod.mk.inj (pure_eq_ok.mp h)
      exact ⟨[], none, .refl hs, .absent, rfl⟩
  | some b =>
      obtain ⟨k, hpb, hk⟩ := Cursor.eat?_eq_some_iff.mp ⟨b, hb, rfl⟩
      obtain ⟨word, hw, h⟩ := bind_eq_ok.mp h
      obtain ⟨hpw, hn⟩ := Cursor.yields_word.mp (yields_of_ok hw)
      obtain ⟨rfl, rfl⟩ := Prod.mk.inj (pure_eq_ok.mp h)
      exact ⟨_, some word.value, hpb.trans hpw, .present (.cons hk .nil) (.word hn), rfl⟩

/-! ## Queries -/

/-- Behind the keyword of a selection the clauses are derived in their order, and so is the whole.
    -/
theorem sound_select {b c e : Cursor} {k : Token} {as : List Action} (hb : c.Passes [k] b)
    (hk : Spells v k .select) (hc : c.depth = 0) (h : selectTail v b = .ok (as, e)) :
    ∃ n ts d, c.Passes ts e ∧ DerivesQuery v n ts d ∧ n ≤ v.maxNesting ∧ as = d.actions := by
  obtain ⟨⟨as₁, c₁⟩, h₁, h⟩ := bind_eq_ok.mp h
  obtain ⟨⟨as₂, c₂⟩, h₂, h⟩ := bind_eq_ok.mp h
  obtain ⟨⟨as₃, c₃⟩, h₃, h⟩ := bind_eq_ok.mp h
  obtain ⟨⟨as₄, c₄⟩, h₄, h⟩ := bind_eq_ok.mp h
  obtain ⟨⟨as₅, c₅⟩, h₅, h⟩ := bind_eq_ok.mp h
  obtain ⟨rfl, rfl⟩ := Prod.mk.inj (pure_eq_ok.mp h)
  obtain ⟨ss, selector, hp₁, hd₁, rfl⟩ := sound_selector h₁
  obtain ⟨fs, source, hp₂, hd₂, rfl⟩ := sound_sourceClause hp₁.settled h₂
  -- Only the criteria ask for the depth, and nothing in front of them has changed it.
  have hdepth : c₂.depth = 0 := by rw [hp₂.depth, hp₁.depth, hb.depth, hc]
  obtain ⟨n, ws, filter, hp₃, hd₃, hn, rfl⟩ := sound_filterClause hp₂.settled (by omega) h₃
  obtain ⟨os, order, hp₄, hd₄, rfl⟩ := sound_orderClause hp₃.settled h₄
  obtain ⟨ls, limit, hp₅, hd₅, rfl⟩ := sound_limitClause hp₄.settled h₅
  refine ⟨n, _, .select selector source filter (order.getD []) limit,
    hb.trans ((((hp₁.trans hp₂).trans hp₃).trans hp₄).trans hp₅),
    .select hk hd₁ hd₂ hd₃ hd₄ hd₅, by omega, rfl⟩

/-- Behind the keyword of a deletion there is no selector and no order to derive. -/
theorem sound_delete {b c e : Cursor} {k : Token} {as : List Action} (hb : c.Passes [k] b)
    (hk : Spells v k .delete) (hc : c.depth = 0) (h : deleteTail v b = .ok (as, e)) :
    ∃ n ts d, c.Passes ts e ∧ DerivesQuery v n ts d ∧ n ≤ v.maxNesting ∧ as = d.actions := by
  obtain ⟨⟨as₁, c₁⟩, h₁, h⟩ := bind_eq_ok.mp h
  obtain ⟨⟨as₂, c₂⟩, h₂, h⟩ := bind_eq_ok.mp h
  obtain ⟨⟨as₃, c₃⟩, h₃, h⟩ := bind_eq_ok.mp h
  obtain ⟨rfl, rfl⟩ := Prod.mk.inj (pure_eq_ok.mp h)
  obtain ⟨fs, source, hp₁, hd₁, rfl⟩ := sound_sourceClause hb.settled h₁
  have hdepth : c₁.depth = 0 := by rw [hp₁.depth, hb.depth, hc]
  obtain ⟨n, ws, filter, hp₂, hd₂, hn, rfl⟩ := sound_filterClause hp₁.settled (by omega) h₂
  obtain ⟨ls, limit, hp₃, hd₃, rfl⟩ := sound_limitClause hp₂.settled h₃
  exact ⟨n, _, .delete source filter limit, hb.trans ((hp₁.trans hp₂).trans hp₃),
    .delete hk hd₁ hd₂ hd₃, by omega, rfl⟩

/-- What is recognized as a query is derived as one, up to the end of the text. -/
theorem sound_query {c : Cursor} {as : List Action} (hc : c.depth = 0)
    (h : query v c = .ok as) :
    ∃ n ts d e, c.Passes ts e ∧ e.token = .endOfText ∧ DerivesQuery v n ts d ∧
      n ≤ v.maxNesting ∧ as = d.actions := by
  -- Behind either operation the text has to end.
  have hend {e : Cursor} {as' : List Action}
      (h : (if e.token = .endOfText then pure as'
        else throw (e.unexpected (.token .endOfText))) = (.ok as : Except SyntaxError _)) :
      e.token = .endOfText ∧ as' = as := by
    split at h
    next he => exact ⟨he, pure_eq_ok.mp h⟩
    next => cases h
  obtain ⟨select, hsel, h⟩ := bind_eq_ok.mp h
  cases select with
  | some b =>
      obtain ⟨k, hpb, hk⟩ := Cursor.eat?_eq_some_iff.mp ⟨b, hsel, rfl⟩
      obtain ⟨⟨as', e⟩, htail, h⟩ := bind_eq_ok.mp h
      obtain ⟨he, rfl⟩ := hend h
      obtain ⟨n, ts, d, hp, hd, hn, has⟩ := sound_select hpb hk hc htail
      exact ⟨n, ts, d, e, hp, he, hd, hn, has⟩
  | none =>
      obtain ⟨delete, hdel, h⟩ := bind_eq_ok.mp h
      cases delete with
      | some b =>
          obtain ⟨k, hpb, hk⟩ := Cursor.eat?_eq_some_iff.mp ⟨b, hdel, rfl⟩
          obtain ⟨⟨as', e⟩, htail, h⟩ := bind_eq_ok.mp h
          obtain ⟨he, rfl⟩ := hend h
          obtain ⟨n, ts, d, hp, hd, hn, has⟩ := sound_delete hpb hk hc htail
          exact ⟨n, ts, d, e, hp, he, hd, hn, has⟩
      | none => cases h

end Grammar

end RecordQuery
