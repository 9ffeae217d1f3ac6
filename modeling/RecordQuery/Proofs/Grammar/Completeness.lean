/-
  RecordQuery.Proofs.Grammar.Completeness

  Whatever can be derived is recognized, as far as the vocabulary lets it nest. A phrase in front of
  a token that does not continue it is read to its end, and one that nests too deep is refused for
  that reason and no other.
-/

import RecordQuery.Proofs.Grammar.Soundness

namespace RecordQuery

namespace Grammar

variable {v : Vocabulary}

/-! ## Phrases and the tokens behind them -/

/-- The keywords that would make a phrase of this kind longer. -/
def Phrase.continuing : Phrase → List Keyword
  | .chain op _ | .operands op _ => match op with | .or => [.and, .or] | .and => [.and]
  | .operand op _ => match op with | .or => [.and] | .and => []
  | .unary _ | .atom _ => []

/-- The cursor stands in front of no token that would make the phrase longer. -/
def Closes (v : Vocabulary) (d : Cursor) (p : Phrase) : Prop :=
  ∀ k ∈ p.continuing, d.keyword? v ≠ some k

/-- The production of the phrase reads it from `c` to `d`. -/
def Recognized (v : Vocabulary) (c d : Cursor) (p : Phrase) : Prop :=
  match p with
  | .chain op _ => Yields (chain v op c) p.actions d
  | .operand op _ => Yields (operand v op c) p.actions d
  | .operands op _ => Yields (operands v op c) p.actions d
  | .unary _ => Yields (unary v c) p.actions d
  | .atom _ => Yields (atom v c) p.actions d

theorem keyword?_eq_none_of_token {c : Cursor} (h : ∀ w, c.token ≠ .word w) :
    c.keyword? v = none := by
  unfold Cursor.keyword?
  split
  next w hw => exact absurd hw (h w)
  next => rfl

theorem keyword?_eq_none_of_word {c : Cursor} {w : String} (ht : c.token = .word w)
    (hw : v.keyword? w = none) : c.keyword? v = none := by
  simp [Cursor.keyword?, ht, hw]

/-- The first token of a passage is the one that the keyword is asked of. -/
theorem keyword?_of_passes {c d : Cursor} {t : Token} {ts : List Token} {k : Keyword}
    (h : c.Passes (t :: ts) d) (hk : Spells v t k) : c.keyword? v = some k := by
  rw [Cursor.keyword?_eq_some_iff, h.token]
  exact hk

/-- An atom does not start with a keyword. -/
theorem keyword?_of_atom {n : Nat} {ts : List Token} {t : Condition} {c d : Cursor}
    (h : Derives v n ts (.atom t)) (hp : c.Passes ts d) : c.keyword? v = none := by
  -- A group starts with a parenthesis, a comparison with a field.
  cases h with
  | group =>
      apply keyword?_eq_none_of_token
      simp [hp.token]
  | comparison hc =>
      cases hc with
      | value hf => exact keyword?_eq_none_of_word hp.token (v.keyword?_of_isField hf)
      | range hf => exact keyword?_eq_none_of_word hp.token (v.keyword?_of_isField hf)
      | index hf => exact keyword?_eq_none_of_word hp.token (v.keyword?_of_isField hf)

/-- In front of further operands stands their operator or what stands behind them. -/
theorem keyword?_of_operands {n : Nat} {ts : List Token} {op : BoolOp} {cs : List Condition}
    {c d : Cursor} (h : Derives v n ts (.operands op cs)) (hp : c.Passes ts d) :
    c.keyword? v = some op.keyword ∨ c = d := by
  cases h with
  | noOperands => exact .inr hp.eq_of_nil.symm
  | operands hk => exact .inl (keyword?_of_passes hp hk)

/-- What closes a chain closes each of its operands, whether or not others follow it. -/
theorem Closes.operand {n : Nat} {ts : List Token} {op : BoolOp} {t : Condition}
    {cs : List Condition} {c d : Cursor} (h : Derives v n ts (.operands op cs))
    (hp : c.Passes ts d) (hd : Closes v d (.operands op cs)) : Closes v c (.operand op t) := by
  intro k hk
  cases op with
  | and => simp [Phrase.continuing] at hk
  | or =>
      obtain rfl : k = .and := by simpa [Phrase.continuing] using hk
      -- Only another `and` would make the operand longer, and behind it stands an `or` or the end.
      rcases keyword?_of_operands h hp with hor | rfl
      · simp [hor, BoolOp.keyword]
      · exact hd .and (by simp [Phrase.continuing])

theorem Closes.unary {d : Cursor} {t : Condition} : Closes v d (.unary t) :=
  fun _ hk => absurd hk List.not_mem_nil

theorem Closes.atom {d : Cursor} {t : Condition} : Closes v d (.atom t) :=
  fun _ hk => absurd hk List.not_mem_nil

/-- A closing parenthesis closes every phrase in front of it. -/
theorem Closes.of_closeParen {d e : Cursor} {p : Phrase} {ts : List Token}
    (h : d.Passes (.closeParen :: ts) e) : Closes v d p := by
  have hnone : d.keyword? v = none := keyword?_eq_none_of_token (by simp [h.token])
  simp [Closes, hnone]

/-! ## Reading to the end -/

/-- A comparison that is derived is read as its actions. -/
theorem recognized_comparison {c d : Cursor} {ts : List Token} {t : Condition}
    (h : Comparison v ts t) (hp : c.Passes ts d) : Yields (comparison v c) t.actions d := by
  cases h with
  | @value f text tok l op hf hop hl =>
      obtain ⟨c₁, hp₁, hp⟩ := hp.split_cons
      obtain ⟨c₂, hp₂, hp₃⟩ := hp.split_cons
      obtain ⟨name, hname, rfl, rfl⟩ := Cursor.yields_field.mpr ⟨hp₁, hf⟩
      have htok := hp₂.token
      refine yields_bind.mpr ⟨name, hname, ?_⟩
      dsimp only
      split
      next op' hop' =>
        obtain rfl : op' = op := by simpa [htok, hop] using hop'.symm
        obtain ⟨b, hb, rfl⟩ := Cursor.advance_of_passes hp₂ (Token.ne_end_of_valueOp? hop')
        obtain ⟨o, ho, rfl, rfl⟩ := Cursor.yields_literal.mpr ⟨l, hp₃, hl⟩
        exact yields_bind.mpr ⟨b, hb, yields_bind.mpr ⟨o, ho, _, rfl, rfl, rfl⟩⟩
      next hnone => simp [htok, hop] at hnone
  | @range f w tok op hf hop hw =>
      obtain ⟨c₁, hp₁, hp⟩ := hp.split_cons
      obtain ⟨c₂, hp₂, hp₃⟩ := hp.split_cons
      obtain ⟨name, hname, rfl, rfl⟩ := Cursor.yields_field.mpr ⟨hp₁, hf⟩
      have htok := hp₂.token
      -- None of the four orderings is one of the two operators that are asked for first.
      have hnv : name.rest.token.valueOp? = none := by
        rw [htok]
        cases tok <;> simp_all [Token.valueOp?, Token.rangeOp?]
      refine yields_bind.mpr ⟨name, hname, ?_⟩
      dsimp only
      split
      next op' hop' => simp [hnv] at hop'
      next =>
        split
        next op' hop' =>
          obtain rfl : op' = op := by simpa [htok, hop] using hop'.symm
          obtain ⟨b, hb, rfl⟩ := Cursor.advance_of_passes hp₂ (Token.ne_end_of_rangeOp? hop')
          obtain ⟨o, ho, rfl, rfl⟩ := Cursor.yields_word.mpr ⟨hp₃, hw⟩
          exact yields_bind.mpr ⟨b, hb, yields_bind.mpr ⟨o, ho, _, rfl, rfl, rfl⟩⟩
        next hnone => simp [htok, hop] at hnone
  | @index f text tok l hf hk hl =>
      obtain ⟨c₁, hp₁, hp⟩ := hp.split_cons
      obtain ⟨c₂, hp₂, hp₃⟩ := hp.split_cons
      obtain ⟨name, hname, rfl, rfl⟩ := Cursor.yields_field.mpr ⟨hp₁, hf⟩
      have htok := hp₂.token
      obtain ⟨w, hw, hm⟩ := hk
      refine yields_bind.mpr ⟨name, hname, ?_⟩
      dsimp only
      split
      -- A word is no operator, so the recognizer comes to ask for the keyword.
      next op' hop' => simp [htok, hw, Token.valueOp?] at hop'
      next =>
        split
        next op' hop' => simp [htok, hw, Token.rangeOp?] at hop'
        next =>
          obtain ⟨b, hb, rfl⟩ := Cursor.eat?_eq_some_iff.mpr ⟨tok, hp₂, w, hw, hm⟩
          obtain ⟨o, ho, rfl, rfl⟩ := Cursor.yields_literal.mpr ⟨l, hp₃, hl⟩
          exact yields_bind.mpr ⟨some b, hb, yields_bind.mpr ⟨o, ho, _, rfl, rfl, rfl⟩⟩

namespace Recognized

variable {b c d e : Cursor} {op : BoolOp} {t : Condition} {ts : List Condition} {k : Token}

theorem chain (first : Recognized v c e (.operand op t))
    (more : Recognized v e d (.operands op ts)) :
    Recognized v c d (.chain op (ts.foldl (.compound op) t)) := by
  obtain ⟨p, hy, hv, rfl⟩ := first
  obtain ⟨q, hy', hv', rfl⟩ := more
  show Yields (Grammar.chain v op c) _ _
  rw [chain_eq]
  refine yields_bind.mpr ⟨p, hy, yields_bind.mpr ⟨q, hy', _, rfl, ?_, rfl⟩⟩
  rw [Phrase.actions, Condition.actions_foldl, hv, hv']
  rfl

/-- Without their keyword there are no further operands. -/
theorem noOperands (h : c.keyword? v ≠ some op.keyword) : Recognized v c c (.operands op []) := by
  show Yields (Grammar.operands v op c) _ _
  rw [operands_eq]
  -- Nothing is eaten, and the cursor stays.
  exact yields_bind.mpr ⟨none, Cursor.eat?_eq_none_iff.mpr h, _, rfl, rfl, rfl⟩

/-- Further operands are read behind their keyword. -/
theorem operands (hb : c.Passes [k] b) (hk : Spells v k op.keyword)
    (right : Recognized v b e (.operand op t)) (more : Recognized v e d (.operands op ts)) :
    Recognized v c d (.operands op (t :: ts)) := by
  obtain ⟨b, heat, rfl⟩ := Cursor.eat?_eq_some_iff.mpr ⟨k, hb, hk⟩
  obtain ⟨p, hy, hv, rfl⟩ := right
  obtain ⟨q, hy', hv', rfl⟩ := more
  show Yields (Grammar.operands v op c) _ _
  rw [operands_eq]
  refine yields_bind.mpr ⟨some b, heat, yields_bind.mpr ⟨p, hy, yields_bind.mpr
    ⟨q, hy', _, rfl, ?_, rfl⟩⟩⟩
  rw [Phrase.actions, Condition.chainActions_cons, hv, hv']
  rfl

/-- A negation is read if there is room for its level. -/
theorem negation (hb : c.Passes [k] b) (hk : Spells v k .not) (hc : c.depth < v.maxNesting)
    (h : Recognized v b.enter d.enter (.unary t)) : Recognized v c d (.unary (.negated t)) := by
  have hnot := keyword?_of_passes hb hk
  obtain ⟨b, heat, rfl⟩ := Cursor.advance_of_passes hb (Cursor.token_ne_end hnot)
  obtain ⟨p, hy, hv, hr⟩ := h
  show Yields (Grammar.unary v c) _ d
  rw [Grammar.unary, dif_pos hnot]
  refine yields_bind.mpr ⟨(), Cursor.checkNesting_eq_ok_iff.mpr hc, yields_bind.mpr
    ⟨b, heat, yields_bind.mpr ⟨p, hy, _, rfl, ?_, ?_⟩⟩⟩
  · rw [Phrase.actions, Condition.actions, hv]
    rfl
  -- The operand was read one level deeper, which is left again.
  · show p.rest.leave = d
    rw [hr, Cursor.leave_enter]

/-- Without a `not` in front a unary is an atom. -/
theorem atom (hc : c.keyword? v ≠ some .not) (h : Recognized v c d (.atom t)) :
    Recognized v c d (.unary t) := by
  show Yields (Grammar.unary v c) _ d
  rw [Grammar.unary, dif_neg hc]
  exact h

/-- A group is read if there is room for its level. -/
theorem group (hb : c.Passes [.openParen] b) (hc : c.depth < v.maxNesting)
    (h : Recognized v b.enter e.enter (.chain .or t)) (hd : e.Passes [.closeParen] d) :
    Recognized v c d (.atom t) := by
  have hopen := hb.token
  obtain ⟨b, heat, rfl⟩ := Cursor.advance_of_passes hb (by simp [hopen])
  obtain ⟨p, hy, hv, hr⟩ := h
  -- The closing parenthesis is read before the level is left.
  have hclose : p.rest.Passes [.closeParen] d.enter := by
    rw [hr]
    exact hd.enter
  obtain ⟨q, hq, -, hr'⟩ := (Cursor.yields_expect (by decide)).mpr hclose
  show Yields (Grammar.atom v c) _ d
  rw [Grammar.atom, dif_pos hopen]
  refine yields_bind.mpr ⟨(), Cursor.checkNesting_eq_ok_iff.mpr hc, yields_bind.mpr
    ⟨b, heat, yields_bind.mpr ⟨p, hy, yields_bind.mpr ⟨q, hq, _, rfl, hv, ?_⟩⟩⟩⟩
  show q.rest.leave = d
  rw [hr', Cursor.leave_enter]

theorem comparison {us : List Token} (hp : c.Passes us d) (h : Comparison v us t) :
    Recognized v c d (.atom t) := by
  have hopen : c.token ≠ .openParen := by
    cases h <;> simp [hp.token]
  show Yields (Grammar.atom v c) _ d
  rw [Grammar.atom, dif_neg hopen]
  exact recognized_comparison h hp

end Recognized

/-- A phrase that is derived within the limit is read to its end, in front of a token that does not
    make it longer. -/
theorem recognized_of_derives {n : Nat} {ts : List Token} {p : Phrase} (h : Derives v n ts p) :
    ∀ {c d : Cursor}, c.Passes ts d → c.depth + n ≤ v.maxNesting → Closes v d p →
      Recognized v c d p := by
  -- The induction is on the derivation: the cursor passes the parts of a phrase one after another,
  -- and each part is closed by the token in front of which the next one starts.
  induction h with
  | chain _ hmore ihfirst ihmore =>
      intro c d hp hn hd
      obtain ⟨e, hpe, hpd⟩ := hp.split
      have hdepth := hpe.depth
      exact (ihfirst hpe (by omega) (.operand hmore hpd hd)).chain (ihmore hpd (by omega) hd)
  | @noOperands op =>
      intro c d hp hn hd
      obtain rfl := hp.eq_of_nil
      -- The operator would continue the chain, so it is not what stands here.
      apply Recognized.noOperands
      apply hd
      cases op <;> simp [Phrase.continuing, BoolOp.keyword]
  | operands hk _ hmore ihright ihmore =>
      intro c d hp hn hd
      obtain ⟨b, hpb, hp⟩ := hp.split_cons
      obtain ⟨e, hpe, hpd⟩ := hp.split
      have hbdepth := hpb.depth
      have hdepth := hpe.depth
      exact .operands hpb hk (ihright hpe (by omega) (.operand hmore hpd hd))
        (ihmore hpd (by omega) hd)
  | conjunction _ ih => exact fun hp hn hd => ih hp hn hd
  | unary _ ih => exact fun hp hn hd => ih hp hn hd
  | negation hk _ ih =>
      intro c d hp hn hd
      obtain ⟨b, hpb, hp⟩ := hp.split_cons
      have hdepth : b.enter.depth = c.depth + 1 := by rw [Cursor.depth_enter, hpb.depth]
      exact .negation hpb hk (by omega) (ih hp.enter (by omega) .unary)
  | atom h ih =>
      intro c d hp hn hd
      exact (ih hp hn .atom).atom (by simp [keyword?_of_atom h hp])
  | group _ ih =>
      intro c d hp hn hd
      obtain ⟨b, hpb, hp⟩ := hp.split_cons
      obtain ⟨e, hpe, hpd⟩ := hp.split
      have hdepth : b.enter.depth = c.depth + 1 := by rw [Cursor.depth_enter, hpb.depth]
      exact .group hpb (by omega) (ih hpe.enter (by omega) (.of_closeParen hpd.enter)) hpd
  | comparison h => exact fun hp _ _ => .comparison hp h

/-! ## Nesting too deep -/

/-- The reading fails because a `not` or a parenthesis is one too many. -/
def TooDeep {α : Type} (v : Vocabulary) (r : Except SyntaxError α) : Prop :=
  ∃ p, r = .error (.nestingTooDeep v.maxNesting p)

theorem TooDeep.bind {α β : Type} {x : Except SyntaxError α} (f : α → Except SyntaxError β)
    (h : TooDeep v x) : TooDeep v (x >>= f) := by
  obtain ⟨p, hp⟩ := h
  exact ⟨p, bind_of_error f hp⟩

theorem TooDeep.bind_of_ok {α β : Type} {x : Except SyntaxError α} {y : α}
    {f : α → Except SyntaxError β} (hx : x = .ok y) (h : TooDeep v (f y)) :
    TooDeep v (x >>= f) := by
  obtain ⟨p, hp⟩ := h
  exact ⟨p, (RecordQuery.bind_of_ok f hx).trans hp⟩

/-- The production of the phrase fails at `c` because it nests too deep. -/
def Refused (v : Vocabulary) (c : Cursor) (p : Phrase) : Prop :=
  match p with
  | .chain op _ => TooDeep v (chain v op c)
  | .operand op _ => TooDeep v (operand v op c)
  | .operands op _ => TooDeep v (operands v op c)
  | .unary _ => TooDeep v (unary v c)
  | .atom _ => TooDeep v (atom v c)

namespace Refused

variable {b c e : Cursor} {op : BoolOp} {t t' : Condition} {ts : List Condition} {k : Token}

/-- A chain whose first operand is refused. -/
theorem first (h : Refused v c (.operand op t)) : Refused v c (.chain op t') := by
  show TooDeep v (Grammar.chain v op c)
  rw [chain_eq]
  exact TooDeep.bind _ h

/-- A chain of which a later operand is refused. -/
theorem more (first : Recognized v c e (.operand op t)) (h : Refused v e (.operands op ts)) :
    Refused v c (.chain op t') := by
  obtain ⟨p, hy, -, rfl⟩ := first
  show TooDeep v (Grammar.chain v op c)
  rw [chain_eq]
  -- What is read in front of the failure does not hide it.
  exact .bind_of_ok hy (TooDeep.bind _ h)

/-- Operands of which the first is refused. -/
theorem operands (hb : c.Passes [k] b) (hk : Spells v k op.keyword)
    (h : Refused v b (.operand op t)) : Refused v c (.operands op (t :: ts)) := by
  obtain ⟨b, heat, rfl⟩ := Cursor.eat?_eq_some_iff.mpr ⟨k, hb, hk⟩
  show TooDeep v (Grammar.operands v op c)
  rw [operands_eq]
  exact .bind_of_ok heat (TooDeep.bind _ h)

/-- Operands of which one behind the first is refused. -/
theorem moreOperands (hb : c.Passes [k] b) (hk : Spells v k op.keyword)
    (right : Recognized v b e (.operand op t)) (h : Refused v e (.operands op ts)) :
    Refused v c (.operands op (t :: ts)) := by
  obtain ⟨b, heat, rfl⟩ := Cursor.eat?_eq_some_iff.mpr ⟨k, hb, hk⟩
  obtain ⟨p, hy, -, rfl⟩ := right
  show TooDeep v (Grammar.operands v op c)
  rw [operands_eq]
  exact .bind_of_ok heat (.bind_of_ok hy (TooDeep.bind _ h))

/-- There is no room for the `not` itself, or not enough for what it negates. -/
theorem negation (hb : c.Passes [k] b) (hk : Spells v k .not)
    (h : c.depth < v.maxNesting → Refused v b.enter (.unary t)) :
    Refused v c (.unary (.negated t)) := by
  have hnot := keyword?_of_passes hb hk
  obtain ⟨b, heat, rfl⟩ := Cursor.advance_of_passes hb (Cursor.token_ne_end hnot)
  show TooDeep v (Grammar.unary v c)
  rw [Grammar.unary, dif_pos hnot]
  by_cases hc : c.depth < v.maxNesting
  · have hcheck : c.checkNesting v = .ok () := Cursor.checkNesting_eq_ok_iff.mpr hc
    exact .bind_of_ok hcheck (.bind_of_ok heat (TooDeep.bind _ (h hc)))
  · exact .bind _ ⟨c.position, Cursor.checkNesting_of_le (by omega)⟩

theorem atom (hc : c.keyword? v ≠ some .not) (h : Refused v c (.atom t)) :
    Refused v c (.unary t) := by
  show TooDeep v (Grammar.unary v c)
  rw [Grammar.unary, dif_neg hc]
  exact h

/-- There is no room for the parenthesis itself, or not enough for what is in it. -/
theorem group (hb : c.Passes [.openParen] b)
    (h : c.depth < v.maxNesting → Refused v b.enter (.chain .or t)) :
    Refused v c (.atom t) := by
  have hopen := hb.token
  obtain ⟨b, heat, rfl⟩ := Cursor.advance_of_passes hb (by simp [hopen])
  show TooDeep v (Grammar.atom v c)
  rw [Grammar.atom, dif_pos hopen]
  by_cases hc : c.depth < v.maxNesting
  · have hcheck : c.checkNesting v = .ok () := Cursor.checkNesting_eq_ok_iff.mpr hc
    exact .bind_of_ok hcheck (.bind_of_ok heat (TooDeep.bind _ (h hc)))
  · exact .bind _ ⟨c.position, Cursor.checkNesting_of_le (by omega)⟩

end Refused

/-- A phrase that nests deeper than the limit is refused for that, however its tokens go on. -/
theorem refused_of_derives {n : Nat} {ts : List Token} {p : Phrase} (h : Derives v n ts p) :
    ∀ {c d : Cursor}, c.Passes ts d → c.depth ≤ v.maxNesting → v.maxNesting < c.depth + n →
      Closes v d p → Refused v c p := by
  -- Some part of the phrase is too deep, and the parts in front of the first such are read.
  induction h with
  | @chain m n ts us op t cs hfirst hmore ihfirst ihmore =>
      intro c d hp hc hn hd
      obtain ⟨e, hpe, hpd⟩ := hp.split
      have hdepth := hpe.depth
      have hclosed : Closes v e (.operand op t) := .operand hmore hpd hd
      by_cases hm : v.maxNesting < c.depth + m
      · exact (ihfirst hpe hc hm hclosed).first
      · have hread := recognized_of_derives hfirst hpe (by omega) hclosed
        exact .more hread (ihmore hpd (by omega) (by omega) hd)
  | noOperands =>
      intro c d _ hc hn
      omega
  | @operands m n k ts us op t cs hk hright hmore ihright ihmore =>
      intro c d hp hc hn hd
      obtain ⟨b, hpb, hp⟩ := hp.split_cons
      obtain ⟨e, hpe, hpd⟩ := hp.split
      have hbdepth := hpb.depth
      have hdepth := hpe.depth
      have hclosed : Closes v e (.operand op t) := .operand hmore hpd hd
      by_cases hm : v.maxNesting < c.depth + m
      · exact .operands hpb hk (ihright hpe (by omega) (by omega) hclosed)
      · have hread := recognized_of_derives hright hpe (by omega) hclosed
        exact .moreOperands hpb hk hread (ihmore hpd (by omega) (by omega) hd)
  | conjunction _ ih => exact fun hp hc hn hd => ih hp hc hn hd
  | unary _ ih => exact fun hp hc hn hd => ih hp hc hn hd
  | negation hk _ ih =>
      intro c d hp hc hn hd
      obtain ⟨b, hpb, hp⟩ := hp.split_cons
      have hdepth : b.enter.depth = c.depth + 1 := by rw [Cursor.depth_enter, hpb.depth]
      exact .negation hpb hk fun hroom => ih hp.enter (by omega) (by omega) .unary
  | atom h ih =>
      intro c d hp hc hn hd
      exact (ih hp hc hn .atom).atom (by simp [keyword?_of_atom h hp])
  | group _ ih =>
      intro c d hp hc hn hd
      obtain ⟨b, hpb, hp⟩ := hp.split_cons
      obtain ⟨e, hpe, hpd⟩ := hp.split
      have hdepth : b.enter.depth = c.depth + 1 := by rw [Cursor.depth_enter, hpb.depth]
      exact .group hpb fun hroom =>
        ih hpe.enter (by omega) (by omega) (.of_closeParen hpd.enter)
  | comparison =>
      intro c d _ hc hn
      omega

end Grammar

end RecordQuery
