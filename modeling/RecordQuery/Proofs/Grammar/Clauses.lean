/-
  RecordQuery.Proofs.Grammar.Clauses

  Selectors, clauses and queries that can be derived are recognized. No clause has an end of its
  own: it is over where the keyword of a later clause stands, or the end of the text.
-/

import RecordQuery.Proofs.Grammar.Completeness

namespace RecordQuery

namespace Grammar

variable {v : Vocabulary}

/-! ## In front of clauses -/

/-- The cursor stands in front of one of the keywords or at the end of the text. -/
def Before (v : Vocabulary) (ks : List Keyword) (c : Cursor) : Prop :=
  (∃ k ∈ ks, c.keyword? v = some k) ∨ c.token = .endOfText

/-- In front of some keywords or the end stands no other one. -/
theorem Before.keyword?_ne {ks : List Keyword} {c : Cursor} {k : Keyword} (h : Before v ks c)
    (hk : k ∉ ks) : c.keyword? v ≠ some k := by
  rcases h with ⟨k', hmem, hk'⟩ | hend
  · rw [hk']
    rintro ⟨⟩
    exact hk hmem
  · simp [Cursor.keyword?, hend]

/-- Keywords are words, so no other token stands there but the end. -/
theorem Before.token_ne {ks : List Keyword} {c : Cursor} {t : Token} (h : Before v ks c)
    (hw : ∀ w, t ≠ .word w) (he : t ≠ .endOfText) : c.token ≠ t := by
  rcases h with ⟨k, -, hk⟩ | hend
  · obtain ⟨w, hcw, -⟩ := Cursor.keyword?_eq_some_iff.mp hk
    rw [hcw]
    exact (hw w).symm
  · rw [hend]
    exact he.symm

theorem Before.mono {ks ls : List Keyword} {c : Cursor} (h : Before v ks c) (hsub : ks ⊆ ls) :
    Before v ls c :=
  h.imp_left fun ⟨k, hmem, hk⟩ => ⟨k, hsub hmem, hk⟩

/-- In front of a clause, written or not, stands its keyword or what stands behind it. -/
theorem Before.clause {α : Type} {k : Keyword} {keys ks : List Keyword}
    {body : List Token → α → Prop} {ts : List Token} {a : Option α} {c d : Cursor}
    (h : Clause v (k :: keys) body ts a) (hp : c.Passes ts d) (hd : Before v ks d) :
    Before v (k :: ks) c := by
  cases h with
  | absent =>
      obtain rfl := hp.eq_of_nil
      exact hd.mono (List.subset_cons_self k ks)
  | present hk _ =>
      cases hk with
      | cons hk _ => exact .inl ⟨k, List.mem_cons_self, keyword?_of_passes hp hk⟩

/-- In front of a clause with criteria that may be missing stands its keyword, or one that may
    follow. -/
theorem Before.filter {n : Nat} {ks : List Keyword} {ts : List Token} {a : Option Condition}
    {c d : Cursor} (h : Filter v n ts a) (hp : c.Passes ts d) (hd : Before v ks d) :
    Before v (.filter :: ks) c := by
  cases h with
  | absent =>
      obtain rfl := hp.eq_of_nil
      exact hd.mono (List.subset_cons_self .filter ks)
  | present hk _ => exact .inl ⟨.filter, List.mem_cons_self, keyword?_of_passes hp hk⟩

/-! ## Selectors -/

/-- Further fields are read up to something that is no comma. -/
theorem recognized_moreFields {us : List Token} {names : List String}
    (h : Listed (Field v) us names) :
    ∀ {c d : Cursor}, c.Passes (.comma :: us) d → d.token ≠ .comma →
      Yields (moreFields v c) names d := by
  induction h with
  | one hfield =>
      cases hfield with
      | word hf =>
          intro c d hp hd
          obtain ⟨b, hpb, hpn⟩ := hp.split_cons
          have hcomma := hpb.token
          obtain ⟨b, hb, rfl⟩ := Cursor.advance_of_passes hpb (by simp [hcomma])
          obtain ⟨name, hn, rfl, rfl⟩ := Cursor.yields_field.mpr ⟨hpn, hf⟩
          rw [moreFields, dif_pos hcomma]
          refine yields_bind.mpr ⟨b, hb, yields_bind.mpr ⟨name, hn, ?_⟩⟩
          -- Behind the last field stands no comma.
          rw [moreFields, dif_neg hd]
          exact ⟨_, rfl, rfl, rfl⟩
  | more hfield _ ih =>
      cases hfield with
      | word hf =>
          intro c d hp hd
          obtain ⟨b, hpb, hp⟩ := hp.split_cons
          obtain ⟨e, hpn, hpm⟩ := hp.split_cons
          have hcomma := hpb.token
          obtain ⟨b, hb, rfl⟩ := Cursor.advance_of_passes hpb (by simp [hcomma])
          obtain ⟨name, hn, rfl, rfl⟩ := Cursor.yields_field.mpr ⟨hpn, hf⟩
          obtain ⟨more, hm, rfl, rfl⟩ := ih hpm hd
          rw [moreFields, dif_pos hcomma]
          exact yields_bind.mpr ⟨b, hb, yields_bind.mpr ⟨name, hn,
            yields_bind.mpr ⟨more, hm, _, rfl, rfl, rfl⟩⟩⟩

/-- A selector that is derived is read in front of the clauses. -/
theorem recognized_selector {ts : List Token} {s : Selector} {c d : Cursor}
    (h : DerivesSelector v ts s) (hp : c.Passes ts d)
    (hd : Before v [.source, .filter, .order, .limit] d) :
    selector v c = .ok (s.actions, d) := by
  have hcomma : d.token ≠ .comma := hd.token_ne (by simp) (by simp)
  have hopen : d.token ≠ .openParen := hd.token_ne (by simp) (by simp)
  cases h with
  | @simple f hf =>
      obtain ⟨first, hw, rfl, rfl⟩ :=
        Cursor.yields_word.mpr ⟨hp, v.keyword?_of_isField hf⟩
      refine bind_eq_ok.mpr ⟨first, hw, ?_⟩
      -- Neither a parenthesis nor a comma follows, so the word is the only field.
      rw [dif_neg hopen, moreFields, dif_neg hcomma, hf]
      rfl
  | @compound _ fields hl hseveral =>
      cases hl with
      -- One field does not make a compound selector.
      | one => simp at hseveral
      | @more _ us _ names hfield hrest =>
          cases hfield with
          | @word f hf =>
              obtain ⟨e, hpw, hpm⟩ := hp.split_cons
              obtain ⟨first, hw, rfl, rfl⟩ :=
                Cursor.yields_word.mpr ⟨hpw, v.keyword?_of_isField hf⟩
              obtain ⟨more, hm, rfl, rfl⟩ := recognized_moreFields hrest hpm hcomma
              refine bind_eq_ok.mpr ⟨first, hw, ?_⟩
              -- A comma follows, which is no parenthesis.
              rw [dif_neg (by simp [hpm.token]), hf]
              refine bind_eq_ok.mpr ⟨more, hm, ?_⟩
              rw [if_neg (by simpa using hrest.ne_nil)]
              rfl
  | @function name f hk hname hf =>
      obtain ⟨c₁, hpw, hp⟩ := hp.split_cons
      obtain ⟨c₂, hpb, hp⟩ := hp.split_cons
      obtain ⟨c₃, hpa, hpc⟩ := hp.split_cons
      obtain ⟨first, hw, rfl, rfl⟩ := Cursor.yields_word.mpr ⟨hpw, hk⟩
      have hparen := hpb.token
      obtain ⟨b, hb, rfl⟩ := Cursor.advance_of_passes hpb (by simp [hparen])
      obtain ⟨argument, ha, rfl, rfl⟩ := Cursor.yields_field.mpr ⟨hpa, hf⟩
      obtain ⟨closed, hc, -, rfl⟩ := (Cursor.yields_expect (by decide)).mpr hpc
      refine bind_eq_ok.mpr ⟨first, hw, ?_⟩
      -- The parenthesis makes the word a function, whether or not it could name a field.
      rw [dif_pos hparen, hname]
      exact bind_eq_ok.mpr ⟨b, hb, bind_eq_ok.mpr ⟨argument, ha,
        bind_eq_ok.mpr ⟨closed, hc, rfl⟩⟩⟩

/-! ## Clauses -/

/-- A clause of namespaces that is derived is read in front of those behind it. -/
theorem recognized_sourceClause {ts : List Token} {source : Option String} {c d : Cursor}
    (h : Clause v [.source] (NamespaceName v) ts source) (hp : c.Passes ts d)
    (hd : Before v [.filter, .order, .limit] d) :
    sourceClause v c = .ok (Draft.sourceActions source, d) := by
  cases h with
  | absent =>
      obtain rfl := hp.eq_of_nil
      have hno := hd.keyword?_ne (k := .source) (by decide)
      exact bind_eq_ok.mpr ⟨none, Cursor.eat?_eq_none_iff.mpr hno, rfl⟩
  | present hk hname =>
      cases hk with
      | cons hk hnil =>
          cases hnil
          cases hname with
          | word hname =>
              obtain ⟨b, hpb, hpn⟩ := hp.split_cons
              obtain ⟨b, heat, rfl⟩ := Cursor.eat?_eq_some_iff.mpr ⟨_, hpb, hk⟩
              obtain ⟨name, hn, rfl, rfl⟩ :=
                Cursor.yields_word.mpr ⟨hpn, v.keyword?_of_isNamespace hname⟩
              refine bind_eq_ok.mpr ⟨some b, heat, bind_eq_ok.mpr ⟨name, hn, ?_⟩⟩
              rw [if_pos hname]
              rfl

/-- A clause with criteria is read, or refused for their nesting. -/
theorem filterClause_of_derives {n : Nat} {ts : List Token} {filter : Option Condition}
    {c d : Cursor} (h : Filter v n ts filter) (hp : c.Passes ts d) (hc : c.depth ≤ v.maxNesting)
    (hd : Before v [.order, .limit] d) :
    (c.depth + n ≤ v.maxNesting → filterClause v c = .ok (Draft.filterActions filter, d)) ∧
      (v.maxNesting < c.depth + n → TooDeep v (filterClause v c)) := by
  cases h with
  | absent =>
      obtain rfl := hp.eq_of_nil
      have hno := hd.keyword?_ne (k := .filter) (by decide)
      exact ⟨fun _ => bind_eq_ok.mpr ⟨none, Cursor.eat?_eq_none_iff.mpr hno, rfl⟩,
        fun hn => absurd hn (by omega)⟩
  | @present _ _ _ t hk hderives =>
      obtain ⟨b, hpb, hpd⟩ := hp.split_cons
      have hdepth := hpb.depth
      obtain ⟨b, heat, rfl⟩ := Cursor.eat?_eq_some_iff.mpr ⟨_, hpb, hk⟩
      -- Where the clause is over, no operator goes on with the criteria.
      have hcloses : Closes v d (.chain .or t) := by
        intro k hmem
        simp only [Phrase.continuing, List.mem_cons, List.not_mem_nil, or_false] at hmem
        rcases hmem with rfl | rfl
        · exact hd.keyword?_ne (by decide)
        · exact hd.keyword?_ne (by decide)
      constructor
      · intro hn
        obtain ⟨criteria, hcr, hv, rfl⟩ :=
          recognized_of_derives hderives hpd (by omega) hcloses
        refine bind_eq_ok.mpr ⟨some b, heat, bind_eq_ok.mpr ⟨criteria, hcr, ?_⟩⟩
        rw [hv]
        rfl
      · intro hn
        have hdeep := refused_of_derives hderives hpd (by omega) (by omega) hcloses
        exact .bind_of_ok heat (TooDeep.bind _ hdeep)

/-- A field and its direction are read, with no direction behind it. -/
theorem recognized_orderItem {ts : List Token} {spec : OrderSpec} {c d : Cursor}
    (h : OrderItem v ts spec) (hp : c.Passes ts d) (hasc : d.keyword? v ≠ some .asc)
    (hdesc : d.keyword? v ≠ some .desc) :
    ∃ name written, c.field v = .ok name ∧ direction v name.rest = .ok written ∧
      .push name.value :: .addOrderSelector :: written.value = spec.actions ∧
      written.rest = d := by
  cases h with
  | plain hf =>
      obtain ⟨name, hn, rfl, rfl⟩ := Cursor.yields_field.mpr ⟨hp, hf⟩
      -- Both directions are asked for, and neither stands there.
      exact ⟨name, _, hn, bind_eq_ok.mpr ⟨none, Cursor.eat?_eq_none_iff.mpr hasc,
        bind_eq_ok.mpr ⟨none, Cursor.eat?_eq_none_iff.mpr hdesc, rfl⟩⟩, rfl, rfl⟩
  | ascending hf hk =>
      obtain ⟨e, hpn, hpk⟩ := hp.split_cons
      obtain ⟨name, hn, rfl, rfl⟩ := Cursor.yields_field.mpr ⟨hpn, hf⟩
      obtain ⟨b, heat, rfl⟩ := Cursor.eat?_eq_some_iff.mpr ⟨_, hpk, hk⟩
      exact ⟨name, _, hn, bind_eq_ok.mpr ⟨some b, heat, rfl⟩, rfl, rfl⟩
  | descending hf hk =>
      obtain ⟨e, hpn, hpk⟩ := hp.split_cons
      obtain ⟨name, hn, rfl, rfl⟩ := Cursor.yields_field.mpr ⟨hpn, hf⟩
      -- The other direction is asked for first.
      have hno : name.rest.keyword? v ≠ some .asc := by
        rw [keyword?_of_passes hpk hk]
        decide
      obtain ⟨b, heat, rfl⟩ := Cursor.eat?_eq_some_iff.mpr ⟨_, hpk, hk⟩
      exact ⟨name, _, hn, bind_eq_ok.mpr ⟨none, Cursor.eat?_eq_none_iff.mpr hno,
        bind_eq_ok.mpr ⟨some b, heat, rfl⟩⟩, rfl, rfl⟩

/-- The items of an order are read in front of the limit. -/
theorem recognized_orderItems {ts : List Token} {specs : List OrderSpec}
    (h : Listed (OrderItem v) ts specs) :
    ∀ {c d : Cursor}, c.Passes ts d → Before v [.limit] d →
      Yields (orderItems v c) (specs.flatMap OrderSpec.actions) d := by
  induction h with
  | one hitem =>
      intro c d hp hd
      have hcomma : d.token ≠ .comma := hd.token_ne (by simp) (by simp)
      have hasc := hd.keyword?_ne (k := .asc) (by decide)
      have hdesc := hd.keyword?_ne (k := .desc) (by decide)
      obtain ⟨name, written, hn, hw, hspec, rfl⟩ := recognized_orderItem hitem hp hasc hdesc
      rw [orderItems]
      refine yields_bind.mpr ⟨name, hn, yields_bind.mpr ⟨written, hw, ?_⟩⟩
      dsimp only
      rw [dif_neg hcomma, List.flatMap_singleton, ← hspec]
      exact ⟨_, rfl, rfl, rfl⟩
  | more hitem _ ih =>
      intro c d hp hd
      obtain ⟨e, hpi, hp⟩ := hp.split
      obtain ⟨b, hpb, hpm⟩ := hp.split_cons
      have htoken := hpb.token
      -- Between two items stands a comma, which is no direction.
      have hnone : e.keyword? v = none := by
        apply keyword?_eq_none_of_token
        simp [htoken]
      obtain ⟨name, written, hn, hw, hspec, rfl⟩ :=
        recognized_orderItem hitem hpi (by simp [hnone]) (by simp [hnone])
      obtain ⟨b, hb, rfl⟩ := Cursor.advance_of_passes hpb (by simp [htoken])
      obtain ⟨more, hm, hv, rfl⟩ := ih hpm hd
      rw [orderItems]
      refine yields_bind.mpr ⟨name, hn, yields_bind.mpr ⟨written, hw, ?_⟩⟩
      dsimp only
      rw [dif_pos htoken, List.flatMap_cons, ← hspec, ← hv]
      exact yields_bind.mpr ⟨b, hb, yields_bind.mpr ⟨more, hm, _, rfl, rfl, rfl⟩⟩

theorem recognized_orderClause {ts : List Token} {order : Option (List OrderSpec)} {c d : Cursor}
    (h : Clause v [.order, .orderBy] (Listed (OrderItem v)) ts order) (hp : c.Passes ts d)
    (hd : Before v [.limit] d) :
    orderClause v c = .ok (Draft.orderActions (order.getD []), d) := by
  cases h with
  | absent =>
      obtain rfl := hp.eq_of_nil
      have hno := hd.keyword?_ne (k := .order) (by decide)
      exact bind_eq_ok.mpr ⟨none, Cursor.eat?_eq_none_iff.mpr hno, rfl⟩
  | present hks hlisted =>
      cases hks with
      | cons hk hks =>
          cases hks with
          | cons hk' hnil =>
              cases hnil
              obtain ⟨e, hpk, hpi⟩ := hp.split
              obtain ⟨b, hpb, hps⟩ := hpk.split_cons
              obtain ⟨b, heat, rfl⟩ := Cursor.eat?_eq_some_iff.mpr ⟨_, hpb, hk⟩
              obtain ⟨start, hst, -, rfl⟩ := Cursor.yields_expectKeyword.mpr ⟨_, hps, hk'⟩
              obtain ⟨items, hi, hv, rfl⟩ := recognized_orderItems hlisted hpi hd
              refine bind_eq_ok.mpr ⟨some b, heat, bind_eq_ok.mpr ⟨start, hst,
                bind_eq_ok.mpr ⟨items, hi, ?_⟩⟩⟩
              rw [Option.getD_some, Draft.orderActions, if_neg hlisted.ne_nil, hv]
              rfl

/-- The clause of a limit is read at the end of the query. -/
theorem recognized_limitClause {ts : List Token} {limit : Option String} {c d : Cursor}
    (h : Clause v [.limit] (LimitWord v) ts limit) (hp : c.Passes ts d)
    (hd : Before v [] d) :
    limitClause v c = .ok (Draft.limitActions limit, d) := by
  cases h with
  | absent =>
      obtain rfl := hp.eq_of_nil
      have hno := hd.keyword?_ne (k := .limit) (by decide)
      exact bind_eq_ok.mpr ⟨none, Cursor.eat?_eq_none_iff.mpr hno, rfl⟩
  | present hk hword =>
      cases hk with
      | cons hk hnil =>
          cases hnil
          cases hword with
          | word hw =>
              obtain ⟨b, hpb, hpw⟩ := hp.split_cons
              obtain ⟨b, heat, rfl⟩ := Cursor.eat?_eq_some_iff.mpr ⟨_, hpb, hk⟩
              obtain ⟨word, hw, rfl, rfl⟩ := Cursor.yields_word.mpr ⟨hpw, hw⟩
              exact bind_eq_ok.mpr ⟨some b, heat, bind_eq_ok.mpr ⟨word, hw, rfl⟩⟩

/-! ## Queries -/

/-- Behind its first keyword a selection is read if its criteria find room, and refused for their
    nesting otherwise. -/
theorem selectTail_of_derives {n : Nat} {ss fs ws os ls : List Token} {s : Selector}
    {source : Option String} {filter : Option Condition} {order : Option (List OrderSpec)}
    {limit : Option String} {c e : Cursor} (hs : DerivesSelector v ss s)
    (hf : Clause v [.source] (NamespaceName v) fs source) (hw : Filter v n ws filter)
    (ho : Clause v [.order, .orderBy] (Listed (OrderItem v)) os order)
    (hl : Clause v [.limit] (LimitWord v) ls limit)
    (hp : c.Passes (ss ++ fs ++ ws ++ os ++ ls) e) (he : e.token = .endOfText)
    (hc : c.depth = 0) :
    (n ≤ v.maxNesting → selectTail v c =
        .ok (Draft.actions (.select s source filter (order.getD []) limit), e)) ∧
      (v.maxNesting < n → TooDeep v (selectTail v c)) := by
  obtain ⟨c₄, hp, hp₅⟩ := hp.split
  obtain ⟨c₃, hp, hp₄⟩ := hp.split
  obtain ⟨c₂, hp, hp₃⟩ := hp.split
  obtain ⟨c₁, hp₁, hp₂⟩ := hp.split
  -- The criteria are read at depth zero.
  have hdepth : c₂.depth = 0 := by rw [hp₂.depth, hp₁.depth, hc]
  -- From the end backwards: what can stand behind each clause.
  have b₅ : Before v [] e := .inr he
  have b₄ := b₅.clause hl hp₅
  have b₃ := b₄.clause ho hp₄
  have b₂ := b₃.filter hw hp₃
  have b₁ := b₂.clause hf hp₂
  have h₁ := recognized_selector hs hp₁ b₁
  have h₂ := recognized_sourceClause hf hp₂ b₂
  obtain ⟨hread, hdeep⟩ := filterClause_of_derives hw hp₃ (by omega) b₃
  constructor
  · intro hn
    have h₃ := hread (by omega)
    have h₄ := recognized_orderClause ho hp₄ b₄
    have h₅ := recognized_limitClause hl hp₅ b₅
    exact bind_eq_ok.mpr ⟨_, h₁, bind_eq_ok.mpr ⟨_, h₂, bind_eq_ok.mpr ⟨_, h₃,
      bind_eq_ok.mpr ⟨_, h₄, bind_eq_ok.mpr ⟨_, h₅, rfl⟩⟩⟩⟩⟩
  · intro hn
    -- Refused criteria leave the clauses behind them unread.
    exact .bind_of_ok h₁ (.bind_of_ok h₂ ((hdeep (by omega)).bind _))

/-- Behind its first keyword a deletion is read if its criteria find room, and refused for their
    nesting otherwise. -/
theorem deleteTail_of_derives {n : Nat} {fs ws ls : List Token} {source : Option String}
    {filter : Option Condition} {limit : Option String} {c e : Cursor}
    (hf : Clause v [.source] (NamespaceName v) fs source) (hw : Filter v n ws filter)
    (hl : Clause v [.limit] (LimitWord v) ls limit) (hp : c.Passes (fs ++ ws ++ ls) e)
    (he : e.token = .endOfText) (hc : c.depth = 0) :
    (n ≤ v.maxNesting → deleteTail v c =
        .ok (Draft.actions (.delete source filter limit), e)) ∧
      (v.maxNesting < n → TooDeep v (deleteTail v c)) := by
  obtain ⟨c₂, hp, hp₃⟩ := hp.split
  obtain ⟨c₁, hp₁, hp₂⟩ := hp.split
  have hdepth : c₁.depth = 0 := by rw [hp₁.depth, hc]
  have b₃ : Before v [] e := .inr he
  -- A query that deletes has no clause that sorts, so less can stand here than elsewhere.
  have b₂ : Before v [.order, .limit] c₂ :=
    (b₃.clause hl hp₃).mono (List.subset_cons_self _ _)
  have b₁ := b₂.filter hw hp₂
  have h₁ := recognized_sourceClause hf hp₁ b₁
  obtain ⟨hread, hdeep⟩ := filterClause_of_derives hw hp₂ (by omega) b₂
  constructor
  · intro hn
    have h₂ := hread (by omega)
    have h₃ := recognized_limitClause hl hp₃ b₃
    exact bind_eq_ok.mpr ⟨_, h₁, bind_eq_ok.mpr ⟨_, h₂, bind_eq_ok.mpr ⟨_, h₃, rfl⟩⟩⟩
  · intro hn
    exact .bind_of_ok h₁ ((hdeep (by omega)).bind _)

/-- A derived query up to the end of the text is recognized, or refused for its nesting. -/
theorem query_of_derives {n : Nat} {ts : List Token} {d : Draft} {c e : Cursor}
    (h : DerivesQuery v n ts d) (hp : c.Passes ts e) (he : e.token = .endOfText)
    (hc : c.depth = 0) :
    (n ≤ v.maxNesting → query v c = .ok d.actions) ∧
      (v.maxNesting < n → TooDeep v (query v c)) := by
  cases h with
  | select hk hs hf hw ho hl =>
      obtain ⟨b, hpb, hp⟩ := hp.split_cons
      have hdepth : b.depth = 0 := by rw [hpb.depth, hc]
      obtain ⟨b, heat, rfl⟩ := Cursor.eat?_eq_some_iff.mpr ⟨_, hpb, hk⟩
      obtain ⟨hread, hdeep⟩ := selectTail_of_derives hs hf hw ho hl hp he hdepth
      constructor
      · intro hn
        refine bind_eq_ok.mpr ⟨some b, heat, bind_eq_ok.mpr ⟨_, hread hn, ?_⟩⟩
        exact if_pos he
      · intro hn
        exact .bind_of_ok heat ((hdeep hn).bind _)
  | delete hk hf hw hl =>
      obtain ⟨b, hpb, hp⟩ := hp.split_cons
      have hdepth : b.depth = 0 := by rw [hpb.depth, hc]
      -- A word has one keyword only, so the other operation is not read.
      have hno : c.keyword? v ≠ some .select := by
        rw [keyword?_of_passes hpb hk]
        decide
      have hnone : c.eat? v .select = .ok none := Cursor.eat?_eq_none_iff.mpr hno
      obtain ⟨b, heat, rfl⟩ := Cursor.eat?_eq_some_iff.mpr ⟨_, hpb, hk⟩
      obtain ⟨hread, hdeep⟩ := deleteTail_of_derives hf hw hl hp he hdepth
      constructor
      · intro hn
        refine bind_eq_ok.mpr ⟨none, hnone, bind_eq_ok.mpr ⟨some b, heat,
          bind_eq_ok.mpr ⟨_, hread hn, ?_⟩⟩⟩
        exact if_pos he
      · intro hn
        exact .bind_of_ok hnone (.bind_of_ok heat ((hdeep hn).bind _))

end Grammar

end RecordQuery
