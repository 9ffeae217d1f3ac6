/-
  RecordQuery.Proofs.Grammar.Gap

  Criteria with a gap in the place of one text that a field is compared with. A string in the tokens
  of a query is such a text and nothing else: whatever string stands in its place, the tokens derive
  the same query with the gap filled by that string.
-/

import RecordQuery.Proofs.Grammar.Derivation

namespace RecordQuery

/-! ## Gaps -/

/-- A tree of criteria with a gap in it. The type `τ` is that of the criteria beside the gap: as
    they are written, or as they are read. -/
inductive Gap (τ : Type) where
  | value (field : String) (op : ValueOp)
  | index (field : String)
  | inLeft (op : BoolOp) (gap : Gap τ) (right : τ)
  | inRight (op : BoolOp) (left : τ) (gap : Gap τ)
  | negated (gap : Gap τ)

namespace Gap

/-- The condition with a text in the gap. -/
def condition : Gap Condition → String → Condition
  | .value field op, s => .value field op s
  | .index field, s => .index field s
  | .inLeft op gap right, s => .compound op (gap.condition s) right
  | .inRight op left gap, s => .compound op left (gap.condition s)
  | .negated gap, s => .negated (gap.condition s)

/-- The criteria with a text in the gap. -/
def criteria : Gap Criteria → String → Criteria
  | .value field op, s => .value field op s
  | .index field, s => .index field s
  | .inLeft op gap right, s => .compound op (gap.criteria s) right
  | .inRight op left gap, s => .compound op left (gap.criteria s)
  | .negated gap, s => .negated (gap.criteria s)

/-- The gap as it is read: the words beside it that should be integers are. -/
def read : Gap Condition → Except ValueError (Gap Criteria)
  | .value field op => .ok (.value field op)
  | .index field => .ok (.index field)
  | .inLeft op gap right => do
    let g ← gap.read
    let r ← right.read
    return .inLeft op g r
  | .inRight op left gap => do
    let l ← left.read
    let g ← gap.read
    return .inRight op l g
  | .negated gap => do
    let g ← gap.read
    return .negated g

/-- Reading does not look at the text in the gap. -/
theorem read_condition (g : Gap Condition) (s : String) :
    (g.condition s).read = g.read.map (·.criteria s) := by
  induction g with
  | value field op => rfl
  | index field => rfl
  | inLeft op gap right ih =>
      rw [condition, Condition.read, ih, read]
      cases gap.read <;> cases right.read <;> rfl
  | inRight op left gap ih =>
      rw [condition, Condition.read, ih, read]
      cases left.read <;> cases gap.read <;> rfl
  | negated gap ih =>
      rw [condition, Condition.read, ih, read]
      cases gap.read <;> rfl

/-- The text in the gap is pushed once, between actions that do not depend on it. -/
theorem actions_condition (g : Gap Condition) :
    ∃ pre post, ∀ s, (g.condition s).actions = pre ++ .push s :: post := by
  induction g with
  | value field op => exact ⟨[.push field, .push op.symbol], [.addValueCriteria], fun s => rfl⟩
  | index field => exact ⟨[.push field], [.addIndexCriteria], fun s => rfl⟩
  | inLeft op gap right ih =>
      obtain ⟨pre, post, h⟩ := ih
      refine ⟨pre, post ++ .push op.symbol :: right.actions ++ [.addCompoundCriteria], fun s => ?_⟩
      simp [condition, Condition.actions, h s]
  | inRight op left gap ih =>
      obtain ⟨pre, post, h⟩ := ih
      refine ⟨left.actions ++ .push op.symbol :: pre, post ++ [.addCompoundCriteria], fun s => ?_⟩
      simp [condition, Condition.actions, h s]
  | negated gap ih =>
      obtain ⟨pre, post, h⟩ := ih
      refine ⟨pre, post ++ [.addNegatedCriteria], fun s => ?_⟩
      simp [condition, Condition.actions, h s]

/-- A gap in the first operand of a chain. -/
theorem condition_foldl_left (op : BoolOp) (g : Gap Condition) (cs : List Condition) (s : String) :
    (cs.foldl (.inLeft op) g).condition s = cs.foldl (.compound op) (g.condition s) := by
  induction cs generalizing g with
  | nil => rfl
  | cons c cs ih => exact ih (.inLeft op g c)

end Gap

namespace Grammar

variable {v : Vocabulary}

/-! ## Lists with a string in them -/

/-- An element of two lists, one behind the other, is in the first or in the second. -/
theorem append_eq_append_cons {α : Type} {a b us vs : List α} {x : α}
    (h : a ++ b = us ++ x :: vs) :
    (∃ ws, a = us ++ x :: ws ∧ vs = ws ++ b) ∨ ∃ ws, b = ws ++ x :: vs ∧ us = a ++ ws := by
  rcases List.append_eq_append_iff.mp h with ⟨ws, hus, hb⟩ | ⟨ws, ha, hvs⟩
  · exact .inr ⟨ws, hb, hus⟩
  · cases ws with
    | nil => exact .inr ⟨[], hvs.symm, by simpa using ha.symm⟩
    | cons y ws =>
        obtain ⟨rfl, rfl⟩ := List.cons.inj hvs
        exact .inl ⟨ws, ha, rfl⟩

/-- The tokens hold no string. -/
def NoLiteral (ts : List Token) : Prop :=
  ∀ x, .literal x ∉ ts

/-- Behind tokens with a string stand none: the string is in front of them. -/
theorem NoLiteral.left {ts us vs ws : List Token} {x : String} (h : NoLiteral ws)
    (heq : ts ++ ws = us ++ .literal x :: vs) :
    ∃ vs', ts = us ++ .literal x :: vs' ∧ vs = vs' ++ ws := by
  rcases append_eq_append_cons heq with hleft | ⟨us', rfl, -⟩
  · exact hleft
  · exact absurd (by simp) (h x)

/-- In front of tokens with a string stand none: the string is behind them. -/
theorem NoLiteral.right {ts us vs ws : List Token} {x : String} (h : NoLiteral ts)
    (heq : ts ++ ws = us ++ .literal x :: vs) :
    ∃ us', ws = us' ++ .literal x :: vs ∧ us = ts ++ us' := by
  rcases append_eq_append_cons heq with ⟨vs', rfl, -⟩ | hright
  · exact absurd (by simp) (h x)
  · exact hright

/-- Behind tokens that hold no string, the last one is the string. -/
theorem NoLiteral.last {ts us vs : List Token} {t : Token} {x : String} (h : NoLiteral ts)
    (heq : ts ++ [t] = us ++ .literal x :: vs) : us = ts ∧ t = .literal x ∧ vs = [] := by
  obtain ⟨us', ht, rfl⟩ := h.right heq
  rcases List.append_eq_singleton_iff.mp ht.symm with ⟨rfl, h'⟩ | ⟨-, h'⟩
  · obtain ⟨rfl, rfl⟩ := List.cons.inj h'
    exact ⟨List.append_nil ts, rfl, rfl⟩
  · cases h'

theorem NoLiteral.cons {t : Token} {ts : List Token} (ht : ∀ x, t ≠ .literal x)
    (h : NoLiteral ts) : NoLiteral (t :: ts) := by
  intro x hx
  rcases List.mem_cons.mp hx with heq | hx
  · exact ht x heq.symm
  · exact h x hx

theorem NoLiteral.append {ts us : List Token} (ht : NoLiteral ts) (hu : NoLiteral us) :
    NoLiteral (ts ++ us) := fun x hx =>
  (List.mem_append.mp hx).elim (ht x) (hu x)

theorem noLiteral_nil : NoLiteral [] := fun _ => List.not_mem_nil

/-- Keywords are no strings. -/
theorem noLiteral_of_spells {ks : List Token} {keywords : List Keyword}
    (h : List.Forall₂ (Spells v) ks keywords) : NoLiteral ks := by
  induction h with
  | nil => exact noLiteral_nil
  | cons hk _ ih =>
      obtain ⟨w, rfl, -⟩ := hk
      exact ih.cons (by simp)

theorem noLiteral_of_spelt {k : Token} {keyword : Keyword} (h : Spells v k keyword) :
    NoLiteral [k] :=
  noLiteral_of_spells (.cons h .nil)

/-! ## Criteria -/

variable (v) in
/-- The string `x` between the tokens `us` and `vs` fills a gap in a condition of the phrase, and
    every other string does so in its place. -/
def Fills (n : Nat) (us : List Token) (x : String) (vs : List Token) : Phrase → Prop
  | .chain op c => ∃ g : Gap Condition, g.condition x = c ∧
      ∀ s, Derives v n (us ++ .literal s :: vs) (.chain op (g.condition s))
  | .operand op c => ∃ g : Gap Condition, g.condition x = c ∧
      ∀ s, Derives v n (us ++ .literal s :: vs) (.operand op (g.condition s))
  | .operands op cs => ∃ before, ∃ g : Gap Condition, ∃ after,
      before ++ g.condition x :: after = cs ∧
        ∀ s, Derives v n (us ++ .literal s :: vs) (.operands op (before ++ g.condition s :: after))
  | .unary c => ∃ g : Gap Condition, g.condition x = c ∧
      ∀ s, Derives v n (us ++ .literal s :: vs) (.unary (g.condition s))
  | .atom c => ∃ g : Gap Condition, g.condition x = c ∧
      ∀ s, Derives v n (us ++ .literal s :: vs) (.atom (g.condition s))

/-- A string that a field is compared with. -/
theorem comparison_fills {us vs : List Token} {x : String} {c : Condition}
    (h : Comparison v (us ++ .literal x :: vs) c) : Fills v 0 us x vs (.atom c) := by
  generalize hts : us ++ .literal x :: vs = ts at h
  cases h with
  | @value f text t l op hf ht hl =>
      have hfront : NoLiteral [.word f, t] := by
        refine .cons (by simp) (.cons ?_ noLiteral_nil)
        rintro x rfl
        simp [Token.valueOp?] at ht
      obtain ⟨rfl, rfl, rfl⟩ := hfront.last hts.symm
      cases hl
      exact ⟨.value f op, rfl, fun s => .comparison (.value hf ht (.quoted s))⟩
  | @range f w t op hf ht hw =>
      have hall : NoLiteral [.word f, t, .word w] := by
        refine .cons (by simp) (.cons ?_ (.cons (by simp) noLiteral_nil))
        rintro x rfl
        simp [Token.rangeOp?] at ht
      exact absurd (hts ▸ by simp) (hall x)
  | @index f text t l hf ht hl =>
      have hfront : NoLiteral [.word f, t] := (noLiteral_of_spelt ht).cons (by simp)
      obtain ⟨rfl, rfl, rfl⟩ := hfront.last hts.symm
      cases hl
      exact ⟨.index f, rfl, fun s => .comparison (.index hf ht (.quoted s))⟩

/-- A string in the tokens of a phrase fills a gap of the phrase. -/
theorem derives_fills {n : Nat} {ts : List Token} {p : Phrase} (h : Derives v n ts p) :
    ∀ us x vs, ts = us ++ .literal x :: vs → Fills v n us x vs p := by
  -- Along the derivation: the string is in exactly one of the parts that a rule puts together.
  induction h with
  | @chain m n ts us' op c cs first more ihFirst ihMore =>
      intro us x vs h
      rcases append_eq_append_cons h with ⟨ws, hfirst, rfl⟩ | ⟨ws, hmore, rfl⟩
      · obtain ⟨g, rfl, hd⟩ := ihFirst _ _ _ hfirst
        refine ⟨cs.foldl (.inLeft op) g, Gap.condition_foldl_left op g cs x, fun s => ?_⟩
        rw [Gap.condition_foldl_left]
        simpa using Derives.chain (hd s) more
      · -- The operands in front of the one with the gap make up what is left of it.
        obtain ⟨before, g, after, rfl, hd⟩ := ihMore _ _ _ hmore
        refine ⟨after.foldl (.inLeft op) (.inRight op (before.foldl (.compound op) c) g), ?_,
          fun s => ?_⟩
        · rw [Gap.condition_foldl_left, List.foldl_append]
          rfl
        · have hchain := Derives.chain first (hd s)
          rw [List.foldl_append] at hchain
          rw [Gap.condition_foldl_left, Gap.condition]
          simpa using hchain
  | noOperands => intro us x vs h; simp at h
  | @operands m n k ts us' op c cs hk right more ihRight ihMore =>
      intro us x vs h
      have h' : [k] ++ (ts ++ us') = us ++ .literal x :: vs := h
      obtain ⟨ws, hws, rfl⟩ := (noLiteral_of_spelt hk).right h'
      rcases append_eq_append_cons hws with ⟨ws', hright, rfl⟩ | ⟨ws', hmore, rfl⟩
      · obtain ⟨g, rfl, hd⟩ := ihRight _ _ _ hright
        refine ⟨[], g, cs, rfl, fun s => ?_⟩
        simpa using Derives.operands hk (hd s) more
      · obtain ⟨before, g, after, rfl, hd⟩ := ihMore _ _ _ hmore
        refine ⟨c :: before, g, after, rfl, fun s => ?_⟩
        simpa using Derives.operands hk right (hd s)
  | conjunction _ ih =>
      intro us x vs h
      obtain ⟨g, hg, hd⟩ := ih _ _ _ h
      exact ⟨g, hg, fun s => .conjunction (hd s)⟩
  | unary _ ih =>
      intro us x vs h
      obtain ⟨g, hg, hd⟩ := ih _ _ _ h
      exact ⟨g, hg, fun s => .unary (hd s)⟩
  | @negation n k ts c hk _ ih =>
      intro us x vs h
      have h' : [k] ++ ts = us ++ .literal x :: vs := h
      obtain ⟨ws, rfl, rfl⟩ := (noLiteral_of_spelt hk).right h'
      obtain ⟨g, rfl, hd⟩ := ih _ _ _ rfl
      exact ⟨.negated g, rfl, fun s => .negation hk (hd s)⟩
  | atom _ ih =>
      intro us x vs h
      obtain ⟨g, hg, hd⟩ := ih _ _ _ h
      exact ⟨g, hg, fun s => .atom (hd s)⟩
  | @group n ts c _ ih =>
      intro us x vs h
      have hopen : NoLiteral [.openParen] := by simp [NoLiteral]
      have hclose : NoLiteral [.closeParen] := by simp [NoLiteral]
      have h' : [.openParen] ++ (ts ++ [.closeParen]) = us ++ .literal x :: vs := h
      obtain ⟨ws, hws, rfl⟩ := hopen.right h'
      obtain ⟨ws', rfl, rfl⟩ := hclose.left hws
      obtain ⟨g, hg, hd⟩ := ih _ _ _ rfl
      refine ⟨g, hg, fun s => ?_⟩
      simpa using Derives.group (hd s)
  | comparison hc =>
      rintro us x vs rfl
      exact comparison_fills hc

/-! ## Clauses -/

theorem noLiteral_of_listed {α : Type} {item : List Token → α → Prop} {ts : List Token}
    {as : List α} (hitem : ∀ ts a, item ts a → NoLiteral ts) (h : Listed item ts as) :
    NoLiteral ts := by
  induction h with
  | one h => exact hitem _ _ h
  | more h _ ih => exact (hitem _ _ h).append (ih.cons (by simp))

/-- A clause holds no string if its body holds none. -/
theorem noLiteral_of_clause {α : Type} {keywords : List Keyword} {body : List Token → α → Prop}
    {ts : List Token} {a : Option α} (hbody : ∀ ts a, body ts a → NoLiteral ts)
    (h : Clause v keywords body ts a) : NoLiteral ts := by
  cases h with
  | absent => exact noLiteral_nil
  | present hk h => exact (noLiteral_of_spells hk).append (hbody _ _ h)

theorem noLiteral_of_field (ts : List Token) (f : String) (h : Field v ts f) : NoLiteral ts := by
  cases h
  exact noLiteral_nil.cons (by simp)

theorem noLiteral_of_namespaceName (ts : List Token) (name : String)
    (h : NamespaceName v ts name) : NoLiteral ts := by
  cases h
  exact noLiteral_nil.cons (by simp)

theorem noLiteral_of_limitWord (ts : List Token) (w : String) (h : LimitWord v ts w) :
    NoLiteral ts := by
  cases h
  exact noLiteral_nil.cons (by simp)

theorem noLiteral_of_orderItem (ts : List Token) (spec : OrderSpec) (h : OrderItem v ts spec) :
    NoLiteral ts := by
  cases h with
  | plain _ => exact noLiteral_nil.cons (by simp)
  | ascending _ hk => exact (noLiteral_of_spelt hk).cons (by simp)
  | descending _ hk => exact (noLiteral_of_spelt hk).cons (by simp)

/-- A selector holds no string. -/
theorem noLiteral_of_selector {ts : List Token} {selector : Selector}
    (h : DerivesSelector v ts selector) : NoLiteral ts := by
  cases h with
  | simple _ => exact noLiteral_nil.cons (by simp)
  | compound h _ => exact noLiteral_of_listed noLiteral_of_field h
  | function _ _ _ => simp [NoLiteral]

/-- A string in a clause that holds criteria is in the criteria. -/
theorem filter_fills {n : Nat} {us vs : List Token} {x : String} {filter : Option Condition}
    (h : Filter v n (us ++ .literal x :: vs) filter) :
    ∃ g : Gap Condition, filter = some (g.condition x) ∧
      ∀ s, Filter v n (us ++ .literal s :: vs) (some (g.condition s)) := by
  generalize hts : us ++ .literal x :: vs = ts at h
  cases h with
  | absent => simp at hts
  | @present _ k ts c hk h =>
      have heq : [k] ++ ts = us ++ .literal x :: vs := hts.symm
      obtain ⟨us', rfl, rfl⟩ := (noLiteral_of_spelt hk).right heq
      obtain ⟨g, rfl, hd⟩ := derives_fills h _ _ _ rfl
      exact ⟨g, rfl, fun s => .present hk (hd s)⟩

end Grammar

/-! ## Queries -/

/-- The draft with other criteria, or none. -/
def Draft.withFilter (filter : Option Condition) : Draft → Draft
  | .select selector source _ order limit => .select selector source filter order limit
  | .delete source _ limit => .delete source filter limit

namespace Draft

/-- The actions of the criteria stand between actions that do not depend on them. -/
theorem actions_withFilter (d : Draft) :
    ∃ pre post, ∀ c, (d.withFilter (some c)).actions = pre ++ (c.actions ++ post) := by
  cases d with
  | select selector source filter order limit =>
      refine ⟨.setSelectOp :: selector.actions ++ sourceActions source,
        .setCriteria :: (orderActions order ++ limitActions limit), fun c => ?_⟩
      simp [withFilter, actions, filterActions]
  | delete source filter limit =>
      refine ⟨.setDeleteOp :: sourceActions source, .setCriteria :: limitActions limit,
        fun c => ?_⟩
      simp [withFilter, actions, filterActions]

/-- The criteria are read before the rest of the query, and by themselves. -/
theorem read_withFilter (d : Draft) (c : Condition) :
    (d.withFilter (some c)).read = do
      let criteria ← c.read
      let q ← (d.withFilter none).read
      return { q with criteria := some criteria } := by
  cases d with
  | select selector source filter order limit =>
      rw [withFilter, withFilter, read, read, readFilter, readFilter]
      cases c.read <;> cases readLimit limit <;> rfl
  | delete source filter limit =>
      rw [withFilter, withFilter, read, read, readFilter, readFilter]
      cases c.read <;> cases readLimit limit <;> rfl

/-- A text in the criteria is pushed once, between actions that do not depend on it. -/
theorem actions_gap (d : Draft) (g : Gap Condition) :
    ∃ pre post, ∀ s, (d.withFilter (some (g.condition s))).actions = pre ++ .push s :: post := by
  obtain ⟨pre, post, hd⟩ := d.actions_withFilter
  obtain ⟨pre', post', hg⟩ := g.actions_condition
  refine ⟨pre ++ pre', post' ++ post, fun s => ?_⟩
  simp [hd, hg]

/-- A text in the criteria is read as it is, and nothing else that is read depends on it. -/
theorem read_gap (d : Draft) (g : Gap Condition) :
    (∃ q : Query, ∃ h : Gap Criteria, ∀ s, (d.withFilter (some (g.condition s))).read =
      .ok { q with criteria := some (h.criteria s) }) ∨
    ∃ e, ∀ s, (d.withFilter (some (g.condition s))).read = .error e := by
  simp only [read_withFilter, Gap.read_condition]
  cases g.read with
  | error e => exact .inr ⟨e, fun s => rfl⟩
  | ok h =>
      cases (d.withFilter none).read with
      | error e => exact .inr ⟨e, fun s => rfl⟩
      | ok q => exact .inl ⟨q, h, fun s => rfl⟩

end Draft

namespace Grammar

variable {v : Vocabulary}

/-- A string in the tokens of a query fills a gap in its criteria, and so does any other string. -/
theorem derivesQuery_fills {n : Nat} {us vs : List Token} {x : String} {d : Draft}
    (h : DerivesQuery v n (us ++ .literal x :: vs) d) :
    ∃ g : Gap Condition, d = d.withFilter (some (g.condition x)) ∧
      ∀ s, DerivesQuery v n (us ++ .literal s :: vs) (d.withFilter (some (g.condition s))) := by
  generalize hts : us ++ .literal x :: vs = ts at h
  cases h with
  | @select k ss fs ws os ls selector source filter order limit hk hs hf hw ho hl =>
      -- Only the clause that holds criteria can hold the string.
      have hfront : NoLiteral (k :: (ss ++ fs)) := (noLiteral_of_spelt hk).append
        ((noLiteral_of_selector hs).append (noLiteral_of_clause noLiteral_of_namespaceName hf))
      have hback : NoLiteral (os ++ ls) :=
        (noLiteral_of_clause (fun _ _ => noLiteral_of_listed noLiteral_of_orderItem) ho).append
          (noLiteral_of_clause noLiteral_of_limitWord hl)
      have heq : k :: (ss ++ fs) ++ (ws ++ (os ++ ls)) = us ++ .literal x :: vs := by
        simp [hts]
      obtain ⟨us, hws, rfl⟩ := hfront.right heq
      obtain ⟨vs, rfl, rfl⟩ := hback.left hws
      obtain ⟨g, rfl, hd⟩ := filter_fills hw
      refine ⟨g, rfl, fun s => ?_⟩
      simpa [Draft.withFilter] using DerivesQuery.select hk hs hf (hd s) ho hl
  | @delete k fs ws ls source filter limit hk hf hw hl =>
      have hfront : NoLiteral (k :: fs) :=
        (noLiteral_of_spelt hk).append (noLiteral_of_clause noLiteral_of_namespaceName hf)
      have hback : NoLiteral ls := noLiteral_of_clause noLiteral_of_limitWord hl
      have heq : k :: fs ++ (ws ++ ls) = us ++ .literal x :: vs := by
        simp [hts]
      obtain ⟨us, hws, rfl⟩ := hfront.right heq
      obtain ⟨vs, rfl, rfl⟩ := hback.left hws
      obtain ⟨g, rfl, hd⟩ := filter_fills hw
      refine ⟨g, rfl, fun s => ?_⟩
      simpa [Draft.withFilter] using DerivesQuery.delete hk hf (hd s) hl

end Grammar

end RecordQuery
