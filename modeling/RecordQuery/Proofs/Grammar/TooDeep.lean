/-
  RecordQuery.Proofs.Grammar.TooDeep

  Where a text is refused for nesting too deep: at the first of its tokens that opens a level beyond
  the limit. Only the clause with criteria can be refused for that, and what is in front of it opens
  no level.
-/

import RecordQuery.Proofs.Grammar.Level

namespace RecordQuery

variable {v : Vocabulary}

/-! ## In front of the criteria -/

theorem keyword?_of_listed {ts : List Token} {fields : List String}
    (h : Grammar.Listed (Grammar.Field v) ts fields) : ∀ t ∈ ts, t.keyword? v = none := by
  induction h with
  | one h =>
      cases h with
      | word hf => simp [Token.keyword?, v.keyword?_of_isField hf]
  | more h _ ih =>
      cases h with
      | word hf => simpa [Token.keyword?, v.keyword?_of_isField hf] using ih

/-- A selector holds no keyword. -/
theorem keyword?_of_selector {ts : List Token} {s : Selector}
    (h : Grammar.DerivesSelector v ts s) : ∀ t ∈ ts, t.keyword? v = none := by
  cases h with
  | simple hf => simp [Token.keyword?, v.keyword?_of_isField hf]
  | compound h => exact keyword?_of_listed h
  | function hk hn hf => simp [Token.keyword?, hk, v.keyword?_of_isField hf]

theorem keyword?_of_source {ts : List Token} {source : Option String}
    (h : Grammar.Clause v [.source] (Grammar.NamespaceName v) ts source) :
    ∀ t ∈ ts, t.keyword? v ≠ some .filter := by
  cases h with
  | absent => simp
  | present hk hname =>
      cases hk with
      | cons hk hnil =>
          cases hnil
          cases hname with
          | word hn =>
              obtain ⟨w, rfl, hw⟩ := hk
              simp [Token.keyword?, hw, v.keyword?_of_isNamespace hn]

/-! ## Levels of whole texts -/

section

variable {pre crit : List Token} {w : Token} (hpre : ∀ t ∈ pre, t.keyword? v ≠ some .filter)
  (hw : w.keyword? v = some .filter)
include hpre

theorem levels?_eq_none : levels? v pre = none := by
  have hnil : pre.dropWhile (fun t => t.keyword? v ≠ some .filter) = [] := by
    simpa [List.dropWhile_eq_nil_iff] using hpre
  rw [levels?, hnil]

include hw

/-- Behind the keyword of criteria levels are counted from none. -/
theorem levels?_criteria (us : List Token) :
    levels? v (pre ++ w :: us) = some (levelsAfter v [] us) := by
  have hdrop : (pre ++ w :: us).dropWhile (fun t => t.keyword? v ≠ some .filter) = w :: us := by
    rw [List.dropWhile_append_of_pos (by simpa using hpre)]
    simp [hw]
  rw [levels?, hdrop]

/-- The tokens that open levels are those of the criteria that do. -/
theorem levelOpened?_eq_some_iff {i n : Nat} :
    levelOpened? v (pre ++ w :: crit) i = some n ↔
      ∃ us t more, crit = us ++ t :: more ∧ i = (pre ++ w :: us).length ∧
        (t.opening? v).isSome ∧ n = (levelsAfter v [] us).length + 1 := by
  constructor
  · intro h
    obtain ⟨t, ht, h⟩ := Option.bind_eq_some_iff.mp h
    obtain ⟨x, hx, h⟩ := Option.bind_eq_some_iff.mp h
    obtain ⟨levels, hlevels, h⟩ := Option.bind_eq_some_iff.mp h
    obtain rfl := Option.some.inj h
    by_cases hi : i ≤ pre.length
    · -- Up to here the keyword of the clause is not among the tokens.
      rw [List.take_append_of_le_length hi, levels?_eq_none] at hlevels
      · cases hlevels
      · exact fun u hu => hpre u (List.mem_of_mem_take hu)
    · obtain ⟨k, rfl⟩ : ∃ k, i = pre.length + (k + 1) := ⟨i - pre.length - 1, by omega⟩
      rw [List.getElem?_append_right (Nat.le_add_right _ _), Nat.add_sub_cancel_left,
        List.getElem?_cons_succ] at ht
      rw [List.take_length_add_append, List.take_succ_cons, levels?_criteria hpre hw] at hlevels
      obtain rfl := Option.some.inj hlevels
      obtain ⟨hk, rfl⟩ := List.getElem?_eq_some_iff.mp ht
      refine ⟨crit.take k, crit[k], crit.drop (k + 1), ?_, ?_, by rw [hx]; rfl, rfl⟩
      · rw [← List.drop_eq_getElem_cons, List.take_append_drop]
      · simp only [List.length_append, List.length_cons, List.length_take]
        omega
  · rintro ⟨us, t, more, rfl, rfl, ht, rfl⟩
    obtain ⟨x, hx⟩ := Option.isSome_iff_exists.mp ht
    have htokens : pre ++ w :: (us ++ t :: more) = (pre ++ w :: us) ++ t :: more := by simp
    refine Option.bind_eq_some_iff.mpr ⟨t, ?_, Option.bind_eq_some_iff.mpr ⟨x, hx,
      Option.bind_eq_some_iff.mpr ⟨levelsAfter v [] us, ?_, rfl⟩⟩⟩
    · rw [htokens, List.getElem?_append_right (Nat.le_refl _), Nat.sub_self]
      rfl
    · rw [htokens, List.take_left, levels?_criteria hpre hw]

end

/-! ## Refusals -/

section

open Production

variable {c : Cursor} {limit : Nat} {p : Position}

theorem accept_ne_tooDeep (hs : c.Settled) (k : Keyword) :
    accept (spelt v k) c ≠ .error (.nestingTooDeep limit p) :=
  ne_tooDeep_of_const (P := fun w => accept (spelt w k)) (fun _ => rfl)
    fun _ => Follows.accept hs (respects_spelt k) rfl

/-- A clause with criteria is refused where its criteria are. -/
theorem criteria_of_filterClause_tooDeep (hs : c.Settled)
    (h : Grammar.filterClause v c = .error (.nestingTooDeep limit p)) :
    ∃ b, c.Passes [c.token] b ∧ c.token.keyword? v = some .filter ∧
      of (Grammar.chain v .or) b = .error (.nestingTooDeep limit p) := by
  rw [filterClause_eq] at h
  obtain h | ⟨⟨found, b⟩, haccept, h⟩ := bind_eq_error.mp h
  · exact absurd h (accept_ne_tooDeep hs .filter)
  cases found with
  | none => cases h
  | some u =>
      have hfilter : c.token.keyword? v = some .filter := by
        by_contra hne
        rw [accept_of_none (if_neg hne)] at haccept
        cases haccept
      refine ⟨b, passes_of_accept rfl haccept, hfilter, ?_⟩
      obtain h | ⟨_, -, h⟩ := bind_eq_error.mp h
      · exact h
      · cases h

/-- What is read in front of a clause that is refused for its nesting. -/
def RefusedAt (v : Vocabulary) (c : Cursor) (limit : Nat) (p : Position) : Prop :=
  ∃ ts b, c.Passes ts b ∧ (∀ t ∈ ts, t.keyword? v ≠ some .filter) ∧
    Grammar.filterClause v b = .error (.nestingTooDeep limit p)

/-- What is refused behind tokens in front of the criteria is refused in the whole. -/
theorem RefusedAt.behind {ts : List Token} {b : Cursor} (h : RefusedAt v b limit p)
    (hp : c.Passes ts b) (hts : ∀ t ∈ ts, t.keyword? v ≠ some .filter) :
    RefusedAt v c limit p := by
  obtain ⟨us, d, hus, hfree, hrefused⟩ := h
  exact ⟨ts ++ us, d, hp.trans hus, List.forall_mem_append.mpr ⟨hts, hfree⟩, hrefused⟩

/-- What follows the source can only be refused for its nesting in the criteria. -/
theorem refusedAt_sourceClause {F : List Action → Production (List Action)} (hs : c.Settled)
    (hF : ∀ source d, d.Settled → F source d = .error (.nestingTooDeep limit p) →
      RefusedAt v d limit p)
    (h : (Grammar.sourceClause v >>= F) c = .error (.nestingTooDeep limit p)) :
    RefusedAt v c limit p := by
  obtain h | ⟨⟨source, d⟩, hsource, h⟩ := bind_eq_error.mp h
  · exact absurd h (ne_tooDeep_of_const (P := Grammar.sourceClause) sourceClause_withNesting
      fun w => Follows.sourceClause (.refl w) hs)
  · obtain ⟨ts, name, hp, hclause, -⟩ := Grammar.sound_sourceClause hs hsource
    exact (hF source d hp.settled h).behind hp (keyword?_of_source hclause)

/-- What starts with criteria can only be refused for its nesting in them. -/
theorem refusedAt_filterClause {F : List Action → Production (List Action)}
    (hs : c.Settled)
    (hF : ∀ filter d, d.Settled → F filter d ≠ .error (.nestingTooDeep limit p))
    (h : (Grammar.filterClause v >>= F) c = .error (.nestingTooDeep limit p)) :
    RefusedAt v c limit p := by
  obtain h | ⟨⟨filter, d⟩, hfilter, h⟩ := bind_eq_error.mp h
  · exact ⟨[], c, .refl hs, by simp, h⟩
  · obtain ⟨ts, hp, -⟩ := (Follows.filterClause (.refl v) hs).ok hfilter
    exact absurd h (hF filter d hp.settled)

theorem refusedAt_selectTail (hs : c.Settled)
    (h : Grammar.selectTail v c = .error (.nestingTooDeep limit p)) : RefusedAt v c limit p := by
  rw [selectTail_eq] at h
  obtain h | ⟨⟨selector, d⟩, hselector, h⟩ := bind_eq_error.mp h
  · exact absurd h (ne_tooDeep_of_const (P := Grammar.selector) selector_withNesting
      fun w => Follows.selector (.refl w) hs)
  obtain ⟨ts, s, hp, hderives, -⟩ := Grammar.sound_selector hselector
  have hfree : ∀ t ∈ ts, t.keyword? v ≠ some .filter := by
    intro t ht
    simp [keyword?_of_selector hderives t ht]
  refine RefusedAt.behind ?_ hp hfree
  refine refusedAt_sourceClause hp.settled (fun source e he h => ?_) h
  refine refusedAt_filterClause he (fun filter f hf h => ?_) h
  -- Neither sorting nor bounding asks how deep the criteria nest.
  obtain h | ⟨⟨order, g⟩, horder, h⟩ := bind_eq_error.mp h
  · exact ne_tooDeep_of_const (P := Grammar.orderClause) orderClause_withNesting
      (fun w => Follows.orderClause (.refl w) hf) h
  obtain ⟨us, hg, -⟩ := (Follows.orderClause (.refl v) hf).ok horder
  obtain h | ⟨_, -, h⟩ := bind_eq_error.mp h
  · exact ne_tooDeep_of_const (P := Grammar.limitClause) limitClause_withNesting
      (fun w => Follows.limitClause hg.settled) h
  · cases h

theorem refusedAt_deleteTail (hs : c.Settled)
    (h : Grammar.deleteTail v c = .error (.nestingTooDeep limit p)) : RefusedAt v c limit p := by
  rw [deleteTail_eq] at h
  refine refusedAt_sourceClause hs (fun source d hd h => ?_) h
  refine refusedAt_filterClause hd (fun filter e he h => ?_) h
  obtain h | ⟨_, -, h⟩ := bind_eq_error.mp h
  · exact ne_tooDeep_of_const (P := Grammar.limitClause) limitClause_withNesting
      (fun w => Follows.limitClause he) h
  · cases h

/-- Behind the keyword of an operation, only its tail can be refused for its nesting. -/
theorem refusedAt_operation {P : Production (List Action)} {b : Cursor} {k : Keyword}
    (hk : k ≠ .filter) (haccept : accept (spelt v k) c = .ok (some (), b))
    (hP : b.Settled → P b = .error (.nestingTooDeep limit p) → RefusedAt v b limit p)
    (hsteps : b.Settled → Follows v v P P b)
    (h : (P >>= atEnd) b = .error (.nestingTooDeep limit p)) : RefusedAt v c limit p := by
  have hp := passes_of_accept rfl haccept
  have hkey : c.token.keyword? v = some k := by
    by_contra hne
    rw [accept_of_none (if_neg (by simpa using hne))] at haccept
    cases haccept
  obtain h | ⟨⟨actions, d⟩, hactions, h⟩ := bind_eq_error.mp h
  · refine (hP hp.settled h).behind hp ?_
    simp [hkey, hk]
  · obtain ⟨us, hd, -⟩ := (hsteps hp.settled).ok hactions
    exact absurd h (ne_tooDeep_of_const (v := v) (P := fun _ => atEnd actions) (fun _ => rfl)
      fun w => Follows.atEnd hd.settled actions)

/-- A query that nests too deep is refused at a token of its criteria. -/
theorem refusedAt_query (hs : c.Settled)
    (h : query v c = .error (.nestingTooDeep limit p)) : RefusedAt v c limit p := by
  obtain h | ⟨⟨found, b⟩, haccept, h⟩ := bind_eq_error.mp h
  · exact absurd h (accept_ne_tooDeep hs .select)
  cases found with
  | some u =>
      exact refusedAt_operation (by decide) haccept refusedAt_selectTail
        (fun hb => Follows.selectTail (.refl v) hb) h
  | none =>
      rw [eq_of_accept haccept] at h
      obtain h | ⟨⟨found, d⟩, haccept, h⟩ := bind_eq_error.mp h
      · exact absurd h (accept_ne_tooDeep hs .delete)
      cases found with
      | some u =>
          exact refusedAt_operation (by decide) haccept refusedAt_deleteTail
            (fun hd => Follows.deleteTail (.refl v) hd) h
      | none => cases h

end

/-! ## The token that opens a level too many -/

/-- The first token that opens a level beyond the limit stands at the position. -/
def TooDeepAt (v : Vocabulary) (text : String) (p : Position) : Prop :=
  ∃ i, TokenAt text i p ∧ levelOpened? v (tokensOf text) i = some (v.maxNesting + 1) ∧
    ∀ j < i, ∀ n, levelOpened? v (tokensOf text) j = some n → n ≤ v.maxNesting

/-- A text is refused for its nesting at the first token that opens a level beyond the limit. -/
theorem tooDeepAt_of_recognize {text : String} {limit : Nat} {p : Position}
    (h : recognize v text = .error (.nestingTooDeep limit p)) : TooDeepAt v text p := by
  have hs : (Cursor.front text).Settled := by
    by_contra hs
    obtain ⟨l, hl, -⟩ := recognize_of_not_settled (v := v) hs
    cases hl.symm.trans h
  rw [recognize_of_settled hs] at h
  obtain ⟨pre, b, hpre, hfree, hrefused⟩ := refusedAt_query hs (map_eq_error.mp h)
  obtain ⟨e, he, hfilter, hchain⟩ := criteria_of_filterClause_tooDeep hpre.settled hrefused
  have hdepth : e.depth = 0 := he.depth.trans hpre.depth
  obtain ⟨us, d, hus, rfl, hin, hopen, hlen⟩ :=
    ((Leveled.criteria v).1 .or e [] he.settled rfl hdepth (Nat.zero_le _)).tooDeep hchain
  have hd : (Cursor.front text).Passes (pre ++ b.token :: us) d := hpre.trans (he.trans hus)
  obtain ⟨more, htokens⟩ := tokensOf_of_passes hd
  rw [List.append_assoc, List.cons_append] at htokens
  refine ⟨_, hd.tokenAt, ?_, fun j hj n hn => ?_⟩
  · rw [htokens, levelOpened?_eq_some_iff hfree hfilter]
    exact ⟨us, d.token, more, rfl, rfl, hopen, by rw [hlen]⟩
  · rw [htokens, levelOpened?_eq_some_iff hfree hfilter] at hn
    obtain ⟨us', t, more', hcrit, rfl, ht, rfl⟩ := hn
    have hlt : us'.length < us.length := by
      simp only [List.length_append, List.length_cons] at hj
      omega
    -- The token is one of those in front of the refused one, which have all found room.
    have hus' := List.take_append_drop us'.length us
    rw [List.drop_eq_getElem_cons hlt] at hus'
    rw [← hus', List.append_assoc, List.cons_append] at hcrit
    obtain ⟨hfront, hbehind⟩ := List.append_inj hcrit (by simp [Nat.le_of_lt hlt])
    obtain ⟨rfl, -⟩ := List.cons.inj hbehind
    rw [← hus', hfront] at hin
    exact hin.room ht

/-- A level that is closed counts no more: the second parenthesis opens the level behind `not`. -/
example : levelOpened? .standard (tokensOf "delete where (a = 1) and not (b = 2)") 9 = some 2 := by
  decide +kernel

end RecordQuery
