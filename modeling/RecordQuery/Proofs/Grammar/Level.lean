/-
  RecordQuery.Proofs.Grammar.Level

  Levels of nesting, counted from the tokens alone. A `not` and a parenthesis each open a level; a
  parenthesis is open up to the one that closes it, and a `not` up to the end of its operand, which
  is where an operator or a closing parenthesis follows. The depth that the recognizer counts is the
  number of levels that are open, so it stops at the first token that would open one too many.
-/

import RecordQuery.Proofs.Grammar.Room

namespace RecordQuery

/-! ## Levels -/

/-- What opens a level. -/
inductive Opening where
  | negation
  | group
deriving DecidableEq, Repr

section

variable (v : Vocabulary)

/-- What the token opens where criteria are read. -/
def Token.opening? (t : Token) : Option Opening :=
  if t = .openParen then some .group
  else if t.keyword? v = some .not then some .negation
  else none

/-- What is open without the negations that end here. -/
def withoutNegations (levels : List Opening) : List Opening :=
  levels.dropWhile (· = .negation)

/-- What is open behind a token, by what is open in front of it, the innermost first. -/
def levelsBehind (levels : List Opening) (t : Token) : List Opening :=
  match t.opening? v with
  | some x => x :: levels
  | none =>
    if t = .closeParen then (withoutNegations levels).tail
    else if t.keyword? v = some .and ∨ t.keyword? v = some .or then withoutNegations levels
    else levels

/-- What is open behind some tokens. -/
def levelsAfter (levels : List Opening) (ts : List Token) : List Opening :=
  ts.foldl (levelsBehind v) levels

/-- What is open behind the first tokens of a query: nothing is counted in front of the clause with
    criteria. -/
def levels? (ts : List Token) : Option (List Opening) :=
  match ts.dropWhile fun t => t.keyword? v ≠ some .filter with
  | [] => none
  | _ :: criteria => some (levelsAfter v [] criteria)

/-- The level that the token with the index `i` of a query opens, if it opens one. -/
def levelOpened? (ts : List Token) (i : Nat) : Option Nat := do
  let t ← ts[i]?
  let _ ← t.opening? v
  let levels ← levels? v (ts.take i)
  return levels.length + 1

/-- No token opens a level beyond the limit. -/
def Within : List Opening → List Token → Prop
  | _, [] => True
  | levels, t :: ts =>
    ((t.opening? v).isSome → levels.length < v.maxNesting) ∧ Within (levelsBehind v levels t) ts

end

variable {v : Vocabulary}

/-- Nothing but a parenthesis opens a group. -/
theorem Token.opening?_eq_group_iff {t : Token} : t.opening? v = some .group ↔ t = .openParen := by
  unfold opening?
  split
  next h => simp [h]
  next h => split <;> simp [h]

/-- Nothing but the keyword `not` opens a negation. -/
theorem Token.opening?_eq_negation_iff {t : Token} :
    t.opening? v = some .negation ↔ t.keyword? v = some .not := by
  unfold opening?
  split
  next h => simp [h, keyword?]
  next h => split <;> simp_all

theorem withoutNegations_withoutNegations (levels : List Opening) :
    withoutNegations (withoutNegations levels) = withoutNegations levels := by
  induction levels with
  | nil => rfl
  | cons x levels ih =>
      cases x with
      | negation => exact ih
      | group => rfl

/-- What is open behind two runs of tokens is told one run after the other. -/
theorem levelsAfter_append (levels : List Opening) (ts us : List Token) :
    levelsAfter v levels (ts ++ us) = levelsAfter v (levelsAfter v levels ts) us :=
  List.foldl_append

/-- Two runs of tokens keep within the limit if each does from where it starts. -/
theorem within_append {levels : List Opening} {ts us : List Token} :
    Within v levels (ts ++ us) ↔
      Within v levels ts ∧ Within v (levelsAfter v levels ts) us := by
  induction ts generalizing levels with
  | nil => simp [Within, levelsAfter]
  | cons t ts ih =>
      rw [List.cons_append, Within, Within, ih, and_assoc]
      rfl

/-- Each token that opens a level finds room for it. -/
theorem Within.room {levels : List Opening} {ts us : List Token} {t : Token}
    (h : Within v levels (ts ++ t :: us)) (ht : (t.opening? v).isSome) :
    (levelsAfter v levels ts).length < v.maxNesting :=
  (within_append.mp h).2.1 ht

/-- An operator between operands ends the negations in front of it. -/
theorem levelsBehind_of_operator {t : Token} {op : BoolOp} (levels : List Opening)
    (h : t.keyword? v = some op.keyword) :
    t.opening? v = none ∧ levelsBehind v levels t = withoutNegations levels := by
  cases t with
  | word w =>
      have hopen : (Token.word w).opening? v = none := by
        rw [Token.opening?, if_neg (by simp), h, if_neg (by cases op <;> decide)]
      refine ⟨hopen, ?_⟩
      rw [levelsBehind, hopen]
      dsimp only
      rw [if_neg (by simp), h, if_pos (by cases op <;> decide)]
  | _ => cases h

/-- A closing parenthesis ends the negations in front of it and then its own group. -/
theorem levelsBehind_closeParen (levels : List Opening) :
    levelsBehind v levels .closeParen = (withoutNegations levels).tail :=
  rfl

/-! ### Comparisons -/

/-- The token neither opens a level nor ends one. -/
structure Neutral (v : Vocabulary) (t : Token) : Prop where
  openParen : t ≠ .openParen
  closeParen : t ≠ .closeParen
  keyword : ∀ k ∈ [Keyword.not, .and, .or], t.keyword? v ≠ some k

theorem Neutral.opening? {t : Token} (h : Neutral v t) : t.opening? v = none := by
  rw [Token.opening?, if_neg h.openParen, if_neg (h.keyword .not (by decide))]

theorem Neutral.levelsBehind {t : Token} (h : Neutral v t) (levels : List Opening) :
    levelsBehind v levels t = levels := by
  have hand := h.keyword .and (by decide)
  have hor := h.keyword .or (by decide)
  rw [RecordQuery.levelsBehind, h.opening?]
  simp [h.closeParen, hand, hor]

/-- A token that is no keyword and no parenthesis is neutral. -/
theorem Neutral.of_keyword? {t : Token} (h : t.keyword? v = none) (hopen : t ≠ .openParen)
    (hclose : t ≠ .closeParen) : Neutral v t :=
  ⟨hopen, hclose, fun k _ => by simp [h]⟩

/-- Neutral tokens leave the levels as they are. -/
theorem levels_of_neutral {ts : List Token} (h : ∀ t ∈ ts, Neutral v t) (levels : List Opening) :
    Within v levels ts ∧ levelsAfter v levels ts = levels := by
  induction ts with
  | nil => exact ⟨trivial, rfl⟩
  | cons t ts ih =>
      obtain ⟨ht, hts⟩ := List.forall_mem_cons.mp h
      obtain ⟨hin, hafter⟩ := ih hts
      have hbehind := ht.levelsBehind levels
      constructor
      · rw [Within, hbehind]
        exact ⟨by simp [ht.opening?], hin⟩
      · rw [levelsAfter, List.foldl_cons, hbehind]
        exact hafter

/-- A literal is neutral, whatever its string holds. -/
theorem neutral_of_literal {t : Token} {text : String} (h : Grammar.Literal v t text) :
    Neutral v t := by
  cases h with
  | quoted content => exact .of_keyword? rfl (by simp) (by simp)
  | bare hw => exact .of_keyword? hw (by simp) (by simp)

theorem neutral_of_valueOp? {t : Token} {op : ValueOp} (h : t.valueOp? = some op) : Neutral v t := by
  refine .of_keyword? ?_ ?_ ?_ <;> cases t <;> simp_all [Token.valueOp?, Token.keyword?]

theorem neutral_of_rangeOp? {t : Token} {op : RangeOp} (h : t.rangeOp? = some op) : Neutral v t := by
  refine .of_keyword? ?_ ?_ ?_ <;> cases t <;> simp_all [Token.rangeOp?, Token.keyword?]

theorem neutral_of_member {t : Token} (h : t.keyword? v = some .member) : Neutral v t := by
  refine ⟨?_, ?_, fun k hk => ?_⟩
  · rintro rfl
    cases h
  · rintro rfl
    cases h
  · rw [h]
    rintro ⟨⟩
    simp at hk

/-- Comparisons open and close nothing. -/
theorem neutral_of_comparison {ts : List Token} {c : Condition} (h : Grammar.Comparison v ts c) :
    ∀ t ∈ ts, Neutral v t := by
  have hword {w : String} (hw : v.keyword? w = none) : Neutral v (.word w) :=
    .of_keyword? hw (by simp) (by simp)
  cases h with
  | @value f text t l op hf ht hl =>
      simp [hword (v.keyword?_of_isField hf), neutral_of_valueOp? ht, neutral_of_literal hl]
  | @range f w t op hf ht hw =>
      simp [hword (v.keyword?_of_isField hf), neutral_of_rangeOp? ht, hword hw]
  | @index f text t l hf ht hl =>
      have hop : Neutral v t := by
        obtain ⟨w, rfl, hw⟩ := ht
        exact neutral_of_member hw
      simp [hword (v.keyword?_of_isField hf), hop, neutral_of_literal hl]

/-! ## Levels along a run -/

section

variable {α β : Type} (v)

/-- A run from `c`, where `levels` are open: no token that it passes opens a level beyond the limit,
    and if it stops for nesting too deep, then in front of a token that would. What is open behind
    it suits what it reads. -/
structure Leveled (c : Cursor) (levels : List Opening) (r : Except SyntaxError (α × Cursor))
    (suits : α → List Opening → Prop) : Prop where
  ok {a : α} {d : Cursor} (h : r = .ok (a, d)) :
    ∃ ts, c.Passes ts d ∧ Within v levels ts ∧ suits a (levelsAfter v levels ts)
  tooDeep {limit : Nat} {p : Position} (h : r = .error (.nestingTooDeep limit p)) :
    ∃ ts d, c.Passes ts d ∧ p = d.position ∧ Within v levels ts ∧
      (d.token.opening? v).isSome ∧ (levelsAfter v levels ts).length = v.maxNesting

end

namespace Leveled

open Production

variable {α β : Type} {c d : Cursor} {levels : List Opening}
  {suits : α → List Opening → Prop} {suits' : β → List Opening → Prop}

/-- A run without tokens leaves the levels as they are. -/
theorem pure {a : α} (hs : c.Settled) (h : suits a levels) :
    Leveled v c levels ((pure a : Production α) c) suits where
  ok h' := by
    obtain ⟨rfl, rfl⟩ := Prod.mk.inj (pure_eq_ok.mp h')
    exact ⟨[], .refl hs, trivial, h⟩
  tooDeep h' := by cases h'

/-- A run that fails for another reason. -/
theorem of_error {e : SyntaxError} (he : ∀ limit p, e ≠ .nestingTooDeep limit p) :
    Leveled v c levels (.error e) suits where
  ok h := by cases h
  tooDeep h := absurd (Except.error.inj h) (he _ _)

/-- The levels behind the first part of a run are those in front of the second. -/
theorem bind {P : Production α} {F : α → Production β} (hP : Leveled v c levels (P c) suits)
    (hF : ∀ a d more, P c = .ok (a, d) → d.Settled → d.depth = c.depth → suits a more →
      Leveled v d more (F a d) suits') : Leveled v c levels ((P >>= F) c) suits' where
  ok {b e} h := by
    obtain ⟨⟨a, d⟩, ha, hb⟩ := bind_eq_ok.mp h
    obtain ⟨ts, hts, hin, hsuits⟩ := hP.ok ha
    obtain ⟨us, hus, hin', hsuits'⟩ := (hF a d _ ha hts.settled hts.depth hsuits).ok hb
    refine ⟨ts ++ us, hts.trans hus, within_append.mpr ⟨hin, hin'⟩, ?_⟩
    rwa [levelsAfter_append]
  tooDeep {limit p} h := by
    obtain h | ⟨⟨a, d⟩, ha, h⟩ := bind_eq_error.mp h
    · exact hP.tooDeep h
    · obtain ⟨ts, hts, hin, hsuits⟩ := hP.ok ha
      obtain ⟨us, e, hus, hp, hin', he, hlen⟩ := (hF a d _ ha hts.settled hts.depth hsuits).tooDeep h
      refine ⟨ts ++ us, e, hts.trans hus, hp, within_append.mpr ⟨hin, hin'⟩, he, ?_⟩
      rwa [levelsAfter_append]

/-- A run that starts by moving behind a token. -/
theorem skip_bind {F : Production β} (ht : c.token ≠ .endOfText)
    (hroom : (c.token.opening? v).isSome → levels.length < v.maxNesting)
    (hF : ∀ d, c.Passes [c.token] d → Leveled v d (levelsBehind v levels c.token) (F d) suits') :
    Leveled v c levels (skip c >>= fun p => F p.2) suits' := by
  cases hskip : skip c with
  | error e =>
      obtain ⟨l, rfl, -⟩ := lexical_of_skip hskip
      exact of_error (by simp)
  | ok p =>
      have hp := passes_of_skip ht hskip
      have hF' := hF p.2 hp
      constructor
      · intro b e h
        obtain ⟨ts, hts, hin, hsuits⟩ := hF'.ok h
        exact ⟨c.token :: ts, hp.trans hts, ⟨hroom, hin⟩, hsuits⟩
      · intro limit q h
        obtain ⟨ts, e, hts, hq, hin, he, hlen⟩ := hF'.tooDeep h
        exact ⟨c.token :: ts, e, hp.trans hts, hq, ⟨hroom, hin⟩, he, hlen⟩

/-- A token that opens no level may be passed where it means something. -/
theorem accept_bind {f : Token → Option α} {F : Option α → Production β}
    (hend : f .endOfText = none) (hf : ∀ a, f c.token = some a → c.token.opening? v = none)
    (hnone : f c.token = none → Leveled v c levels (F none c) suits')
    (hsome : ∀ a d, f c.token = some a → c.Passes [c.token] d →
      Leveled v d (levelsBehind v levels c.token) (F (some a) d) suits') :
    Leveled v c levels ((accept f >>= F) c) suits' := by
  cases ho : f c.token with
  | none =>
      rw [accept_bind_of_none ho]
      exact hnone ho
  | some a =>
      have ht : c.token ≠ .endOfText := by
        intro ht
        rw [ht, hend] at ho
        cases ho
      rw [accept_bind_of_some ho ht, skip_of_advance]
      exact skip_bind ht (by simp [hf a ho]) fun d => hsome a d ho

theorem demand_bind {f : Token → Option α} {F : α → Production β} {e : Expectation}
    (hend : f .endOfText = none) (hf : ∀ a, f c.token = some a → c.token.opening? v = none)
    (hsome : ∀ a d, f c.token = some a → c.Passes [c.token] d →
      Leveled v d (levelsBehind v levels c.token) (F a d) suits') :
    Leveled v c levels ((demand f e >>= F) c) suits' := by
  rw [demand, bind_assoc]
  refine accept_bind hend hf (fun _ => ?_) fun a d ho hd => ?_
  · exact of_error (by simp [Cursor.unexpected])
  · exact hsome a d ho hd

/-- A token that may open a level: it does if there is room, and stops the run if there is none. -/
theorem descend_bind {f : Token → Option Unit} {F : Option Unit → Production β} {x : Opening}
    (hf : f c.token = some () → c.token.opening? v = some x) (hend : f .endOfText = none)
    (hs : c.Settled) (hdepth : c.depth = levels.length) (hle : levels.length ≤ v.maxNesting)
    (hnone : f c.token = none → Leveled v c levels (F none c) suits')
    (hsome : ∀ d, f c.token = some () → c.Passes [c.token] d → levels.length < v.maxNesting →
      Leveled v d (x :: levels) (F (some ()) d) suits') :
    Leveled v c levels ((descend v f >>= F) c) suits' := by
  cases ho : f c.token with
  | none =>
      rw [descend_bind_of_none ho]
      exact hnone ho
  | some u =>
      have hopen := hf ho
      have ht : c.token ≠ .endOfText := by
        intro ht
        rw [ht, hend] at ho
        cases ho
      rw [descend_bind_of_some ho ht, skip_of_advance]
      by_cases hroom : levels.length < v.maxNesting
      · have hcheck : c.checkNesting v = .ok () :=
          Cursor.checkNesting_eq_ok_iff.mpr (by omega)
        rw [bind_of_ok _ hcheck]
        refine skip_bind ht (fun _ => hroom) fun d hd => ?_
        rw [levelsBehind, hopen]
        exact hsome d ho hd hroom
      · -- There is no room, and the run stops where it is.
        have hcheck := Cursor.checkNesting_of_le (v := v) (c := c) (by omega)
        rw [bind_of_error _ hcheck]
        refine ⟨fun h => by (cases h), fun h => ?_⟩
        obtain ⟨-, rfl⟩ := SyntaxError.nestingTooDeep.inj (Except.error.inj h)
        exact ⟨[], c, .refl hs, rfl, trivial, by rw [hopen]; rfl,
          Nat.le_antisymm hle (Nat.not_lt.mp hroom)⟩

/-- A run inside of a level is counted from the level outside. -/
theorem deeper {P : Production α} (h : Leveled v c.enter levels (P c.enter) suits) :
    Leveled v c levels (deeper P c) suits where
  ok {a d} hd := by
    obtain ⟨⟨b, e⟩, hb, heq⟩ := map_eq_ok.mp hd
    obtain ⟨rfl, rfl⟩ := Prod.mk.inj heq
    obtain ⟨ts, hts, hin, hsuits⟩ := h.ok hb
    exact ⟨ts, hts.leave, hin, hsuits⟩
  tooDeep hd := by
    obtain ⟨ts, e, hts, rfl, hin, he, hlen⟩ := h.tooDeep (map_eq_error.mp hd)
    exact ⟨ts, e.leave, hts.leave, rfl, hin, he, hlen⟩

/-! ### Criteria -/

/-- Behind a phrase the levels in front of it are open again, but for negations: of those it ends
    the ones that it is the operand of. -/
def Ends (levels : List Opening) : List Action → List Opening → Prop :=
  fun _ more => withoutNegations more = withoutNegations levels

/-- A comparison leaves the levels in front of it open, negations included. -/
theorem comparison (hs : c.Settled) (hopen : c.token ≠ .openParen)
    (hdepth : c.depth ≤ v.maxNesting) :
    Leveled v c levels (of (Grammar.comparison v) c) (Ends levels) where
  ok {a d} h := by
    obtain ⟨t, -, n, ts, hp, hderives, -⟩ :=
      Grammar.sound_comparison c hs hdepth a d (of_eq_ok.mp h)
    cases hderives with
    | group => exact absurd hp.token hopen
    | comparison hts =>
        obtain ⟨hin, hafter⟩ := levels_of_neutral (neutral_of_comparison hts) levels
        exact ⟨ts, hp, hin, congrArg withoutNegations hafter⟩
  tooDeep h := by
    refine absurd h (ne_tooDeep_of_const (P := fun w => of (Grammar.comparison w)) ?_ ?_)
    · exact fun n => comparison_withNesting n
    · exact fun w => Follows.comparison (.refl w) hs

/-- The depth of the cursor is the number of levels that are open, in front of each phrase of
    criteria. In front of a chain no negation is open that an operator would end; behind its first
    operand those of the operand may be, and the next operator ends them. -/
theorem criteria (v : Vocabulary) :
    (∀ op c, ∀ levels, c.Settled → withoutNegations levels = levels → c.depth = levels.length →
      levels.length ≤ v.maxNesting →
      Leveled v c levels (of (Grammar.chain v op) c) (Ends levels)) ∧
    (∀ op c, ∀ levels, c.Settled → c.depth = (withoutNegations levels).length →
      (withoutNegations levels).length ≤ v.maxNesting →
      Leveled v c levels (of (Grammar.operands v op) c) (Ends levels)) ∧
    (∀ c, ∀ levels, c.Settled → c.depth = levels.length → levels.length ≤ v.maxNesting →
      Leveled v c levels (of (Grammar.unary v) c) (Ends levels)) ∧
    ∀ c, ∀ levels, c.Settled → c.depth = levels.length → levels.length ≤ v.maxNesting →
      Leveled v c levels (of (Grammar.atom v) c) (Ends levels) := by
  refine Grammar.recognizer_induct v ?chain ?operands ?negation ?unary ?group ?comparison
  case chain =>
    intro op c hfirst hmore levels hs hbase hdepth hle
    have hoperand : Leveled v c levels (of (Grammar.operand v op) c) (Ends levels) := by
      cases op with
      | or => exact hfirst levels hs hbase hdepth hle
      | and => exact hfirst levels hs hdepth hle
    rw [of_chain]
    refine hoperand.bind fun first d more h hd hdd hends => ?_
    obtain ⟨p, -, -, rfl⟩ := of_eq_ok.mp h
    have hmore' : withoutNegations more = levels := hends.trans hbase
    refine (hmore p more hd (by rw [hmore', hdd, hdepth]) (by rw [hmore']; exact hle)).bind ?_
    exact fun rest e last _ he _ hlast => .pure he (hlast.trans hends)
  case operands =>
    intro op c hright hmore levels hs hdepth hle
    rw [of_operands]
    have hspelt : spelt v op.keyword c.token = some () → c.token.keyword? v = some op.keyword :=
      spelt_eq_some_iff.mp
    refine accept_bind rfl (fun _ h => (levelsBehind_of_operator levels (hspelt h)).1)
      (fun _ => .pure hs rfl) fun _ b h hb => ?_
    rw [(levelsBehind_of_operator levels (hspelt h)).2]
    have hbs := hb.settled
    have hbdepth := hb.depth.trans hdepth
    obtain ⟨b, rfl⟩ := parsed_of_passes hb
    have hoperand : Leveled v b.rest (withoutNegations levels) (of (Grammar.operand v op) b.rest)
        (Ends (withoutNegations levels)) := by
      cases op with
      | or => exact hright b _ hbs (withoutNegations_withoutNegations levels) hbdepth hle
      | and => exact hright b _ hbs hbdepth hle
    refine hoperand.bind fun right d more h hd hdd hends => ?_
    obtain ⟨p, -, -, rfl⟩ := of_eq_ok.mp h
    have hmore' := hends.trans (withoutNegations_withoutNegations levels)
    refine (hmore b p more hd (by rw [hmore', hdd, hbdepth]) (by rw [hmore']; exact hle)).bind ?_
    exact fun rest e last _ he _ hlast => .pure he (hlast.trans hmore')
  case negation =>
    intro c hc hoperand levels hs hdepth hle
    have hnot : spelt v .not c.token = some () := spelt_eq_some_iff.mpr (keyword?_eq c ▸ hc)
    rw [of_unary]
    refine descend_bind (x := .negation) (fun _ => Token.opening?_eq_negation_iff.mpr
      (spelt_eq_some_iff.mp hnot)) rfl hs hdepth hle (fun h => ?_) fun b _ hb hroom => ?_
    · cases hnot.symm.trans h
    · have hbdepth : b.enter.depth = levels.length + 1 := by
        rw [Cursor.depth_enter, hb.depth, hdepth]
      have hbs : b.enter.Settled := hb.settled
      obtain ⟨b, rfl⟩ := parsed_of_passes hb
      refine (deeper (hoperand b (.negation :: levels) hbs hbdepth hroom)).bind ?_
      exact fun operand d more _ hd _ hends => .pure hd hends
  case unary =>
    intro c hc hatom levels hs hdepth hle
    have hnot {u : Unit} : spelt v .not c.token ≠ some u := by
      intro h
      exact hc ((keyword?_eq c).trans (spelt_eq_some_iff.mp h))
    rw [of_unary]
    exact descend_bind (x := .negation) (fun h => absurd h hnot) rfl hs hdepth hle
      (fun _ => hatom levels hs hdepth hle) fun b h _ _ => absurd h hnot
  case group =>
    intro c hc hinside levels hs hdepth hle
    have hopen : exactly .openParen c.token = some () := exactly_eq_some_iff.mpr hc
    rw [of_atom]
    refine descend_bind (x := .group) (fun _ => Token.opening?_eq_group_iff.mpr hc) rfl hs hdepth
      hle (fun h => ?_) fun b _ hb hroom => ?_
    · cases hopen.symm.trans h
    · have hbdepth : b.enter.depth = levels.length + 1 := by
        rw [Cursor.depth_enter, hb.depth, hdepth]
      have hbs : b.enter.Settled := hb.settled
      obtain ⟨b, rfl⟩ := parsed_of_passes hb
      refine deeper ((hinside b (.group :: levels) hbs rfl hbdepth hroom).bind ?_)
      intro inside d more _ hd _ hends
      -- The parenthesis that closes the group ends the level that the other one has opened.
      refine demand_bind rfl (fun _ h => ?_) fun _ e h he => ?_
      · rw [exactly_eq_some_iff.mp h]
        rfl
      · rw [exactly_eq_some_iff.mp h, levelsBehind_closeParen, hends]
        exact .pure he.settled rfl
  case comparison =>
    intro c hc levels hs hdepth hle
    have hopen {u : Unit} : exactly .openParen c.token ≠ some u := by
      intro h
      exact hc (exactly_eq_some_iff.mp h)
    rw [of_atom]
    exact descend_bind (x := .group) (fun h => absurd h hopen) rfl hs hdepth hle
      (fun _ => comparison hs hc (hdepth ▸ hle)) fun b h _ _ => absurd h hopen

end Leveled

end RecordQuery
