/-
  RecordQuery.Proofs.Grammar.OpenLevels

  What is open at a moment, told from the tokens that have been passed. In front of every operand of
  criteria, the `not` operands and groups that a recognition has still to close are the levels that
  the tokens behind it have left open. The tasks of criteria are followed one step at a time: those
  of a comparison read tokens that neither open nor close a level, and behind a phrase stand the
  tasks that close what is open around it.
-/

import RecordQuery.Proofs.Grammar.DepthCounter
import RecordQuery.Proofs.Grammar.TooDeep

namespace RecordQuery

open Production

variable {v : Vocabulary} {α : Type}

/-! ## Tokens behind a cursor -/

/-- The cursor `d` is `c` moved over the tokens `ts`, whatever it counts. -/
def Cursor.Covers (c : Cursor) (ts : List Token) (d : Cursor) : Prop :=
  ∃ ls : List Lexeme, ls.map (·.token) = ts ∧ c.lexemes = ls ++ d.lexemes

theorem Cursor.Covers.refl (c : Cursor) : c.Covers [] c :=
  ⟨[], rfl, rfl⟩

/-- One move goes on where another one ends, whatever is counted on the way. -/
theorem Cursor.Covers.trans {c d e : Cursor} {ts us : List Token} (h : c.Covers ts d)
    (h' : d.Covers us e) : c.Covers (ts ++ us) e := by
  obtain ⟨ls, rfl, hc⟩ := h
  obtain ⟨ms, rfl, hd⟩ := h'
  exact ⟨ls ++ ms, List.map_append, by rw [hc, hd, List.append_assoc]⟩

/-! ## Tasks without levels -/

/-- Tasks of a kind. If the next token is passed first, it is one of those that are `ok`. -/
inductive Tame (kind : Task → Bool) (ok : Token → Prop) (t : Token) : List Task → Prop
  | ready {ts : List Task} (h : ∀ task ∈ ts, kind task = true) : Tame kind ok t ts
  | pass {ts : List Task} (ht : t ≠ .endOfText) (hok : ok t) (h : ∀ task ∈ ts, kind task = true) :
      Tame kind ok t (.move .pass :: ts)

/-- Tasks of the kind neither open nor close a level, they are made of such tasks, and they move
    behind tokens that are `ok` only. -/
structure Quiet (v : Vocabulary) (kind : Task → Bool) (ok : Token → Prop) : Prop where
  enter (x : Opening) : kind (.enter x) = false
  leave (x : Opening) : kind (.leave x) = false
  expand {n : Nonterminal} (h : kind (.recognize n) = true) (t : Token) : Tame kind ok t (n.tasks v t)
  reads {m : Move} (h : kind (.move m) = true) {c d : Cursor} {as : List Action}
    (hrun : m.run v c = .ok (as, d)) : d = c ∨ c.Passes [c.token] d ∧ ok c.token

/-- Tasks of a kind that closes nothing. -/
theorem openedIn_eq_nil {kind : Task → Bool} {ts : List Task} (hleave : ∀ x, kind (.leave x) = false)
    (h : ∀ task ∈ ts, kind task = true) : openedIn ts = [] := by
  refine List.filterMap_eq_nil_iff.mpr fun task htask => ?_
  cases task with
  | leave x => cases (hleave x).symm.trans (h _ htask)
  | _ => rfl

namespace Tame

variable {kind : Task → Bool} {ok : Token → Prop} {t : Token} {ts us : List Task}

/-- Further tasks of the kind may stand behind. -/
theorem append (h : Tame kind ok t ts) (h' : ∀ task ∈ us, kind task = true) :
    Tame kind ok t (ts ++ us) := by
  cases h with
  | ready h => exact .ready (List.forall_mem_append.mpr ⟨h, h'⟩)
  | pass ht hok h => exact .pass ht hok (List.forall_mem_append.mpr ⟨h, h'⟩)

theorem accepting {f : Token → Option α} {behind : α → List Task} (hend : f .endOfText = none)
    (hok : ∀ a, f t = some a → ok t) (hbehind : ∀ a, ∀ task ∈ behind a, kind task = true)
    (hus : Tame kind ok t us) : Tame kind ok t (accepting f t behind us) := by
  rw [RecordQuery.accepting]
  split
  next a ha =>
    refine .pass (fun ht => ?_) (hok a ha) (hbehind a)
    rw [ht, hend] at ha
    cases ha
  next => exact hus

/-- A step that does one of these tasks leaves such tasks, and moves behind no other token. -/
theorem step (hq : Quiet v kind ok) {K : List Task} {c : Cursor} {as : List Action} {m : Moment}
    {task : Task} (h : Tame kind ok c.token (task :: ts))
    (hs : Moment.Step v ⟨task :: ts ++ K, c, as⟩ m) :
    ∃ us, m.tasks = us ++ K ∧ Tame kind ok m.cursor.token us ∧
      (m.cursor = c ∨ c.Passes [c.token] m.cursor ∧ ok c.token) := by
  cases h with
  | pass ht hok h =>
      cases hs with
      | move hrun =>
          obtain ⟨⟨u, d⟩, hskip, hpure⟩ := bind_eq_ok.mp hrun
          obtain ⟨-, rfl⟩ := Prod.mk.inj (pure_eq_ok.mp hpure)
          exact ⟨ts, rfl, .ready h, .inr ⟨passes_of_skip ht hskip, hok⟩⟩
  | ready h =>
      obtain ⟨htask, hts⟩ := List.forall_mem_cons.mp h
      cases hs with
      | @recognize n =>
          refine ⟨n.tasks v c.token ++ ts, (List.append_assoc _ _ _).symm, ?_, .inl rfl⟩
          exact (hq.expand htask c.token).append hts
      | move hrun => exact ⟨ts, rfl, .ready hts, hq.reads htask hrun⟩
      | enter => cases (hq.enter _).symm.trans htask
      | leave => cases (hq.leave _).symm.trans htask

end Tame

theorem Token.ne_end_of_keyword? {t : Token} {k : Keyword} (h : t.keyword? v = some k) :
    t ≠ .endOfText := by
  rintro rfl
  cases h

/-- The end of the text opens no level. -/
theorem Token.ne_end_of_opening? {t : Token} {x : Opening} (h : t.opening? v = some x) :
    t ≠ .endOfText := by
  rintro rfl
  cases h

/-- The value that a move is about, and where it is read. -/
theorem read_of_run {R : Production α} {f : α → List Action} {c d : Cursor} {as : List Action}
    (h : (R >>= fun a => pure (f a)) c = .ok (as, d)) : ∃ a, R c = .ok (a, d) := by
  obtain ⟨⟨a, e⟩, ha, hpure⟩ := bind_eq_ok.mp h
  obtain ⟨-, rfl⟩ := Prod.mk.inj (pure_eq_ok.mp hpure)
  exact ⟨a, ha⟩

namespace Move

variable {c d : Cursor} {as : List Action}

/-- The moves that read a word that is no keyword. -/
def readsName : Move → Bool
  | .selectorName | .fieldName | .namespaceName | .integer | .limit => true
  | _ => false

/-- A move that reads a name passes a word that is no keyword. -/
theorem name?_of_run {m : Move} (hm : m.readsName = true) (h : m.run v c = .ok (as, d)) :
    c.Passes [c.token] d ∧ ∃ w, c.token.name? v = some w := by
  cases m with
  | selectorName | fieldName | namespaceName =>
      obtain ⟨w, hw⟩ := read_of_run h
      obtain ⟨hname, hp, -⟩ := named_eq_ok_iff.mp hw
      exact ⟨hp, w, hname⟩
  | integer | limit =>
      obtain ⟨w, hw⟩ := read_of_run h
      obtain ⟨hname, hp⟩ := (demand_eq_ok_iff rfl).mp hw
      exact ⟨hp, w, hname⟩
  | _ => cases hm

/-- A move that reads a literal passes a token that is one. -/
theorem literal_of_run (h : Move.run v .literal c = .ok (as, d)) :
    c.Passes [c.token] d ∧ ∃ text, Grammar.Literal v c.token text := by
  obtain ⟨text, htext⟩ := read_of_run h
  obtain ⟨l, hp, hl⟩ := Cursor.yields_literal.mp (of_eq_ok.mp htext)
  rw [hp.token]
  exact ⟨hp, text, hl⟩

/-- A move that emits nothing passes a token nevertheless. -/
theorem passes_of_pass (ht : c.token ≠ .endOfText) (h : Move.run v .pass c = .ok (as, d)) :
    c.Passes [c.token] d := by
  obtain ⟨u, hu⟩ := read_of_run h
  exact passes_of_skip ht hu

theorem passes_of_closeParen (h : Move.run v .closeParen c = .ok (as, d)) :
    c.Passes [c.token] d ∧ c.token = .closeParen := by
  obtain ⟨u, hu⟩ := read_of_run h
  obtain ⟨hclose, hp⟩ := (demand_eq_ok_iff rfl).mp hu
  exact ⟨hp, exactly_eq_some_iff.mp hclose⟩

end Move

/-! ### Comparisons -/

/-- The tasks of a comparison. -/
def Task.inComparison : Task → Bool
  | .recognize .comparison | .recognize .comparisonRest => true
  | .move .fieldName | .move .literal | .move .integer | .move (.emit _) | .move (.refuse _) => true
  | _ => false

/-- A name neither opens nor closes a level. -/
theorem neutral_of_name? {t : Token} {w : String} (h : t.name? v = some w) : Neutral v t := by
  obtain ⟨rfl, hw⟩ := Token.name?_eq_some_iff.mp h
  exact .of_keyword? hw (by simp) (by simp)

/-- A comparison passes tokens that neither open nor close a level. -/
theorem quiet_comparison : Quiet v Task.inComparison (Neutral v) where
  enter _ := rfl
  leave _ := rfl
  expand {n} h t := by
    cases n with
    | comparison => exact .ready (by simp [Nonterminal.tasks, Task.inComparison])
    | comparisonRest =>
        refine .accepting rfl (fun _ => neutral_of_valueOp?) (fun _ => by simp [Task.inComparison]) ?_
        refine .accepting rfl (fun _ => neutral_of_rangeOp?) (fun _ => by simp [Task.inComparison]) ?_
        refine .accepting rfl (fun _ h => neutral_of_member (spelt_eq_some_iff.mp h))
          (fun _ => by simp [Task.inComparison]) ?_
        exact .ready (by simp [Task.inComparison])
    | _ => cases h
  reads {m} h {c d as} hrun := by
    cases m with
    | fieldName | integer =>
        obtain ⟨hp, w, hw⟩ := Move.name?_of_run rfl hrun
        exact .inr ⟨hp, neutral_of_name? hw⟩
    | literal =>
        obtain ⟨hp, text, htext⟩ := Move.literal_of_run hrun
        exact .inr ⟨hp, neutral_of_literal htext⟩
    | emit a =>
        obtain ⟨-, rfl⟩ := Prod.mk.inj (pure_eq_ok.mp hrun)
        exact .inl rfl
    | refuse e => cases hrun
    | _ => cases h

/-! ### Outside of criteria -/

/-- The tasks in front of the clause with criteria and behind it. -/
def Task.outside : Task → Bool
  | .recognize n =>
    n ∈ [.selector, .selectorRest, .moreFields, .sourceClause, .orderClause, .orderItems, .direction,
      .moreItems, .limitClause, .atEnd]
  | .move m => m ∉ [.pass, .keyword .filter]
  | .enter _ | .leave _ => false

/-- The token is not the keyword of the clause with criteria. -/
def NoFilter (v : Vocabulary) (t : Token) : Prop :=
  t.keyword? v ≠ some .filter

/-- A name is not the keyword of the clause with criteria. -/
theorem noFilter_of_name? {t : Token} {w : String} (h : t.name? v = some w) : NoFilter v t := by
  obtain ⟨rfl, hw⟩ := Token.name?_eq_some_iff.mp h
  simp [NoFilter, Token.keyword?, hw]

/-- A literal is not the keyword of the clause with criteria: a string is no word, and a word of a
    literal no keyword. -/
theorem noFilter_of_literal {t : Token} {text : String} (h : Grammar.Literal v t text) :
    NoFilter v t := by
  cases h with
  | quoted => simp [NoFilter, Token.keyword?]
  | bare hw => simp [NoFilter, Token.keyword?, hw]

theorem noFilter_of_exactly {t u : Token} (h : exactly t u = some ()) (ht : t.keyword? v = none) :
    NoFilter v u := by
  rw [exactly_eq_some_iff.mp h, NoFilter, ht]
  simp

/-- A token that spells another keyword is not that of the clause with criteria. -/
theorem noFilter_of_spelt {t : Token} {k : Keyword} (hk : k ≠ .filter) (h : spelt v k t = some ()) :
    NoFilter v t := by
  rw [NoFilter, spelt_eq_some_iff.mp h]
  simpa using hk

/-- Outside of criteria, the keyword of their clause is not passed. -/
theorem quiet_outside : Quiet v Task.outside (NoFilter v) where
  enter _ := rfl
  leave _ := rfl
  expand {n} h t := by
    cases n with
    | selector | orderItems => exact .ready (by simp [Nonterminal.tasks, Task.outside])
    | selectorRest =>
        refine .accepting rfl (fun _ h => noFilter_of_exactly h rfl) (fun _ => by decide) ?_
        refine .accepting rfl (fun _ h => noFilter_of_exactly h rfl) (fun _ => by decide) ?_
        exact .ready (by decide)
    | moreFields | moreItems =>
        exact .accepting rfl (fun _ h => noFilter_of_exactly h rfl) (fun _ => by decide)
          (.ready (by simp))
    | sourceClause | orderClause | limitClause =>
        exact .accepting rfl (fun _ h => noFilter_of_spelt (by decide) h) (fun _ => by decide)
          (.ready (by simp))
    | direction =>
        refine .accepting rfl (fun _ h => noFilter_of_spelt (by decide) h) (fun _ => by decide) ?_
        exact .accepting rfl (fun _ h => noFilter_of_spelt (by decide) h) (fun _ => by decide)
          (.ready (by simp))
    | atEnd =>
        rw [Nonterminal.tasks]
        split
        · exact .ready (by simp)
        · exact .ready (by decide)
    | _ => cases h
  reads {m} h {c d as} hrun := by
    cases m with
    | pass => cases h
    | closeParen =>
        obtain ⟨hp, hclose⟩ := Move.passes_of_closeParen hrun
        exact .inr ⟨hp, noFilter_of_exactly (exactly_eq_some_iff.mpr hclose) rfl⟩
    | keyword k =>
        obtain ⟨u, hu⟩ := read_of_run hrun
        obtain ⟨hk, hp⟩ := (demand_eq_ok_iff rfl).mp hu
        refine .inr ⟨hp, noFilter_of_spelt ?_ hk⟩
        rintro rfl
        cases h
    | selectorName | fieldName | namespaceName | integer | limit =>
        obtain ⟨hp, w, hw⟩ := Move.name?_of_run rfl hrun
        exact .inr ⟨hp, noFilter_of_name? hw⟩
    | literal =>
        obtain ⟨hp, text, htext⟩ := Move.literal_of_run hrun
        exact .inr ⟨hp, noFilter_of_literal htext⟩
    | emit a =>
        obtain ⟨-, rfl⟩ := Prod.mk.inj (pure_eq_ok.mp hrun)
        exact .inl rfl
    | refuse e => cases hrun

/-! ## Tasks of criteria -/

/-- The tasks that stand behind a phrase of criteria, and what is open around the phrase. -/
inductive Behind : List Task → List Opening → Prop
  | criteria {K : List Task} (h : ∀ task ∈ K, task.outside = true) :
      Behind (.move (.emit .setCriteria) :: K) []
  | operands {op : BoolOp} {K : List Task} {levels : List Opening}
      (hbase : withoutNegations levels = levels) (h : Behind K levels) :
      Behind (.recognize (.operands op) :: K) levels
  | emit {a : Action} {K : List Task} {levels : List Opening} (h : Behind K levels) :
      Behind (.move (.emit a) :: K) levels
  | negation {K : List Task} {levels : List Opening} (h : Behind K levels) :
      Behind (.leave .negation :: .move (.emit .addNegatedCriteria) :: K) (.negation :: levels)
  | group {K : List Task} {levels : List Opening} (h : Behind K levels) :
      Behind (.move .closeParen :: .leave .group :: K) (.group :: levels)

/-- How the tasks of criteria stand in front of the token `t`, where the tokens that have been
    passed leave `levels` open. Behind a phrase the negations that it is the operand of may be
    closed already, which only the next operator tells; else what is open is what is still to be
    closed. -/
inductive Situated (v : Vocabulary) (t : Token) : List Opening → List Task → Prop
  | comparison {ts K : List Task} {levels : List Opening} (h : Tame Task.inComparison (Neutral v) t ts)
      (hK : Behind K levels) : Situated v t levels (ts ++ K)
  | behind {K : List Task} {levels levels' : List Opening} (hK : Behind K levels')
      (h : withoutNegations levels = withoutNegations levels') : Situated v t levels K
  | chain {op : BoolOp} {K : List Task} {levels : List Opening}
      (hbase : withoutNegations levels = levels) (hK : Behind K levels) :
      Situated v t levels (.recognize (.chain op) :: K)
  | unary {K : List Task} {levels : List Opening} (hK : Behind K levels) :
      Situated v t levels (.recognize .unary :: K)
  | atom {K : List Task} {levels : List Opening} (hK : Behind K levels) :
      Situated v t levels (.recognize .atom :: K)
  | enter {x : Opening} {K : List Task} {levels : List Opening} (ht : t.opening? v = some x)
      (hK : Behind K levels) : Situated v t levels (.enter x :: K)
  | opening {x : Opening} {K : List Task} {levels : List Opening} (ht : t.opening? v = some x)
      (hK : Behind K levels) : Situated v t levels (x.tasks ++ K)
  | operator {op : BoolOp} {K : List Task} {levels levels' : List Opening}
      (ht : t.keyword? v = some op.keyword) (h : withoutNegations levels = levels')
      (hbase : withoutNegations levels' = levels') (hK : Behind K levels') :
      Situated v t levels (.move .pass :: .move (.emit (.push op.symbol)) ::
        .recognize op.operand :: .move (.emit .addCompoundCriteria) ::
        .recognize (.operands op) :: K)
  | symbol {op : BoolOp} {K : List Task} {levels : List Opening}
      (hbase : withoutNegations levels = levels) (hK : Behind K levels) :
      Situated v t levels (.move (.emit (.push op.symbol)) :: .recognize op.operand ::
        .move (.emit .addCompoundCriteria) :: .recognize (.operands op) :: K)
  | closing {K : List Task} {levels : List Opening} (hK : Behind K levels) :
      Situated v t levels (.leave .group :: K)

/-- From `c`, where `levels` are open, tokens have been passed that leave open what the tasks stand
    for, or the criteria have come to their end. -/
def Proceeds (v : Vocabulary) (c : Cursor) (levels : List Opening) (m : Moment) : Prop :=
  ∃ ts, c.Covers ts m.cursor ∧ (Situated v m.cursor.token (levelsAfter v levels ts) m.tasks ∨
    ∀ task ∈ m.tasks, task.outside = true)

namespace Proceeds

variable {c d : Cursor} {levels : List Opening} {K : List Task} {as : List Action}

/-- A step that reads nothing leaves open what has been open. -/
theorem stay (hd : d.lexemes = c.lexemes) (h : Situated v c.token levels K) :
    Proceeds v c levels ⟨K, d, as⟩ := by
  have htoken : d.token = c.token := by rw [Cursor.token, Cursor.token, hd]
  refine ⟨[], ⟨[], rfl, hd.symm⟩, .inl ?_⟩
  rw [htoken]
  exact h

/-- A step that passes a token leaves open what is open behind that token. -/
theorem pass (hp : c.Passes [c.token] d)
    (h : Situated v d.token (levelsBehind v levels c.token) K) : Proceeds v c levels ⟨K, d, as⟩ :=
  ⟨[c.token], hp.lexemes, .inl h⟩

end Proceeds

/-- The tasks behind a phrase close what is open around it. -/
theorem Behind.openedIn_eq {K : List Task} {levels : List Opening} (h : Behind K levels) :
    openedIn K = levels := by
  induction h with
  | @criteria K h =>
      show openedIn K = []
      exact openedIn_eq_nil (fun _ => rfl) h
  | operands _ _ ih => exact ih
  | emit _ ih => exact ih
  | negation _ ih => exact congrArg (Opening.negation :: ·) ih
  | group _ ih => exact congrArg (Opening.group :: ·) ih

section

variable {c : Cursor} {levels : List Opening} {K : List Task} {as : List Action} {m : Moment}

/-- A step behind a phrase. -/
theorem Behind.step {levels' : List Opening} (hK : Behind K levels')
    (h : withoutNegations levels = withoutNegations levels')
    (hs : Moment.Step v ⟨K, c, as⟩ m) : Proceeds v c levels m := by
  cases hK with
  | criteria hout =>
      cases hs with
      | move hrun =>
          obtain ⟨-, rfl⟩ := Prod.mk.inj (pure_eq_ok.mp hrun)
          exact ⟨[], .refl c, .inr hout⟩
  | @operands op K _ hbase hK =>
      cases hs
      refine .stay rfl ?_
      rw [Nonterminal.tasks, accepting]
      -- The operator tells that the negations in front of it are closed, as the tasks have done.
      cases hop : spelt v op.keyword c.token with
      | none => exact .behind hK h
      | some u => exact .operator (spelt_eq_some_iff.mp hop) (h.trans hbase) hbase hK
  | emit hK =>
      cases hs with
      | move hrun =>
          obtain ⟨-, rfl⟩ := Prod.mk.inj (pure_eq_ok.mp hrun)
          exact .stay rfl (.behind hK h)
  | negation hK =>
      cases hs
      exact .stay rfl (.behind (.emit hK) h)
  | group hK =>
      cases hs with
      | move hrun =>
          obtain ⟨hp, hclose⟩ := Move.passes_of_closeParen hrun
          refine .pass hp ?_
          rw [hclose, levelsBehind_closeParen, h]
          exact .closing hK

/-- A step in criteria. -/
theorem Situated.step (h : Situated v c.token levels K) (hs : Moment.Step v ⟨K, c, as⟩ m) :
    Proceeds v c levels m := by
  cases h with
  | @comparison ts K _ hts hK =>
      cases ts with
      | nil => exact hK.step rfl hs
      | cons task ts =>
          obtain ⟨us, htasks, hus, hmoved⟩ := hts.step quiet_comparison hs
          obtain ⟨tasks, d, bs⟩ := m
          obtain rfl : tasks = us ++ K := htasks
          obtain rfl | ⟨hp, hok⟩ := hmoved
          · exact .stay rfl (.comparison hus hK)
          · refine .pass hp ?_
            rw [hok.levelsBehind]
            exact .comparison hus hK
  | behind hK h => exact hK.step h hs
  | @chain op K _ hbase hK =>
      cases hs
      refine .stay rfl ?_
      cases op with
      | or => exact .chain hbase (.operands hbase hK)
      | and => exact .unary (.operands hbase hK)
  | unary hK =>
      cases hs
      refine .stay rfl ?_
      rw [Nonterminal.tasks]
      cases hnot : spelt v .not c.token with
      | none => exact .atom hK
      | some u => exact .enter (Token.opening?_eq_negation_iff.mpr (spelt_eq_some_iff.mp hnot)) hK
  | atom hK =>
      cases hs
      refine .stay rfl ?_
      rw [Nonterminal.tasks]
      cases hopen : exactly .openParen c.token with
      | none =>
          have hts : Tame Task.inComparison (Neutral v) c.token [.recognize .comparison] :=
            .ready (by decide)
          exact .comparison hts hK
      | some u => exact .enter (Token.opening?_eq_group_iff.mpr (exactly_eq_some_iff.mp hopen)) hK
  | enter ht hK =>
      cases hs
      exact .stay rfl (.opening ht hK)
  | @opening x K _ ht hK =>
      have hend := Token.ne_end_of_opening? ht
      have hbehind : levelsBehind v levels c.token = x :: levels := by rw [levelsBehind, ht]
      cases x with
      | negation =>
          cases hs with
          | move hrun =>
              refine .pass (Move.passes_of_pass hend hrun) ?_
              rw [hbehind]
              exact .unary (.negation hK)
      | group =>
          cases hs with
          | move hrun =>
              refine .pass (Move.passes_of_pass hend hrun) ?_
              rw [hbehind]
              exact .chain rfl (.group hK)
  | @operator op K _ levels' ht h hbase hK =>
      have hend := Token.ne_end_of_keyword? ht
      cases hs with
      | move hrun =>
          refine .pass (Move.passes_of_pass hend hrun) ?_
          rw [(levelsBehind_of_operator levels ht).2, h]
          exact .symbol hbase hK
  | @symbol op K _ hbase hK =>
      cases hs with
      | move hrun =>
          obtain ⟨-, rfl⟩ := Prod.mk.inj (pure_eq_ok.mp hrun)
          refine .stay rfl ?_
          cases op with
          | or => exact .chain hbase (.emit (.operands hbase hK))
          | and => exact .unary (.emit (.operands hbase hK))
  | closing hK =>
      cases hs
      exact .stay rfl (.behind hK rfl)

end

/-! ## Whole queries -/

/-- Where the tasks of a query stand in front of the token `t`, behind the tokens that have been
    passed: in front of the clause with criteria, in it, or behind it. -/
inductive Stage (v : Vocabulary) (t : Token) : List Token → List Task → Prop
  | front : Stage v t [] [.recognize .query]
  | before {us : List Token} {ts K : List Task} (hus : ∀ u ∈ us, NoFilter v u)
      (hts : Tame Task.outside (NoFilter v) t ts) (hK : ∀ task ∈ K, task.outside = true) :
      Stage v t us (ts ++ .recognize .filterClause :: K)
  | filter {us : List Token} {K : List Task} (hus : ∀ u ∈ us, NoFilter v u)
      (ht : t.keyword? v = some .filter) (hK : ∀ task ∈ K, task.outside = true) :
      Stage v t us (.move .pass :: .recognize (.chain .or) :: .move (.emit .setCriteria) :: K)
  | criteria {pre us : List Token} {w : Token} {K : List Task} (hpre : ∀ u ∈ pre, NoFilter v u)
      (hw : w.keyword? v = some .filter) (hK : Situated v t (levelsAfter v [] us) K) :
      Stage v t (pre ++ w :: us) K
  | behind {us : List Token} {K : List Task} (hK : Tame Task.outside (NoFilter v) t K) :
      Stage v t us K

/-- A step goes over some tokens, and from one stage to another. -/
theorem Stage.step {us : List Token} {m m' : Moment} (h : Stage v m.cursor.token us m.tasks)
    (hs : m.Step v m') :
    ∃ ts, m.cursor.Covers ts m'.cursor ∧ Stage v m'.cursor.token (us ++ ts) m'.tasks := by
  obtain ⟨tasks, c, as⟩ := m
  dsimp only at h ⊢
  cases h with
  | front =>
      cases hs
      refine ⟨[], .refl c, ?_⟩
      rw [Nonterminal.tasks, accepting, accepting, List.append_nil]
      cases hselect : spelt v .select c.token with
      | some u =>
          have hend := Token.ne_end_of_keyword? (spelt_eq_some_iff.mp hselect)
          have hts : Tame Task.outside (NoFilter v) c.token [.move .pass,
              .move (.emit .setSelectOp), .recognize .selector, .recognize .sourceClause] :=
            .pass hend (noFilter_of_spelt (by decide) hselect) (by decide)
          exact .before (by simp) hts (by decide)
      | none =>
          cases hdelete : spelt v .delete c.token with
          | some u =>
              have hend := Token.ne_end_of_keyword? (spelt_eq_some_iff.mp hdelete)
              have hts : Tame Task.outside (NoFilter v) c.token [.move .pass,
                  .move (.emit .setDeleteOp), .recognize .sourceClause] :=
                .pass hend (noFilter_of_spelt (by decide) hdelete) (by decide)
              exact .before (by simp) hts (by decide)
          | none => exact .behind (.ready (by simp [Task.outside]))
  | @before _ ts K hus hts hK =>
      cases ts with
      | nil =>
          cases hs
          refine ⟨[], .refl c, ?_⟩
          rw [Nonterminal.tasks, accepting]
          cases hfilter : spelt v .filter c.token with
          | none => exact .behind (.ready hK)
          | some u =>
              rw [List.append_nil]
              exact .filter hus (spelt_eq_some_iff.mp hfilter) hK
      | cons task ts =>
          obtain ⟨ts', htasks, hts', hmoved⟩ := hts.step quiet_outside hs
          obtain ⟨tasks, d, bs⟩ := m'
          obtain rfl : tasks = ts' ++ .recognize .filterClause :: K := htasks
          obtain rfl | ⟨hp, hok⟩ := hmoved
          · refine ⟨[], .refl d, ?_⟩
            rw [List.append_nil]
            exact .before hus hts' hK
          · refine ⟨[c.token], hp.lexemes, .before ?_ hts' hK⟩
            exact List.forall_mem_append.mpr ⟨hus, by simpa using hok⟩
  | @filter _ K hus ht hK =>
      have hend := Token.ne_end_of_keyword? ht
      cases hs with
      | @move _ _ _ d _ _ hrun =>
          refine ⟨[c.token], (Move.passes_of_pass hend hrun).lexemes, ?_⟩
          have hsituated : Situated v d.token (levelsAfter v [] [])
              (.recognize (.chain .or) :: .move (.emit .setCriteria) :: K) :=
            .chain rfl (.criteria hK)
          exact .criteria hus ht hsituated
  | @criteria pre us w _ hpre hw hK =>
      -- Levels are counted from the keyword of the clause, which stays where it is.
      obtain ⟨ts, hts, hsituated | hout⟩ := hK.step hs
      · refine ⟨ts, hts, ?_⟩
        rw [List.append_assoc, List.cons_append]
        refine .criteria hpre hw ?_
        rwa [levelsAfter_append]
      · exact ⟨ts, hts, .behind (.ready hout)⟩
  | behind hK =>
      cases tasks with
      | nil => cases hs
      | cons task ts =>
          -- There are no other tasks behind these.
          rw [← List.append_nil ts] at hs
          obtain ⟨ts', htasks, hts', hmoved⟩ := hK.step quiet_outside hs
          rw [List.append_nil] at htasks
          rw [htasks]
          obtain heq | ⟨hp, -⟩ := hmoved
          · exact ⟨[], heq ▸ .refl c, .behind hts'⟩
          · exact ⟨[c.token], hp.lexemes, .behind hts'⟩

/-! ## What is open in front of a phrase -/

/-- What begins with a phrase of criteria, or opens one. -/
def Task.beginsPhrase : Task → Bool
  | .recognize (.chain _) | .recognize .unary | .recognize .atom | .recognize .comparison => true
  | .enter _ => true
  | _ => false

namespace Moment

/-- A phrase of criteria begins next. -/
def atPhrase (m : Moment) : Bool :=
  m.tasks.head?.any Task.beginsPhrase

/-- The tokens that have been passed since `c`. -/
def passed (c : Cursor) (m : Moment) : List Token :=
  (c.lexemes.take (c.size - m.cursor.size)).map (·.token)

/-- The tokens that have been passed are those that a move to the cursor covers. -/
theorem passed_eq {c : Cursor} {m : Moment} {ts : List Token} (h : c.Covers ts m.cursor) :
    m.passed c = ts := by
  obtain ⟨ls, rfl, hc⟩ := h
  have hlen : c.size - m.cursor.size = ls.length := by
    rw [Cursor.size, hc, List.length_append, Cursor.size, Nat.add_sub_cancel]
  rw [passed, hlen, hc, List.take_left]

end Moment

/-- Outside of criteria no phrase of them begins. -/
theorem Tame.not_beginsPhrase {ok : Token → Prop} {t : Token} {task : Task} {ts : List Task}
    (h : Tame Task.outside ok t (task :: ts)) : task.beginsPhrase = false := by
  cases h with
  | pass => rfl
  | ready h =>
      have hout := h task List.mem_cons_self
      cases task with
      | recognize n => cases n <;> first | rfl | cases hout
      | enter x => cases hout
      | _ => rfl

/-- In front of a phrase, the tasks close what is open there. -/
theorem Situated.openedIn_eq {t : Token} {levels : List Opening} {K : List Task}
    (h : Situated v t levels K) (hphrase : K.head?.any Task.beginsPhrase = true) :
    openedIn K = levels := by
  cases h with
  | comparison hts hK =>
      rw [openedIn_append, hK.openedIn_eq]
      cases hts with
      | ready h => rw [openedIn_eq_nil (fun _ => rfl) h, List.nil_append]
      | pass _ _ h => cases hphrase
  | behind hK => cases hK <;> cases hphrase
  | chain _ hK | unary hK | atom hK | enter _ hK => exact hK.openedIn_eq
  | @opening x => cases x <;> cases hphrase
  | operator | symbol | closing => cases hphrase

/-- In front of a phrase, the tokens that have been passed leave open what the tasks have still to
    close. -/
theorem Stage.levels?_eq {t : Token} {us : List Token} {K : List Task} (h : Stage v t us K)
    (hphrase : K.head?.any Task.beginsPhrase = true) : levels? v us = some (openedIn K) := by
  cases h with
  | front | filter => cases hphrase
  | @before _ ts _ _ hts =>
      cases ts with
      | nil => cases hphrase
      | cons task ts => cases hts.not_beginsPhrase.symm.trans hphrase
  | criteria hpre hw hK => rw [levels?_criteria hpre hw, hK.openedIn_eq hphrase]
  | behind hK =>
      cases K with
      | nil => cases hphrase
      | cons task ts => cases hK.not_beginsPhrase.symm.trans hphrase

/-- In front of every phrase of criteria, what is still to be closed is what the tokens that have
    been passed leave open. -/
theorem Moment.levels?_passed {c : Cursor} {n : Nat} {m : Moment}
    (h : (front c).after v n = .moment m) (hphrase : m.atPhrase = true) :
    levels? v (m.passed c) = some m.opened := by
  obtain ⟨us, hus, hstage⟩ : ∃ us, c.Covers us m.cursor ∧ Stage v m.cursor.token us m.tasks := by
    refine after_induct (I := fun m => ∃ us, c.Covers us m.cursor ∧
      Stage v m.cursor.token us m.tasks) ?_ ⟨[], .refl c, .front⟩ h
    rintro m₁ m₂ ⟨us, hus, hstage⟩ hs
    obtain ⟨ts, hts, hnext⟩ := hstage.step hs
    exact ⟨us ++ ts, hus.trans hts, hnext⟩
  rw [passed_eq hus]
  exact hstage.levels?_eq hphrase

end RecordQuery
