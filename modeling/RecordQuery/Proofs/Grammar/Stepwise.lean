/-
  RecordQuery.Proofs.Grammar.Stepwise

  Step by step the recognizer's answer is found. From whatever cursor and on top of whatever other
  tasks, the task of a nonterminal does what its production does: it emits the same actions and
  stops at the same cursor, or fails with the same error.
-/

import RecordQuery.Proofs.Grammar.Moment

namespace RecordQuery

open Production

namespace Moment

variable (v : Vocabulary)

/-- In some steps the tasks in front of `more` are done, and what has come of them is the result `r`
    of a production: either it has emitted its actions behind `out` and stands at its end, or it has
    failed with its error. -/
def Does (m : Moment) (more : List Task) (out : List Action)
    (r : Except SyntaxError (List Action × Cursor)) : Prop :=
  match r with
  | .ok (as, d) => ∃ n, m.after v n = .moment ⟨more, d, out ++ as⟩
  | .error e => ∃ n, m.after v n = .ended (.error e)

variable {v} {m m' : Moment}

namespace Does

variable {more : List Task} {out : List Action} {r : Except SyntaxError (List Action × Cursor)}

/-- What is done from a later moment on is done from this one on. -/
theorem of_after {j : Nat} (h : m.after v j = .moment m') (hd : m'.Does v more out r) :
    m.Does v more out r := by
  cases r with
  | error e =>
      obtain ⟨n, hn⟩ := hd
      exact ⟨j + n, (after_add h n).trans hn⟩
  | ok p =>
      obtain ⟨n, hn⟩ := hd
      exact ⟨j + n, (after_add h n).trans hn⟩

/-- What is done from the next moment on is done from this one on. -/
theorem of_next (h : m.next v = .moment m') (hd : m'.Does v more out r) : m.Does v more out r :=
  hd.of_after (after_succ h 0)

/-- What ends with an error in one step has nothing else to do. -/
theorem of_ended {e : SyntaxError} (h : m.next v = .ended (.error e)) :
    m.Does v more out (.error e) :=
  ⟨1, by rw [after, h]⟩

end Does

end Moment

/-! ## Tasks and productions -/

/-- A token is skipped with one more level open as it is without it. -/
theorem skip_enter (c : Cursor) : skip c.enter = (skip c).map fun p => (p.1, p.2.enter) := by
  unfold skip
  dsimp only
  rw [map_bind]
  rfl

/-- From the cursor `c` the tasks do what the production does, of whose actions `pre` have been
    emitted. -/
def Performs (v : Vocabulary) (ts : List Task) (P : Production (List Action)) (c : Cursor)
    (pre : List Action) : Prop :=
  ∀ more out, (Moment.mk (ts ++ more) c (out ++ pre)).Does v more out (P c)

namespace Performs

variable {v : Vocabulary} {α : Type} {c : Cursor} {ts us : List Task} {pre : List Action}

/-- Tasks may be compared with a production that does the same in this place only. -/
theorem congr {P P' : Production (List Action)} (h : P c = P' c) (h' : Performs v ts P' c pre) :
    Performs v ts P c pre := by
  intro more out
  rw [h]
  exact h' more out

theorem pure {as : List Action} (h : pre = as) : Performs v [] (pure as) c pre := by
  subst h
  exact fun _ _ => ⟨0, rfl⟩

/-- A nonterminal is done by the tasks that it stands for in front of the next token. -/
theorem recognize {n : Nonterminal} {P : Production (List Action)}
    (h : Performs v (n.tasks v c.token ++ ts) P c pre) :
    Performs v (.recognize n :: ts) P c pre := by
  intro more out
  have hnext : (Moment.mk (.recognize n :: ts ++ more) c (out ++ pre)).next v =
      .moment ⟨n.tasks v c.token ++ ts ++ more, c, out ++ pre⟩ := by
    rw [List.append_assoc]
    rfl
  exact .of_next hnext (h more out)

/-- Tasks that do what a production does, with others behind them that go on from there. -/
theorem bind {P : Production (List Action)} {F : List Action → Production (List Action)}
    (hP : Performs v us P c [])
    (hF : ∀ as d, P c = .ok (as, d) → Performs v ts (F as) d (pre ++ as)) :
    Performs v (us ++ ts) (P >>= F) c pre := by
  intro more out
  have hdoes := hP (ts ++ more) (out ++ pre)
  rw [List.append_nil, ← List.append_assoc] at hdoes
  rw [bind_apply]
  cases h : P c with
  | error e =>
      rw [h] at hdoes
      exact hdoes
  | ok p =>
      obtain ⟨as, d⟩ := p
      rw [h] at hdoes
      obtain ⟨n, hn⟩ := hdoes
      refine .of_after hn ?_
      rw [List.append_assoc]
      exact hF as d h more out

/-- A nonterminal with tasks behind it does a sequence, whose second part is given the actions of
    the first. -/
theorem call {n : Nonterminal} {P : Production (List Action)}
    {F : List Action → Production (List Action)} (hP : Performs v [.recognize n] P c [])
    (hF : ∀ as d, P c = .ok (as, d) → Performs v ts (F as) d (pre ++ as)) :
    Performs v (.recognize n :: ts) (P >>= F) c pre :=
  bind hP hF

/-- A move that emits something about what a production reads. -/
theorem move {m : Move} {R : Production α} {f : α → List Action}
    {F : α → Production (List Action)} (hm : m.run v = R >>= fun a => Pure.pure (f a))
    (hF : ∀ a d, R c = .ok (a, d) → Performs v ts (F a) d (pre ++ f a)) :
    Performs v (.move m :: ts) (R >>= F) c pre := by
  intro more out
  rw [bind_apply]
  cases h : R c with
  | error e =>
      refine .of_ended ?_
      simp only [List.cons_append, Moment.next, hm, bind_apply, h]
      rfl
  | ok p =>
      have hnext : (Moment.mk (.move m :: ts ++ more) c (out ++ pre)).next v =
          .moment ⟨ts ++ more, p.2, out ++ (pre ++ f p.1)⟩ := by
        simp only [List.cons_append, Moment.next, hm, bind_apply, h, ok_bind, ← List.append_assoc]
        rfl
      exact .of_next hnext (hF p.1 p.2 h more out)

/-- A token is passed without any action. -/
theorem pass {P : Production (List Action)}
    (h : ∀ d, skip c = .ok ((), d) → Performs v ts P d pre) :
    Performs v (.move .pass :: ts) (skip >>= fun _ => P) c pre := by
  refine move (f := fun _ => []) rfl fun _ d hd => ?_
  rw [List.append_nil]
  exact h d hd

/-- An action is emitted without a look at the tokens. -/
theorem emit {a : Action} {P : Production (List Action)}
    (h : Performs v ts P c (pre ++ [a])) : Performs v (.move (.emit a) :: ts) P c pre := by
  intro more out
  refine .of_next rfl ?_
  rw [List.append_assoc]
  exact h more out

/-- The next token is refused by both. -/
theorem refuse {e : Expectation} : Performs v [.move (.refuse e)] (refuse e) c pre :=
  fun _ _ => .of_ended rfl

/-- A token that is passed if it means something. -/
theorem accepting {f : Token → Option α} {behind : α → List Task}
    {F : Option α → Production (List Action)} (hend : f .endOfText = none)
    (hsome : ∀ a d, f c.token = some a → c.Passes [c.token] d →
      Performs v (behind a ++ ts) (F (some a)) d pre)
    (hnone : f c.token = none → Performs v (us ++ ts) (F none) c pre) :
    Performs v (accepting f c.token behind us ++ ts) (accept f >>= F) c pre := by
  rw [RecordQuery.accepting]
  cases hf : f c.token with
  | none => exact (hnone hf).congr (accept_bind_of_none hf)
  | some a =>
      have ht : c.token ≠ .endOfText := fun ht => by simp [ht, hend] at hf
      have hskip : (accept f >>= F) c = (skip >>= fun _ => F (some a)) c := by
        rw [accept_bind_of_some hf ht, skip_of_advance]
        rfl
      exact .congr hskip (pass fun d hd => hsome a d hf (passes_of_skip ht hd))

/-- A level is entered if there is room for it. The tasks inside of it end with the one that leaves
    it. -/
theorem enter {x : Opening} {P : Production (List Action)}
    (h : Performs v (x.tasks ++ ts) P c.enter pre) :
    Performs v (.enter x :: ts) (checkRoom v >>= fun _ d => P d.enter) c pre := by
  intro more out
  rw [bind_apply, checkRoom]
  cases hroom : c.checkNesting v with
  | error e =>
      refine .of_ended ?_
      simp only [List.cons_append, Moment.next, hroom]
  | ok u =>
      have hnext : (Moment.mk (.enter x :: ts ++ more) c (out ++ pre)).next v =
          .moment ⟨x.tasks ++ ts ++ more, c.enter, out ++ pre⟩ := by
        simp only [List.cons_append, Moment.next, hroom, List.append_assoc]
      exact .of_next hnext (h more out)

/-- Leaving a level, nothing is read. -/
theorem leave {x : Opening} {P : Production (List Action)} (h : Performs v ts P c.leave pre) :
    Performs v (.leave x :: ts) (fun d => P d.leave) c pre :=
  fun more out => .of_next rfl (h more out)

/-- A token that opens a level: what is in it is read with the level counted, and what is behind it
    with the level closed again. -/
theorem descend {x : Opening} {f : Token → Option Unit} {P : Production (List Action)}
    {F : List Action → Production (List Action)} {K : Option Unit → Production (List Action)}
    (us : List Task) (hx : x.tasks = .move .pass :: (us ++ .leave x :: ts))
    (hK : K (some ()) = deeper P >>= F) (hf : f c.token = some ()) (hend : f .endOfText = none)
    (hP : ∀ d, c.Passes [c.token] d → Performs v us P d.enter [])
    (hF : ∀ as d, Performs v ts (F as) d as) :
    Performs v [.enter x] (descend v f >>= K) c [] := by
  have ht : c.token ≠ .endOfText := fun ht => by simp [ht, hend] at hf
  -- The counter may as well be raised before the token is passed.
  have heq : (Production.descend v f >>= K) c = (checkRoom v >>= fun _ d =>
      (skip >>= fun _ => P >>= fun as e => F as e.leave) d.enter) c := by
    rw [descend_bind_of_some hf ht, bind_apply, checkRoom, hK, skip_of_advance]
    cases c.checkNesting v with
    | error e => rfl
    | ok u =>
        show skip c >>= _ = skip c.enter >>= _
        rw [skip_enter]
        exact bind_map fun p => deeper_bind
  refine .congr heq (.enter ?_)
  rw [List.append_nil, hx]
  refine pass fun d hd => ?_
  rw [skip_enter] at hd
  obtain ⟨p, hp, heq⟩ := map_eq_ok.mp hd
  obtain ⟨-, rfl⟩ := Prod.mk.inj heq
  refine bind (hP p.2 (passes_of_skip ht hp)) fun as e _ => ?_
  exact leave (hF as e.leave)

/-! ### Criteria -/

/-- The tasks of a comparison emit its actions one at a time, where the production tells them at
    once. -/
theorem comparison (c : Cursor) :
    Performs v [.recognize .comparison] (of (Grammar.comparison v)) c [] := by
  rw [of_comparison]
  refine recognize (move rfl fun name d _ => recognize ?_)
  refine accepting rfl (fun op e _ _ => emit ?_) fun _ => ?_
  · exact move rfl fun text _ _ => emit (pure rfl)
  refine accepting rfl (fun op e _ _ => emit ?_) fun _ => ?_
  · exact move rfl fun w _ _ => emit (pure rfl)
  refine accepting rfl (fun _ e _ _ => ?_) fun _ => refuse
  exact move rfl fun text _ _ => emit (pure rfl)

/-- The tasks of criteria do what the recognizer does. The induction follows its calls. -/
theorem criteria (v : Vocabulary) :
    (∀ op c, Performs v [.recognize (.chain op)] (of (Grammar.chain v op)) c []) ∧
      (∀ op c, Performs v [.recognize (.operands op)] (of (Grammar.operands v op)) c []) ∧
      (∀ c, Performs v [.recognize .unary] (of (Grammar.unary v)) c []) ∧
      ∀ c, Performs v [.recognize .atom] (of (Grammar.atom v)) c [] := by
  refine Grammar.recognizer_induct v ?chain ?operands ?negation ?unary ?group ?comparison
  case chain =>
    intro op c hfirst hmore
    have hoperand : Performs v [.recognize op.operand] (of (Grammar.operand v op)) c [] := by
      cases op <;> exact hfirst
    rw [of_chain]
    refine recognize (call hoperand fun first d hd => ?_)
    -- The operands behind the first are recognized from where the recognizer has parsed it to.
    obtain ⟨p, -, -, rfl⟩ := of_eq_ok.mp hd
    exact call (hmore p) fun more _ _ => pure rfl
  case operands =>
    intro op c hright hmore
    rw [of_operands]
    refine recognize (accepting rfl (fun _ d _ hd => emit ?_) fun _ => pure rfl)
    obtain ⟨b, rfl⟩ := parsed_of_passes hd
    have hoperand : Performs v [.recognize op.operand] (of (Grammar.operand v op)) b.rest [] := by
      cases op <;> exact hright b
    refine call hoperand fun right e he => emit ?_
    obtain ⟨p, -, -, rfl⟩ := of_eq_ok.mp he
    exact call (hmore b p) fun more _ _ => pure (by simp)
  case negation =>
    intro c hnot hoperand
    have hspelt : spelt v .not c.token = some () := spelt_eq_some_iff.mpr (keyword?_eq c ▸ hnot)
    rw [of_unary]
    refine recognize ?_
    rw [Nonterminal.tasks, hspelt]
    refine descend [.recognize .unary] rfl rfl hspelt rfl (fun d hd => ?_) fun as d => ?_
    · obtain ⟨b, rfl⟩ := parsed_of_passes hd
      exact hoperand b
    · exact emit (pure rfl)
  case unary =>
    intro c hnot hatom
    have hspelt : spelt v .not c.token = none := if_neg (keyword?_eq c ▸ hnot)
    rw [of_unary]
    refine recognize (.congr (descend_bind_of_none hspelt) ?_)
    rw [Nonterminal.tasks, hspelt]
    exact hatom
  case group =>
    intro c hopen hinside
    have hexactly : exactly .openParen c.token = some () := exactly_eq_some_iff.mpr hopen
    rw [of_atom]
    refine recognize ?_
    rw [Nonterminal.tasks, hexactly]
    have hK {P : Production (List Action)} : deeper P = deeper P >>= Pure.pure := (bind_pure _).symm
    refine descend [.recognize (.chain .or), .move .closeParen] rfl hK hexactly rfl
      (fun d hd => ?_) fun as d => pure rfl
    obtain ⟨b, rfl⟩ := parsed_of_passes hd
    exact call (hinside b) fun inside e _ => move rfl fun _ f _ => pure (List.append_nil _)
  case comparison =>
    intro c hopen
    have hexactly : exactly .openParen c.token = none := if_neg hopen
    rw [of_atom]
    refine recognize (.congr (descend_bind_of_none hexactly) ?_)
    rw [Nonterminal.tasks, hexactly]
    exact comparison c

/-! ### Selectors and clauses -/

/-- Further fields, one at a time. -/
theorem moreFields_bind {β : Type} (F : List String → Production β) :
    (of (Grammar.moreFields v) >>= F) = (do
      match ← accept (exactly .comma) with
      | some _ => do
        let name ← named v .fieldName (judgeField v)
        let more ← of (Grammar.moreFields v)
        F (name :: more)
      | none => F []) := by
  refine (congrArg (· >>= F) of_moreFields).trans ((bind_assoc _ _ _).trans ?_)
  refine congrArg _ (funext fun
    | some _ => ?_
    | none => pure_bind _ _)
  simp only [bind_assoc, pure_bind]

/-- Further fields emit their names. What is behind them goes on with these actions. -/
theorem moreFields (c : Cursor) {pre : List Action} {G : List Action → List Action}
    (hG : ∀ as d, Performs v ts (Pure.pure (G as)) d (pre ++ as)) :
    Performs v (.recognize .moreFields :: ts)
      (of (Grammar.moreFields v) >>= fun more => Pure.pure (G (more.map .push))) c pre := by
  rw [moreFields_bind]
  refine recognize (accepting rfl (fun _ d _ hd => ?_) fun _ => ?_)
  · have hcomma := size_lt_of_passes hd
    refine move rfl fun name e he => ?_
    have hname := size_lt_of_passes (named_eq_ok_iff.mp he).2.1
    -- The name stands in front of all that the other fields emit.
    refine moreFields e (G := fun as => G (.push name :: as)) fun as f => ?_
    rw [List.append_assoc]
    exact hG (.push name :: as) f
  · have hnil := hG [] c
    rwa [List.append_nil] at hnil
termination_by c.size
decreasing_by omega

/-- The first word of a selector decides nothing: its actions are emitted behind the last of its
    words. -/
theorem selector (c : Cursor) : Performs v [.recognize .selector] (Grammar.selector v) c [] := by
  rw [selector_eq]
  refine recognize (move rfl fun first d _ => recognize ?_)
  refine accepting rfl (fun _ e _ _ => ?_) fun _ => ?_
  · exact move rfl fun argument f _ => move rfl fun _ g _ => emit (pure (by simp))
  dsimp only
  rw [moreFields_bind]
  refine accepting rfl (fun _ e _ _ => ?_) fun _ => emit (pure rfl)
  simp only [List.isEmpty_cons, Bool.false_eq_true, if_false]
  refine move rfl fun name f _ => ?_
  refine moreFields f (G := fun as => .push first :: .push name :: as ++ [.setCompoundSelector])
    fun as g => ?_
  exact emit (pure rfl)

theorem sourceClause (c : Cursor) :
    Performs v [.recognize .sourceClause] (Grammar.sourceClause v) c [] := by
  rw [sourceClause_eq]
  refine recognize (accepting rfl (fun _ d _ _ => ?_) fun _ => pure rfl)
  exact move rfl fun name e _ => pure rfl

theorem filterClause (c : Cursor) :
    Performs v [.recognize .filterClause] (Grammar.filterClause v) c [] := by
  rw [filterClause_eq]
  refine recognize (accepting rfl (fun _ d _ _ => ?_) fun _ => pure rfl)
  exact call ((criteria v).1 .or d) fun as e _ => emit (pure rfl)

theorem direction (c : Cursor) :
    Performs v [.recognize .direction] (of (Grammar.direction v)) c [] := by
  rw [of_direction]
  refine recognize (accepting rfl (fun _ d _ _ => emit (emit (pure rfl))) fun _ => ?_)
  exact accepting rfl (fun _ d _ _ => emit (emit (pure rfl))) fun _ => pure rfl

/-- Items of an order are emitted one at a time, by the recognizer's own induction. -/
theorem orderItems (c : Cursor) :
    Performs v [.recognize .orderItems] (of (Grammar.orderItems v)) c [] := by
  rw [of_orderItems]
  refine recognize (move rfl fun name d hd => emit ?_)
  have hname := size_lt_of_passes (named_eq_ok_iff.mp hd).2.1
  refine call (direction d) fun written e he => recognize ?_
  obtain ⟨p, -, -, rfl⟩ := of_eq_ok.mp he
  have hwritten := p.shorter
  refine accepting rfl (fun _ f _ hf => ?_) fun _ => pure (by simp)
  have hcomma := size_lt_of_passes hf
  exact call (orderItems f) fun more g _ => pure (by simp)
termination_by c.size
decreasing_by
  simp only [Cursor.size] at *
  omega

theorem orderClause (c : Cursor) :
    Performs v [.recognize .orderClause] (Grammar.orderClause v) c [] := by
  rw [orderClause_eq]
  refine recognize (accepting rfl (fun _ d _ _ => ?_) fun _ => pure rfl)
  refine move rfl fun _ e _ => call (orderItems e) fun items f _ => emit (pure ?_)
  simp

theorem limitClause (c : Cursor) :
    Performs v [.recognize .limitClause] (Grammar.limitClause v) c [] := by
  rw [limitClause_eq]
  refine recognize (accepting rfl (fun _ d _ _ => ?_) fun _ => pure rfl)
  exact move rfl fun w e _ => pure rfl

/-! ### Queries -/

/-- At the end of the text all actions have been emitted. -/
theorem atEnd (c : Cursor) (actions : List Action) :
    Performs v [.recognize .atEnd] (atEnd actions) c actions := by
  refine recognize ?_
  rw [Nonterminal.tasks]
  cases h : exactly .endOfText c.token with
  | some u => exact .congr (by rw [Production.atEnd, bind_apply, look, h]; rfl) (pure rfl)
  | none => exact .congr (by rw [Production.atEnd, bind_apply, look, h]; rfl) refuse

/-- The tasks of a query do what the recognizer does, from any cursor. -/
theorem query (c : Cursor) : Performs v [.recognize .query] (query v) c [] := by
  refine recognize (accepting rfl (fun _ d _ _ => emit ?_) fun _ => ?_)
  · simp only [selectTail_eq, bind_assoc, pure_bind]
    refine call (selector d) fun selector d₁ _ => ?_
    refine call (sourceClause d₁) fun source d₂ _ => ?_
    refine call (filterClause d₂) fun filter d₃ _ => ?_
    refine call (orderClause d₃) fun order d₄ _ => ?_
    exact call (limitClause d₄) fun limit d₅ _ => atEnd d₅ _
  refine accepting rfl (fun _ d _ _ => emit ?_) fun _ => refuse
  simp only [deleteTail_eq, bind_assoc, pure_bind]
  refine call (sourceClause d) fun source d₁ _ => ?_
  refine call (filterClause d₁) fun filter d₂ _ => ?_
  exact call (limitClause d₂) fun limit d₃ _ => atEnd d₃ _

end Performs

/-- The production of a nonterminal, if the recognizer has one that yields its actions. -/
def Nonterminal.production? (v : Vocabulary) : Nonterminal → Option (Production (List Action))
  | .query => some (Production.query v)
  | .selector => some (Grammar.selector v)
  | .sourceClause => some (Grammar.sourceClause v)
  | .filterClause => some (Grammar.filterClause v)
  | .chain op => some (of (Grammar.chain v op))
  | .operands op => some (of (Grammar.operands v op))
  | .unary => some (of (Grammar.unary v))
  | .atom => some (of (Grammar.atom v))
  | .comparison => some (of (Grammar.comparison v))
  | .orderClause => some (Grammar.orderClause v)
  | .orderItems => some (of (Grammar.orderItems v))
  | .direction => some (of (Grammar.direction v))
  | .limitClause => some (Grammar.limitClause v)
  | .selectorRest | .moreFields | .comparisonRest | .moreItems | .atEnd => none

/-- A nonterminal is recognized as its production does it. -/
theorem Performs.production {v : Vocabulary} {n : Nonterminal} {P : Production (List Action)}
    (h : n.production? v = some P) (c : Cursor) : Performs v [.recognize n] P c [] := by
  obtain ⟨hchain, hoperands, hunary, hatom⟩ := Performs.criteria v
  cases n with
  | chain op => exact Option.some.inj h ▸ hchain op c
  | operands op => exact Option.some.inj h ▸ hoperands op c
  | unary => exact Option.some.inj h ▸ hunary c
  | atom => exact Option.some.inj h ▸ hatom c
  | comparison => exact Option.some.inj h ▸ comparison c
  | query => exact Option.some.inj h ▸ query c
  | selector => exact Option.some.inj h ▸ selector c
  | sourceClause => exact Option.some.inj h ▸ sourceClause c
  | filterClause => exact Option.some.inj h ▸ filterClause c
  | orderClause => exact Option.some.inj h ▸ orderClause c
  | orderItems => exact Option.some.inj h ▸ orderItems c
  | direction => exact Option.some.inj h ▸ direction c
  | limitClause => exact Option.some.inj h ▸ limitClause c
  | _ => cases h

namespace Moment

/-- Whatever is to be done behind it, a nonterminal is done as its production does it. -/
theorem does_production {v : Vocabulary} {m : Moment} {n : Nonterminal}
    {P : Production (List Action)} {more : List Task} (hm : m.tasks = .recognize n :: more)
    (h : n.production? v = some P) : m.Does v more m.emitted (P m.cursor) := by
  obtain ⟨tasks, c, as⟩ := m
  obtain rfl : tasks = .recognize n :: more := hm
  have hdoes := Performs.production h c more as
  rwa [List.append_nil] at hdoes

/-- Step by step, the recognizer's answer is found. -/
theorem answers (v : Vocabulary) (c : Cursor) :
    ∃ n, (front c).after v n = .ended (Grammar.query v c) := by
  have hdoes := does_production (v := v) (m := front c) rfl rfl
  rw [query_eq]
  cases h : Production.query v c with
  | error e =>
      rw [front, h] at hdoes
      exact hdoes
  | ok p =>
      rw [front, h] at hdoes
      obtain ⟨n, hn⟩ := hdoes
      exact ⟨n + 1, after_add hn 1⟩

end Moment

end RecordQuery
