/-
  RecordQuery.Proofs.Grammar.Completion

  Whatever the recognizer has passed when it refuses a token can be completed: some tokens behind it
  make it a phrase of the production that is being read, and in the end a query. They are found
  production by production, for a production that fails in the middle is completed by the shortest
  phrases of what it has not read yet. All of them can be written: each of their words is a word.
-/

import RecordQuery.Proofs.Grammar.Lockstep
import RecordQuery.Proofs.Vocabulary

namespace RecordQuery

/-- The token can be written: a word has word characters only, and nothing writes the end. -/
def Token.Writable : Token → Prop
  | .word w => IsWord w
  | .endOfText => False
  | _ => True

/-- The tokens of a phrase. -/
abbrev Language := List Token → Prop

namespace Language

/-- What can follow the tokens `ts`. -/
def after (L : Language) (ts : List Token) : Language :=
  fun us => L (ts ++ us)

/-- Some phrase can be written. -/
def Written (L : Language) : Prop :=
  ∃ us, (∀ t ∈ us, t.Writable) ∧ L us

/-- Each phrase of `L` can be continued to one of `L'`. -/
def Opens (L L' : Language) : Prop :=
  ∀ ts, L ts → (L'.after ts).Written

/-- A smaller language opens a larger one. -/
theorem Opens.of_imp {L L' : Language} (h : ∀ ts, L ts → L' ts) : L.Opens L' :=
  fun ts hts => ⟨[], by simp, by simpa [after] using h ts hts⟩

end Language

/-- Where the production refuses a token, what it has passed in front of the token can be completed
    to a phrase. -/
def Completable {α : Type} (P : Production α) (c : Cursor) (L : Language) : Prop :=
  ∀ e, P c = .error e → e.kind ≠ .lexical →
    ∃ ts d, c.Passes ts d ∧ d.position = e.position ∧ (L.after ts).Written

namespace Completable

open Production

variable {α β : Type} {v : Vocabulary} {c d : Cursor} {L L' : Language} {P : Production α}
  {F : α → Production β}

/-! ## Sequences -/

/-- A production that reads nothing refuses nothing. -/
theorem pure (a : α) : Completable (pure a) c L := by
  intro e h
  cases h

/-- What is completed to a phrase is completed to what the phrase opens. -/
theorem opens (h : Completable P c L) (hL : L.Opens L') : Completable P c L' := by
  intro e he hm
  obtain ⟨ts, d, hts, hd, us, hus, hphrase⟩ := h e he hm
  obtain ⟨vs, hvs, hphrase'⟩ := hL _ hphrase
  refine ⟨ts, d, hts, hd, us ++ vs, fun t ht => ?_, ?_⟩
  · exact (List.mem_append.mp ht).elim (hus t) (hvs t)
  · rwa [Language.after, ← List.append_assoc]

/-- The value of a production has no part in its completion. -/
theorem map (h : Completable P c L) (g : α → β) :
    Completable (P >>= fun a => Pure.pure (g a)) c L := by
  intro e he
  obtain he | ⟨p, -, he⟩ := bind_eq_error.mp he
  · exact h e he
  · cases he

/-- A sequence is completed in its first part by what the second one lacks, and in its second part
    behind the first. -/
theorem bind (hP : Completable P c L') (hL : L'.Opens L)
    (hF : ∀ a d, P c = .ok (a, d) → ∃ ts, c.Passes ts d ∧ Completable (F a) d (L.after ts)) :
    Completable (P >>= F) c L := by
  intro e he hm
  obtain he | ⟨⟨a, d⟩, ha, he⟩ := bind_eq_error.mp he
  · exact hP.opens hL e he hm
  · obtain ⟨ts, hts, hthen⟩ := hF a d ha
    obtain ⟨us, f, hus, hf, vs, hvs, hphrase⟩ := hthen e he hm
    exact ⟨ts ++ us, f, hts.trans hus, hf, vs, hvs, by rwa [Language.after, List.append_assoc]⟩

/-- A first part that refuses no token asks for no completion. -/
theorem bind_of_never (hP : ∀ e, P c = .error e → e.kind = .lexical)
    (hF : ∀ a d, P c = .ok (a, d) → ∃ ts, c.Passes ts d ∧ Completable (F a) d (L.after ts)) :
    Completable (P >>= F) c L :=
  bind (fun e he hm => absurd (hP e he) hm) (.of_imp fun _ h => h) hF

/-! ## Moves -/

theorem kind_of_skip {e : SyntaxError} (h : skip c = .error e) : e.kind = .lexical := by
  obtain ⟨l, rfl, -⟩ := lexical_of_skip h
  rfl

/-- Where a token is refused, any phrase that can be written completes what is in front of it. -/
theorem refuse (hs : c.Settled) (hL : L.Written) {e : Expectation} :
    Completable (refuse e : Production α) c L := by
  intro e he _
  cases he
  exact ⟨[], c, .refl hs, rfl, hL⟩

theorem look_bind {f : Token → α} (h : Completable (F (f c.token)) c L) :
    Completable (look f >>= F) c L :=
  fun e he => h e he

/-- In front of a token that may be missing, the completion is that of what follows, with the token
    or without it. -/
theorem accept_bind {f : Token → Option α} {F : Option α → Production β}
    (hend : f .endOfText = none)
    (hn : f c.token = none → Completable (F none) c L)
    (hF : ∀ a d, f c.token = some a → c.Passes [c.token] d →
      Completable (F (some a)) d (L.after [c.token])) : Completable (accept f >>= F) c L := by
  cases ho : f c.token with
  | none =>
      intro e he
      rw [accept_bind_of_none ho] at he
      exact hn ho e he
  | some a =>
      have ht : c.token ≠ .endOfText := fun ht => by simp [ht, hend] at ho
      refine bind_of_never (fun e he => ?_) fun o d hb => ?_
      · rw [accept_of_some ho] at he
        exact kind_of_skip (map_eq_error.mp he)
      · rw [accept_of_some ho] at hb
        obtain ⟨p, hp, heq⟩ := map_eq_ok.mp hb
        obtain ⟨rfl, rfl⟩ := Prod.mk.inj heq
        have hpass := passes_of_skip ht hp
        exact ⟨_, hpass, hF a _ ho hpass⟩

/-- A token that has to be there is refused where a phrase can be written instead. -/
theorem demand {f : Token → Option α} (hs : c.Settled) (hL : L.Written) {e : Expectation}
    (hend : f .endOfText = none) : Completable (demand f e) c L :=
  accept_bind hend (fun _ => refuse hs hL) fun a _ _ _ => pure a

theorem demand_bind {f : Token → Option α} (hs : c.Settled) (hL : L.Written) {e : Expectation}
    (hend : f .endOfText = none)
    (hF : ∀ a d, f c.token = some a → c.Passes [c.token] d →
      Completable (F a) d (L.after [c.token])) :
    Completable (Production.demand f e >>= F) c L :=
  bind (demand hs hL hend) (.of_imp fun _ h => h) fun a d h =>
    have ⟨ha, hp⟩ := (demand_eq_ok_iff hend).mp h
    ⟨_, hp, hF a d ha hp⟩

/-- A word that is no name is refused where it stands, although it has been passed by then. -/
theorem named {J : String → Token → Option NameFault} (hs : c.Settled) (hL : L.Written)
    {e : Expectation} : Completable (named v e J) c L := by
  intro e₁ he hm
  obtain he | ⟨⟨w, d⟩, -, he⟩ := bind_eq_error.mp he
  · exact demand hs hL rfl e₁ he hm
  · dsimp only at he
    split at he
    next => cases he
    next fault _ =>
      cases he
      exact ⟨[], c, .refl hs, (fault.position_error w c.position).symm, hL⟩

/-- Behind a name, what is missing is what can follow the name. -/
theorem named_bind {J : String → Token → Option NameFault} {F : String → Production β}
    (hs : c.Settled) (hL : L.Written) {e : Expectation}
    (hF : ∀ w d, v.keyword? w = none → J w d.token = none → c.Passes [.word w] d →
      Completable (F w) d (L.after [.word w])) : Completable (Production.named v e J >>= F) c L :=
  bind (named hs hL) (.of_imp fun _ h => h) fun w d h => by
    obtain ⟨hname, hp, hj⟩ := named_eq_ok_iff.mp h
    obtain ⟨ht, hk⟩ := Token.name?_eq_some_iff.mp hname
    rw [ht] at hp
    exact ⟨_, hp, hF w d hk hj hp⟩

/-- A level is opened only if there is room, so the completion never needs more room than there is.
    -/
theorem descend_bind {f : Token → Option Unit} {F : Option Unit → Production β}
    (hs : c.Settled) (hL : L.Written) (hend : f .endOfText = none)
    (hn : f c.token = none → Completable (F none) c L)
    (hF : ∀ d, f c.token = some () → c.depth < v.maxNesting → c.Passes [c.token] d →
      Completable (F (some ())) d (L.after [c.token])) :
    Completable (descend v f >>= F) c L := by
  cases ho : f c.token with
  | none =>
      intro e he
      rw [descend_bind_of_none ho] at he
      exact hn ho e he
  | some u =>
      have ht : c.token ≠ .endOfText := fun ht => by simp [ht, hend] at ho
      refine bind (fun e he hm => ?_) (.of_imp fun _ h => h) fun o d hd => ?_
      · -- The only token that is refused here is the one that nests too deep.
        rw [descend_of_some ho, map_eq_error] at he
        obtain he | ⟨-, -, he⟩ := bind_eq_error.mp he
        · rw [checkRoom, map_eq_error, Cursor.checkNesting] at he
          split at he
          next =>
            cases he
            exact ⟨[], c, .refl hs, rfl, hL⟩
          next => cases he
        · exact absurd (kind_of_skip he) hm
      · rw [descend_of_some ho] at hd
        obtain ⟨p, hp, heq⟩ := map_eq_ok.mp hd
        obtain ⟨rfl, rfl⟩ := Prod.mk.inj heq
        obtain ⟨r, hroom, hskip⟩ := bind_eq_ok.mp hp
        obtain ⟨u, hu, -⟩ := map_eq_ok.mp hroom
        have hpass := passes_of_skip ht hskip
        exact ⟨_, hpass, hF _ ho (Cursor.checkNesting_eq_ok_iff.mp hu) hpass⟩

theorem deeper (h : Completable P c.enter L) : Completable (deeper P) c L := by
  intro e he hm
  obtain ⟨ts, d, hts, hd, hw⟩ := h e (map_eq_error.mp he) hm
  exact ⟨ts, d.leave, hts.leave, hd, hw⟩

end Completable

/-! ## Words to complete with -/

/-- Keywords can be written. -/
theorem Vocabulary.isWord_spelling (v : Vocabulary) (k : Keyword) : IsWord (v.spelling k) := by
  have hspelling := v.isSpelling_keyword k
  simp only [isSpelling, Bool.and_eq_true, Bool.not_eq_true', List.all_eq_true] at hspelling
  refine ⟨by simpa [spelling, String.isEmpty_iff] using hspelling.1, fun c hc => ?_⟩
  have hchar := hspelling.2 c hc
  simp only [isSpellingChar, Bool.or_eq_true] at hchar
  rcases hchar with hchar | hchar <;> simp [isWordChar, hchar]

/-- A vocabulary with a name of a field and a name of a namespace that can be written. -/
structure Vocabulary.Names (v : Vocabulary) (f g : String) : Prop where
  field : v.isField f = true
  fieldWord : IsWord f
  source : v.isNamespace g = true
  sourceWord : IsWord g

namespace Grammar

variable {v : Vocabulary} {f g : String} {c : Cursor}

/-- The phrases of one kind that fit a depth. -/
def fitting {α : Type} (v : Vocabulary) (phrase : α → Phrase) (depth : Nat) : Language :=
  fun ts => ∃ n x, Derives v n ts (phrase x) ∧ depth + n ≤ v.maxNesting

/-- Where a literal is missing any word that is a name will do. -/
theorem completable_literal (hs : c.Settled) {L : Language} (hL : L.Written) :
    Completable (Production.of fun c => c.literal v) c L := by
  rw [Production.of_literal]
  exact .accept_bind rfl (fun _ => .demand hs hL rfl) fun a _ _ _ => .pure a

section

variable (h : v.Names f g)
include h

/-- The comparison of the field with its own name. -/
theorem comparison_of_names {w : String} (hw : v.isField w = true) :
    Comparison v [.word w, .equal, .word f] (.value w .equal f) :=
  .value hw rfl (.bare (v.keyword?_of_isField h.field))

theorem written_comparison {L : Language} (hL : L [.word f, .equal, .word f]) : L.Written :=
  ⟨_, by simpa [Token.Writable] using h.fieldWord, hL⟩

theorem written_field {L : Language} (hL : L [.word f]) : L.Written :=
  ⟨_, by simpa [Token.Writable] using h.fieldWord, hL⟩

omit h in
/-- What is judged to be a field is one. -/
theorem isField_of_judged {w : String} {t : Token} (hj : Production.judgeField v w t = none) :
    v.isField w = true := by
  simpa [Production.judgeField] using hj

/-- A comparison is completed with the name of a field for whatever is missing in it. -/
theorem completable_comparison (hs : c.Settled) :
    Completable (Production.of (comparison v)) c fun ts => ∃ x, Comparison v ts x := by
  have hf := v.keyword?_of_isField h.field
  rw [Production.of_comparison]
  refine .named_bind hs (written_comparison h ⟨_, comparison_of_names h h.field⟩)
    fun w d hk hj hd => ?_
  have hw := isField_of_judged hj
  refine .accept_bind rfl (fun _ => ?_) fun op e hop he => ?_
  · refine .accept_bind rfl (fun _ => ?_) fun op e hop he => ?_
    · refine .accept_bind rfl (fun _ => .refuse hd.settled ?_) fun u e hmember he => ?_
      · exact ⟨[.equal, .word f], by simpa [Token.Writable] using h.fieldWord, _,
          comparison_of_names h hw⟩
      · have hkey := Production.spells_of_spelt hmember
        exact (completable_literal he.settled
          (written_field h ⟨_, .index hw hkey (.bare hf)⟩)).map _
    · exact (Completable.demand he.settled (written_field h ⟨_, .range hw hop hf⟩) rfl).map _
  · exact (completable_literal he.settled
      (written_field h ⟨_, .value hw hop (.bare hf)⟩)).map _

omit h in
/-- An operand of `or` is completed as a conjunction, an operand of `and` as a unary. -/
theorem completable_operand {op : BoolOp} (hs : c.Settled) (hc : c.depth ≤ v.maxNesting)
    (h : match op with
      | .or => c.Settled → c.depth ≤ v.maxNesting →
        Completable (Production.of (chain v .and)) c (fitting v (.chain .and) c.depth)
      | .and => c.Settled → c.depth ≤ v.maxNesting →
        Completable (Production.of (unary v)) c (fitting v .unary c.depth)) :
    Completable (Production.of (operand v op)) c (fitting v (.operand op) c.depth) := by
  cases op with
  | or => exact (h hs hc).opens (.of_imp fun ts ⟨n, x, hx, hn⟩ => ⟨n, x, .conjunction hx, hn⟩)
  | and => exact (h hs hc).opens (.of_imp fun ts ⟨n, x, hx, hn⟩ => ⟨n, x, .unary hx, hn⟩)

/-- Criteria are completed without another level of nesting: what is pending is closed, and what is
    missing is a comparison. -/
theorem completable_criteria :
    (∀ op c, c.Settled → c.depth ≤ v.maxNesting →
      Completable (Production.of (chain v op)) c (fitting v (.chain op) c.depth)) ∧
    (∀ op c, c.Settled → c.depth ≤ v.maxNesting →
      Completable (Production.of (operands v op)) c (fitting v (.operands op) c.depth)) ∧
    (∀ c, c.Settled → c.depth ≤ v.maxNesting →
      Completable (Production.of (unary v)) c (fitting v .unary c.depth)) ∧
    ∀ c, c.Settled → c.depth ≤ v.maxNesting →
      Completable (Production.of (atom v)) c (fitting v .atom c.depth) := by
  have hshort {w : String} (hw : v.isField w = true) : Derives v 0 _ (.atom _) :=
    .comparison (comparison_of_names h hw)
  -- Along the recursion of the recognizer. Wherever the depth grows, room for it has been checked.
  refine recognizer_induct v ?chain ?operands ?negation ?unary ?group ?comparison
  case chain =>
    intro op c hfirst hmore hs hc
    rw [Production.of_chain]
    refine (completable_operand hs hc hfirst).bind (.of_imp ?_) fun first d hd => ?_
    · rintro ts ⟨n, x, hx, hn⟩
      exact ⟨n, x, hx.chain_of_operand, hn⟩
    · have hy := Production.of_eq_ok.mp hd
      obtain ⟨x, -, n, ts, hts, hx, hn⟩ := sound_operand op c hs hc _ _ hy
      obtain ⟨p, -, -, rfl⟩ := hy
      have hdepth := hts.depth
      refine ⟨ts, hts, .map (.opens (hmore p hts.settled (by omega)) (.of_imp ?_)) _⟩
      rintro us ⟨m, xs, hxs, hm⟩
      exact ⟨_, _, .chain hx hxs, by omega⟩
  case operands =>
    intro op c hright hmore hs hc
    rw [Production.of_operands]
    refine .accept_bind rfl (fun _ => .pure _) fun u b hk hb => ?_
    have hkey := Production.spells_of_spelt hk
    have hbdepth := hb.depth
    obtain ⟨b, rfl⟩ := Production.parsed_of_passes hb
    refine (completable_operand hb.settled (by omega) (hright b)).bind (.of_imp ?_)
      fun right d hd => ?_
    · rintro ts ⟨n, x, hx, hn⟩
      refine ⟨max n 0, [x], ?_, by omega⟩
      simpa using Derives.operands hkey hx .noOperands
    · have hy := Production.of_eq_ok.mp hd
      obtain ⟨x, -, n, ts, hts, hx, hn⟩ := sound_operand op _ hb.settled (by omega) _ _ hy
      obtain ⟨p, -, -, rfl⟩ := hy
      have hdepth := hts.depth
      refine ⟨ts, hts, .map (.opens (hmore b p hts.settled (by omega)) (.of_imp ?_)) _⟩
      rintro us ⟨m, xs, hxs, hm⟩
      have hderives := Derives.operands hkey hx hxs
      exact ⟨_, _, hderives, by omega⟩
  case negation =>
    intro c hc hoperand hs hdepth
    rw [Production.of_unary]
    refine .descend_bind hs ?_ rfl (fun hn => ?_) fun b hk hroom hb => ?_
    · exact written_comparison h ⟨0, _, .atom (hshort h.field), by omega⟩
    · cases hn.symm.trans (Production.spelt_eq_some_iff.mpr (Production.keyword?_eq c ▸ hc))
    · have hkey := Production.spells_of_spelt hk
      have hbdepth := hb.depth
      obtain ⟨b, rfl⟩ := Production.parsed_of_passes hb
      have hb' := hoperand b hb.settled (by rw [Cursor.depth_enter]; omega)
      refine (hb'.deeper.opens (.of_imp ?_)).map _
      rintro ts ⟨n, x, hx, hn⟩
      rw [Cursor.depth_enter] at hn
      exact ⟨_, _, .negation hkey hx, by omega⟩
  case unary =>
    intro c hc hatom hs hdepth
    rw [Production.of_unary]
    refine .descend_bind hs ?_ rfl (fun hn => ?_) fun b hk hroom hb => ?_
    · exact written_comparison h ⟨0, _, .atom (hshort h.field), by omega⟩
    · exact (hatom hs hdepth).opens (.of_imp fun ts ⟨n, x, hx, hn⟩ => ⟨n, x, .atom hx, hn⟩)
    · exact absurd (Production.keyword?_eq c ▸ Production.spelt_eq_some_iff.mp hk) hc
  case group =>
    intro c hc hinside hs hdepth
    rw [Production.of_atom]
    refine .descend_bind hs ?_ rfl (fun hn => ?_) fun b hk hroom hb => ?_
    · exact written_comparison h ⟨0, _, hshort h.field, by omega⟩
    · cases hn.symm.trans (Production.exactly_eq_some_iff.mpr hc)
    · have hbdepth := hb.depth
      obtain ⟨b, rfl⟩ := Production.parsed_of_passes hb
      have hb' : b.rest.enter.depth ≤ v.maxNesting := by
        rw [Cursor.depth_enter]
        omega
      -- Criteria that fit behind the open parenthesis fit in front of its close.
      have hgroup {n : Nat} {ts : List Token} {x : Condition} (hx : Derives v n ts (.chain .or x))
          (hn : b.rest.enter.depth + n ≤ v.maxNesting) :
          ((fitting v .atom c.depth).after [c.token]).after ts [.closeParen] := by
        rw [Cursor.depth_enter] at hn
        rw [hc]
        exact ⟨n + 1, x, .group hx, by omega⟩
      have hclose {L : Language} (hL : L [.closeParen]) : L.Written :=
        ⟨_, by simp [Token.Writable], hL⟩
      refine .deeper (.bind (hinside b hb.settled hb') ?_ fun inside d hd => ?_)
      · rintro ts ⟨n, x, hx, hn⟩
        exact hclose (hgroup hx hn)
      · obtain ⟨x, -, n, ts, hts, hx, hn⟩ :=
          (sound_criteria v).1 .or b.rest.enter hb.settled hb' _ _ (Production.of_eq_ok.mp hd)
        exact ⟨ts, hts, .map (.demand hts.settled (hclose (hgroup hx hn)) rfl) _⟩
  case comparison =>
    intro c hc hs hdepth
    rw [Production.of_atom]
    refine .descend_bind hs ?_ rfl (fun hn => ?_) fun b hk hroom hb => ?_
    · exact written_comparison h ⟨0, _, hshort h.field, by omega⟩
    · refine (completable_comparison h hs).opens (.of_imp fun ts ⟨x, hx⟩ => ?_)
      exact ⟨0, x, .comparison hx, by omega⟩
    · exact absurd (Production.exactly_eq_some_iff.mp hk) hc

/-! ## Selectors -/

/-- What may follow the first field of a selector. -/
def fieldsBehind (v : Vocabulary) : Language :=
  fun ts => ts = [] ∨ ∃ us names, ts = .comma :: us ∧ Listed (Field v) us names

/-- Behind a comma the name of a field completes the selector. -/
theorem completable_moreFields (c : Cursor) :
    Completable (Production.of (moreFields v)) c (fieldsBehind v) := by
  rw [Production.of_moreFields]
  refine .accept_bind rfl (fun hn => .pure _) fun u b hk hb => ?_
  have hcomma : c.token = .comma := Production.exactly_eq_some_iff.mp hk
  rw [hcomma] at hb ⊢
  refine .named_bind hb.settled (written_field h (.inr ⟨_, _, rfl, .one (.word h.field)⟩))
    fun w d hkw hj hd => ?_
  have hw := isField_of_judged hj
  have hlt := Production.size_lt_of_passes hb
  have hlt' := Production.size_lt_of_passes hd
  refine ((completable_moreFields d).opens (.of_imp ?_)).map _
  rintro ts (rfl | ⟨us, names, rfl, hnames⟩)
  · exact .inr ⟨_, _, rfl, .one (.word hw)⟩
  · exact .inr ⟨_, _, rfl, .more (.word hw) hnames⟩
termination_by c.size
decreasing_by omega

/-- A selector is completed by the name of a field, and a function by its closing parenthesis. -/
theorem completable_selector (hs : c.Settled) :
    Completable (selector v) c fun ts => ∃ s, DerivesSelector v ts s := by
  rw [Production.selector_eq]
  refine .named_bind hs (written_field h ⟨_, .simple h.field⟩) fun w d hkw hj hd => ?_
  refine .accept_bind rfl (fun hn => ?_) fun u b hk hb => ?_
  · -- Without a parenthesis the word is the first field.
    have hopen : d.token ≠ .openParen := fun ht => by
      rw [Production.exactly_eq_some_iff.mpr ht] at hn
      cases hn
    have hw : v.isField w = true := by
      simpa [Production.judgeSelector, Production.judgeField, hopen] using hj
    refine ((completable_moreFields h d).opens (.of_imp ?_)).map _
    rintro ts (rfl | ⟨us, names, rfl, hnames⟩)
    · exact ⟨_, .simple hw⟩
    · -- A comma has brought a second field.
      have hne := List.length_pos_iff.mpr hnames.ne_nil
      refine ⟨_, .compound (.more (.word hw) hnames) ?_⟩
      simp only [List.length_cons]
      omega
  · have hopen : d.token = .openParen := Production.exactly_eq_some_iff.mp hk
    have hname : isFunctionName w = true := by
      simpa [Production.judgeSelector, hopen] using hj
    rw [hopen] at hb ⊢
    refine .named_bind hb.settled ?_ fun u e hku hju he => ?_
    · exact ⟨[.word f, .closeParen], by simpa [Token.Writable] using h.fieldWord, _,
        .function hkw hname h.field⟩
    · refine (Completable.demand he.settled ⟨[.closeParen], by simp [Token.Writable], ?_⟩ rfl).map _
      exact ⟨_, .function hkw hname (isField_of_judged hju)⟩

/-! ## Clauses -/

theorem completable_sourceClause :
    Completable (sourceClause v) c
      fun ts => ∃ source, Clause v [.source] (NamespaceName v) ts source := by
  rw [Production.sourceClause_eq]
  refine .accept_bind rfl (fun _ => .pure _) fun u b hk hb => ?_
  have hkey := Production.spells_of_spelt hk
  refine (Completable.named hb.settled ?_).map _
  exact ⟨[.word g], by simpa [Token.Writable] using h.sourceWord, _,
    .present (.cons hkey .nil) (.word h.source)⟩

/-- The criteria of a clause are completed within the room that there is. -/
theorem completable_filterClause (hc : c.depth ≤ v.maxNesting) :
    Completable (filterClause v) c
      fun ts => ∃ n filter, Filter v n ts filter ∧ c.depth + n ≤ v.maxNesting := by
  rw [Production.filterClause_eq]
  refine .accept_bind rfl (fun _ => .pure _) fun u b hk hb => ?_
  have hkey := Production.spells_of_spelt hk
  have hbdepth := hb.depth
  refine (((completable_criteria h).1 .or b hb.settled (by omega)).opens (.of_imp ?_)).map _
  rintro ts ⟨n, x, hx, hn⟩
  exact ⟨n, _, .present hkey hx, by omega⟩

omit h in
/-- A direction may be missing, so no token is refused for not being one. -/
theorem kind_of_direction {e : SyntaxError}
    (he : Production.of (direction v) c = .error e) : e.kind = .lexical := by
  have hnone : Completable (Production.of (direction v)) c fun _ => False := by
    rw [Production.of_direction]
    refine .accept_bind rfl (fun _ => ?_) fun _ _ _ _ => .pure _
    exact .accept_bind rfl (fun _ => .pure _) fun _ _ _ _ => .pure _
  refine Decidable.of_not_not fun hkind => ?_
  obtain ⟨ts, d, -, -, us, -, hfalse⟩ := hnone e he hkind
  exact hfalse

/-- An order is completed by the name of a field behind the last comma. -/
theorem completable_orderItems (c : Cursor) (hs : c.Settled) :
    Completable (Production.of (orderItems v)) c
      fun ts => ∃ specs, Listed (OrderItem v) ts specs := by
  rw [Production.of_orderItems]
  refine .named_bind hs (written_field h ⟨_, .one (.plain h.field)⟩) fun w d hkw hj hd => ?_
  have hlt := Production.size_lt_of_passes hd
  refine .bind_of_never (fun e => kind_of_direction) fun written m hm => ?_
  have hy := Production.of_eq_ok.mp hm
  obtain ⟨ts, spec, hts, hitem, -⟩ := sound_direction hd.settled (isField_of_judged hj) hy
  obtain ⟨p, -, -, rfl⟩ := hy
  have hlt' := p.shorter
  refine ⟨ts, hts, .accept_bind rfl (fun _ => .pure _) fun u b hk hb => ?_⟩
  have hcomma := Production.exactly_eq_some_iff.mp hk
  have hlt'' := Production.size_lt_of_passes hb
  refine ((completable_orderItems b hb.settled).opens (.of_imp ?_)).map _
  rintro us ⟨specs, hspecs⟩
  rw [hcomma]
  exact ⟨_, .more hitem hspecs⟩
termination_by c.size
decreasing_by
  simp only [Cursor.size] at *
  omega

theorem completable_orderClause :
    Completable (orderClause v) c
      fun ts => ∃ order, Clause v [.order, .orderBy] (Listed (OrderItem v)) ts order := by
  rw [Production.orderClause_eq]
  refine .accept_bind rfl (fun _ => .pure _) fun u b hk hb => ?_
  have hkey := Production.spells_of_spelt hk
  have hclause {k : Token} {ts : List Token} {specs : List OrderSpec} (hk : Spells v k .orderBy)
      (hspecs : Listed (OrderItem v) ts specs) :
      Clause v [.order, .orderBy] (Listed (OrderItem v)) ([c.token, k] ++ ts) (some specs) :=
    .present (.cons hkey (.cons hk .nil)) hspecs
  refine .demand_bind hb.settled ?_ rfl fun u d hby hd => ?_
  · refine ⟨[.word (v.spelling .orderBy), .word f], ?_, _,
      hclause ⟨_, rfl, v.keyword?_spelling _⟩ (.one (.plain h.field))⟩
    simpa [Token.Writable] using ⟨v.isWord_spelling _, h.fieldWord⟩
  · have hkey' := Production.spells_of_spelt hby
    refine ((completable_orderItems h d hd.settled).opens (.of_imp ?_)).map _
    rintro ts ⟨specs, hspecs⟩
    exact ⟨_, hclause hkey' hspecs⟩

theorem completable_limitClause :
    Completable (limitClause v) c
      fun ts => ∃ limit, Clause v [.limit] (LimitWord v) ts limit := by
  rw [Production.limitClause_eq]
  refine .accept_bind rfl (fun _ => .pure _) fun u b hk hb => ?_
  have hkey := Production.spells_of_spelt hk
  refine (Completable.demand hb.settled (written_field h ⟨some f, ?_⟩) rfl).map _
  exact .present (.cons hkey .nil) (.word (v.keyword?_of_isField h.field))

/-! ## Queries -/

/-- The tokens of queries that nest no deeper than the vocabulary allows. -/
def queries (v : Vocabulary) : Language :=
  fun ts => ∃ n d, DerivesQuery v n ts d ∧ n ≤ v.maxNesting

theorem completable_selectTail {k : Token} (hk : Spells v k .select) (hs : c.Settled)
    (hc : c.depth = 0) : Completable (selectTail v) c ((queries v).after [k]) := by
  -- Clauses that are not there yet can be left out.
  have hquery {n : Nat} {ss fs ws os ls : List Token} {selector : Selector}
      {source : Option String} {filter : Option Condition} {order : Option (List OrderSpec)}
      {limit : Option String} (hs : DerivesSelector v ss selector)
      (hf : Clause v [.source] (NamespaceName v) fs source) (hw : Filter v n ws filter)
      (hn : n ≤ v.maxNesting)
      (ho : Clause v [.order, .orderBy] (Listed (OrderItem v)) os order)
      (hl : Clause v [.limit] (LimitWord v) ls limit) :
      ∀ zs, zs = k :: (ss ++ fs ++ ws ++ os ++ ls) → queries v zs := by
    rintro _ rfl
    exact ⟨n, _, .select hk hs hf hw ho hl, hn⟩
  rw [Production.selectTail_eq]
  refine (completable_selector h hs).bind (.of_imp ?_) fun as₁ c₁ h₁ => ?_
  · rintro ss ⟨selector, hd₁⟩
    exact hquery hd₁ .absent .absent (Nat.zero_le _) .absent .absent _ (by simp)
  obtain ⟨ss, selector, hp₁, hd₁, -⟩ := sound_selector h₁
  refine ⟨ss, hp₁, (completable_sourceClause h).bind (.of_imp ?_) fun as₂ c₂ h₂ => ?_⟩
  · rintro fs ⟨source, hd₂⟩
    exact hquery hd₁ hd₂ .absent (Nat.zero_le _) .absent .absent _ (by simp)
  obtain ⟨fs, source, hp₂, hd₂, -⟩ := sound_sourceClause hp₁.settled h₂
  have hdepth : c₂.depth = 0 := by rw [hp₂.depth, hp₁.depth, hc]
  refine ⟨fs, hp₂, (completable_filterClause h (by omega)).bind (.of_imp ?_) fun as₃ c₃ h₃ => ?_⟩
  · rintro ws ⟨n, filter, hd₃, hn⟩
    exact hquery hd₁ hd₂ hd₃ (by omega) .absent .absent _ (by simp)
  obtain ⟨n, ws, filter, hp₃, hd₃, hn, -⟩ := sound_filterClause hp₂.settled (by omega) h₃
  refine ⟨ws, hp₃, (completable_orderClause h).bind (.of_imp ?_) fun as₄ c₄ h₄ => ?_⟩
  · rintro os ⟨order, hd₄⟩
    exact hquery hd₁ hd₂ hd₃ (by omega) hd₄ .absent _ (by simp)
  obtain ⟨os, order, hp₄, hd₄, -⟩ := sound_orderClause hp₃.settled h₄
  refine ⟨os, hp₄, ((completable_limitClause h).opens (.of_imp ?_)).map _⟩
  rintro ls ⟨limit, hd₅⟩
  exact hquery hd₁ hd₂ hd₃ (by omega) hd₄ hd₅ _ (by simp)

theorem completable_deleteTail {k : Token} (hk : Spells v k .delete) (hs : c.Settled)
    (hc : c.depth = 0) : Completable (deleteTail v) c ((queries v).after [k]) := by
  have hquery {n : Nat} {fs ws ls : List Token} {source : Option String}
      {filter : Option Condition} {limit : Option String}
      (hf : Clause v [.source] (NamespaceName v) fs source) (hw : Filter v n ws filter)
      (hn : n ≤ v.maxNesting) (hl : Clause v [.limit] (LimitWord v) ls limit) :
      ∀ zs, zs = k :: (fs ++ ws ++ ls) → queries v zs := by
    rintro _ rfl
    exact ⟨n, _, .delete hk hf hw hl, hn⟩
  rw [Production.deleteTail_eq]
  refine (completable_sourceClause h).bind (.of_imp ?_) fun as₁ c₁ h₁ => ?_
  · rintro fs ⟨source, hd₁⟩
    exact hquery hd₁ .absent (Nat.zero_le _) .absent _ (by simp)
  obtain ⟨fs, source, hp₁, hd₁, -⟩ := sound_sourceClause hs h₁
  have hdepth : c₁.depth = 0 := by rw [hp₁.depth, hc]
  refine ⟨fs, hp₁, (completable_filterClause h (by omega)).bind (.of_imp ?_) fun as₂ c₂ h₂ => ?_⟩
  · rintro ws ⟨n, filter, hd₂, hn⟩
    exact hquery hd₁ hd₂ (by omega) .absent _ (by simp)
  obtain ⟨n, ws, filter, hp₂, hd₂, hn, -⟩ := sound_filterClause hp₁.settled (by omega) h₂
  refine ⟨ws, hp₂, ((completable_limitClause h).opens (.of_imp ?_)).map _⟩
  rintro ls ⟨limit, hd₃⟩
  exact hquery hd₁ hd₂ (by omega) hd₃ _ (by simp)

omit h in
/-- Nothing completes a query but its end. -/
theorem completable_atEnd {L : Language} (hs : c.Settled) (hL : L []) (actions : List Action) :
    Completable (Production.atEnd actions) c L := by
  refine .look_bind ?_
  cases Production.exactly .endOfText c.token with
  | none => exact .refuse hs ⟨[], by simp, hL⟩
  | some u => exact .pure _

omit h in
/-- Behind the first token of a query the others are passed. -/
theorem passes_behind {b e : Cursor} {k : Token} {ts : List Token} {n : Nat} {d : Draft}
    (hb : c.Passes [k] b) (hts : c.Passes ts e) (hd : DerivesQuery v n ts d) :
    ∃ us, ts = k :: us ∧ b.Passes us e := by
  obtain ⟨k', us, rfl⟩ : ∃ k' us, ts = k' :: us := by cases hd <;> exact ⟨_, _, rfl⟩
  obtain rfl : k' = k := hts.token.symm.trans hb.token
  obtain ⟨b', hb', hus⟩ := hts.split_cons
  exact ⟨us, rfl, hb.unique hb' ▸ hus⟩

/-- Whatever a query has been refused for, the tokens in front of it can be completed to a query. -/
theorem completable_query (hs : c.Settled) (hc : c.depth = 0) :
    Completable (Production.query v) c (queries v) := by
  refine .accept_bind rfl (fun _ => ?_) fun u b hk hb => ?_
  · refine .accept_bind rfl (fun _ => .refuse hs ?_) fun u b hk hb => ?_
    · refine ⟨[.word (v.spelling .select), .word f], ?_, 0, _,
        .select ⟨_, rfl, v.keyword?_spelling _⟩ (.simple h.field) .absent .absent .absent .absent,
        Nat.zero_le _⟩
      simpa [Token.Writable] using ⟨v.isWord_spelling _, h.fieldWord⟩
    · have hkey := Production.spells_of_spelt hk
      have hbdepth := hb.depth
      refine (completable_deleteTail h hkey hb.settled (by omega)).bind (.of_imp fun _ h => h)
        fun as e he => ?_
      obtain ⟨n, ts, d, hts, hd, hn, -⟩ := sound_delete hb hkey hc he
      obtain ⟨us, rfl, hus⟩ := passes_behind hb hts hd
      exact ⟨us, hus, completable_atEnd hus.settled ⟨n, d, by simpa using hd, hn⟩ _⟩
  · have hkey := Production.spells_of_spelt hk
    have hbdepth := hb.depth
    refine (completable_selectTail h hkey hb.settled (by omega)).bind (.of_imp fun _ h => h)
      fun as e he => ?_
    obtain ⟨n, ts, d, hts, hd, hn, -⟩ := sound_select hb hkey hc he
    obtain ⟨us, rfl, hus⟩ := passes_behind hb hts hd
    exact ⟨us, hus, completable_atEnd hus.settled ⟨n, d, by simpa using hd, hn⟩ _⟩

end

end Grammar

end RecordQuery
