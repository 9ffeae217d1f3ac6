/-
  RecordQuery.Proofs.Grammar.Lockstep

  Two runs of the recognizer, in vocabularies that differ in how they spell keywords, over tokens
  that differ in nothing else. The second run follows the first one move by move: where the first
  reads something, the second reads the same, and where the first refuses a token, the second
  refuses the token in its place. The second text is asked for no token behind the one that the
  first run has reached, so both facts also tell that no decision depends on a later token.
-/

import RecordQuery.Proofs.Grammar.Production
import RecordQuery.Proofs.Grammar.Stream

namespace RecordQuery

/-! ## Errors without their wording -/

/-- The kinds of errors. -/
inductive SyntaxError.Kind where
  | lexical
  | unexpected
  | invalidField
  | invalidFunction
  | invalidNamespace
  | nestingTooDeep
deriving DecidableEq, Repr

namespace SyntaxError

/-- The kind of an error. -/
def kind : SyntaxError → Kind
  | .lexical _ => .lexical
  | .unexpected _ _ _ => .unexpected
  | .invalidField _ _ => .invalidField
  | .invalidFunction _ _ => .invalidFunction
  | .invalidNamespace _ _ => .invalidNamespace
  | .nestingTooDeep _ _ => .nestingTooDeep

/-- The tokens that have been passed when the error is found, from the one that it is about: a name
    is judged with the token behind it known. -/
def seen : SyntaxError → List Token
  | .invalidField name _ => [.word name]
  | .invalidFunction name _ => [.word name]
  | .invalidNamespace name _ => [.word name]
  | _ => []

end SyntaxError

/-- The error is about the token behind the cursor, and tells it and its position. -/
def Cursor.Shows (v : Vocabulary) (d : Cursor) : SyntaxError → Prop
  | .lexical _ => False
  | .unexpected _ found p => found = d.token ∧ p = d.position
  | .invalidField name p => d.token = .word name ∧ p = d.position
  | .invalidFunction name p => d.token = .word name ∧ p = d.position
  | .invalidNamespace name p => d.token = .word name ∧ p = d.position
  | .nestingTooDeep limit p =>
    limit = v.maxNesting ∧ (d.token = .openParen ∨ d.token.keyword? v = some .not) ∧
      p = d.position

/-- An error tells the position of the token that it is about. -/
theorem Cursor.Shows.position_eq {v : Vocabulary} {d : Cursor} {e : SyntaxError}
    (h : d.Shows v e) : e.position = d.position := by
  cases e with
  | lexical l => exact h.elim
  | unexpected expected found p => exact h.2
  | invalidField name p => exact h.2
  | invalidFunction name p => exact h.2
  | invalidNamespace name p => exact h.2
  | nestingTooDeep limit p => exact h.2.2

namespace NameFault

variable (fault : NameFault) (w : String)

theorem seen_error (p : Position) : (fault.error w p).seen = [.word w] := by
  cases fault <;> rfl

theorem position_error (p : Position) : (fault.error w p).position = p := by
  cases fault <;> rfl

theorem kind_error (p p' : Position) : (fault.error w p).kind = (fault.error w p').kind := by
  cases fault <;> rfl

/-- The error for a word shows the word that stands behind the cursor. -/
theorem shows {v : Vocabulary} {w : String} {c : Cursor} (h : c.token = .word w) :
    c.Shows v (fault.error w c.position) := by
  cases fault <;> exact ⟨h, rfl⟩

end NameFault

/-! ## Tokens and vocabularies that the grammar does not tell apart -/

/-- Tokens of one class: equal ones that are no words, words that stand for one keyword, or one word
    that stands for none. -/
inductive SameClass (v v' : Vocabulary) : Token → Token → Prop
  | symbol {t : Token} (h : ∀ w, t ≠ .word w) : SameClass v v' t t
  | keyword {w w' : String} {k : Keyword} (h : v.keyword? w = some k)
      (h' : v'.keyword? w' = some k) : SameClass v v' (.word w) (.word w')
  | name {w : String} (h : v.keyword? w = none) (h' : v'.keyword? w = none) :
      SameClass v v' (.word w) (.word w)

theorem SameClass.refl (v : Vocabulary) (t : Token) : SameClass v v t t := by
  cases t with
  | word w =>
      cases h : v.keyword? w with
      | some k => exact .keyword h h
      | none => exact .name h h
  | _ => exact .symbol fun w hw => by cases hw

/-- Tokens of one class stand for the same keyword. -/
theorem SameClass.keyword?_eq {v v' : Vocabulary} {t t' : Token} (h : SameClass v v' t t') :
    t.keyword? v = t'.keyword? v' := by
  cases h with
  | symbol h => cases t <;> first | rfl | exact absurd rfl (h _)
  | keyword h h' => exact h.trans h'.symm
  | name h h' => exact h.trans h'.symm

/-- Tokens of one class are the same name, if they are names. -/
theorem SameClass.name?_eq {v v' : Vocabulary} {t t' : Token} (h : SameClass v v' t t') :
    t.name? v = t'.name? v' := by
  cases h with
  | symbol h => cases t <;> first | rfl | exact absurd rfl (h _)
  | keyword h h' => simp [Token.name?, h, h']
  | name h h' => simp [Token.name?, h, h']

/-- Only words have a class with more than one token. -/
theorem SameClass.eq_or {v v' : Vocabulary} {t t' : Token} (h : SameClass v v' t t') :
    t = t' ∨ ∃ w w', t = .word w ∧ t' = .word w' := by
  cases h with
  | symbol h => exact .inl rfl
  | keyword h h' => exact .inr ⟨_, _, rfl, rfl⟩
  | name h h' => exact .inl rfl

/-- A class is told by the keyword of its tokens, and one without a keyword by its only token. -/
theorem sameClass_iff {v v' : Vocabulary} {t t' : Token} :
    SameClass v v' t t' ↔
      t.keyword? v = t'.keyword? v' ∧ (t.keyword? v = none → t = t') := by
  constructor
  · intro h
    refine ⟨h.keyword?_eq, fun hnone => ?_⟩
    cases h with
    | symbol h => rfl
    | keyword h h' => cases hnone.symm.trans h
    | name h h' => rfl
  · rintro ⟨heq, hsame⟩
    cases hk : t.keyword? v with
    | none =>
        obtain rfl := hsame hk
        rw [hk] at heq
        cases t with
        | word w => exact .name hk heq.symm
        | _ => exact .symbol (by simp)
    | some k =>
        rw [hk] at heq
        cases t with
        | word w =>
            cases t' with
            | word w' => exact .keyword hk heq.symm
            | _ => cases heq
        | _ => cases hk

instance (v v' : Vocabulary) (t t' : Token) : Decidable (SameClass v v' t t') :=
  decidable_of_iff _ sameClass_iff.symm

/-- Vocabularies with the same names of fields and namespaces, keywords aside, of which the second
    allows no less nesting. -/
structure Vocabulary.Alike (v v' : Vocabulary) : Prop where
  field : v.fieldTest = v'.fieldTest
  source : v.namespaceTest = v'.namespaceTest
  nesting : v.maxNesting ≤ v'.maxNesting

/-- A word that is a keyword in neither vocabulary names a field in both or in none. -/
theorem Vocabulary.Alike.isField_eq {v v' : Vocabulary} (ha : v.Alike v') {w : String}
    (h : v.keyword? w = none) (h' : v'.keyword? w = none) : v.isField w = v'.isField w := by
  rw [isField, isField, h, h', ha.field]

theorem Vocabulary.Alike.isNamespace_eq {v v' : Vocabulary} (ha : v.Alike v') {w : String}
    (h : v.keyword? w = none) (h' : v'.keyword? w = none) : v.isNamespace w = v'.isNamespace w := by
  rw [isNamespace, isNamespace, h, h', ha.source]

theorem Vocabulary.Alike.refl (v : Vocabulary) : v.Alike v :=
  ⟨rfl, rfl, Nat.le_refl _⟩

section

variable {α β : Type} (v v' : Vocabulary)

/-- What is asked about the tokens of one class has one answer. -/
def Respects (f f' : Token → α) : Prop :=
  ∀ t t', SameClass v v' t t' → f t = f' t'

/-- Moving from `c'` to `d'` passes tokens of the classes of `ts`, to one of the class of `t`. -/
def Retraces (ts : List Token) (t : Token) (c' d' : Cursor) : Prop :=
  ∃ ts', c'.Passes ts' d' ∧ List.Forall₂ (SameClass v v') ts ts' ∧ SameClass v v' t d'.token

end

namespace Retraces

variable {v v' : Vocabulary} {ts us : List Token} {t : Token} {c d c' d' : Cursor}

/-- What retraces no tokens stays in place. -/
theorem nil (h : Retraces v v' [] t c' d') : c' = d' ∧ SameClass v v' t c'.token := by
  obtain ⟨ts', hp, hts, ht⟩ := h
  obtain rfl := List.forall₂_nil_left_iff.mp hts
  obtain rfl := hp.eq_of_nil
  exact ⟨rfl, ht⟩

/-- What retraces one token passes one. -/
theorem one {z : Token} (h : Retraces v v' [z] t c' d') : ∃ z', c'.Passes [z'] d' := by
  obtain ⟨ts', hp, hts, -⟩ := h
  cases hts with
  | cons _ hnil =>
      cases hnil
      exact ⟨_, hp⟩

/-- The start of what retraces a passage knows its token. -/
theorem settled (h : Retraces v v' ts t c' d') : c'.Settled := by
  obtain ⟨ts', hp, -, -⟩ := h
  exact hp.settled_start

/-- No level is opened or closed on the way over tokens. -/
theorem depth_eq (h : Retraces v v' ts t c' d') : d'.depth = c'.depth := by
  obtain ⟨ts', hp, -, -⟩ := h
  exact hp.depth

/-- The token behind is of the class of the token behind. -/
theorem behind (h : Retraces v v' ts t c' d') : SameClass v v' t d'.token := by
  obtain ⟨ts', -, -, ht⟩ := h
  exact ht

/-- The token in front is of the class of the token in front. -/
theorem start (hp : c.Passes ts d) (h : Retraces v v' ts d.token c' d') :
    SameClass v v' c.token c'.token := by
  obtain ⟨ts', hp', hts, ht⟩ := h
  cases hts with
  | nil =>
      rw [← hp.eq_of_nil, ← hp'.eq_of_nil]
      exact ht
  | cons hab _ => rwa [hp.token, hp'.token]

/-- What retraces two runs of tokens retraces one after the other. -/
theorem split {e : Cursor} (hd : d.Passes us e) (h : Retraces v v' (ts ++ us) e.token c' d') :
    ∃ m', Retraces v v' ts d.token c' m' ∧ Retraces v v' us e.token m' d' := by
  obtain ⟨zs, hp, hzs, ht⟩ := h
  have hts := List.forall₂_take ts.length hzs
  have hus := List.forall₂_drop ts.length hzs
  rw [List.take_left] at hts
  rw [List.drop_left] at hus
  rw [← List.take_append_drop ts.length zs] at hp
  obtain ⟨m', hp₁, hp₂⟩ := hp.split
  have hr : Retraces v v' us e.token m' d' := ⟨_, hp₂, hus, ht⟩
  exact ⟨m', ⟨_, hp₁, hts, hr.start hd⟩, hr⟩

/-- With one more level open, tokens are retraced as before. -/
theorem enter (h : Retraces v v' ts t c' d') : Retraces v v' ts t c'.enter d'.enter := by
  obtain ⟨ts', hp, hts, ht⟩ := h
  exact ⟨ts', hp.enter, hts, ht⟩

end Retraces

/-! ## Questions about a class -/

section

variable {α : Type} {v v' : Vocabulary}

/-- What is asked about tokens that are no words, and answered alike for all words. -/
theorem respects_of_words {f : Token → α} (h : ∀ w w', f (.word w) = f (.word w')) :
    Respects v v' f f := by
  intro t t' ht
  obtain rfl | ⟨w, w', rfl, rfl⟩ := ht.eq_or
  · rfl
  · exact h w w'

/-- The same keyword is spelt by all tokens of a class. -/
theorem respects_spelt (k : Keyword) :
    Respects v v' (Production.spelt v k) (Production.spelt v' k) := by
  intro t t' ht
  rw [Production.spelt, Production.spelt, ht.keyword?_eq]

/-- The test for a token that is no word does not look at words at all. -/
theorem respects_exactly {u : Token} (hu : ∀ w, u ≠ .word w) :
    Respects v v' (Production.exactly u) (Production.exactly u) :=
  respects_of_words fun w w' => by
    rw [Production.exactly, Production.exactly, if_neg (hu w).symm, if_neg (hu w').symm]

theorem respects_content? : Respects v v' Token.content? Token.content? :=
  respects_of_words fun _ _ => rfl

theorem respects_valueOp? : Respects v v' Token.valueOp? Token.valueOp? :=
  respects_of_words fun _ _ => rfl

theorem respects_rangeOp? : Respects v v' Token.rangeOp? Token.rangeOp? :=
  respects_of_words fun _ _ => rfl

/-- The name that a token is depends on nothing but its class. -/
theorem respects_name? : Respects v v' (Token.name? v) (Token.name? v') :=
  fun _ _ ht => ht.name?_eq

variable (ha : v.Alike v') {w : String} (h : v.keyword? w = none) (h' : v'.keyword? w = none)
include ha h h'

/-- A word that is no keyword is judged alike as a field, since the patterns are the same. -/
theorem respects_judgeField :
    Respects v v' (Production.judgeField v w) (Production.judgeField v' w) := by
  intro t t' _
  rw [Production.judgeField, Production.judgeField, ha.isField_eq h h']

theorem respects_judgeNamespace :
    Respects v v' (Production.judgeNamespace v w) (Production.judgeNamespace v' w) := by
  intro t t' _
  rw [Production.judgeNamespace, Production.judgeNamespace, ha.isNamespace_eq h h']

/-- Whether a first word names a function is decided by its first character and by the parenthesis
    behind it, neither of which a vocabulary can change. -/
theorem respects_judgeSelector :
    Respects v v' (Production.judgeSelector v w) (Production.judgeSelector v' w) := by
  intro t t' ht
  rw [Production.judgeSelector, Production.judgeSelector, respects_judgeField ha h h' t t' ht]
  obtain rfl | ⟨u, u', rfl, rfl⟩ := ht.eq_or
  · rfl
  · rfl

end

/-! ## Following a run -/

section

variable {α β : Type} (v v' : Vocabulary)

/-- `P'` refuses what `P` refuses in front of `d` with the error `e`, wherever the way to `d` is
    retraced together with what has been seen of it. -/
def FollowsError (P' : Production α) (c : Cursor) (e : SyntaxError) (ts : List Token)
    (d m : Cursor) : Prop :=
  ∀ c' d' m', c'.depth = c.depth → Retraces v v' ts d.token c' d' →
    Retraces v v' e.seen m.token d' m' →
    (e.kind = .nestingTooDeep → v.maxNesting = v'.maxNesting) →
    ∃ e', P' c' = .error e' ∧ e'.kind = e.kind ∧ d'.Shows v' e'

/-- From `c`, the production `P` reads tokens or refuses one, and `P'` does the same wherever the
    tokens in question are of the same classes. -/
structure Follows (P P' : Production α) (c : Cursor) : Prop where
  ok {a : α} {d : Cursor} (h : P c = .ok (a, d)) :
    ∃ ts, c.Passes ts d ∧
      ∀ c' d', c'.depth = c.depth → Retraces v v' ts d.token c' d' → P' c' = .ok (a, d')
  error {e : SyntaxError} (h : P c = .error e) :
    (∃ l, e = .lexical l ∧ c.ending = .error l) ∨
      ∃ ts d m, c.Passes ts d ∧ d.Passes e.seen m ∧ d.Shows v e ∧ FollowsError v v' P' c e ts d m

end

/-- A refusal is followed by each production that fails where another one fails. -/
theorem FollowsError.mono {α β : Type} {v v' : Vocabulary} {P' : Production α} {Q' : Production β}
    {c d m : Cursor} {e : SyntaxError} {ts : List Token} (h : FollowsError v v' P' c e ts d m)
    (hQ : ∀ c' e', P' c' = .error e' → Q' c' = .error e') : FollowsError v v' Q' c e ts d m := by
  intro c' d' m' hdepth hr hr' hn
  obtain ⟨e', he', hrest⟩ := h c' d' m' hdepth hr hr' hn
  exact ⟨e', hQ c' e' he', hrest⟩

namespace Follows

open Production

variable {α β : Type} {v v' : Vocabulary} {c : Cursor}

/-- A production that reads nothing is followed anywhere. -/
theorem pure (hs : c.Settled) (a : α) : Follows v v' (pure a) (pure a) c where
  ok h := by
    obtain ⟨rfl, rfl⟩ := Prod.mk.inj (pure_eq_ok.mp h)
    refine ⟨[], .refl hs, fun c' d' _ hr => ?_⟩
    rw [← hr.nil.1]
    rfl
  error h := by cases h

/-- A sequence is followed if its first part is, and its second part from wherever the first one
    leads. -/
theorem bind {P P' : Production α} {F F' : α → Production β} (hP : Follows v v' P P' c)
    (hF : ∀ a d, P c = .ok (a, d) → d.Settled → Follows v v' (F a) (F' a) d) :
    Follows v v' (P >>= F) (P' >>= F') c where
  ok {b e} h := by
    obtain ⟨⟨a, d⟩, ha, hb⟩ := bind_eq_ok.mp h
    obtain ⟨ts, hts, hfirst⟩ := hP.ok ha
    obtain ⟨us, hus, hthen⟩ := (hF a d ha hts.settled).ok hb
    refine ⟨ts ++ us, hts.trans hus, fun c' e' hdepth hr => ?_⟩
    obtain ⟨d', hr₁, hr₂⟩ := hr.split hus
    have hd : d'.depth = d.depth := by rw [hr₁.depth_eq, hdepth, hts.depth]
    rw [bind_apply, hfirst c' d' hdepth hr₁]
    exact hthen d' e' hd hr₂
  error {e} h := by
    cases ha : P c with
    | error e₁ =>
        obtain rfl : e₁ = e := by
          rw [bind_apply, ha] at h
          exact Except.error.inj h
        refine (hP.error ha).imp_right fun ⟨ts, d, m, hts, hm, hd, hrefuse⟩ => ?_
        exact ⟨ts, d, m, hts, hm, hd, hrefuse.mono fun _ _ => bind_of_error _⟩
    | ok p =>
        obtain ⟨a, d⟩ := p
        rw [bind_apply, ha] at h
        obtain ⟨ts, hts, hfirst⟩ := hP.ok ha
        rw [← hts.ending]
        refine ((hF a d ha hts.settled).error h).imp_right ?_
        rintro ⟨us, f, m, hus, hm, hf, hrefuse⟩
        refine ⟨ts ++ us, f, m, hts.trans hus, hm, hf, fun c' f' m' hdepth hr hr' hn => ?_⟩
        obtain ⟨d', hr₁, hr₂⟩ := hr.split hus
        have hd : d'.depth = d.depth := by rw [hr₁.depth_eq, hdepth, hts.depth]
        obtain ⟨e', he', hk, hf'⟩ := hrefuse d' f' m' hd hr₂ hr' hn
        exact ⟨e', by rw [bind_apply, hfirst c' d' hdepth hr₁]; exact he', hk, hf'⟩

/-! ### Moves -/

/-- A question with one answer for each class is answered alike. -/
theorem look (hs : c.Settled) {f f' : Token → α} (hf : Respects v v' f f') :
    Follows v v' (look f) (look f') c where
  ok h := by
    obtain ⟨rfl, rfl⟩ := Prod.mk.inj (Except.ok.inj h)
    refine ⟨[], .refl hs, fun c' d' _ hr => ?_⟩
    obtain ⟨rfl, ht⟩ := hr.nil
    rw [Production.look, hf _ _ ht]
  error h := by cases h

/-- One token is passed in both runs. -/
theorem skip (ht : c.token ≠ .endOfText) : Follows v v' skip skip c where
  ok {a d} h := by
    refine ⟨[c.token], passes_of_skip ht h, fun c' d' _ hr => ?_⟩
    obtain ⟨t', hp⟩ := hr.one
    exact skip_of_passes hp
  error h := .inl (lexical_of_skip h)

/-- Where one run refuses a token the other refuses the token of its class. -/
theorem refuse (hs : c.Settled) (e e' : Expectation) :
    Follows v v' (refuse e : Production α) (Production.refuse e') c where
  ok h := by cases h
  error h := by
    cases h
    refine .inr ⟨[], c, c, .refl hs, .refl hs, ⟨rfl, rfl⟩, fun c' d' m' _ hr _ _ => ?_⟩
    obtain ⟨rfl, -⟩ := hr.nil
    exact ⟨_, rfl, rfl, rfl, rfl⟩

/-- A token that means something is passed in both runs, and another one in none. -/
theorem accept (hs : c.Settled) {f f' : Token → Option α} (hf : Respects v v' f f')
    (hend : f .endOfText = none) : Follows v v' (accept f) (accept f') c := by
  refine (look hs hf).bind fun o d h hd => ?_
  obtain ⟨rfl, rfl⟩ := Prod.mk.inj (Except.ok.inj h)
  cases ho : f c.token with
  | none => exact pure hd none
  | some a =>
      have ht : c.token ≠ .endOfText := by
        intro ht
        rw [ht, hend] at ho
        cases ho
      exact (skip ht).bind fun _ e _ he => pure he (some a)

/-- A token is passed or refused in both runs alike, whatever is expected in each. -/
theorem demand (hs : c.Settled) {f f' : Token → Option α} (hf : Respects v v' f f')
    (hend : f .endOfText = none) (e e' : Expectation) :
    Follows v v' (demand f e) (demand f' e') c :=
  (accept hs hf hend).bind fun
    | some a, _, _, hd => pure hd a
    | none, _, _, hd => refuse hd e e'

/-- The limit is reached in both runs at once, or only in the first. -/
theorem checkRoom (hs : c.Settled) (hn : v.maxNesting ≤ v'.maxNesting)
    (ht : c.token = .openParen ∨ c.token.keyword? v = some .not) :
    Follows v v' (checkRoom v) (Production.checkRoom v') c where
  ok {a d} h := by
    obtain ⟨u, hu, hud⟩ := map_eq_ok.mp h
    obtain ⟨rfl, rfl⟩ := Prod.mk.inj hud
    refine ⟨[], .refl hs, fun c' d' hdepth hr => ?_⟩
    obtain ⟨rfl, -⟩ := hr.nil
    have hroom := Cursor.checkNesting_eq_ok_iff.mp hu
    have hroom' : c'.checkNesting v' = .ok () :=
      Cursor.checkNesting_eq_ok_iff.mpr (by omega)
    rw [Production.checkRoom, hroom']
    rfl
  error {e} h := by
    rw [Production.checkRoom, Cursor.checkNesting] at h
    split at h
    next hle =>
      cases h
      refine .inr ⟨[], c, c, .refl hs, .refl hs, ⟨rfl, ht, rfl⟩, fun c' d' m' hdepth hr _ hk => ?_⟩
      obtain ⟨rfl, hsame⟩ := hr.nil
      -- The second run has the same limit, so it is at its limit too.
      have hlimit := hk rfl
      have hfull : c'.checkNesting v' = .error (.nestingTooDeep v'.maxNesting c'.position) :=
        Cursor.checkNesting_of_le (by omega)
      refine ⟨.nestingTooDeep v'.maxNesting c'.position, ?_, rfl, rfl, ?_, rfl⟩
      · rw [Production.checkRoom, hfull]
        rfl
      · rw [← hsame.keyword?_eq]
        refine ht.imp_left fun ht => ?_
        obtain heq | ⟨w, w', hw, -⟩ := hsame.eq_or
        · rw [← heq, ht]
        · cases ht.symm.trans hw
    next => cases h

/-- A level is opened in both runs, in none, or only in the second one, whose limit is no smaller.
    -/
theorem descend (hs : c.Settled) (hn : v.maxNesting ≤ v'.maxNesting) {f f' : Token → Option Unit}
    (hf : Respects v v' f f')
    (hopen : ∀ t, f t = some () → t = .openParen ∨ t.keyword? v = some .not) :
    Follows v v' (descend v f) (Production.descend v' f') c := by
  refine (look hs hf).bind fun o d h hd => ?_
  obtain ⟨rfl, rfl⟩ := Prod.mk.inj (Except.ok.inj h)
  cases ho : f c.token with
  | none => exact pure hd none
  | some _ =>
      have ht := hopen _ ho
      refine (checkRoom hd hn ht).bind fun _ e h' he => ?_
      obtain rfl : c = e := by
        obtain ⟨u, -, hu⟩ := map_eq_ok.mp h'
        exact (Prod.mk.inj hu).2
      refine (skip ?_).bind fun _ _ _ hf => pure hf _
      intro hend
      simp [hend, Token.keyword?] at ht

/-- A production is followed inside of a level as it is outside. -/
theorem deeper {P P' : Production α} (h : Follows v v' P P' c.enter) :
    Follows v v' (deeper P) (Production.deeper P') c where
  ok {a d} hd := by
    obtain ⟨⟨b, e⟩, hb, heq⟩ := map_eq_ok.mp hd
    obtain ⟨rfl, rfl⟩ := Prod.mk.inj heq
    obtain ⟨ts, hts, hthen⟩ := h.ok hb
    refine ⟨ts, hts.leave, fun c' d' hdepth hr => ?_⟩
    rw [Production.deeper, hthen c'.enter d'.enter (congrArg (· + 1) hdepth) hr.enter]
    rfl
  error {e} he := by
    refine (h.error (map_eq_error.mp he)).imp_right ?_
    rintro ⟨ts, d, m, hts, hm, hd, hrefuse⟩
    refine ⟨ts, d.leave, m.leave, hts.leave, hm.leave_leave, hd,
      fun c' d' m' hdepth hr hr' hk => ?_⟩
    obtain ⟨e', he', hk', hd'⟩ :=
      hrefuse c'.enter d'.enter m'.enter (congrArg (· + 1) hdepth) hr.enter hr'.enter hk
    exact ⟨e', by rw [Production.deeper, he']; rfl, hk', hd'⟩

/-- A name that has been passed meets the demand for one. -/
theorem demand_name_of_passes {c' d' : Cursor} {t' : Token} {w : String} {e' : Expectation}
    (hname : c'.token.name? v' = some w) (hp : c'.Passes [t'] d') :
    Production.demand (Token.name? v') e' c' = .ok (w, d') :=
  (demand_eq_ok_iff rfl).mpr ⟨hname, hp.token ▸ hp⟩

/-- A name is judged alike if it is judged by what it is in both vocabularies and by the class of
    the token behind it. -/
theorem named (hs : c.Settled) (e e' : Expectation) {J J' : String → Token → Option NameFault}
    (hJ : ∀ w, v.keyword? w = none → v'.keyword? w = none → Respects v v' (J w) (J' w)) :
    Follows v v' (named v e J) (Production.named v' e' J') c where
  ok {w d} h := by
    obtain ⟨hname, hp, hj⟩ := named_eq_ok_iff.mp h
    refine ⟨_, hp, fun c' d' _ hr => ?_⟩
    obtain ⟨t', hp'⟩ := hr.one
    have hname' := (hr.start hp).name?_eq ▸ hname
    have hj' := hJ w (Token.name?_eq_some_iff.mp hname).2 (Token.name?_eq_some_iff.mp hname').2
      _ _ hr.behind
    exact named_eq_ok_iff.mpr ⟨hname', hp'.token ▸ hp', hj' ▸ hj⟩
  error {e₁} h := by
    cases hw : Production.demand (Token.name? v) e c with
    | error e₂ =>
        obtain rfl : e₂ = e₁ := Except.error.inj ((bind_of_error _ hw).symm.trans h)
        have hdemand : Follows v v' _ (Production.demand (Token.name? v') e') c :=
          demand hs respects_name? rfl e e'
        refine (hdemand.error hw).imp_right fun ⟨ts, d, m, hts, hm, hd, hrefuse⟩ => ?_
        exact ⟨ts, d, m, hts, hm, hd, hrefuse.mono fun _ _ => bind_of_error _⟩
    | ok p =>
        obtain ⟨w, d⟩ := p
        replace h := (bind_of_ok _ hw).symm.trans h
        dsimp only at h
        split at h
        next => cases h
        next fault hj =>
          cases h
          obtain ⟨hname, hp⟩ := (demand_eq_ok_iff rfl).mp hw
          have hseen := fault.seen_error w c.position
          obtain ⟨hword, hkey⟩ := Token.name?_eq_some_iff.mp hname
          refine .inr ⟨[], c, d, .refl hs, hseen ▸ hword ▸ hp, fault.shows hword,
            fun c' d' m' hdepth hr hr' _ => ?_⟩
          obtain ⟨rfl, hsame⟩ := hr.nil
          rw [hseen] at hr'
          obtain ⟨t', hp'⟩ := hr'.one
          have hname' := hsame.name?_eq ▸ hname
          obtain ⟨hword', hkey'⟩ := Token.name?_eq_some_iff.mp hname'
          have hj' := hJ w hkey hkey' _ _ hr'.behind
          refine ⟨fault.error w c'.position, ?_, fault.kind_error w _ _, fault.shows hword'⟩
          refine (bind_of_ok _ (demand_name_of_passes hname' hp')).trans ?_
          simp only [← hj', hj]
          rfl

/-! ### Productions -/

variable (ha : v.Alike v')
include ha

/-- Names of fields are read alike. -/
theorem field (hs : c.Settled) (e e' : Expectation) :
    Follows v v' (Production.named v e (judgeField v)) (Production.named v' e' (judgeField v')) c :=
  named hs e e' fun _ h h' => respects_judgeField ha h h'

omit ha in
/-- Literals are read alike. -/
theorem literal (hs : c.Settled) :
    Follows v v' (of fun c => c.literal v) (of fun c => c.literal v') c := by
  rw [of_literal, of_literal]
  exact (accept hs respects_content? rfl).bind fun
    | some content, _, _, hd => pure hd content
    | none, _, _, hd => demand hd respects_name? rfl _ _

/-- Comparisons are read alike: their operators are no words, and the rest are names, literals and a
    keyword. -/
theorem comparison (hs : c.Settled) :
    Follows v v' (of (Grammar.comparison v)) (of (Grammar.comparison v')) c := by
  rw [of_comparison, of_comparison]
  refine (field ha hs _ _).bind fun name d _ hd => ?_
  refine (accept hd respects_valueOp? rfl).bind fun
    | some op, m, _, hm => ?_
    | none, m, _, hm => ?_
  · exact (literal hm).bind fun text _ _ he => pure he _
  · refine (accept hm respects_rangeOp? rfl).bind fun
      | some op, l, _, hl => ?_
      | none, l, _, hl => ?_
    · exact (demand hl respects_name? rfl _ _).bind fun w _ _ he => pure he _
    · refine (accept hl (respects_spelt _) rfl).bind fun
        | some _, k, _, hk => ?_
        | none, k, _, hk => refuse hk _ _
      exact (literal hk).bind fun text _ _ he => pure he _

/-- Both runs of a phrase of criteria proceed alike. -/
theorem criteria :
    (∀ op c, c.Settled → Follows v v' (of (Grammar.chain v op)) (of (Grammar.chain v' op)) c) ∧
      (∀ op c, c.Settled →
        Follows v v' (of (Grammar.operands v op)) (of (Grammar.operands v' op)) c) ∧
      (∀ c, c.Settled → Follows v v' (of (Grammar.unary v)) (of (Grammar.unary v')) c) ∧
      ∀ c, c.Settled → Follows v v' (of (Grammar.atom v)) (of (Grammar.atom v')) c := by
  refine Grammar.recognizer_induct v ?chain ?operands ?negation ?unary ?group ?comparison
  case chain =>
    intro op c hfirst hmore hs
    have hoperand : Follows v v' (of (Grammar.operand v op)) (of (Grammar.operand v' op)) c := by
      cases op <;> exact hfirst hs
    rw [of_chain, of_chain]
    refine hoperand.bind fun first d h hd => ?_
    obtain ⟨p, -, -, rfl⟩ := of_eq_ok.mp h
    exact (hmore p hd).bind fun more _ _ he => pure he _
  case operands =>
    intro op c hright hmore hs
    rw [of_operands (v := v'), of_operands (v := v)]
    refine (accept hs (respects_spelt _) rfl).bind fun
      | none, d, _, hd => pure hd _
      | some (), d, h, hd => ?_
    obtain ⟨b, rfl⟩ := parsed_of_passes (passes_of_accept rfl h)
    have hoperand :
        Follows v v' (of (Grammar.operand v op)) (of (Grammar.operand v' op)) b.rest := by
      cases op <;> exact hright b hd
    refine hoperand.bind fun right e h he => ?_
    obtain ⟨p, -, -, rfl⟩ := of_eq_ok.mp h
    exact (hmore b p he).bind fun more _ _ hf => pure hf _
  case negation =>
    intro c hc hoperand hs
    have hnot : spelt v .not c.token = some () := spelt_eq_some_iff.mpr (keyword?_eq c ▸ hc)
    rw [of_unary (v := v'), of_unary (v := v)]
    refine (descend hs ha.nesting (respects_spelt _) fun _ => .inr ∘ spelt_eq_some_iff.mp).bind fun
      | some (), d, h, hd => ?_
      | none, d, h, hd => ?_
    · obtain ⟨b, rfl⟩ := parsed_of_passes (passes_of_descend rfl h).2
      exact (deeper (hoperand b hd)).bind fun operand _ _ he => pure he _
    · cases hnot.symm.trans (eq_of_descend h).1
  case unary =>
    intro c hc hatom hs
    rw [of_unary (v := v'), of_unary (v := v)]
    refine (descend hs ha.nesting (respects_spelt _) fun _ => .inr ∘ spelt_eq_some_iff.mp).bind fun
      | some (), d, h, hd => ?_
      | none, d, h, hd => ?_
    · have hnot := spelt_eq_some_iff.mp (passes_of_descend rfl h).1
      exact absurd (keyword?_eq c ▸ hnot) hc
    · rw [(eq_of_descend h).2]
      exact hatom hs
  case group =>
    intro c hc hinside hs
    have hopen : exactly .openParen c.token = some () := exactly_eq_some_iff.mpr hc
    rw [of_atom (v := v'), of_atom (v := v)]
    refine (descend hs ha.nesting (respects_exactly (by simp))
      fun _ => .inl ∘ exactly_eq_some_iff.mp).bind fun
      | some (), d, h, hd => ?_
      | none, d, h, hd => ?_
    · obtain ⟨b, rfl⟩ := parsed_of_passes (passes_of_descend rfl h).2
      refine deeper ((hinside b hd).bind fun inside e _ he => ?_)
      exact (demand he (respects_exactly (by simp)) rfl _ _).bind fun _ _ _ hf => pure hf _
    · cases hopen.symm.trans (eq_of_descend h).1
  case comparison =>
    intro c hc hs
    rw [of_atom (v := v'), of_atom (v := v)]
    refine (descend hs ha.nesting (respects_exactly (by simp))
      fun _ => .inl ∘ exactly_eq_some_iff.mp).bind fun
      | some (), d, h, hd => ?_
      | none, d, h, hd => ?_
    · exact absurd (exactly_eq_some_iff.mp (passes_of_descend rfl h).1) hc
    · exact comparison ha hd

/-- The fields behind the first one are read alike, which an induction on the commas shows. -/
theorem moreFields (c : Cursor) (hs : c.Settled) :
    Follows v v' (of (Grammar.moreFields v)) (of (Grammar.moreFields v')) c := by
  rw [of_moreFields (v := v'), of_moreFields (v := v)]
  refine (accept hs (respects_exactly (by simp)) rfl).bind fun
    | some (), d, h, hd => ?_
    | none, d, _, hd => pure hd _
  have hcomma := size_lt_of_passes (passes_of_accept rfl h)
  refine (field ha hd _ _).bind fun name e h he => ?_
  have hname := size_lt_of_passes (named_eq_ok_iff.mp h).2.1
  exact (moreFields e he).bind fun more _ _ hf => pure hf _
termination_by c.size
decreasing_by omega

/-- Selectors are read alike: a function by its parentheses, several fields by their commas. -/
theorem selector (hs : c.Settled) : Follows v v' (Grammar.selector v) (Grammar.selector v') c := by
  rw [selector_eq, selector_eq]
  refine (named hs _ _ fun w h h' => respects_judgeSelector ha h h').bind fun first d _ hd => ?_
  refine (accept hd (respects_exactly (by simp)) rfl).bind fun
    | some (), e, _, he => ?_
    | none, e, _, he => ?_
  · refine (field ha he _ _).bind fun argument f _ hf => ?_
    exact (demand hf (respects_exactly (by simp)) rfl _ _).bind fun _ _ _ hg => pure hg _
  · exact (moreFields ha e he).bind fun more _ _ hf => pure hf _

theorem sourceClause (hs : c.Settled) :
    Follows v v' (Grammar.sourceClause v) (Grammar.sourceClause v') c := by
  rw [sourceClause_eq, sourceClause_eq]
  refine (accept hs (respects_spelt _) rfl).bind fun
    | none, d, _, hd => pure hd _
    | some (), d, _, hd => ?_
  refine (named hd _ _ fun w h h' => respects_judgeNamespace ha h h').bind ?_
  exact fun name _ _ he => pure he _

theorem filterClause (hs : c.Settled) :
    Follows v v' (Grammar.filterClause v) (Grammar.filterClause v') c := by
  rw [filterClause_eq, filterClause_eq]
  refine (accept hs (respects_spelt _) rfl).bind fun
    | none, d, _, hd => pure hd _
    | some (), d, _, hd => ?_
  exact ((criteria ha).1 .or d hd).bind fun _ _ _ he => pure he _

omit ha in
theorem direction (hs : c.Settled) :
    Follows v v' (of (Grammar.direction v)) (of (Grammar.direction v')) c := by
  rw [of_direction, of_direction]
  refine (accept hs (respects_spelt _) rfl).bind fun
    | some (), d, _, hd => pure hd _
    | none, d, _, hd => ?_
  exact (accept hd (respects_spelt _) rfl).bind fun
    | some (), e, _, he => pure he _
    | none, e, _, he => pure he _

/-- The fields of an order are read alike with their directions. -/
theorem orderItems (c : Cursor) (hs : c.Settled) :
    Follows v v' (of (Grammar.orderItems v)) (of (Grammar.orderItems v')) c := by
  rw [of_orderItems (v := v'), of_orderItems (v := v)]
  refine (field ha hs _ _).bind fun name d h hd => ?_
  have hname := size_lt_of_passes (named_eq_ok_iff.mp h).2.1
  refine (direction hd).bind fun written e h he => ?_
  obtain ⟨p, -, -, rfl⟩ := of_eq_ok.mp h
  have hwritten := p.shorter
  refine (accept he (respects_exactly (by simp)) rfl).bind fun
    | some (), f, h, hf => ?_
    | none, f, _, hf => pure hf _
  have hcomma := size_lt_of_passes (passes_of_accept rfl h)
  exact (orderItems f hf).bind fun more _ _ hg => pure hg _
termination_by c.size
decreasing_by
  simp only [Cursor.size] at *
  omega

theorem orderClause (hs : c.Settled) :
    Follows v v' (Grammar.orderClause v) (Grammar.orderClause v') c := by
  rw [orderClause_eq, orderClause_eq]
  refine (accept hs (respects_spelt _) rfl).bind fun
    | none, d, _, hd => pure hd _
    | some (), d, _, hd => ?_
  refine (demand hd (respects_spelt _) rfl _ _).bind fun _ e _ he => ?_
  exact (orderItems ha e he).bind fun items _ _ hf => pure hf _

omit ha in
theorem limitClause (hs : c.Settled) :
    Follows v v' (Grammar.limitClause v) (Grammar.limitClause v') c := by
  rw [limitClause_eq, limitClause_eq]
  refine (accept hs (respects_spelt _) rfl).bind fun
    | none, d, _, hd => pure hd _
    | some (), d, _, hd => ?_
  exact (demand hd respects_name? rfl _ _).bind fun w _ _ he => pure he _

theorem selectTail (hs : c.Settled) :
    Follows v v' (Grammar.selectTail v) (Grammar.selectTail v') c := by
  rw [selectTail_eq, selectTail_eq]
  refine (selector ha hs).bind fun _ _ _ h₁ => ?_
  refine (sourceClause ha h₁).bind fun _ _ _ h₂ => ?_
  refine (filterClause ha h₂).bind fun _ _ _ h₃ => ?_
  refine (orderClause ha h₃).bind fun _ _ _ h₄ => ?_
  exact (limitClause h₄).bind fun _ _ _ h₅ => pure h₅ _

theorem deleteTail (hs : c.Settled) :
    Follows v v' (Grammar.deleteTail v) (Grammar.deleteTail v') c := by
  rw [deleteTail_eq, deleteTail_eq]
  refine (sourceClause ha hs).bind fun _ _ _ h₁ => ?_
  refine (filterClause ha h₁).bind fun _ _ _ h₂ => ?_
  exact (limitClause h₂).bind fun _ _ _ h₃ => pure h₃ _

omit ha in
/-- The end of the text is in one class with nothing else. -/
theorem atEnd (hs : c.Settled) (actions : List Action) :
    Follows v v' (Production.atEnd actions) (Production.atEnd actions) c :=
  (look hs (respects_exactly (by simp))).bind fun
    | some (), _, _, hd => pure hd _
    | none, _, _, hd => refuse hd _ _

/-- Queries are read alike from any two cursors in front of tokens of the same classes. -/
theorem query (hs : c.Settled) : Follows v v' (Production.query v) (Production.query v') c := by
  refine (accept hs (respects_spelt _) rfl).bind fun
    | some (), d, _, hd => ?_
    | none, d, _, hd => ?_
  · exact (selectTail ha hd).bind fun _ _ _ he => atEnd he _
  · refine (accept hd (respects_spelt _) rfl).bind fun
      | some (), e, _, he => ?_
      | none, e, _, he => refuse he _ _
    exact (deleteTail ha he).bind fun _ _ _ hf => atEnd hf _

end Follows

/-! ## Whole texts -/

/-- The cursor in front of a text. -/
def Cursor.front (text : String) : Cursor :=
  { lexemes := (lex text).lexemes, ending := (lex text).ending }

variable {v v' : Vocabulary} {text : String}

/-- Behind so many tokens of a text stands the token of that number. -/
theorem Cursor.Passes.tokenAt {ts : List Token} {d : Cursor}
    (h : (Cursor.front text).Passes ts d) : TokenAt text ts.length d.position := by
  obtain ⟨ls, more, rfl, hstream⟩ := h.stream
  have hlex : (lex text).stream = _ := hstream
  simp [TokenAt, hlex]

/-- The tokens of a text in front of a cursor, the one behind it, and some more. -/
theorem tokensOf_of_passes {text : String} {ts : List Token} {d : Cursor}
    (h : (Cursor.front text).Passes ts d) : ∃ more, tokensOf text = ts ++ d.token :: more := by
  obtain ⟨ls, more, rfl, hstream⟩ := h.stream
  have hlex : (lex text).stream = _ := hstream
  exact ⟨more.map (·.token), by simp [tokensOf, hlex]⟩

/-- Where a passage of another text is retraced, the token behind has the number that it had there.
    -/
theorem Retraces.tokenAt {ts : List Token} {t : Token} {d' : Cursor}
    (h : Retraces v v' ts t (Cursor.front text) d') : TokenAt text ts.length d'.position := by
  obtain ⟨ts', hp, hts, -⟩ := h
  rw [hts.length_eq]
  exact hp.tokenAt

/-- In front of a token, a text is recognized by the production of queries. -/
theorem recognize_of_settled (hs : (Cursor.front text).Settled) :
    recognize v text = (Production.query v (Cursor.front text)).map Prod.fst := by
  refine (bind_of_ok _ (Cursor.ofText_eq_ok_iff.mpr ⟨rfl, hs⟩)).trans ?_
  exact Production.query_eq _

/-- A text without a first token is refused for the characters at its front. -/
theorem recognize_of_not_settled (hs : ¬ (Cursor.front text).Settled) :
    ∃ l, recognize v text = .error (.lexical l) ∧ (lex text).ending = .error l := by
  rw [Cursor.settled_iff, Classical.not_imp] at hs
  obtain ⟨hnil, hend⟩ := hs
  cases he : (lex text).ending with
  | ok p => exact absurd ⟨p, he⟩ hend
  | error l =>
      have hlexemes : (lex text).lexemes = [] := hnil
      refine ⟨l, ?_, rfl⟩
      simp only [recognize, Cursor.ofText, Cursor.settle, hlexemes, he]
      rfl

/-- What is recognized in a text is recognized in each text that retraces it. -/
theorem recognize_retraced (ha : v.Alike v') {as : List Action} (h : recognize v text = .ok as) :
    ∃ ts d, (Cursor.front text).Passes ts d ∧
      ∀ text' d', Retraces v v' ts d.token (Cursor.front text') d' →
        recognize v' text' = .ok as := by
  by_cases hs : (Cursor.front text).Settled
  · rw [recognize_of_settled hs] at h
    obtain ⟨⟨_, d⟩, hq, rfl⟩ := map_eq_ok.mp h
    obtain ⟨ts, hts, hfollow⟩ := (Follows.query ha hs).ok hq
    refine ⟨ts, d, hts, fun text' d' hr => ?_⟩
    rw [recognize_of_settled hr.settled, hfollow (Cursor.front text') d' rfl hr]
    rfl
  · obtain ⟨l, hl, -⟩ := recognize_of_not_settled (v := v) hs
    cases hl.symm.trans h

/-- What is refused in a text is refused in each text that retraces it to that point. -/
theorem recognize_error_retraced (ha : v.Alike v') {e : SyntaxError}
    (h : recognize v text = .error e) :
    (∃ l, e = .lexical l ∧ (lex text).ending = .error l) ∨
      ∃ ts d m, (Cursor.front text).Passes ts d ∧ d.Passes e.seen m ∧ d.Shows v e ∧
        ∀ text' d' m', Retraces v v' ts d.token (Cursor.front text') d' →
          Retraces v v' e.seen m.token d' m' →
          (e.kind = .nestingTooDeep → v.maxNesting = v'.maxNesting) →
          ∃ e', recognize v' text' = .error e' ∧ e'.kind = e.kind ∧ d'.Shows v' e' := by
  by_cases hs : (Cursor.front text).Settled
  · rw [recognize_of_settled hs] at h
    refine ((Follows.query ha hs).error (map_eq_error.mp h)).imp_right ?_
    rintro ⟨ts, d, m, hts, hm, hd, hfollow⟩
    refine ⟨ts, d, m, hts, hm, hd, fun text' d' m' hr hr' hk => ?_⟩
    obtain ⟨e', he', hrest⟩ := hfollow (Cursor.front text') d' m' rfl hr hr' hk
    rw [recognize_of_settled hr.settled, he']
    exact ⟨e', rfl, hrest⟩
  · obtain ⟨l, hl, hend⟩ := recognize_of_not_settled (v := v) hs
    obtain rfl : SyntaxError.lexical l = e := Except.error.inj (hl.symm.trans h)
    exact .inl ⟨l, rfl, hend⟩

/-- A passage is retraced wherever the tokens start with tokens of the same classes, the one behind
    the passage included. -/
theorem retraces_of_stream {c d c' : Cursor} {ts : List Token} (hp : c.Passes ts d)
    (h : List.Forall₂ (SameClass v v') ((c.stream.take (ts.length + 1)).map (·.token))
      ((c'.stream.take (ts.length + 1)).map (·.token))) :
    ∃ d', Retraces v v' ts d.token c' d' := by
  obtain ⟨ls, more, rfl, hstream⟩ := hp.stream
  have htake : c.stream.take (ls.length + 1) = ls ++ [⟨d.token, d.position⟩] := by
    rw [hstream, List.append_cons, List.take_left' (by simp)]
  rw [List.length_map, htake, List.map_append] at h
  have hlen : ls.length < c'.stream.length := by
    have := h.length_eq
    simp only [List.length_append, List.length_map, List.length_take, List.length_cons,
      List.length_nil] at this
    omega
  -- The other stream has a token at the index of the one behind the passage.
  have hsplit := List.take_append_drop ls.length c'.stream
  rw [List.drop_eq_getElem_cons hlen] at hsplit
  obtain ⟨d', hp', hd'⟩ := Cursor.passes_of_stream hsplit.symm
  rw [List.take_succ_eq_append_getElem hlen, List.map_append] at h
  have hts := List.forall₂_take_append _ _ _ h
  have ht := List.forall₂_drop_append _ _ _ h
  simp only [List.length_map, List.length_take, Nat.min_eq_left (Nat.le_of_lt hlen)] at hts ht
  rw [List.take_left' (List.length_map _)] at hts
  rw [List.drop_left' (List.length_map _)] at ht
  exact ⟨d', _, hp', hts, by simpa [hd'] using ht⟩

end RecordQuery
