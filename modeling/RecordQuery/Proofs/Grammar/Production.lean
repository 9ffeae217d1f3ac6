/-
  RecordQuery.Proofs.Grammar.Production

  The productions of the recognizer as programs. Each of them is put together from a few moves of a
  cursor that stay out of sight: looking at the next token, moving behind it, refusing it, reading a
  name, and counting a level of nesting. What holds of the moves and of a sequence of them holds of
  every production.
-/

import RecordQuery.Proofs.Except
import RecordQuery.Proofs.Grammar.Chain
import RecordQuery.Proofs.Grammar.Passage

namespace RecordQuery

variable {α β : Type} {v : Vocabulary}

/-- A reader of tokens: from a cursor to what is read and the cursor behind it. -/
abbrev Production (α : Type) := StateT Cursor (Except SyntaxError) α

/-- What was read and the cursor behind it. -/
def Parsed.toPair {n : Nat} (p : Parsed α n) : α × Cursor :=
  (p.value, p.rest)

/-- What a word is refused as when it is no name of the kind that should stand there. -/
inductive NameFault where
  | field
  | function
  | source
deriving DecidableEq, Repr

/-- The error for a word and its position. -/
def NameFault.error : NameFault → String → Position → SyntaxError
  | .field => .invalidField
  | .function => .invalidFunction
  | .source => .invalidNamespace

/-- The keyword that a token stands for. -/
def Token.keyword? (v : Vocabulary) : Token → Option Keyword
  | .word w => v.keyword? w
  | _ => none

/-- The word that a token is, unless it is a keyword. -/
def Token.name? (v : Vocabulary) : Token → Option String
  | .word w => if (v.keyword? w).isNone then some w else none
  | _ => none

/-- A token is a name exactly if it is a word that is no keyword. -/
theorem Token.name?_eq_some_iff {t : Token} {w : String} :
    t.name? v = some w ↔ t = .word w ∧ v.keyword? w = none := by
  cases t with
  | word u =>
      simp only [name?, Option.isNone_iff_eq_none, Token.word.injEq]
      split
      next h =>
        constructor
        · rintro ⟨⟩
          exact ⟨rfl, h⟩
        · rintro ⟨rfl, -⟩
          rfl
      next h =>
        constructor
        · rintro ⟨⟩
        · rintro ⟨rfl, h'⟩
          exact absurd h' h
  | _ => simp [name?]

/-- The content of a token that is a string. -/
def Token.content? : Token → Option String
  | .literal content => some content
  | _ => none

namespace Production

/-! ## Moves -/

/-- The production of a reader that counts the tokens it leaves. -/
def of {n : Cursor → Nat} (r : (c : Cursor) → Except SyntaxError (Parsed α (n c))) :
    Production α :=
  fun c => (r c).map Parsed.toPair

/-- Asks something about the next token. -/
def look (f : Token → α) : Production α :=
  fun c => .ok (f c.token, c)

/-- Moves behind the next token. -/
def skip : Production Unit := fun c => do
  let next := { c with lexemes := c.lexemes.tail }
  next.settle
  return ((), next)

/-- Fails at the next token. -/
def refuse (expected : Expectation) : Production α :=
  fun c => .error (c.unexpected expected)

/-- Fails if a `not` or a parenthesis here would be one too many. -/
def checkRoom (v : Vocabulary) : Production Unit :=
  fun c => (c.checkNesting v).map fun u => (u, c)

/-- Moves behind the next token if it means something, and tells what. -/
def accept (f : Token → Option α) : Production (Option α) := do
  match ← look f with
  | some a => do
    skip
    return some a
  | none => return none

/-- Moves behind the next token if it opens a level of nesting and there is room for one. -/
def descend (v : Vocabulary) (f : Token → Option Unit) : Production (Option Unit) := do
  match ← look f with
  | some () => do
    checkRoom v
    skip
    return some ()
  | none => return none

/-- Reads with one more `not` or parenthesis open. -/
def deeper (P : Production α) : Production α :=
  fun c => (P c.enter).map fun p => (p.1, p.2.leave)

/-- Moves behind the next token, which has to mean something, and tells what. -/
def demand (f : Token → Option α) (expected : Expectation) : Production α := do
  match ← accept f with
  | some a => return a
  | none => refuse expected

/-- Reads a word that is no keyword. The word is judged with the token behind it known, and an
    error tells the position of the word. -/
def named (v : Vocabulary) (expected : Expectation) (judge : String → Token → Option NameFault) :
    Production String := fun c => do
  let (w, d) ← demand (Token.name? v) expected c
  match judge w d.token with
  | none => return (w, d)
  | some fault => throw (fault.error w c.position)

/-! ## The moves of a cursor -/

/-- A sequence runs its second part from the cursor that the first one leaves. -/
theorem bind_apply (P : Production α) (F : α → Production β) (c : Cursor) :
    (P >>= F) c = P c >>= fun p => F p.1 p.2 :=
  rfl

/-- What is done with a result is done with what is seen of it. -/
theorem bind_map {γ δ : Type} {x : Except SyntaxError γ} {r : γ → δ}
    {f : γ → Except SyntaxError α} {F : δ → Except SyntaxError α} (h : ∀ a, f a = F (r a)) :
    x >>= f = x.map r >>= F := by
  cases x with
  | error e => rfl
  | ok a => exact h a

theorem bind_map_map {γ δ ε : Type} {x : Except SyntaxError γ} {r : γ → δ}
    {f : γ → Except SyntaxError α} {F : δ → Except SyntaxError ε} {g : ε → α}
    (h : ∀ a, f a = (F (r a)).map g) : x >>= f = (x.map r >>= F).map g := by
  cases x with
  | error e => rfl
  | ok a => exact h a

/-- A reader that goes on with another one is the sequence of their productions. -/
theorem map_bind_map {γ δ ε : Type} {x : Except SyntaxError γ} {r : γ → δ}
    {f : γ → Except SyntaxError ε} {g : ε → α} {F : δ → Except SyntaxError α}
    (h : ∀ a, (f a).map g = F (r a)) : (x >>= f).map g = x.map r >>= F := by
  cases x with
  | error e => rfl
  | ok a => exact h a

theorem map_bind {γ δ ε : Type} {x : Except SyntaxError γ} {f : γ → Except SyntaxError δ}
    {g : δ → ε} : (x >>= f).map g = x >>= fun a => (f a).map g := by
  cases x <;> rfl

/-- To skip a token is to advance, with the bound on what is left forgotten. -/
theorem skip_of_advance {c : Cursor} (h : c.token ≠ .endOfText) :
    (c.advance h).map Parsed.toPair = skip c := by
  unfold Cursor.advance skip
  exact map_bind

/-- A token that is passed is skipped. -/
theorem skip_of_passes {c d : Cursor} {t : Token} (h : c.Passes [t] d) : skip c = .ok ((), d) := by
  have hs := h.settled
  rw [h.eq_drop, List.length_singleton, List.drop_one] at hs ⊢
  exact bind_of_ok _ hs

/-- What is skipped in front of the end is passed. -/
theorem passes_of_skip {c d : Cursor} {u : Unit} (ht : c.token ≠ .endOfText)
    (h : skip c = .ok (u, d)) : c.Passes [c.token] d := by
  rw [← skip_of_advance ht] at h
  obtain ⟨p, hp, hpd⟩ := map_eq_ok.mp h
  obtain rfl := (Prod.mk.inj hpd).2
  exact Cursor.passes_of_advance hp rfl

/-- Moving fails in front of characters that form no token only. -/
theorem lexical_of_skip {c : Cursor} {e : SyntaxError} (h : skip c = .error e) :
    ∃ l, e = .lexical l ∧ c.ending = .error l := by
  unfold skip Cursor.settle at h
  dsimp only at h
  split at h
  next l _ hl =>
    cases h
    exact ⟨l, rfl, hl⟩
  next => cases h

/-- A token without a meaning is left where it is. -/
theorem accept_of_none {f : Token → Option α} {c : Cursor} (h : f c.token = none) :
    accept f c = .ok (none, c) := by
  simp only [accept, bind_apply, look, h]
  rfl

/-- A token with a meaning is skipped, and the meaning told. -/
theorem accept_of_some {f : Token → Option α} {c : Cursor} {a : α} (h : f c.token = some a) :
    accept f c = (skip c).map fun p => (some a, p.2) := by
  simp only [accept, bind_apply, look, h, ok_bind]
  cases skip c <;> rfl

/-- A token that does not mean what is demanded is refused. -/
theorem demand_of_none {f : Token → Option α} {c : Cursor} {e : Expectation}
    (h : f c.token = none) : demand f e c = .error (c.unexpected e) := by
  rw [demand, bind_apply, accept_of_none h]
  rfl

/-- A token that means what is demanded is skipped. -/
theorem demand_of_some {f : Token → Option α} {c : Cursor} {e : Expectation} {a : α}
    (h : f c.token = some a) : demand f e c = (skip c).map fun p => (a, p.2) := by
  rw [demand, bind_apply, accept_of_some h]
  cases skip c <;> rfl

/-- A demand is met exactly by a token that has the meaning and is passed. -/
theorem demand_eq_ok_iff {f : Token → Option α} (hend : f .endOfText = none) {e : Expectation}
    {c d : Cursor} {a : α} :
    demand f e c = .ok (a, d) ↔ f c.token = some a ∧ c.Passes [c.token] d := by
  cases h : f c.token with
  | none =>
      rw [demand_of_none h]
      simp
  | some b =>
      have ht : c.token ≠ .endOfText := fun ht => by simp [ht, hend] at h
      rw [demand_of_some h, map_eq_ok]
      constructor
      · rintro ⟨⟨u, d'⟩, hd, heq⟩
        obtain ⟨rfl, rfl⟩ := Prod.mk.inj heq
        exact ⟨rfl, passes_of_skip ht hd⟩
      · rintro ⟨hb, hd⟩
        obtain rfl := Option.some.inj hb
        exact ⟨_, skip_of_passes hd, rfl⟩

/-- The test for one token. -/
def exactly (t u : Token) : Option Unit :=
  if u = t then some () else none

theorem exactly_eq_some_iff {t u : Token} : exactly t u = some () ↔ u = t := by
  simp [exactly]

/-- A reader that expects a token demands exactly that token. -/
theorem of_expect (t : Token) (ht : t ≠ .endOfText) :
    of (fun c => c.expect t ht) = demand (exactly t) (.token t) := by
  funext c
  rw [of, Cursor.expect]
  split
  next h =>
    rw [demand_of_some (a := ()) (if_pos h), skip_of_advance]
    cases skip c <;> rfl
  next h =>
    rw [demand_of_none (if_neg h)]
    rfl

theorem keyword?_eq (c : Cursor) : c.keyword? v = c.token.keyword? v := by
  unfold Cursor.keyword? Token.keyword?
  cases c.token <;> rfl

/-- The test for one keyword. -/
def spelt (v : Vocabulary) (k : Keyword) (t : Token) : Option Unit :=
  if t.keyword? v = some k then some () else none

theorem spelt_eq_some_iff {k : Keyword} {t : Token} :
    spelt v k t = some () ↔ t.keyword? v = some k := by
  simp [spelt]

/-- A token that passes the test for a keyword spells it. -/
theorem spells_of_spelt {k : Keyword} {t : Token} (h : spelt v k t = some ()) :
    Grammar.Spells v t k := by
  rw [spelt_eq_some_iff] at h
  cases t with
  | word w => exact ⟨w, rfl, h⟩
  | _ => cases h

/-- A reader that expects a keyword demands a token that spells it. -/
theorem of_expectKeyword (k : Keyword) :
    of (fun c => c.expectKeyword v k) = demand (spelt v k) (.keyword (v.spelling k)) := by
  funext c
  rw [of, Cursor.expectKeyword]
  split
  next h =>
    rw [demand_of_some (a := ()) (if_pos (keyword?_eq c ▸ h)), skip_of_advance]
    cases skip c <;> rfl
  next h =>
    rw [demand_of_none (if_neg (keyword?_eq c ▸ h))]
    rfl

/-- Whether the keyword is there, with the cursor behind it if it is. -/
def eaten {c : Cursor} : Option (Parsed Unit c.size) → Option Unit × Cursor
  | some behind => (some (), behind.rest)
  | none => (none, c)

/-- To eat a keyword is to accept a token that spells it. -/
theorem accept_spelt (c : Cursor) (k : Keyword) :
    accept (spelt v k) c = (c.eat? v k).map eaten := by
  unfold Cursor.eat?
  split
  next h =>
    rw [accept_of_some (a := ()) (if_pos (keyword?_eq c ▸ h)), ← skip_of_advance
      (Cursor.token_ne_end h)]
    cases c.advance (Cursor.token_ne_end h) <;> rfl
  next h =>
    rw [accept_of_none (if_neg (keyword?_eq c ▸ h))]
    rfl

/-- A reader of words demands a token that is a name. -/
theorem of_word (e : Expectation) :
    of (fun c => c.word v e) = demand (Token.name? v) e := by
  funext c
  unfold of Cursor.word
  dsimp only
  split
  next w h =>
    split
    next hk =>
      rw [demand_of_some (a := w) (by simp [Token.name?, h, hk]),
        ← skip_of_advance (by simp [h])]
      cases c.advance _ <;> rfl
    next hk =>
      rw [demand_of_none (by simp_all [Token.name?])]
      rfl
  next h =>
    rw [demand_of_none]
    · rfl
    · cases ht : c.token <;> simp_all [Token.name?]

/-- The judgement of a name that should be a field. -/
def judgeField (v : Vocabulary) (w : String) (_ : Token) : Option NameFault :=
  if v.isField w then none else some .field

/-- A reader of fields reads a name and judges it by the pattern of fields. -/
theorem of_field : of (fun c => c.field v) = named v .fieldName (judgeField v) := by
  funext c
  rw [of, Cursor.field, named, ← of_word, of]
  cases c.word v .fieldName with
  | error e => rfl
  | ok name =>
      simp only [ok_bind, judgeField, Parsed.toPair, Except.map]
      cases v.isField name.value <;> rfl

/-- A literal is a string, or else a name. -/
theorem of_literal : of (fun c => c.literal v) = (do
    match ← accept Token.content? with
    | some content => return content
    | none => demand (Token.name? v) .literal) := by
  funext c
  unfold of Cursor.literal
  dsimp only
  rw [bind_apply]
  split
  next content h =>
    rw [accept_of_some (a := content) (by rw [h]; rfl), ← skip_of_advance (by simp [h])]
    cases c.advance _ <;> rfl
  next h =>
    rw [accept_of_none (by cases ht : c.token <;> simp_all [Token.content?]), ok_bind,
      ← of_word]
    rfl

/-! ## What is left behind a move -/

/-- A reader and its production succeed alike, with one value and one cursor. -/
theorem of_eq_ok {n : Cursor → Nat} {r : (c : Cursor) → Except SyntaxError (Parsed α (n c))}
    {c d : Cursor} {a : α} : of r c = .ok (a, d) ↔ Yields (r c) a d := by
  rw [of, map_eq_ok]
  exact exists_congr fun p => and_congr_right fun _ => Prod.mk.injEq .. ▸ Iff.rfl

/-- What is accepted has been passed. -/
theorem passes_of_accept {f : Token → Option α} (hend : f .endOfText = none) {c d : Cursor} {a : α}
    (h : accept f c = .ok (some a, d)) : c.Passes [c.token] d := by
  cases ho : f c.token with
  | none =>
      rw [accept_of_none ho] at h
      cases h
  | some b =>
      have ht : c.token ≠ .endOfText := fun ht => by simp [ht, hend] at ho
      rw [accept_of_some ho] at h
      obtain ⟨⟨u, d'⟩, hd, heq⟩ := map_eq_ok.mp h
      obtain ⟨-, rfl⟩ := Prod.mk.inj heq
      exact passes_of_skip ht hd

/-- What is not accepted has not been touched. -/
theorem eq_of_accept {f : Token → Option α} {c d : Cursor} (h : accept f c = .ok (none, d)) :
    d = c := by
  cases ho : f c.token with
  | none =>
      rw [accept_of_none ho] at h
      cases h
      rfl
  | some a =>
      rw [accept_of_some ho] at h
      obtain ⟨_, -, heq⟩ := map_eq_ok.mp h
      cases heq

theorem descend_of_none {f : Token → Option Unit} {c : Cursor} (h : f c.token = none) :
    descend v f c = .ok (none, c) := by
  simp only [descend, bind_apply, look, h, ok_bind]
  rfl

/-- A token that opens a level is skipped after a look at the limit. -/
theorem descend_of_some {f : Token → Option Unit} {c : Cursor} (h : f c.token = some ()) :
    descend v f c = (checkRoom v c >>= fun _ => skip c).map fun p => (some (), p.2) := by
  simp only [descend, bind_apply, look, h, ok_bind, checkRoom]
  cases c.checkNesting v with
  | error e => rfl
  | ok u =>
      simp only [Except.map, ok_bind]
      cases skip c <;> rfl

/-- Where no level is opened the cursor stays in front of a token that would open none. -/
theorem eq_of_descend {f : Token → Option Unit} {c d : Cursor}
    (h : descend v f c = .ok (none, d)) : f c.token = none ∧ d = c := by
  cases ho : f c.token with
  | none =>
      rw [descend_of_none ho] at h
      cases h
      exact ⟨rfl, rfl⟩
  | some u =>
      rw [descend_of_some ho] at h
      obtain ⟨_, -, heq⟩ := map_eq_ok.mp h
      cases heq

/-- The token that opens a level is passed. -/
theorem passes_of_descend {f : Token → Option Unit} (hend : f .endOfText = none) {c d : Cursor}
    (h : descend v f c = .ok (some (), d)) : f c.token = some () ∧ c.Passes [c.token] d := by
  cases ho : f c.token with
  | none =>
      rw [descend_of_none ho] at h
      cases h
  | some u =>
      have ht : c.token ≠ .endOfText := fun ht => by simp [ht, hend] at ho
      rw [descend_of_some ho] at h
      obtain ⟨p, hp, heq⟩ := map_eq_ok.mp h
      obtain ⟨_, -, hskip⟩ := bind_eq_ok.mp hp
      obtain ⟨-, rfl⟩ := Prod.mk.inj heq
      exact ⟨rfl, passes_of_skip ht hskip⟩

/-- A name is read exactly if it is the next word, no keyword, and not judged to be wrong in front
    of the token behind it. -/
theorem named_eq_ok_iff {expected : Expectation} {judge : String → Token → Option NameFault}
    {c d : Cursor} {w : String} :
    named v expected judge c = .ok (w, d) ↔
      c.token.name? v = some w ∧ c.Passes [c.token] d ∧ judge w d.token = none := by
  constructor
  · intro h
    obtain ⟨⟨w', m⟩, hw, h⟩ := bind_eq_ok.mp h
    dsimp only at h
    split at h
    next hj =>
      obtain ⟨rfl, rfl⟩ := Prod.mk.inj (pure_eq_ok.mp h)
      obtain ⟨hname, hp⟩ := (demand_eq_ok_iff rfl).mp hw
      exact ⟨hname, hp, hj⟩
    next => cases h
  · rintro ⟨hname, hp, hj⟩
    refine (bind_of_ok _ ((demand_eq_ok_iff rfl).mpr ⟨hname, hp⟩)).trans ?_
    simp only [hj]
    rfl

/-- A token that is passed is one less to read. -/
theorem size_lt_of_passes {c d : Cursor} {t : Token} (h : c.Passes [t] d) : d.size < c.size := by
  obtain ⟨ls, hl, hc⟩ := h.lexemes
  have hlen := congrArg List.length hc
  have hone := congrArg List.length hl
  simp only [List.length_append, List.length_map, List.length_singleton] at hlen hone
  simp only [Cursor.size]
  omega

/-- Behind a token stands a cursor with fewer tokens left. -/
theorem parsed_of_passes {c d : Cursor} {t : Token} (h : c.Passes [t] d) :
    ∃ b : Parsed Unit c.size, b.rest = d :=
  ⟨⟨(), d, size_lt_of_passes h⟩, rfl⟩

/-! ## The productions -/

theorem accept_bind_of_some {f : Token → Option α} {F : Option α → Production β} {c : Cursor}
    {a : α} (h : f c.token = some a) (ht : c.token ≠ .endOfText) :
    (accept f >>= F) c = (c.advance ht).map Parsed.toPair >>= fun p => F (some a) p.2 := by
  rw [bind_apply, accept_of_some h, ← skip_of_advance ht]
  cases c.advance ht <;> rfl

theorem accept_bind_of_none {f : Token → Option α} {F : Option α → Production β} {c : Cursor}
    (h : f c.token = none) : (accept f >>= F) c = F none c := by
  rw [bind_apply, accept_of_none h]
  rfl

theorem descend_bind_of_some {f : Token → Option Unit} {F : Option Unit → Production β} {c : Cursor}
    (h : f c.token = some ()) (ht : c.token ≠ .endOfText) :
    (descend v f >>= F) c =
      c.checkNesting v >>= fun _ => (c.advance ht).map Parsed.toPair >>= fun p =>
        F (some ()) p.2 := by
  rw [bind_apply, descend_of_some h, checkRoom, skip_of_advance]
  cases c.checkNesting v with
  | error e => rfl
  | ok u => cases skip c <;> rfl

theorem descend_bind_of_none {f : Token → Option Unit} {F : Option Unit → Production β} {c : Cursor}
    (h : f c.token = none) : (descend v f >>= F) c = F none c := by
  rw [bind_apply, descend_of_none h]
  rfl

theorem spelt_bind {F : Option Unit → Production β} {c : Cursor} {k : Keyword} :
    (accept (spelt v k) >>= F) c = (c.eat? v k).map eaten >>= fun p => F p.1 p.2 := by
  rw [bind_apply, accept_spelt]

/-- What is read inside of a level is followed by what is read outside of it. -/
theorem deeper_bind {P : Production α} {F : α → Production β} {c : Cursor} :
    (deeper P >>= F) c = P c.enter >>= fun p => F p.1 p.2.leave := by
  rw [bind_apply, deeper]
  cases P c.enter <;> rfl

/-- A comparison is a field with one of three things behind it: an operator on texts and a literal,
    an operator on numbers and a name, or the keyword of membership and a literal. -/
theorem of_comparison : of (Grammar.comparison v) = (do
    let name ← named v .fieldName (judgeField v)
    match ← accept Token.valueOp? with
    | some op => do
      let text ← of fun c => c.literal v
      return [.push name, .push op.symbol, .push text, .addValueCriteria]
    | none => do
      match ← accept Token.rangeOp? with
      | some op => do
        let w ← demand (Token.name? v) .integer
        return [.push name, .push op.symbol, .push w, .addRangeCriteria]
      | none => do
        match ← accept (spelt v .member) with
        | some _ => do
          let text ← of fun c => c.literal v
          return [.push name, .push text, .addIndexCriteria]
        | none => refuse (.comparison (v.spelling .member))) := by
  funext c
  rw [← of_field]
  refine map_bind_map fun name => ?_
  dsimp only [Parsed.toPair]
  split
  next op h =>
    rw [accept_bind_of_some h (Token.ne_end_of_valueOp? h)]
    refine map_bind_map fun behind => ?_
    exact map_bind_map fun operand => rfl
  next h =>
    rw [accept_bind_of_none h]
    dsimp only
    split
    next op h' =>
      rw [accept_bind_of_some h' (Token.ne_end_of_rangeOp? h'), ← of_word]
      refine map_bind_map fun behind => ?_
      exact map_bind_map fun operand => rfl
    next h' =>
      rw [accept_bind_of_none h']
      dsimp only
      rw [spelt_bind]
      refine map_bind_map fun
        | some behind => ?_
        | none => rfl
      exact map_bind_map fun operand => rfl

/-- A chain is an operand and the operands behind it. -/
theorem of_chain (op : BoolOp) : of (Grammar.chain v op) = (do
    let first ← of (Grammar.operand v op)
    let more ← of (Grammar.operands v op)
    return first ++ more) := by
  funext c
  rw [of, Grammar.chain_eq]
  refine map_bind_map fun first => ?_
  exact map_bind_map fun more => rfl

/-- Behind an operand a chain goes on as long as its keyword does. -/
theorem of_operands (op : BoolOp) : of (Grammar.operands v op) = (do
    match ← accept (spelt v op.keyword) with
    | none => return []
    | some _ => do
      let right ← of (Grammar.operand v op)
      let more ← of (Grammar.operands v op)
      return .push op.symbol :: right ++ .addCompoundCriteria :: more) := by
  funext c
  rw [of, Grammar.operands_eq, spelt_bind]
  refine map_bind_map fun
    | none => rfl
    | some behind => ?_
  refine map_bind_map fun right => ?_
  exact map_bind_map fun more => rfl

/-- A unary is read behind each `not`, which opens a level, and closed by one more action. -/
theorem of_unary : of (Grammar.unary v) = (do
    match ← descend v (spelt v .not) with
    | some _ => do
      let operand ← deeper (of (Grammar.unary v))
      return operand ++ [.addNegatedCriteria]
    | none => of (Grammar.atom v)) := by
  funext c
  rw [of, Grammar.unary]
  split
  next h =>
    rw [descend_bind_of_some (if_pos (keyword?_eq c ▸ h)) (Cursor.token_ne_end h), map_bind]
    refine congrArg _ (funext fun u => map_bind_map fun behind => ?_)
    dsimp only
    rw [deeper_bind]
    exact map_bind_map fun operand => rfl
  next h =>
    rw [descend_bind_of_none (if_neg (keyword?_eq c ▸ h))]
    rfl

/-- An atom is a disjunction in parentheses, which open a level, or else a comparison. -/
theorem of_atom : of (Grammar.atom v) = (do
    match ← descend v (exactly .openParen) with
    | some _ => deeper do
      let inside ← of (Grammar.chain v .or)
      demand (exactly .closeParen) (.token .closeParen)
      return inside
    | none => of (Grammar.comparison v)) := by
  funext c
  rw [of, Grammar.atom]
  split
  next h =>
    rw [descend_bind_of_some (if_pos h) (by simp [h]), map_bind]
    refine congrArg _ (funext fun u => map_bind_map fun behind => ?_)
    dsimp only
    rw [deeper, ← of_expect .closeParen (by decide)]
    refine Eq.trans ?_ map_bind.symm
    refine map_bind_map fun inside => ?_
    refine Eq.trans ?_ map_bind.symm
    exact map_bind_map fun closed => rfl
  next h =>
    rw [descend_bind_of_none (if_neg h)]
    rfl

/-- Each comma is followed by a field that is added to the selector. -/
theorem of_moreFields : of (Grammar.moreFields v) = (do
    match ← accept (exactly .comma) with
    | some _ => do
      let name ← named v .fieldName (judgeField v)
      let more ← of (Grammar.moreFields v)
      return name :: more
    | none => return []) := by
  funext c
  rw [of, Grammar.moreFields]
  split
  next h =>
    rw [accept_bind_of_some (if_pos h) (by simp [h]), ← of_field]
    refine map_bind_map fun behind => ?_
    refine map_bind_map fun name => ?_
    exact map_bind_map fun more => rfl
  next h =>
    rw [accept_bind_of_none (if_neg h)]
    rfl

/-- The judgement of the first word of a selector: a parenthesis behind it makes it the name of a
    function. -/
def judgeSelector (v : Vocabulary) (w : String) (behind : Token) : Option NameFault :=
  if behind = .openParen then if isFunctionName w then none else some .function
  else judgeField v w behind

/-- A selector is one name. A parenthesis behind it makes it a function, commas make it several
    fields. -/
theorem selector_eq : Grammar.selector v = (do
    let first ← named v .selector (judgeSelector v)
    match ← accept (exactly .openParen) with
    | some _ => do
      let argument ← named v .fieldName (judgeField v)
      demand (exactly .closeParen) (.token .closeParen)
      return [.push first, .push argument, .setFunctionSelector]
    | none => do
      let more ← of (Grammar.moreFields v)
      return if more.isEmpty then [.push first, .setSimpleSelector]
        else .push first :: more.map .push ++ [.setCompoundSelector] : Production (List Action)) := by
  funext c
  rw [Grammar.selector, bind_apply, named, ← of_word, of]
  cases c.word v .selector with
  | error e => rfl
  | ok first =>
      simp only [ok_bind, Except.map, Parsed.toPair, judgeSelector, judgeField]
      split
      next h =>
        cases isFunctionName first.value with
        | false => rfl
        | true =>
            simp only [Bool.not_true, Bool.false_eq_true, if_false, if_true, pure_bind]
            rw [accept_bind_of_some (if_pos h) (by simp [h]), ← of_field,
              ← of_expect .closeParen (by decide)]
            refine bind_map fun behind => ?_
            refine bind_map fun argument => ?_
            exact bind_map fun closed => rfl
      next h =>
        cases v.isField first.value with
        | false => rfl
        | true =>
            simp only [Bool.not_true, Bool.false_eq_true, if_false, if_true, pure_bind]
            rw [accept_bind_of_none (if_neg h)]
            refine bind_map fun more => ?_
            dsimp only [Parsed.toPair]
            cases more.value.isEmpty <;> rfl

/-- The judgement of the name of a namespace. -/
def judgeNamespace (v : Vocabulary) (w : String) (_ : Token) : Option NameFault :=
  if v.isNamespace w then none else some .source

/-- The clause of namespaces is missing, or its keyword is followed by a name. -/
theorem sourceClause_eq : Grammar.sourceClause v = (do
    match ← accept (spelt v .source) with
    | none => return []
    | some _ => do
      let name ← named v .namespaceName (judgeNamespace v)
      return [.setNamespace name] : Production (List Action)) := by
  funext c
  rw [Grammar.sourceClause, spelt_bind]
  refine bind_map fun
    | none => rfl
    | some behind => ?_
  dsimp only [eaten]
  rw [bind_apply, named, ← of_word, of]
  cases behind.rest.word v .namespaceName with
  | error e => rfl
  | ok name =>
      simp only [ok_bind, Except.map, Parsed.toPair, judgeNamespace]
      cases v.isNamespace name.value <;> rfl

/-- The clause of criteria is missing, or its keyword is followed by a disjunction. -/
theorem filterClause_eq : Grammar.filterClause v = (do
    match ← accept (spelt v .filter) with
    | none => return []
    | some _ => do
      let criteria ← of (Grammar.chain v .or)
      return criteria ++ [.setCriteria] : Production (List Action)) := by
  funext c
  rw [Grammar.filterClause, spelt_bind]
  refine bind_map fun
    | none => rfl
    | some behind => ?_
  exact bind_map fun criteria => rfl

/-- A direction is one of two keywords, or missing. -/
theorem of_direction : of (Grammar.direction v) = (do
    match ← accept (spelt v .asc) with
    | some _ => return [.push Direction.ascending.symbol, .setOrderDirection]
    | none => do
      match ← accept (spelt v .desc) with
      | some _ => return [.push Direction.descending.symbol, .setOrderDirection]
      | none => return []) := by
  funext c
  rw [of, Grammar.direction, spelt_bind]
  refine map_bind_map fun
    | some behind => rfl
    | none => ?_
  dsimp only [eaten]
  rw [spelt_bind]
  exact map_bind_map fun
    | some behind => rfl
    | none => rfl

/-- The items of an order are fields with directions, with commas between them. -/
theorem of_orderItems : of (Grammar.orderItems v) = (do
    let name ← named v .fieldName (judgeField v)
    let written ← of (Grammar.direction v)
    match ← accept (exactly .comma) with
    | some _ => do
      let more ← of (Grammar.orderItems v)
      return .push name :: .addOrderSelector :: written ++ more
    | none => return .push name :: .addOrderSelector :: written) := by
  funext c
  rw [of, Grammar.orderItems, ← of_field]
  refine map_bind_map fun name => ?_
  refine map_bind_map fun written => ?_
  dsimp only [Parsed.toPair]
  split
  next h =>
    rw [accept_bind_of_some (if_pos h) (by simp [h])]
    refine map_bind_map fun behind => ?_
    exact map_bind_map fun more => rfl
  next h =>
    rw [accept_bind_of_none (if_neg h)]
    rfl

/-- The clause of an order is missing, or two keywords are followed by its items. -/
theorem orderClause_eq : Grammar.orderClause v = (do
    match ← accept (spelt v .order) with
    | none => return []
    | some _ => do
      demand (spelt v .orderBy) (.keyword (v.spelling .orderBy))
      let items ← of (Grammar.orderItems v)
      return items ++ [.setOrder] : Production (List Action)) := by
  funext c
  rw [Grammar.orderClause, spelt_bind, ← of_expectKeyword]
  refine bind_map fun
    | none => rfl
    | some behind => ?_
  refine bind_map fun start => ?_
  exact bind_map fun items => rfl

/-- The clause of a limit is missing, or its keyword is followed by a name, which is looked at as a
    number later on. -/
theorem limitClause_eq : Grammar.limitClause v = (do
    match ← accept (spelt v .limit) with
    | none => return []
    | some _ => do
      let w ← demand (Token.name? v) .limit
      return [.setLimit w] : Production (List Action)) := by
  funext c
  rw [Grammar.limitClause, spelt_bind, ← of_word]
  refine bind_map fun
    | none => rfl
    | some behind => ?_
  exact bind_map fun word => rfl

/-- Behind its first keyword a query that selects has a selector and up to four clauses, in this
    order. -/
theorem selectTail_eq : Grammar.selectTail v = (do
    let selector ← Grammar.selector v
    let source ← Grammar.sourceClause v
    let filter ← Grammar.filterClause v
    let order ← Grammar.orderClause v
    let limit ← Grammar.limitClause v
    return .setSelectOp :: selector ++ source ++ filter ++ order ++ limit :
      Production (List Action)) :=
  rfl

/-- Behind its first keyword a query that deletes has no selector and no order. -/
theorem deleteTail_eq : Grammar.deleteTail v = (do
    let source ← Grammar.sourceClause v
    let filter ← Grammar.filterClause v
    let limit ← Grammar.limitClause v
    return .setDeleteOp :: source ++ filter ++ limit : Production (List Action)) :=
  rfl

/-- The end of the text. -/
def atEnd (actions : List Action) : Production (List Action) := do
  match ← look (exactly .endOfText) with
  | some _ => return actions
  | none => refuse (.token .endOfText)

/-- A query up to the end of the text, with the cursor that is left there. -/
def query (v : Vocabulary) : Production (List Action) := do
  match ← accept (spelt v .select) with
  | some _ => Grammar.selectTail v >>= atEnd
  | none => do
    match ← accept (spelt v .delete) with
    | some _ => Grammar.deleteTail v >>= atEnd
    | none => refuse (.operation (v.spelling .select) (v.spelling .delete))

/-- The recognizer of queries is the production of queries, with the last cursor forgotten. -/
theorem query_eq (c : Cursor) : Grammar.query v c = (query v c).map Prod.fst := by
  have hend (p : List Action × Cursor) :
      (if p.2.token = .endOfText then pure p.1
        else throw (p.2.unexpected (.token .endOfText)) : Except SyntaxError (List Action)) =
      (atEnd p.1 p.2).map Prod.fst := by
    rw [atEnd, bind_apply, look, ok_bind]
    split
    next h => simp only [exactly, if_pos h]; rfl
    next h => simp only [exactly, if_neg h]; rfl
  rw [query, spelt_bind, Grammar.query]
  simp only [hend]
  refine bind_map_map fun
    | some behind => map_bind.symm
    | none => ?_
  dsimp only [eaten]
  rw [spelt_bind]
  exact bind_map_map fun
    | some behind => map_bind.symm
    | none => rfl

end Production

end RecordQuery
