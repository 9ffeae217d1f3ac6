/-
  RecordQuery.Proofs.Grammar.Displacement

  The recognizer does not look at positions. If the tokens of one text are those of another at other
  places, both texts are recognized alike, or refused with the same error at the place to which its
  token has moved.
-/

import RecordQuery.Proofs.Grammar.Composition
import RecordQuery.Proofs.Grammar.Lockstep

namespace RecordQuery

/-- How the tokens of a text are displaced: where they start, where the text ends, and the error in
    which they end if there is one. -/
structure Displacement where
  token : Position → Position
  ending : Position → Position
  fault : LexicalError → LexicalError

namespace Displacement

variable (m : Displacement) {α β : Type}

/-- The token at its new place. -/
def lexeme (l : Lexeme) : Lexeme :=
  { l with start := m.token l.start }

/-- What ends the displaced tokens. -/
def outcome : Except LexicalError Position → Except LexicalError Position
  | .ok p => .ok (m.ending p)
  | .error l => .error (m.fault l)

/-- The displaced tokens and what ends them. -/
def lexed (l : Lexed) : Lexed where
  lexemes := l.lexemes.map m.lexeme
  ending := m.outcome l.ending

/-- The cursor in front of the displaced tokens. -/
def cursor (c : Cursor) : Cursor where
  lexemes := c.lexemes.map m.lexeme
  ending := m.outcome c.ending
  depth := c.depth

/-- The same error about the displaced token. -/
def error : SyntaxError → SyntaxError
  | .lexical l => .lexical (m.fault l)
  | .unexpected expected .endOfText p => .unexpected expected .endOfText (m.ending p)
  | .unexpected expected found p => .unexpected expected found (m.token p)
  | .invalidField name p => .invalidField name (m.token p)
  | .invalidFunction name p => .invalidFunction name (m.token p)
  | .invalidNamespace name p => .invalidNamespace name (m.token p)
  | .nestingTooDeep limit p => .nestingTooDeep limit (m.token p)

/-- What the displaced tokens are read as. -/
def result : Except SyntaxError (α × Cursor) → Except SyntaxError (α × Cursor)
  | .ok (a, d) => .ok (a, m.cursor d)
  | .error e => .error (m.error e)

theorem error_unexpected {expected : Expectation} {found : Token} {p : Position}
    (h : found ≠ .endOfText) :
    m.error (.unexpected expected found p) = .unexpected expected found (m.token p) := by
  cases found <;> first | rfl | exact absurd rfl h

theorem error_nameFault (fault : NameFault) (w : String) (p : Position) :
    m.error (fault.error w p) = fault.error w (m.token p) := by
  cases fault <;> rfl

end Displacement

/-! ## Cursors -/

namespace Cursor

/-- The cursor is settled, and the end of the text is none of its tokens. -/
structure Proper (c : Cursor) : Prop where
  settled : c.Settled
  noEnd : ∀ l ∈ c.lexemes, l.token ≠ .endOfText

variable {m : Displacement} {c d : Cursor}

theorem token_displaced : (m.cursor c).token = c.token := by
  obtain ⟨lexemes, ending, depth⟩ := c
  cases lexemes <;> rfl

theorem position_displaced (h : c.token ≠ .endOfText) :
    (m.cursor c).position = m.token c.position := by
  obtain ⟨lexemes, ending, depth⟩ := c
  cases lexemes with
  | nil => exact absurd rfl h
  | cons l ls => rfl

theorem settle_displaced : (m.cursor c).settle = c.settle.mapError m.error := by
  obtain ⟨lexemes, ending, depth⟩ := c
  cases lexemes <;> cases ending <;> rfl

/-- A token at another place is refused by the same words at that place. -/
theorem unexpected_displaced (h : c.Proper) (expected : Expectation) :
    (m.cursor c).unexpected expected = m.error (c.unexpected expected) := by
  obtain ⟨lexemes, ending, depth⟩ := c
  cases lexemes with
  | nil =>
      obtain ⟨p, hp⟩ := settled_iff.mp h.settled rfl
      obtain rfl : ending = .ok p := hp
      rfl
  | cons l ls => exact (m.error_unexpected (h.noEnd l List.mem_cons_self)).symm

/-- Tokens in front of a proper cursor lead to a proper one. -/
theorem Passes.proper {ts : List Token} (hp : c.Passes ts d) (h : c.Proper) : d.Proper := by
  obtain ⟨ls, -, hls⟩ := hp.lexemes
  refine ⟨hp.settled, fun l hl => h.noEnd l ?_⟩
  rw [hls]
  exact List.mem_append_right ls hl

end Cursor

/-! ## Productions -/

/-- At the cursor the production leaves a proper cursor, and at the displaced cursor it does the
    same with displaced positions. -/
structure Displaces (m : Displacement) {α : Type} (P : Production α) (c : Cursor) : Prop where
  proper {a : α} {d : Cursor} (h : P c = .ok (a, d)) : d.Proper
  eq : P (m.cursor c) = m.result (P c)

namespace Displaces

open Production

variable {m : Displacement} {v : Vocabulary} {α β : Type} {c : Cursor}

/-- A sequence is displaced part by part. -/
theorem bind {P : Production α} {F : α → Production β} (hP : Displaces m P c)
    (hF : ∀ a d, P c = .ok (a, d) → d.Proper → Displaces m (F a) d) :
    Displaces m (P >>= F) c where
  proper {b e} h := by
    obtain ⟨⟨a, d⟩, ha, hb⟩ := bind_eq_ok.mp h
    exact (hF a d ha (hP.proper ha)).proper hb
  eq := by
    rw [bind_apply, bind_apply, hP.eq]
    cases h : P c with
    | error e => rfl
    | ok p => exact (hF p.1 p.2 h (hP.proper h)).eq

theorem look (hc : c.Proper) (f : Token → α) : Displaces m (look f) c where
  proper h := by
    obtain ⟨-, rfl⟩ := Prod.mk.inj (Except.ok.inj h)
    exact hc
  eq := by
    rw [Production.look, Cursor.token_displaced]
    rfl

theorem skip (hc : c.Proper) (ht : c.token ≠ .endOfText) : Displaces m skip c where
  proper h := (passes_of_skip ht h).proper hc
  eq := by
    have hsettle := Cursor.settle_displaced (m := m) (c := { c with lexemes := c.lexemes.tail })
    have hnext : m.cursor { c with lexemes := c.lexemes.tail } =
        { m.cursor c with lexemes := (m.cursor c).lexemes.tail } := by
      simp only [Displacement.cursor, List.map_tail]
    rw [hnext] at hsettle
    rw [Production.skip, Production.skip, hsettle]
    cases Cursor.settle { c with lexemes := c.lexemes.tail } with
    | error e => rfl
    | ok u =>
        show Except.ok _ = Except.ok ((), m.cursor _)
        rw [hnext]

/-- The limit is told with the new place of the token that is one too many. -/
theorem checkRoom (hc : c.Proper) (ht : c.token ≠ .endOfText) : Displaces m (checkRoom v) c where
  proper h := by
    obtain ⟨u, -, hu⟩ := map_eq_ok.mp h
    obtain ⟨-, rfl⟩ := Prod.mk.inj hu
    exact hc
  eq := by
    rw [Production.checkRoom, Production.checkRoom, Cursor.checkNesting, Cursor.checkNesting,
      Cursor.position_displaced ht]
    show Except.map _ (if v.maxNesting ≤ c.depth then _ else _) = _
    split <;> rfl

theorem judged {e : Expectation} (judge : String → Token → Option NameFault) (hc : c.Proper)
    (hread : Displaces m (demand (Token.name? v) e) c) : Displaces m (named v e judge) c where
  proper h := (named_eq_ok_iff.mp h).2.1.proper hc
  eq := by
    rw [named, named, hread.eq]
    cases h : demand (Token.name? v) e c with
    | error e => rfl
    | ok p =>
        obtain ⟨w, d⟩ := p
        have hname := ((demand_eq_ok_iff rfl).mp h).1
        have ht : c.token ≠ .endOfText := fun ht => by simp [ht, Token.name?] at hname
        simp only [Displacement.result, ok_bind, Cursor.token_displaced]
        cases judge w d.token with
        | none => rfl
        | some fault =>
            show Except.error _ = Except.error _
            rw [Cursor.position_displaced ht, m.error_nameFault]

theorem deeper {P : Production α} (h : Displaces m P c.enter) : Displaces m (deeper P) c where
  proper hd := by
    obtain ⟨⟨b, e⟩, hb, heq⟩ := map_eq_ok.mp hd
    obtain ⟨-, rfl⟩ := Prod.mk.inj heq
    exact ⟨(h.proper hb).settled, (h.proper hb).noEnd⟩
  eq := by
    have heq : P (m.cursor c).enter = m.result (P c.enter) := h.eq
    rw [Production.deeper, Production.deeper, heq]
    cases P c.enter <;> rfl

/-- No move looks at a position, so no production does. -/
theorem composes (m : Displacement) (v : Vocabulary) :
    Composes v Cursor.Proper (@Displaces m) where
  enter hc := ⟨hc.settled, hc.noEnd⟩
  pure hc a := ⟨fun h => (Prod.mk.inj (pure_eq_ok.mp h)).2 ▸ hc, rfl⟩
  bind := bind
  look := look
  skip := skip
  refuse hc e :=
    ⟨fun h => (by cases h), congrArg Except.error (Cursor.unexpected_displaced hc e)⟩
  checkRoom := checkRoom
  judged := judged
  deeper := deeper

end Displaces

/-! ## Whole texts -/

/-- The end of a text is not among its lexemes. -/
theorem Scanner.noEnd (s : Scanner) : ∀ l ∈ s.lexed.lexemes, l.token ≠ .endOfText := by
  induction s using lexed.induct with
  | case1 s e s' hs =>
      rw [lexed_of_error hs]
      simp
  | case2 s l s' hs hl =>
      rw [lexed_of_end hs hl]
      simp
  | case3 s l s' hs hl ih =>
      rw [lexed_of_token hs hl]
      exact List.forall_mem_cons.mpr ⟨hl, ih⟩

/-- A text of displaced tokens is recognized as the other text is, and refused with the displaced
    error. -/
theorem recognize_displaced {v : Vocabulary} {s t : String} (m : Displacement)
    (h : lex t = m.lexed (lex s)) :
    recognize v t = (recognize v s).mapError m.error := by
  have hfront : Cursor.front t = m.cursor (Cursor.front s) := by
    rw [Cursor.front, h]
    rfl
  have hsettle : (Cursor.front t).settle = (Cursor.front s).settle.mapError m.error := by
    rw [hfront, Cursor.settle_displaced]
  have hrecognize (text : String) : recognize v text =
      (Cursor.front text).settle >>= fun _ => Grammar.query v (Cursor.front text) := by
    rw [recognize, Cursor.ofText, bind_assoc]
    rfl
  rw [hrecognize, hrecognize, hsettle]
  cases hs : (Cursor.front s).settle with
  | error e => rfl
  | ok u =>
      have hquery := ((Displaces.composes m v).query ⟨hs, (Scanner.ofText s).noEnd⟩).eq
      show Grammar.query v (Cursor.front t) = (Grammar.query v (Cursor.front s)).mapError m.error
      rw [Production.query_eq, Production.query_eq, hfront, hquery]
      cases Production.query v (Cursor.front s) <;> rfl

end RecordQuery
