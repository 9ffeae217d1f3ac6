/-
  RecordQuery.Proofs.Grammar.Passage

  Moving a cursor over tokens. `Passes c ts d` says that the cursor `d` is `c` moved over the tokens
  `ts`; each move of a cursor succeeds exactly when its token is there and the cursor behind it is
  not in front of characters that form no token.
-/

import RecordQuery.Proofs.Except
import RecordQuery.Proofs.Grammar.Derivation

namespace RecordQuery

/-- The name of a field is no keyword. -/
theorem Vocabulary.keyword?_of_isField (v : Vocabulary) {w : String} (h : v.isField w = true) :
    v.keyword? w = none := by
  simp only [isField, Bool.and_eq_true, Option.isNone_iff_eq_none] at h
  exact h.1

/-- The name of a namespace is no keyword. -/
theorem Vocabulary.keyword?_of_isNamespace (v : Vocabulary) {w : String}
    (h : v.isNamespace w = true) : v.keyword? w = none := by
  simp only [isNamespace, Bool.and_eq_true, Option.isNone_iff_eq_none] at h
  exact h.1

/-- The reading succeeds with the value `a` and leads to the cursor `d`. -/
def Yields {α : Type} {n : Nat} (r : Except SyntaxError (Parsed α n)) (a : α) (d : Cursor) : Prop :=
  ∃ p, r = .ok p ∧ p.value = a ∧ p.rest = d

theorem yields_of_ok {α : Type} {n : Nat} {r : Except SyntaxError (Parsed α n)} {p : Parsed α n}
    (h : r = .ok p) : Yields r p.value p.rest :=
  ⟨p, h, rfl, rfl⟩

/-- A reader that reads nothing yields its value where it stands. -/
theorem yields_pure {α : Type} {n : Nat} {p : Parsed α n} {a : α} {d : Cursor} :
    Yields (pure p) a d ↔ p.value = a ∧ p.rest = d := by
  constructor
  · rintro ⟨q, hq, hv, hr⟩
    obtain rfl := pure_eq_ok.mp hq
    exact ⟨hv, hr⟩
  · rintro ⟨hv, hr⟩
    exact ⟨p, rfl, hv, hr⟩

/-- A sequence yields what its second part yields once the first one has succeeded. -/
theorem yields_bind {α β : Type} {n : Nat} {x : Except SyntaxError α}
    {f : α → Except SyntaxError (Parsed β n)} {b : β} {d : Cursor} :
    Yields (x >>= f) b d ↔ ∃ y, x = .ok y ∧ Yields (f y) b d := by
  constructor
  · rintro ⟨p, hp, hv, hr⟩
    obtain ⟨y, hy, hf⟩ := bind_eq_ok.mp hp
    exact ⟨y, hy, p, hf, hv, hr⟩
  · rintro ⟨y, hy, p, hf, hv, hr⟩
    exact ⟨p, bind_eq_ok.mpr ⟨y, hy, hf⟩, hv, hr⟩

/-- A reading that fails yields nothing. -/
theorem not_yields_error {α : Type} {n : Nat} {e : SyntaxError} {a : α} {d : Cursor} :
    ¬ Yields (.error e : Except SyntaxError (Parsed α n)) a d := by
  rintro ⟨p, hp, -⟩
  cases hp

namespace Cursor

/-! ## Cursors that know their token -/

/-- The cursor is not in front of characters that form no token. -/
def Settled (c : Cursor) : Prop :=
  c.settle = .ok ()

/-- A cursor knows its token unless it stands in front of the last error of its text. -/
theorem settled_iff {c : Cursor} :
    c.Settled ↔ (c.lexemes = [] → ∃ p, c.ending = .ok p) := by
  obtain ⟨lexemes, ending⟩ := c
  cases lexemes <;> cases ending <;> simp [Settled, settle]

/-- `d` is `c` moved over the tokens `ts`, and knows its token. -/
structure Passes (c : Cursor) (ts : List Token) (d : Cursor) : Prop where
  lexemes : ∃ ls : List Lexeme, ls.map (·.token) = ts ∧ c.lexemes = ls ++ d.lexemes
  ending : d.ending = c.ending
  depth : d.depth = c.depth
  settled : d.Settled

namespace Passes

variable {c d e : Cursor} {t : Token} {ts us : List Token}

theorem refl (h : c.Settled) : c.Passes [] c :=
  ⟨⟨[], rfl, rfl⟩, rfl, rfl, h⟩

/-- One passage goes on where another one ends. -/
theorem trans (h : c.Passes ts d) (h' : d.Passes us e) : c.Passes (ts ++ us) e := by
  obtain ⟨ls, hl, hc⟩ := h.lexemes
  obtain ⟨ms, hm, hd⟩ := h'.lexemes
  refine ⟨⟨ls ++ ms, ?_, ?_⟩, h'.ending.trans h.ending, h'.depth.trans h.depth, h'.settled⟩
  · rw [List.map_append, hl, hm]
  · rw [hc, hd, List.append_assoc]

/-- A passage starts in front of a token that is known. -/
theorem settled_start (h : c.Passes ts d) : c.Settled := by
  obtain ⟨ls, -, hc⟩ := h.lexemes
  rw [settled_iff]
  intro hnil
  rw [← h.ending]
  apply settled_iff.mp h.settled
  -- A passage from a cursor with nothing left passes nothing and leaves nothing.
  exact (List.append_eq_nil_iff.mp (hc ▸ hnil)).2

/-- A passage over two runs of tokens stops between them. -/
theorem split (h : c.Passes (ts ++ us) e) : ∃ d, c.Passes ts d ∧ d.Passes us e := by
  obtain ⟨ls, hl, hc⟩ := h.lexemes
  obtain ⟨ls₁, ls₂, rfl, h₁, h₂⟩ := List.map_eq_append_iff.mp hl
  -- In the middle stands what the second run passes, and what is left behind both.
  let d : Cursor := { c with lexemes := ls₂ ++ e.lexemes }
  have hde : d.Passes us e := ⟨⟨ls₂, h₂, rfl⟩, h.ending, h.depth, h.settled⟩
  refine ⟨d, ⟨⟨ls₁, h₁, ?_⟩, rfl, rfl, hde.settled_start⟩, hde⟩
  rw [hc, List.append_assoc]

theorem split_cons (h : c.Passes (t :: us) e) : ∃ d, c.Passes [t] d ∧ d.Passes us e := by
  rw [← List.singleton_append] at h
  exact h.split

/-- A passage takes its tokens from the front of those that are left, and changes nothing else. -/
theorem eq_drop (h : c.Passes ts d) : d = { c with lexemes := c.lexemes.drop ts.length } := by
  obtain ⟨ls, rfl, hc⟩ := h.lexemes
  obtain ⟨lexemes, ending, depth⟩ := d
  obtain rfl : ending = c.ending := h.ending
  obtain rfl : depth = c.depth := h.depth
  rw [hc, List.length_map, List.drop_left]

/-- Where a passage leads is decided by where it starts and what it passes. -/
theorem unique {d' : Cursor} (h : c.Passes ts d) (h' : c.Passes ts d') : d = d' := by
  rw [h.eq_drop, h'.eq_drop]

theorem eq_of_nil (h : c.Passes [] d) : d = c :=
  h.unique (refl h.settled_start)

/-- The first token that is passed is the one that the cursor is in front of. -/
theorem token (h : c.Passes (t :: ts) d) : c.token = t := by
  obtain ⟨ls, hl, hc⟩ := h.lexemes
  obtain ⟨l, ls', rfl, rfl, -⟩ := List.map_eq_cons_iff.mp hl
  rw [Cursor.token, hc]
  rfl

/-- Tokens are passed with one more level open as they are without it. -/
theorem enter (h : c.Passes ts d) : c.enter.Passes ts d.enter :=
  ⟨h.lexemes, h.ending, congrArg (· + 1) h.depth, h.settled⟩

/-- Tokens that are passed inside of a level are passed outside of it. -/
theorem leave (h : c.enter.Passes ts d) : c.Passes ts d.leave :=
  ⟨h.lexemes, h.ending, congrArg (· - 1) h.depth, h.settled⟩

theorem leave_leave (h : c.Passes ts d) : c.leave.Passes ts d.leave :=
  ⟨h.lexemes, h.ending, congrArg (· - 1) h.depth, h.settled⟩

end Passes

@[simp] theorem leave_enter (c : Cursor) : c.enter.leave = c := rfl

@[simp] theorem depth_enter (c : Cursor) : c.enter.depth = c.depth + 1 := rfl

/-! ## Single moves -/

/-- To advance is to pass the next token. -/
theorem yields_advance {c d : Cursor} (h : c.token ≠ .endOfText) :
    Yields (c.advance h) () d ↔ c.Passes [c.token] d := by
  obtain ⟨_ | ⟨l, ls⟩, ending, depth⟩ := c
  -- Without lexemes the cursor is at the end of the text.
  · exact absurd rfl h
  · constructor
    · rintro ⟨p, hp, -, rfl⟩
      obtain ⟨_, hs, hp⟩ := bind_eq_ok.mp hp
      obtain rfl := pure_eq_ok.mp hp
      exact ⟨⟨[l], rfl, rfl⟩, rfl, rfl, hs⟩
    · intro hd
      have hs := hd.settled
      rw [hd.eq_drop] at hs ⊢
      exact yields_bind.mpr ⟨_, hs, yields_pure.mpr ⟨rfl, rfl⟩⟩

/-- Where a token is passed the cursor can advance. -/
theorem advance_of_passes {c d : Cursor} {t : Token} (hp : c.Passes [t] d)
    (h : c.token ≠ .endOfText) : ∃ p, c.advance h = .ok p ∧ p.rest = d := by
  rw [← hp.token, ← yields_advance h] at hp
  obtain ⟨p, hp, -, hr⟩ := hp
  exact ⟨p, hp, hr⟩

theorem passes_of_advance {c : Cursor} {t : Token} {h : c.token ≠ .endOfText}
    {p : Parsed Unit c.size} (hp : c.advance h = .ok p) (ht : c.token = t) :
    c.Passes [t] p.rest := by
  rw [← ht, ← yields_advance h]
  exact yields_of_ok hp

/-- What is expected is read exactly if it is the next token. -/
theorem yields_expect {c d : Cursor} {t : Token} (ht : t ≠ .endOfText) :
    Yields (c.expect t ht) () d ↔ c.Passes [t] d := by
  unfold expect
  split
  next h =>
    subst h
    exact yields_advance ht
  next h =>
    constructor
    · intro hy
      exact absurd hy not_yields_error
    · intro hd
      exact absurd hd.token h

variable {v : Vocabulary}

/-- The next token stands for a keyword if it is one of the words that spell it. -/
theorem keyword?_eq_some_iff {c : Cursor} {k : Keyword} :
    c.keyword? v = some k ↔ Grammar.Spells v c.token k := by
  unfold keyword? Grammar.Spells
  split
  next w h => simp [h]
  next h => simpa using fun w hw => absurd hw (h w)

/-- A keyword is read exactly if the next token spells it. -/
theorem yields_expectKeyword {c d : Cursor} {k : Keyword} :
    Yields (c.expectKeyword v k) () d ↔ ∃ t, c.Passes [t] d ∧ Grammar.Spells v t k := by
  unfold expectKeyword
  split
  next h =>
    rw [yields_advance]
    constructor
    · intro hd
      exact ⟨c.token, hd, keyword?_eq_some_iff.mp h⟩
    · rintro ⟨t, hd, -⟩
      rwa [hd.token]
  next h =>
    constructor
    · intro hy
      exact absurd hy not_yields_error
    · rintro ⟨t, hd, hk⟩
      rw [← hd.token, ← keyword?_eq_some_iff] at hk
      exact absurd hk h

/-- A keyword is left where it is exactly when it is not the next token. -/
theorem eat?_eq_none_iff {c : Cursor} {k : Keyword} :
    c.eat? v k = .ok none ↔ c.keyword? v ≠ some k := by
  unfold eat?
  split
  next h =>
    -- In front of its keyword the cursor moves or fails, but it does not stay.
    cases ha : c.advance (token_ne_end h) <;> simp [h]
  next h => simp [h, pure, Except.pure]

/-- A keyword is eaten exactly if the next token spells it and is passed. -/
theorem eat?_eq_some_iff {c d : Cursor} {k : Keyword} :
    (∃ p, c.eat? v k = .ok (some p) ∧ p.rest = d) ↔
      ∃ t, c.Passes [t] d ∧ Grammar.Spells v t k := by
  unfold eat?
  split
  next h =>
    constructor
    · rintro ⟨p, hp, rfl⟩
      have hy : Yields (c.advance (token_ne_end h)) () p.rest := by
        cases ha : c.advance (token_ne_end h) with
        | error e => simp [ha] at hp
        | ok q =>
            obtain rfl : q = p := by simpa [ha] using hp
            exact ⟨q, rfl, rfl, rfl⟩
      exact ⟨c.token, (yields_advance _).mp hy, keyword?_eq_some_iff.mp h⟩
    · rintro ⟨t, hd, -⟩
      obtain ⟨p, hp, hr⟩ := advance_of_passes hd (token_ne_end h)
      exact ⟨p, by rw [hp]; rfl, hr⟩
  next h =>
    constructor
    · rintro ⟨p, hp, -⟩
      cases hp
    · rintro ⟨t, hd, hk⟩
      rw [← hd.token, ← keyword?_eq_some_iff] at hk
      exact absurd hk h

/-- A word is read exactly if it is the next token and no keyword. -/
theorem yields_word {c d : Cursor} {e : Expectation} {w : String} :
    Yields (c.word v e) w d ↔ c.Passes [.word w] d ∧ v.keyword? w = none := by
  unfold word
  split
  next w' h =>
    split
    next hk =>
      rw [yields_bind]
      constructor
      · rintro ⟨q, hq, hy⟩
        obtain ⟨rfl, rfl⟩ := yields_pure.mp hy
        exact ⟨passes_of_advance hq h, Option.isNone_iff_eq_none.mp hk⟩
      · rintro ⟨hd, -⟩
        obtain rfl : w' = w := by simpa [h] using hd.token
        obtain ⟨q, hq, rfl⟩ := advance_of_passes hd (by simp [h])
        exact ⟨q, hq, yields_pure.mpr ⟨rfl, rfl⟩⟩
    -- A keyword is refused, and no derivation lets one stand for a name.
    next hk =>
      constructor
      · intro hy
        exact absurd hy not_yields_error
      · rintro ⟨hd, hn⟩
        obtain rfl : w' = w := by simpa [h] using hd.token
        simp [hn] at hk
  next h =>
    constructor
    · intro hy
      exact absurd hy not_yields_error
    · rintro ⟨hd, -⟩
      exact absurd hd.token (h w)

/-- A field is read exactly if the next token is a word that names one. -/
theorem yields_field {c d : Cursor} {f : String} :
    Yields (c.field v) f d ↔ c.Passes [.word f] d ∧ v.isField f = true := by
  unfold field
  rw [yields_bind]
  constructor
  · rintro ⟨name, hw, hy⟩
    split at hy
    next hf =>
      obtain ⟨rfl, rfl⟩ := yields_pure.mp hy
      exact ⟨(yields_word.mp (yields_of_ok hw)).1, hf⟩
    next => exact absurd hy not_yields_error
  · rintro ⟨hd, hf⟩
    -- No field is a keyword, so the word is read before it is checked.
    obtain ⟨name, hw, rfl, rfl⟩ := yields_word.mpr ⟨hd, v.keyword?_of_isField hf⟩
    refine ⟨name, hw, ?_⟩
    rw [if_pos hf]
    exact yields_pure.mpr ⟨rfl, rfl⟩

/-- A literal is read exactly if the next token is a string with that content, or the word itself.
    -/
theorem yields_literal {c d : Cursor} {text : String} :
    Yields (c.literal v) text d ↔ ∃ l, c.Passes [l] d ∧ Grammar.Literal v l text := by
  unfold literal
  split
  next content h =>
    rw [yields_bind]
    constructor
    · rintro ⟨q, hq, hy⟩
      obtain ⟨rfl, rfl⟩ := yields_pure.mp hy
      exact ⟨_, passes_of_advance hq h, .quoted content⟩
    · rintro ⟨l, hd, hl⟩
      obtain rfl : .literal content = l := by rw [← h, hd.token]
      cases hl
      obtain ⟨q, hq, rfl⟩ := advance_of_passes hd (by simp [h])
      exact ⟨q, hq, yields_pure.mpr ⟨rfl, rfl⟩⟩
  -- What is not quoted has to be a word.
  next h =>
    rw [yields_word]
    constructor
    · rintro ⟨hd, hw⟩
      exact ⟨_, hd, .bare hw⟩
    · rintro ⟨l, hd, hl⟩
      cases hl with
      | quoted => exact absurd hd.token (h _)
      | bare hw => exact ⟨hd, hw⟩

/-- There is room for a level exactly if fewer are open than the vocabulary allows. -/
theorem checkNesting_eq_ok_iff {c : Cursor} {u : Unit} :
    c.checkNesting v = .ok u ↔ c.depth < v.maxNesting := by
  unfold checkNesting
  split
  next h => simp [h]
  next h => simpa using h

/-- Without room for a level, the error tells the limit and the position of the next token. -/
theorem checkNesting_of_le {c : Cursor} (h : v.maxNesting ≤ c.depth) :
    c.checkNesting v = .error (.nestingTooDeep v.maxNesting c.position) :=
  if_pos h

end Cursor

end RecordQuery
