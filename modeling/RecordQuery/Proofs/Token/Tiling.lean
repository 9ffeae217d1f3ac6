/-
  RecordQuery.Proofs.Token.Tiling

  The tokens of a text tile it. Asking a scanner again and again gives the tokens one behind the
  other; each takes the characters that spell it, as many as can, and what is left between them is
  whitespace.
-/

import Mathlib.Logic.Function.Iterate
import RecordQuery.Proofs.Except
import RecordQuery.Proofs.Token.Locality

namespace RecordQuery

/-! ## Escapes -/

namespace Text

/-- The characters stand for `content` once their escapes are read. -/
inductive Unescapes : List Char → List Char → Prop
  | nil : Unescapes [] []
  | escape {e c : Char} {cs content : List Char} (he : unescape? e = some c)
      (h : Unescapes cs content) : Unescapes ('\\' :: e :: cs) (c :: content)
  | plain {c : Char} {cs content : List Char} (hc : c ≠ '\\') (h : Unescapes cs content) :
      Unescapes (c :: cs) (c :: content)

/-- A quote stands among the characters that is not part of an escape: what is in front of it is
    complete by itself. -/
def HasBareQuote (quote : Char) (cs : List Char) : Prop :=
  ∃ before after content, cs = before ++ quote :: after ∧ Unescapes before content

end Text

open Text (Unescapes HasBareQuote)

/-- Behind its opening quote, a string is escaped content and the next quote that is not part of
    an escape. -/
theorem Scanner.IsBody.split {quote : Char} {b content : List Char} (h : IsBody quote b content)
    (hquote : quote ≠ '\\') :
    ∃ cs, b = cs ++ [quote] ∧ Unescapes cs content ∧ ¬ HasBareQuote quote cs := by
  induction h with
  | close =>
      refine ⟨[], rfl, .nil, ?_⟩
      rintro ⟨before, after, _, hcs, -⟩
      exact absurd hcs.symm (by simp)
  | @escaped e c b content he h ih =>
      obtain ⟨cs, rfl, hcs, hbare⟩ := ih
      refine ⟨'\\' :: e :: cs, rfl, .escape he hcs, ?_⟩
      -- In front of a bare quote the escape is complete, so the quote stands behind the escape.
      rintro ⟨before, after, more, heq, hbefore⟩
      cases hbefore with
      | nil => exact hquote (List.cons.inj heq).1.symm
      | escape he' hrest =>
          simp only [List.cons_append, List.cons.injEq, true_and] at heq
          exact hbare ⟨_, after, _, heq.2, hrest⟩
      | plain hc hrest => exact hc (List.cons.inj heq).1.symm
  | @plain c b content hc hne h ih =>
      obtain ⟨cs, rfl, hcs, hbare⟩ := ih
      refine ⟨c :: cs, rfl, .plain hc hcs, ?_⟩
      rintro ⟨before, after, more, heq, hbefore⟩
      cases hbefore with
      | nil => exact hne (List.cons.inj heq).1
      | escape he' hrest => exact hc (List.cons.inj heq).1
      | plain hc' hrest => exact hbare ⟨_, after, _, (List.cons.inj heq).2, hrest⟩

/-! ## Spellings -/

/-- The ways to write a token that is no word, no string and not the end of the text. -/
def Token.spellings : Token → List (List Char)
  | .equal => [['='], ['=', '=']]
  | .notEqual => [['!', '=']]
  | .less => [['<']]
  | .greater => [['>']]
  | .lessEqual => [['<', '=']]
  | .greaterEqual => [['>', '=']]
  | .openParen => [['(']]
  | .closeParen => [[')']]
  | .comma => [[',']]
  | .word _ | .literal _ | .endOfText => []

/-- The characters spell the token in front of `after`: they are all that belongs to it. -/
def Token.Fits (chars after : List Char) : Token → Prop
  | .word w => IsWord w ∧ chars = w.toList ∧ ∀ c ∈ after.head?, isWordChar c = false
  | .literal content => ∃ quote ∈ ['"', '\''], ∃ cs, chars = quote :: (cs ++ [quote]) ∧
      Unescapes cs content.toList ∧ ¬ HasBareQuote quote cs
  | .endOfText => chars = [] ∧ after = []
  | t => chars ∈ t.spellings ∧
      ∀ (u : Token), ∀ longer ∈ u.spellings, longer <+: chars ++ after → longer.length ≤ chars.length

/-- A spelling has one character, or an equals sign for its second. -/
theorem Token.spelling_cases {t : Token} {cs : List Char} (h : cs ∈ t.spellings) :
    cs.length = 1 ∨ ∃ c ∈ ['=', '!', '<', '>'], cs = [c, '='] := by
  cases t <;> simp [spellings] at h <;> try rcases h with rfl | rfl
  all_goals simp_all

/-- No spelling is longer than a character in front of something else than an equals sign. -/
theorem Token.spelling_one {c : Char} {after : List Char}
    (h : c ∈ ['=', '!', '<', '>'] → ∀ rest, after = '=' :: rest → False) (t : Token) :
    ∀ longer ∈ t.spellings, longer <+: [c] ++ after → longer.length ≤ [c].length := by
  intro longer hlonger hprefix
  obtain hone | ⟨d, hd, rfl⟩ := spelling_cases hlonger
  · exact hone.le
  · obtain ⟨rest, hrest⟩ := hprefix
    simp only [List.cons_append, List.nil_append, List.cons.injEq] at hrest
    obtain ⟨rfl, hafter⟩ := hrest
    exact (h hd rest hafter.symm).elim

/-- A sign of two characters is the longest sign that stands there. -/
theorem Token.spelling_two {c d : Char} {after : List Char} (t : Token) :
    ∀ longer ∈ t.spellings, longer <+: [c, d] ++ after → longer.length ≤ [c, d].length := by
  intro longer hlonger _
  obtain hone | ⟨e, -, rfl⟩ := spelling_cases hlonger
  · simp [hone]
  · rfl

namespace Scanner

/-- A token that is read takes the characters that spell it and no others. -/
theorem fits_of_read {cs : List Char} {t : Token} {n : Nat} (h : read cs = .token t n) :
    t.Fits (cs.take n) (cs.drop n) := by
  have hread := h
  unfold read at h
  split at h
  case h_1 =>
    cases h
    exact ⟨rfl, rfl⟩
  -- The tokens that end by themselves.
  case h_2 | h_3 | h_4 =>
    cases h
    exact ⟨.head _, Token.spelling_one fun hc => absurd hc (by decide)⟩
  case h_7 | h_9 | h_11 =>
    cases h
    exact ⟨.head _, Token.spelling_two⟩
  case h_5 =>
    cases h
    exact ⟨.tail _ (.head _), Token.spelling_two⟩
  -- The operators that an equals sign would make longer.
  case h_6 hne | h_10 hne | h_12 hne =>
    cases h
    exact ⟨.head _, Token.spelling_one fun _ => hne⟩
  case h_8 => cases h
  case h_13 | h_14 =>
    obtain ⟨b, after, content, rfl, rfl, hb, rfl⟩ := isBody_of_reading h
    obtain ⟨cs, rfl, hcs⟩ := hb.split (by decide)
    rw [List.take_succ_cons, List.take_left, Token.Fits, String.toList_ofList]
    exact ⟨_, by decide, cs, rfl, hcs⟩
  case h_15 c rest _ _ _ _ _ _ _ _ _ _ _ _ _ =>
    split at h
    next hc =>
      cases h
      have htake : (rest.takeWhile isWordChar ++ rest.dropWhile isWordChar).take
          (rest.takeWhile isWordChar).length = rest.takeWhile isWordChar := List.take_left
      have hdrop : (rest.takeWhile isWordChar ++ rest.dropWhile isWordChar).drop
          (rest.takeWhile isWordChar).length = rest.dropWhile isWordChar := List.drop_left
      rw [List.takeWhile_append_dropWhile] at htake hdrop
      refine ⟨isWord_of_read hread, ?_, ?_⟩
      · rw [String.toList_ofList, List.length_cons, List.take_succ_cons, htake]
      · rw [List.length_cons, List.drop_succ_cons, hdrop]
        intro d hd
        have hend := List.head?_dropWhile_not isWordChar rest
        rwa [Option.mem_def.mp hd] at hend
    next => cases h

/-- Between a scanner and the one behind its next token stand whitespace and the characters of that
    token. -/
theorem span_of_next {s s' : Scanner} {l : Lexeme} (h : s.next = (.ok l, s')) :
    ∃ ws b, s.rest = ws ++ (b ++ s'.rest) ∧ (∀ c ∈ ws, Unicode.isWhiteSpace c = true) ∧
      l.token.Fits b s'.rest ∧ l.start = s.position.after ws ∧ s'.position = l.start.after b := by
  rw [next, skipSpace_eq, take] at h
  split at h <;> simp only [Prod.mk.injEq, reduceCtorEq, false_and, Except.ok.injEq] at h
  next t n hread =>
    obtain ⟨rfl, rfl⟩ := h
    refine ⟨_, _, ?_, fun c hc => List.mem_takeWhile_imp hc, fits_of_read hread, rfl, rfl⟩
    rw [skip, List.take_append_drop, List.takeWhile_append_dropWhile]

/-- The scanner after `k` more calls for a token. -/
def calls (s : Scanner) (k : Nat) : Scanner :=
  (fun s => s.next.2)^[k] s

@[simp] theorem calls_zero (s : Scanner) : s.calls 0 = s := rfl

theorem calls_succ (s : Scanner) (k : Nat) : s.calls (k + 1) = s.next.2.calls k := rfl

/-- Calling once more is calling from where the calls before have led. -/
theorem calls_succ_eq_next (s : Scanner) (k : Nat) : s.calls (k + 1) = (s.calls k).next.2 :=
  Function.iterate_succ_apply' _ k s

end Scanner

/-! ## Spans -/

/-- A token of a text with the characters that it takes: those from its start up to the position
    behind it. -/
structure Span where
  lexeme : Lexeme
  behind : Position
deriving DecidableEq, Repr

namespace Span

/-- The character with the index `i` belongs to the token. -/
def Covers (span : Span) (i : Nat) : Prop :=
  span.lexeme.start.offset ≤ i ∧ i < span.behind.offset

/-- The characters of the token. -/
def chars (span : Span) (cs : List Char) : List Char :=
  (cs.take span.behind.offset).drop span.lexeme.start.offset

/-- The characters behind the token. -/
def after (span : Span) (cs : List Char) : List Char :=
  cs.drop span.behind.offset

end Span

/-- The spans tile the text: they are what call after call gives, they stand in order and do not
    overlap, the characters between them are whitespace, each holds the characters that spell its
    token, and the end of the text is the last of them and no other. -/
structure Tiling (text : String) (spans : List Span) : Prop where
  calls (k : Nat) (span : Span) (h : spans[k]? = some span) :
    ((Scanner.ofText text).calls k).next = (.ok span.lexeme, (Scanner.ofText text).calls (k + 1)) ∧
      ((Scanner.ofText text).calls (k + 1)).position = span.behind
  inside : ∀ span ∈ spans, span.lexeme.start.offset ≤ span.behind.offset ∧
    span.behind.offset ≤ text.toList.length
  ordered : spans.Pairwise fun a b => a.behind.offset ≤ b.lexeme.start.offset
  gaps (i : Nat) (c : Char) (hc : text.toList[i]? = some c)
    (h : ∀ span ∈ spans, ¬ span.Covers i) : Unicode.isWhiteSpace c = true
  fits : ∀ span ∈ spans, span.lexeme.token.Fits (span.chars text.toList) (span.after text.toList)
  ending : ∃ before p, spans = before ++ [⟨⟨.endOfText, p⟩, p⟩] ∧
    p.offset = text.toList.length ∧ ∀ span ∈ before, span.lexeme.token ≠ .endOfText

/-- What a scanner gives, call after call, up to the end of the text. -/
inductive Scanner.Tiles : Scanner → List Span → Prop
  | last {s s' : Scanner} {l : Lexeme} (h : s.next = (.ok l, s')) (hl : l.token = .endOfText) :
      Tiles s [⟨l, s'.position⟩]
  | cons {s s' : Scanner} {l : Lexeme} {spans : List Span} (h : s.next = (.ok l, s'))
      (hl : l.token ≠ .endOfText) (more : Tiles s' spans) : Tiles s (⟨l, s'.position⟩ :: spans)

namespace Scanner

/-- A scanner that reaches the end of the text has left spans that tile what is in front of it. -/
theorem exists_tiles (s : Scanner) (h : ∃ p, s.lexed.ending = .ok p) :
    ∃ spans, s.Tiles spans ∧ spans.map (·.lexeme) = s.lexed.stream := by
  induction s using lexed.induct with
  | case1 s e s' hs =>
      rw [lexed_of_error hs] at h
      obtain ⟨p, hp⟩ := h
      cases hp
  | case2 s l s' hs hl => exact ⟨_, .last hs hl, by rw [stream_of_end hs hl]; rfl⟩
  | case3 s l s' hs hl ih =>
      rw [lexed_of_token hs hl] at h
      obtain ⟨spans, hspans, hlexemes⟩ := ih h
      refine ⟨_, .cons hs hl hspans, ?_⟩
      rw [stream_of_token hs hl, List.map_cons, hlexemes]

/-- The scanner stands in the text of which `cs` are the characters. -/
def StandsIn (s : Scanner) (cs : List Char) : Prop :=
  ∃ before, cs = before ++ s.rest ∧ s.position.offset = before.length

/-- The characters of a text around its next token. -/
theorem StandsIn.next {s s' : Scanner} {l : Lexeme} {cs : List Char} (hs : s.StandsIn cs)
    (h : s.next = (.ok l, s')) :
    ∃ before ws b, cs = before ++ (ws ++ (b ++ s'.rest)) ∧ s.position.offset = before.length ∧
      l.start.offset = (before ++ ws).length ∧ s'.position.offset = (before ++ ws ++ b).length ∧
      (∀ c ∈ ws, Unicode.isWhiteSpace c = true) ∧ l.token.Fits b s'.rest := by
  obtain ⟨before, rfl, hoffset⟩ := hs
  obtain ⟨ws, b, hrest, hws, hfits, hstart, hbehind⟩ := span_of_next h
  refine ⟨before, ws, b, by rw [hrest], hoffset, ?_, ?_, hws, hfits⟩
  · rw [hstart, Position.offset_after, hoffset, List.length_append]
  · rw [hbehind, Position.offset_after, hstart, Position.offset_after, hoffset, List.length_append,
      List.length_append]

/-- A call leads from one place in the text to another. -/
theorem StandsIn.step {s s' : Scanner} {l : Lexeme} {cs : List Char} (hs : s.StandsIn cs)
    (h : s.next = (.ok l, s')) : s'.StandsIn cs := by
  obtain ⟨before, ws, b, hcs, -, -, hbehind, -, -⟩ := hs.next h
  exact ⟨before ++ ws ++ b, by simpa using hcs, hbehind⟩

/-- What one call takes from the text: a token in order, its characters, and whitespace in front of
    it. -/
theorem StandsIn.span {s s' : Scanner} {l : Lexeme} {cs : List Char} (hs : s.StandsIn cs)
    (h : s.next = (.ok l, s')) :
    s.position.offset ≤ l.start.offset ∧ l.start.offset ≤ s'.position.offset ∧
      s'.position.offset ≤ cs.length ∧
      l.token.Fits (Span.chars ⟨l, s'.position⟩ cs) (Span.after ⟨l, s'.position⟩ cs) ∧
      ∀ i c, cs[i]? = some c → s.position.offset ≤ i → i < l.start.offset →
        Unicode.isWhiteSpace c = true := by
  obtain ⟨before, ws, b, rfl, hoffset, hstart, hbehind, hws, hfits⟩ := hs.next h
  have hassoc : before ++ (ws ++ (b ++ s'.rest)) = before ++ ws ++ b ++ s'.rest := by
    simp only [List.append_assoc]
  refine ⟨?_, ?_, ?_, ?_, ?_⟩
  · simp [hoffset, hstart]
  · simp [hstart, hbehind]
  · simp [hbehind]
  · rw [Span.chars, Span.after, hbehind, hstart, hassoc, List.take_left, List.drop_left,
      List.drop_left]
    exact hfits
  · intro i c hc hle hlt
    rw [hoffset] at hle
    rw [hstart, List.length_append] at hlt
    rw [List.getElem?_append_right hle, List.getElem?_append_left (by omega)] at hc
    exact hws c (List.mem_of_getElem? hc)

/-- The end of the text is given where the text ends, and takes nothing from it. -/
theorem StandsIn.endOfText {s s' : Scanner} {l : Lexeme} {cs : List Char} (hs : s.StandsIn cs)
    (h : s.next = (.ok l, s')) (hl : l.token = .endOfText) :
    l.start = s'.position ∧ l.start.offset = cs.length := by
  obtain ⟨before, rfl, hoffset⟩ := hs
  obtain ⟨ws, b, hrest, -, hfits, hstart, hbehind⟩ := span_of_next h
  rw [hl] at hfits
  obtain ⟨rfl, hnil⟩ := hfits
  refine ⟨hbehind.symm, ?_⟩
  rw [hstart, Position.offset_after, hoffset, hrest, hnil]
  simp

namespace Tiles

variable {s : Scanner} {spans : List Span} {cs : List Char}

/-- The lexeme of a span comes from the call with its number, and the next call starts behind it. -/
theorem calls (h : s.Tiles spans) {k : Nat} {span : Span} (hk : spans[k]? = some span) :
    (s.calls k).next = (.ok span.lexeme, s.calls (k + 1)) ∧
      (s.calls (k + 1)).position = span.behind := by
  induction h generalizing k with
  | @last s s' l h hl =>
      cases k with
      | zero =>
          cases hk
          exact ⟨by rw [calls_succ, h]; exact h, by rw [calls_succ, h]; rfl⟩
      | succ k => cases hk
  | @cons s s' l spans h hl more ih =>
      cases k with
      | zero =>
          cases hk
          exact ⟨by rw [calls_succ, h]; exact h, by rw [calls_succ, h]; rfl⟩
      | succ k =>
          rw [calls_succ, calls_succ, h]
          exact ih hk

/-- Spans lie inside of the text. -/
theorem inside (h : s.Tiles spans) (hs : s.StandsIn cs) :
    ∀ span ∈ spans, s.position.offset ≤ span.lexeme.start.offset ∧
      span.lexeme.start.offset ≤ span.behind.offset ∧ span.behind.offset ≤ cs.length := by
  induction h with
  | last h hl =>
      obtain ⟨hle, hlt, hend, -, -⟩ := hs.span h
      exact List.forall_mem_singleton.mpr ⟨hle, hlt, hend⟩
  | cons h hl more ih =>
      obtain ⟨hle, hlt, hend, -, -⟩ := hs.span h
      refine List.forall_mem_cons.mpr ⟨⟨hle, hlt, hend⟩, fun span hspan => ?_⟩
      obtain ⟨hle', hlt', hend'⟩ := ih (hs.step h) span hspan
      exact ⟨(hle.trans hlt).trans hle', hlt', hend'⟩

/-- Spans lie one behind the other. -/
theorem ordered (h : s.Tiles spans) (hs : s.StandsIn cs) :
    spans.Pairwise fun a b => a.behind.offset ≤ b.lexeme.start.offset := by
  induction h with
  | last h hl => exact List.pairwise_singleton _ _
  | cons h hl more ih =>
      have hs' := hs.step h
      exact List.pairwise_cons.mpr ⟨fun span hspan => (more.inside hs' span hspan).1, ih hs'⟩

/-- The characters of a span spell its token, and what stands behind it does not make them longer.
    -/
theorem fits (h : s.Tiles spans) (hs : s.StandsIn cs) :
    ∀ span ∈ spans, span.lexeme.token.Fits (span.chars cs) (span.after cs) := by
  induction h with
  | last h hl => exact List.forall_mem_singleton.mpr (hs.span h).2.2.2.1
  | cons h hl more ih => exact List.forall_mem_cons.mpr ⟨(hs.span h).2.2.2.1, ih (hs.step h)⟩

/-- What no span covers is whitespace. -/
theorem gaps (h : s.Tiles spans) (hs : s.StandsIn cs) {i : Nat} {c : Char}
    (hc : cs[i]? = some c) (hi : s.position.offset ≤ i) (hnone : ∀ span ∈ spans, ¬ span.Covers i) :
    Unicode.isWhiteSpace c = true := by
  induction h with
  | last h hl =>
      obtain ⟨hlt, -⟩ := List.getElem?_eq_some_iff.mp hc
      have hend := (hs.endOfText h hl).2
      exact (hs.span h).2.2.2.2 i c hc hi (by omega)
  | @cons s s' l spans h hl more ih =>
      obtain ⟨hfirst, hmore⟩ := List.forall_mem_cons.mp hnone
      by_cases hstart : i < l.start.offset
      · exact (hs.span h).2.2.2.2 i c hc hi hstart
      · have hbehind : s'.position.offset ≤ i := by
          by_contra hlt
          exact hfirst ⟨Nat.not_lt.mp hstart, Nat.not_le.mp hlt⟩
        exact ih (hs.step h) hbehind hmore

/-- The last span is that of the end of the text, and no other one is. -/
theorem ending (h : s.Tiles spans) (hs : s.StandsIn cs) :
    ∃ before p, spans = before ++ [⟨⟨.endOfText, p⟩, p⟩] ∧ p.offset = cs.length ∧
      ∀ span ∈ before, span.lexeme.token ≠ .endOfText := by
  induction h with
  | @last s s' l h hl =>
      obtain ⟨hbehind, hend⟩ := hs.endOfText h hl
      refine ⟨[], l.start, ?_, hend, by simp⟩
      rw [← hbehind, ← hl]
      rfl
  | cons h hl more ih =>
      obtain ⟨before, p, rfl, hp, hbefore⟩ := ih (hs.step h)
      exact ⟨_ :: before, p, rfl, hp, List.forall_mem_cons.mpr ⟨hl, hbefore⟩⟩

end Tiles

end Scanner

/-- The tokens of a text tile it. -/
theorem tokens_tile_text {text : String} {ts : List Token} (h : tokenize text = .ok ts) :
    ∃ spans, Tiling text spans ∧ spans.map (·.lexeme.token) = ts := by
  obtain ⟨htokens, hend⟩ := tokenize_eq_ok_iff_stream.mp h
  obtain ⟨spans, hspans, hlexemes⟩ := (Scanner.ofText text).exists_tiles hend
  have hs : (Scanner.ofText text).StandsIn text.toList := ⟨[], rfl, rfl⟩
  refine ⟨spans, ?_, ?_⟩
  · exact {
      calls := fun _ _ hk => hspans.calls hk
      inside := fun span hspan => (hspans.inside hs span hspan).2
      ordered := hspans.ordered hs
      gaps := fun _ _ hc hnone => hspans.gaps hs hc (Nat.zero_le _) hnone
      fits := hspans.fits hs
      ending := hspans.ending hs }
  · rw [← htokens, lex, ← hlexemes, List.map_map]
    rfl

/-- An operator, an escaped quote and whitespace at both ends. -/
theorem escaped_quote_tiled :
    ∃ spans, Tiling " a=='it\\'s' " spans ∧
      spans.map (·.lexeme.token) = [.word "a", .equal, .literal "it's", .endOfText] :=
  tokens_tile_text (eq_ok_of_toOption (by decide +kernel))

end RecordQuery
