/-
  RecordQuery.Proofs.Token.Locality

  Scanning is local. A token is read from its own characters and from nothing of what follows but
  whether that goes on with a word character or an equals sign, so one string of a text can be
  exchanged for another without any other token becoming a different one.
-/

import RecordQuery.Proofs.Token.Stream

namespace RecordQuery

/-- What follows a token decides about it in the same way. -/
structure SameEdge (cs ds : List Char) : Prop where
  word : cs.head?.any isWordChar = ds.head?.any isWordChar
  equal : cs.head?.any (· == '=') = ds.head?.any (· == '=')

/-- Two texts that break tokens off do it alike. -/
theorem Breaks.sameEdge {cs ds : List Char} (h : Breaks cs) (h' : Breaks ds) : SameEdge cs ds := by
  have hfalse {es : List Char} (h : Breaks es) :
      es.head?.any isWordChar = false ∧ es.head?.any (· == '=') = false := by
    cases es with
    | nil => exact ⟨rfl, rfl⟩
    | cons e es => simpa using h e rfl
  exact ⟨(hfalse h).1.trans (hfalse h').1.symm, (hfalse h).2.trans (hfalse h').2.symm⟩

theorem SameEdge.not_equal {cs ds : List Char} (h : SameEdge cs ds)
    (hcs : ∀ tail, cs = '=' :: tail → False) : ∀ tail, ds = '=' :: tail → False := by
  rintro tail rfl
  have hequal := h.equal
  cases cs with
  | nil => cases hequal
  | cons c cs =>
      obtain rfl : c = '=' := by simpa using hequal
      exact hcs cs rfl

namespace Scanner

/-! ## One token -/

/-- The characters of a string behind its opening quote, with the content that they stand for. -/
inductive IsBody (quote : Char) : List Char → List Char → Prop
  | close : IsBody quote [quote] []
  | escaped {e c : Char} {b content : List Char} (he : Text.unescape? e = some c)
      (h : IsBody quote b content) : IsBody quote ('\\' :: e :: b) (c :: content)
  | plain {c : Char} {b content : List Char} (hc : c ≠ '\\') (hquote : c ≠ quote)
      (h : IsBody quote b content) : IsBody quote (c :: b) (c :: content)

/-- The content of a string is read up to its closing quote, whatever stands behind it. -/
theorem IsBody.readBody {quote : Char} {b content : List Char} (h : IsBody quote b content)
    (hquote : quote ≠ '\\') (cs : List Char) :
    readBody quote (b ++ cs) = .closed content b.length := by
  induction h with
  | close =>
      rw [List.singleton_append, readBody.eq_4 _ _ _ (fun h => absurd h hquote)
        (fun _ _ h => absurd h hquote), if_pos rfl]
      rfl
  | escaped he h ih =>
      rw [List.cons_append, List.cons_append, readBody.eq_3, he, ih]
      rfl
  | plain hc hne h ih =>
      rw [List.cons_append, readBody.eq_4 _ _ _ (fun h => absurd h hc) (fun _ _ h => absurd h hc),
        if_neg hne, ih]
      rfl

theorem closed_of_prepend {c : Char} {k n : Nat} {body : Body} {content : List Char}
    (h : body.prepend c k = .closed content n) :
    ∃ rest m, body = .closed rest m ∧ content = c :: rest ∧ n = m + k := by
  cases body with
  | closed rest m =>
      simp only [Body.prepend, Body.closed.injEq] at h
      exact ⟨rest, m, rfl, h.1.symm, h.2.symm⟩
  | badEscape e m => cases h
  | unclosed => cases h

/-- A string that is read to its end had its content in front of the closing quote. -/
theorem isBody_of_readBody {quote : Char} (cs : List Char) :
    ∀ content n, readBody quote cs = .closed content n →
      ∃ b ds, cs = b ++ ds ∧ b.length = n ∧ IsBody quote b content := by
  induction cs using readBody.induct quote with
  | case1 => intro _ _ h; cases h
  | case2 => intro _ _ h; cases h
  | case3 e rest c he ih =>
      intro content n h
      rw [readBody.eq_3, he] at h
      obtain ⟨content, m, hbody, rfl, rfl⟩ := closed_of_prepend h
      obtain ⟨b, ds, rfl, rfl, hb⟩ := ih _ _ hbody
      exact ⟨'\\' :: e :: b, ds, rfl, rfl, .escaped he hb⟩
  | case4 e rest he =>
      intro content n h
      rw [readBody.eq_3, he] at h
      cases h
  | case5 rest h₁ h₂ =>
      intro content n h
      rw [readBody.eq_4 _ _ _ h₁ h₂, if_pos rfl] at h
      cases h
      exact ⟨[quote], rest, rfl, rfl, .close⟩
  | case6 c rest h₁ h₂ hne ih =>
      intro content n h
      rw [readBody.eq_4 _ _ _ h₁ h₂, if_neg hne] at h
      obtain ⟨content, m, hbody, rfl, rfl⟩ := closed_of_prepend h
      obtain ⟨b, ds, rfl, rfl, hb⟩ := ih _ _ hbody
      refine ⟨c :: b, ds, rfl, rfl, .plain ?_ hne hb⟩
      -- A backslash in front of anything is read with what follows it.
      rintro rfl
      cases hbs : b ++ ds with
      | nil => exact h₁ rfl hbs
      | cons e es => exact h₂ e es rfl hbs

/-- A string, opening quote included, is read up to its closing quote and no further. -/
theorem isBody_of_reading {quote : Char} {cs : List Char} {t : Token} {n : Nat}
    (h : (readBody quote cs).reading = .token t n) :
    ∃ b ds content, cs = b ++ ds ∧ b.length + 1 = n ∧ IsBody quote b content ∧
      t = .literal (String.ofList content) := by
  cases hbody : readBody quote cs with
  | closed content m =>
      rw [hbody] at h
      simp only [Body.reading, Reading.token.injEq] at h
      obtain ⟨b, ds, hcs, rfl, hb⟩ := isBody_of_readBody cs _ _ hbody
      exact ⟨b, ds, content, hcs, h.2, hb, h.1.symm⟩
  | badEscape e m =>
      rw [hbody] at h
      cases h
  | unclosed =>
      rw [hbody] at h
      cases h

/-- A token takes no more characters than there are, and is read from them again in front of other
    characters that decide about it in the same way. -/
theorem read_local {cs : List Char} {t : Token} {n : Nat} (h : read cs = .token t n)
    (ht : t ≠ .endOfText) :
    ∃ b rest, cs = b ++ rest ∧ b.length = n ∧
      ∀ ds, SameEdge rest ds → read (b ++ ds) = .token t n := by
  unfold read at h
  split at h
  -- The tokens that end by themselves.
  case h_2 | h_3 | h_4 =>
    cases h
    exact ⟨[_], _, rfl, rfl, fun ds _ => rfl⟩
  case h_5 | h_7 | h_9 | h_11 =>
    cases h
    exact ⟨[_, _], _, rfl, rfl, fun ds _ => rfl⟩
  -- The operators that an equals sign would make longer.
  case h_6 rest hne =>
    cases h
    exact ⟨[_], rest, rfl, rfl, fun ds hds => read.eq_6 ds (hds.not_equal hne)⟩
  case h_10 rest hne =>
    cases h
    exact ⟨[_], rest, rfl, rfl, fun ds hds => read.eq_10 ds (hds.not_equal hne)⟩
  case h_12 rest hne =>
    cases h
    exact ⟨[_], rest, rfl, rfl, fun ds hds => read.eq_12 ds (hds.not_equal hne)⟩
  case h_13 rest =>
    obtain ⟨b, ds, content, rfl, rfl, hb, rfl⟩ := isBody_of_reading h
    refine ⟨'"' :: b, ds, rfl, rfl, fun es _ => ?_⟩
    rw [List.cons_append, read, hb.readBody (by decide)]
    rfl
  case h_14 rest =>
    obtain ⟨b, ds, content, rfl, rfl, hb, rfl⟩ := isBody_of_reading h
    refine ⟨'\'' :: b, ds, rfl, rfl, fun es _ => ?_⟩
    rw [List.cons_append, read, hb.readBody (by decide)]
    rfl
  case h_15 c rest _ _ _ _ _ _ _ _ _ _ _ _ _ =>
    split at h
    next hc =>
      cases h
      refine ⟨c :: rest.takeWhile isWordChar, rest.dropWhile isWordChar, ?_, rfl, fun ds hds => ?_⟩
      · rw [List.cons_append, List.takeWhile_append_dropWhile]
      -- The word ends in front of `ds` because it ended in front of what stood there.
      have hnone : ds.takeWhile isWordChar = [] := by
        have hend := List.head?_dropWhile_not isWordChar rest
        have hword := hds.word
        cases ds with
        | nil => rfl
        | cons d ds => cases hd : (rest.dropWhile isWordChar).head? <;> simp_all
      have htake : (rest.takeWhile isWordChar ++ ds).takeWhile isWordChar =
          rest.takeWhile isWordChar := by
        rw [List.takeWhile_append_of_pos fun d hd => List.mem_takeWhile_imp hd, hnone,
          List.append_nil]
      rw [List.cons_append, read_word hc, htake]
    next => cases h
  -- The end of the text is none of the tokens in question, and the other readings are errors.
  case h_1 =>
    cases h
    exact absurd rfl ht
  case h_8 => cases h

/-- Strings are opened by one of the two quotes. -/
theorem breaks_of_read_literal {cs : List Char} {content : String} {n : Nat}
    (h : read cs = .token (.literal content) n) :
    Breaks cs ∧ ∀ c ∈ cs.head?, Unicode.isWhiteSpace c = false := by
  unfold read at h
  split at h
  case h_13 => exact ⟨by rintro c ⟨⟩; decide, by rintro c ⟨⟩; decide⟩
  case h_14 => exact ⟨by rintro c ⟨⟩; decide, by rintro c ⟨⟩; decide⟩
  case h_15 => split at h <;> cases h
  all_goals cases h

/-- Only the end of the text is read as such. -/
theorem eq_nil_of_read_end {cs : List Char} {n : Nat} (h : read cs = .token .endOfText n) :
    cs = [] := by
  unfold read at h
  split at h
  case h_1 => rfl
  case h_13 rest => cases hb : readBody '"' rest <;> simp [hb, Body.reading] at h
  case h_14 rest => cases hb : readBody '\'' rest <;> simp [hb, Body.reading] at h
  case h_15 => split at h <;> cases h
  all_goals cases h

/-! ## The next token -/

/-- Characters that are skipped move the position behind them. -/
theorem skip_append (ws cs : List Char) (p : Position) :
    skip ⟨ws ++ cs, p⟩ ws.length = ⟨cs, p.after ws⟩ := by
  simp [skip]

/-- All whitespace at the front is skipped, and nothing else. -/
theorem skipSpace_eq (s : Scanner) :
    s.skipSpace = ⟨s.rest.dropWhile Unicode.isWhiteSpace,
      s.position.after (s.rest.takeWhile Unicode.isWhiteSpace)⟩ := by
  have hskip := skip_append (s.rest.takeWhile Unicode.isWhiteSpace)
    (s.rest.dropWhile Unicode.isWhiteSpace) s.position
  rw [List.takeWhile_append_dropWhile] at hskip
  exact hskip

/-- In front of the next token stands whitespace, and behind it the scanner that goes on. -/
theorem next_split {s s' : Scanner} {l : Lexeme} (h : s.next = (.ok l, s'))
    (hl : l.token ≠ .endOfText) :
    ∃ ws b, s.rest = ws ++ (b ++ s'.rest) ∧ (∀ c ∈ ws, Unicode.isWhiteSpace c = true) ∧
      (∀ c ∈ b.head?, Unicode.isWhiteSpace c = false) ∧ b ≠ [] ∧
      (∀ ds, SameEdge s'.rest ds → read (b ++ ds) = .token l.token b.length) ∧
      l.start = s.position.after ws ∧ s'.position = l.start.after b := by
  have hspace := List.head?_dropWhile_not Unicode.isWhiteSpace s.rest
  have hrest : s.rest.takeWhile Unicode.isWhiteSpace ++ s.rest.dropWhile Unicode.isWhiteSpace =
    s.rest := List.takeWhile_append_dropWhile
  rw [next, skipSpace_eq, take] at h
  dsimp only at h
  split at h <;> simp only [Prod.mk.injEq, reduceCtorEq, false_and, Except.ok.injEq] at h
  next t n hread =>
    obtain ⟨rfl, rfl⟩ := h
    obtain ⟨b, cs, hcs, rfl, hlocal⟩ := read_local hread hl
    have hb : b ≠ [] := List.length_pos_iff.mp (read_length hread hl).1
    rw [hcs, skip_append]
    refine ⟨_, b, by rw [← hcs, hrest], fun c hc => List.mem_takeWhile_imp hc, ?_, hb, hlocal, rfl,
      rfl⟩
    cases b with
    | nil => exact absurd rfl hb
    | cons d b =>
        rintro c ⟨⟩
        rw [hcs] at hspace
        exact hspace

end Scanner

/-! ## Texts -/

namespace Scans

/-- A token is scanned in front of others if it is read to where they start. -/
theorem cons_token {b ds : List Char} {t : Token} {ts : List Token} (h : Scans ds ts)
    (hb : b ≠ []) (hspace : ∀ c ∈ b.head?, Unicode.isWhiteSpace c = false)
    (hread : Scanner.read (b ++ ds) = .token t b.length) (ht : t ≠ .endOfText) :
    Scans (b ++ ds) (t :: ts) := by
  cases b with
  | nil => exact absurd rfl hb
  | cons c cs => exact h.token hread ht (hspace c rfl)

end Scans

/-- The characters are whitespace and tokens in turn: the tokens `ts`, one behind the other. -/
inductive Layout : List Char → List Token → Prop
  | blank {ws : List Char} (hws : ∀ c ∈ ws, Unicode.isWhiteSpace c = true) : Layout ws []
  | token {ws b rest : List Char} {t : Token} {ts : List Token}
      (hws : ∀ c ∈ ws, Unicode.isWhiteSpace c = true) (hb : b ≠ [])
      (hspace : ∀ c ∈ b.head?, Unicode.isWhiteSpace c = false)
      (hread : ∀ ds, SameEdge rest ds → Scanner.read (b ++ ds) = .token t b.length)
      (ht : t ≠ .endOfText) (more : Layout rest ts) : Layout (ws ++ (b ++ rest)) (t :: ts)

/-- A layout of tokens is scanned as them. -/
theorem Layout.scans {cs : List Char} {ts : List Token} (h : Layout cs ts) : Scans cs ts := by
  induction h with
  | @blank ws hws => simpa using Scans.nil.whiteSpace hws
  | token hws hb hspace hread ht more ih =>
      exact (ih.cons_token hb hspace (hread _ ⟨rfl, rfl⟩) ht).whiteSpace hws

/-- What is scanned to the end has a layout. -/
theorem Scanner.layout (s : Scanner) (h : ∃ p, s.lexed.ending = .ok p) :
    Layout s.rest (s.lexed.lexemes.map (·.token)) := by
  induction s using lexed.induct with
  | case1 s e s' hs =>
      rw [lexed_of_error hs] at h
      obtain ⟨p, hp⟩ := h
      cases hp
  | case2 s l s' hs hl =>
      obtain ⟨n, hread⟩ := read_of_next hs
      have hnil := eq_nil_of_read_end (hl ▸ hread)
      rw [skipSpace_eq] at hnil
      rw [lexed_of_end hs hl]
      exact .blank (List.dropWhile_eq_nil_iff.mp hnil)
  | case3 s l s' hs hl ih =>
      obtain ⟨ws, b, hrest, hws, hspace, hb, hread, -, -⟩ := next_split hs hl
      rw [lexed_of_token hs hl] at h ⊢
      rw [hrest]
      exact .token hws hb hspace hread hl (ih h)

namespace Scans

/-- What is scanned somewhere is scanned wherever it stands. -/
theorem of_lexed (s : Scanner) (h : ∃ p, s.lexed.ending = .ok p) :
    Scans s.rest (s.lexed.lexemes.map (·.token)) :=
  (s.layout h).scans

theorem layout {cs : List Char} {ts : List Token} (h : Scans cs ts) : Layout cs ts := by
  obtain ⟨rfl, hend⟩ := h .start
  exact Scanner.layout ⟨cs, .start⟩ hend

end Scans

theorem mem_stream_of_mem {lexed : Lexed} {l : Lexeme} (h : l ∈ lexed.lexemes) :
    l ∈ lexed.stream := by
  rw [Lexed.stream]
  cases lexed.ending with
  | ok p => exact List.mem_append_left _ h
  | error e => exact h

/-! ## One string in a text -/

/-- The characters `chars` of a text, between `before` and `after`, are scanned as a string. -/
structure LiteralAt (text : String) (before chars after : List Char) (content : String) : Prop where
  text_eq : text.toList = before ++ (chars ++ after)
  lexeme : ⟨.literal content, Position.start.after before⟩ ∈ (lex text).lexemes
  read : Scanner.read (chars ++ after) = .token (.literal content) chars.length

/-- The characters of a string that a scanner meets. -/
theorem Scanner.exists_span {s : Scanner} {content : String} {p : Position}
    (h : ⟨.literal content, p⟩ ∈ s.lexed.lexemes) :
    ∃ before chars after, s.rest = before ++ (chars ++ after) ∧ p = s.position.after before ∧
      read (chars ++ after) = .token (.literal content) chars.length := by
  induction s using Scanner.lexed.induct with
  | case1 s e s' hs =>
      rw [lexed_of_error hs] at h
      simp at h
  | case2 s l s' hs hl =>
      rw [lexed_of_end hs hl] at h
      simp at h
  | case3 s l s' hs hl ih =>
      obtain ⟨ws, b, hsplit, -, -, -, hlocal, hstart, hnext⟩ := next_split hs hl
      rw [lexed_of_token hs hl] at h
      rcases List.mem_cons.mp h with rfl | hmem
      · exact ⟨ws, b, s'.rest, hsplit, hstart, hlocal _ ⟨rfl, rfl⟩⟩
      · obtain ⟨before, chars, after, hrest, hp, hread⟩ := ih hmem
        refine ⟨ws ++ b ++ before, chars, after, by simp [hsplit, hrest], ?_, hread⟩
        rw [hp, hnext, hstart, Position.after_append, Position.after_append]

/-- Every string of a text stands somewhere in it. -/
theorem exists_literalAt {text content : String} {p : Position}
    (h : ⟨.literal content, p⟩ ∈ (lex text).lexemes) :
    ∃ before chars after, p = Position.start.after before ∧
      LiteralAt text before chars after content := by
  obtain ⟨before, chars, after, htext, rfl, hread⟩ := Scanner.exists_span h
  exact ⟨before, chars, after, rfl, htext, h, hread⟩

/-- The text with the string `s` in the place of some of its characters. -/
def withLiteral (before : List Char) (s : String) (after : List Char) : String :=
  String.ofList (before ++ ((Text.quote s).toList ++ after))

/-- Around a string of a text, the tokens in front of it and behind it are what they are whatever
    string stands there. -/
theorem Scanner.scans_around {s : Scanner} {before chars after : List Char} {content : String}
    (hrest : s.rest = before ++ (chars ++ after))
    (hlexeme : ⟨.literal content, s.position.after before⟩ ∈ s.lexed.lexemes)
    (hread : read (chars ++ after) = .token (.literal content) chars.length)
    (hend : ∃ p, s.lexed.ending = .ok p) :
    ∃ us vs, s.lexed.lexemes.map (·.token) = us ++ .literal content :: vs ∧
      Scans after vs ∧
      ∀ cs zs, Breaks cs → (∀ c ∈ cs.head?, Unicode.isWhiteSpace c = false) → Scans cs zs →
        Scans (before ++ cs) (us ++ zs) := by
  induction s using Scanner.lexed.induct generalizing before with
  | case1 s e s' hs =>
      rw [lexed_of_error hs] at hlexeme
      simp at hlexeme
  | case2 s l s' hs hl =>
      rw [lexed_of_end hs hl] at hlexeme
      simp at hlexeme
  | case3 s l s' hs hl ih =>
      obtain ⟨ws, b, hsplit, hws, hspace, hb, hlocal, hstart, hnext⟩ := next_split hs hl
      rw [lexed_of_token hs hl] at hlexeme hend ⊢
      rcases List.mem_cons.mp hlexeme with heq | hmem
      · -- The string is the next token, so only whitespace stands in front of it.
        have hlen : before.length = ws.length := by
          have hoffset := congrArg (·.start.offset) heq
          simp only [hstart, Position.offset_after] at hoffset
          omega
        obtain ⟨rfl, hstring⟩ := List.append_inj (hrest.symm.trans hsplit) hlen
        have hread' := hlocal s'.rest ⟨rfl, rfl⟩
        rw [← hstring, hread, ← heq] at hread'
        obtain ⟨rfl, rfl⟩ := List.append_inj hstring (Reading.token.inj hread').2
        refine ⟨[], _, by rw [← heq]; rfl, .of_lexed s' hend, fun cs zs _ _ hcs => ?_⟩
        exact hcs.whiteSpace hws
      · -- The string stands behind the next token, which therefore ends in front of it.
        have hle : (ws ++ b).length ≤ before.length := by
          have hoffset := s'.stream_sorted.1 _ (mem_stream_of_mem hmem)
          simp only [hnext, hstart, Position.offset_after] at hoffset
          rw [List.length_append]
          omega
        obtain ⟨before, rfl⟩ : ws ++ b <+: before := by
          refine List.prefix_of_prefix_length_le (List.prefix_append _ s'.rest) ?_ hle
          rw [List.append_assoc, ← hsplit, hrest]
          exact List.prefix_append _ _
        have hrest' : s'.rest = before ++ (chars ++ after) := by
          rw [hsplit] at hrest
          simpa using hrest
        rw [Position.after_append, Position.after_append, ← hstart, ← hnext] at hmem
        obtain ⟨us, vs, hts, hafter, haround⟩ := ih hrest' hmem hend
        refine ⟨l.token :: us, vs, by rw [List.map_cons, hts]; rfl, hafter,
          fun cs zs hbreaks hcspace hcs => ?_⟩
        have hedge : SameEdge s'.rest (before ++ cs) := by
          rw [hrest']
          cases before with
          | nil => exact (breaks_of_read_literal hread).1.sameEdge hbreaks
          | cons c before => exact ⟨rfl, rfl⟩
        have hscans := (haround cs zs hbreaks hcspace hcs).cons_token hb hspace
          (hlocal _ hedge) hl
        simpa using hscans.whiteSpace hws

/-- Whatever string stands in the place of a string, the other tokens stay what they are. -/
theorem LiteralAt.tokenize {text : String} {before chars after : List Char} {content : String}
    {ts : List Token} (h : LiteralAt text before chars after content)
    (hts : tokenize text = .ok (ts ++ [.endOfText])) :
    ∃ us vs, ts = us ++ .literal content :: vs ∧
      ∀ s, RecordQuery.tokenize (withLiteral before s after) =
        .ok ((us ++ .literal s :: vs) ++ [.endOfText]) := by
  obtain ⟨rfl, hend⟩ := tokenize_eq_ok_iff.mp hts
  obtain ⟨us, vs, hsplit, hafter, haround⟩ :=
    Scanner.scans_around (s := .ofText text) h.text_eq h.lexeme h.read hend
  refine ⟨us, vs, hsplit, fun s => ?_⟩
  -- The new string opens with a quote, as the old one does.
  have hopen : ∀ c ∈ ((Text.quote s).toList ++ after).head?,
      (isWordChar c = false ∧ c ≠ '=') ∧ Unicode.isWhiteSpace c = false := by
    rw [Text.quote, String.toList_ofList]
    rintro c ⟨⟩
    decide
  have hscans := haround _ _ (fun c hc => (hopen c hc).1) (fun c hc => (hopen c hc).2)
    (delimited_quote s after vs hafter)
  rw [tokenize_eq_ok_iff, lex, Scanner.ofText, withLiteral, String.toList_ofList]
  exact hscans .start

end RecordQuery
