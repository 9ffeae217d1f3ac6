/-
  RecordQuery.Proofs.Token.Scanning

  Which characters are scanned as which tokens. `Scans cs ts` speaks of the whole rest of a text;
  `Writes` and `Delimited` speak of a piece of text in front of others, so that the scanning of a
  text can be put together from that of its pieces.
-/

import Mathlib.Data.List.TakeWhile
import RecordQuery.Proofs.Unicode
import RecordQuery.Token.Scanner

namespace RecordQuery

/-- A text that is one word when it stands alone. -/
def IsWord (w : String) : Prop :=
  w.toList ≠ [] ∧ ∀ c ∈ w.toList, isWordChar c = true

instance (w : String) : Decidable (IsWord w) :=
  decidable_of_iff (w.toList.isEmpty = false ∧ w.toList.all isWordChar = true) (by simp [IsWord])

/-- Whitespace ends words. -/
theorem not_isWordChar_of_isWhiteSpace {c : Char} (h : Unicode.isWhiteSpace c = true) :
    isWordChar c = false := by
  -- The four other word characters are not in the table of white space.
  have hother : (c == '_' || c == '.' || c == '-' || c == '*') = false :=
    Unicode.RangeTable.forall_of_points
      (p := fun c => (c == '_' || c == '.' || c == '-' || c == '*') = false) (by decide) h
  simp only [Bool.or_eq_false_iff] at hother
  simp [isWordChar, Unicode.not_isAlphanumeric_of_isWhiteSpace h, hother]

theorem not_isWhiteSpace_of_isWordChar {c : Char} (h : isWordChar c = true) :
    Unicode.isWhiteSpace c = false := by
  by_contra hspace
  rw [Bool.not_eq_false] at hspace
  simp [not_isWordChar_of_isWhiteSpace hspace] at h

namespace Scanner

/-! ## One token -/

/-- In front of anything but whitespace nothing is skipped. -/
theorem skipSpace_of_head {cs : List Char} {p : Position}
    (h : ∀ c ∈ cs.head?, Unicode.isWhiteSpace c = false) : skipSpace ⟨cs, p⟩ = ⟨cs, p⟩ := by
  have hnil : cs.takeWhile Unicode.isWhiteSpace = [] := by
    cases cs with
    | nil => rfl
    | cons c cs => simp [h c rfl]
  simp [skipSpace, skip, hnil]

theorem skipSpace_cons {c : Char} (hc : Unicode.isWhiteSpace c = true) (cs : List Char)
    (p : Position) : skipSpace ⟨c :: cs, p⟩ = skipSpace ⟨cs, p.next c⟩ := by
  simp [skipSpace, skip, hc]

/-- A scanner in front of whitespace is at the same next token as the one behind it. -/
theorem next_whiteSpace_append {ws : List Char} (hws : ∀ c ∈ ws, Unicode.isWhiteSpace c = true)
    (cs : List Char) (p : Position) : next ⟨ws ++ cs, p⟩ = next ⟨cs, p.after ws⟩ := by
  induction ws generalizing p with
  | nil => rfl
  | cons c ws ih =>
      rw [List.cons_append, next, skipSpace_cons (hws c List.mem_cons_self)]
      exact ih (fun d hd => hws d (List.mem_cons_of_mem c hd)) (p.next c)

/-- A token is put in front of those behind it. -/
theorem lexed_of_token {s s' : Scanner} {l : Lexeme} (h : s.next = (.ok l, s'))
    (hl : l.token ≠ .endOfText) :
    s.lexed = ⟨l :: s'.lexed.lexemes, s'.lexed.ending⟩ := by
  rw [lexed]
  split
  next hs => simp [h] at hs
  next l' s'' hs =>
    obtain ⟨rfl, rfl⟩ : l = l' ∧ s' = s'' := by simpa [h] using hs
    exact dif_neg hl

/-- The end of the text is the end of the tokens, and none of them. -/
theorem lexed_of_end {s s' : Scanner} {l : Lexeme} (h : s.next = (.ok l, s'))
    (hl : l.token = .endOfText) : s.lexed = ⟨[], .ok l.start⟩ := by
  rw [lexed]
  split
  next hs => simp [h] at hs
  next l' s'' hs =>
    obtain ⟨rfl, rfl⟩ : l = l' ∧ s' = s'' := by simpa [h] using hs
    exact dif_pos hl

/-- Characters that form no token end the tokens with their error. -/
theorem lexed_of_error {s s' : Scanner} {e : LexicalError} (h : s.next = (.error e, s')) :
    s.lexed = ⟨[], .error e⟩ := by
  rw [lexed]
  split
  next e' s'' hs =>
    obtain ⟨rfl, rfl⟩ : e = e' ∧ s' = s'' := by simpa [h] using hs
    rfl
  next hs => simp [h] at hs

/-- Scanners that are at the same next token go on in the same way. -/
theorem lexed_congr {s s' : Scanner} (h : s.next = s'.next) : s.lexed = s'.lexed := by
  -- The lexemes depend on the scanner through its next token alone.
  cases hs : s'.next with
  | mk reading s'' =>
      rw [hs] at h
      cases reading with
      | error e => rw [lexed_of_error h, lexed_of_error hs]
      | ok l =>
          by_cases hl : l.token = .endOfText
          · rw [lexed_of_end h hl, lexed_of_end hs hl]
          · rw [lexed_of_token h hl, lexed_of_token hs hl]

/-! ## Words -/

/-- No word character opens one of the other tokens. -/
theorem read_word {c : Char} {cs : List Char} (hc : isWordChar c = true) :
    read (c :: cs) =
      .token (.word (String.ofList (c :: cs.takeWhile isWordChar)))
        (c :: cs.takeWhile isWordChar).length := by
  -- The word is the last reading; all others want a first character that is no word character.
  rw [read.eq_15]
  · exact if_pos hc
  all_goals
    intros
    subst_vars
    exact absurd hc (by decide)

/-- A token that is a word is made of word characters, and has some. -/
theorem isWord_of_read {cs : List Char} {w : String} {n : Nat}
    (h : read cs = .token (.word w) n) : IsWord w := by
  -- Only the last reading makes words.
  unfold read at h
  split at h
  case h_15 c rest _ _ _ _ _ _ _ _ _ _ _ _ _ =>
    split at h
    next hc =>
      simp only [Reading.token.injEq, Token.word.injEq] at h
      obtain ⟨rfl, -⟩ := h
      rw [IsWord, String.toList_ofList]
      refine ⟨List.cons_ne_nil _ _, fun d hd => ?_⟩
      rcases List.mem_cons.mp hd with rfl | hd
      · exact hc
      · exact List.mem_takeWhile_imp hd
    next => cases h
  case h_13 rest => cases hb : readBody '"' rest <;> simp [hb, Body.reading] at h
  case h_14 rest => cases hb : readBody '\'' rest <;> simp [hb, Body.reading] at h
  all_goals cases h

/-! ## Lexemes -/

/-- A lexeme was read behind the whitespace in front of it. -/
theorem read_of_next {s s' : Scanner} {l : Lexeme} (h : s.next = (.ok l, s')) :
    ∃ n, read s.skipSpace.rest = .token l.token n := by
  unfold next take at h
  split at h
  case h_1 t n hread =>
    obtain ⟨rfl, -⟩ : ⟨t, s.skipSpace.position⟩ = l ∧ _ := by simpa using h
    exact ⟨n, hread⟩
  all_goals cases h

/-- What holds of every token that is read, but for the end of the text, holds of all lexemes. -/
theorem forall_mem_lexed {p : Token → Prop}
    (h : ∀ cs t n, read cs = .token t n → t ≠ .endOfText → p t) (s : Scanner) :
    ∀ l ∈ s.lexed.lexemes, p l.token := by
  induction s using lexed.induct with
  | case1 s e s' hs =>
      rw [lexed_of_error hs]
      simp
  | case2 s l s' hs hl =>
      rw [lexed_of_end hs hl]
      simp
  | case3 s l s' hs hl ih =>
      rw [lexed_of_token hs hl]
      intro m hm
      rcases List.mem_cons.mp hm with rfl | hm
      · obtain ⟨n, hread⟩ := read_of_next hs
        exact h _ _ n hread hl
      · exact ih m hm

/-! ## Quotes -/

/-- However a character is escaped, it is read back as itself. -/
theorem readBody_escape (c : Char) (cs : List Char) :
    readBody '"' (Text.escape c ++ cs) =
      (readBody '"' cs).prepend c (Text.escape c).length := by
  unfold Text.escape
  split
  -- A character that is not escaped is neither the quote nor a backslash.
  case h_6 hquote hslash _ _ _ =>
    rw [List.singleton_append, readBody.eq_4 '"' c cs (fun h _ => hslash h)
      (fun _ _ h _ => hslash h), if_neg hquote]
    rfl
  all_goals rfl

/-- Escaped content ends at the first quote that is not escaped. -/
theorem readBody_quote (content cs : List Char) :
    readBody '"' (content.flatMap Text.escape ++ '"' :: cs) =
      .closed content ((content.flatMap Text.escape).length + 1) := by
  induction content with
  | nil => rw [List.flatMap_nil, List.nil_append, readBody.eq_4 _ _ _ (by simp) (by simp)]; rfl
  | cons c content ih =>
      rw [List.flatMap_cons, List.append_assoc, readBody_escape, ih, List.length_append]
      simp only [Body.prepend, Body.closed.injEq, true_and]
      omega

end Scanner

/-! ## Whole texts -/

/-- Wherever they start, the characters are scanned as the tokens up to the end of the text. -/
def Scans (cs : List Char) (ts : List Token) : Prop :=
  ∀ p, (Scanner.lexed ⟨cs, p⟩).lexemes.map (·.token) = ts ∧
    ∃ q, (Scanner.lexed ⟨cs, p⟩).ending = .ok q

namespace Scans

theorem nil : Scans [] [] := by
  intro p
  have hnext : Scanner.next ⟨[], p⟩ = (.ok ⟨.endOfText, p⟩, ⟨[], p⟩) := rfl
  rw [Scanner.lexed_of_end hnext rfl]
  exact ⟨rfl, p, rfl⟩

/-- Whitespace in front of tokens changes none of them. -/
theorem whiteSpace {cs ws : List Char} {ts : List Token} (h : Scans cs ts)
    (hws : ∀ c ∈ ws, Unicode.isWhiteSpace c = true) : Scans (ws ++ cs) ts := by
  intro p
  rw [Scanner.lexed_congr (Scanner.next_whiteSpace_append hws cs p)]
  exact h _

theorem space {cs : List Char} {ts : List Token} (h : Scans cs ts) : Scans (' ' :: cs) ts := by
  have hspace : ∀ c ∈ [' '], Unicode.isWhiteSpace c = true := by
    intro c hc
    obtain rfl := List.mem_singleton.mp hc
    rfl
  exact h.whiteSpace hspace

/-- Characters that are read as one token stand in front of others. -/
theorem token {c : Char} {cs ds : List Char} {t : Token} {ts : List Token} (h : Scans ds ts)
    (hread : Scanner.read (c :: (cs ++ ds)) = .token t (c :: cs).length) (ht : t ≠ .endOfText)
    (hspace : Unicode.isWhiteSpace c = false) : Scans (c :: (cs ++ ds)) (t :: ts) := by
  intro p
  have hnext : Scanner.next ⟨c :: (cs ++ ds), p⟩ = (.ok ⟨t, p⟩, ⟨ds, p.after (c :: cs)⟩) := by
    rw [Scanner.next, Scanner.skipSpace_of_head (by simp [hspace]), Scanner.take]
    simp [hread, Scanner.skip]
  rw [Scanner.lexed_of_token hnext ht]
  obtain ⟨hts, hend⟩ := h (p.after (c :: cs))
  exact ⟨congrArg (t :: ·) hts, hend⟩

end Scans

/-! ## Pieces of text -/

/-- The characters make neither a word nor an operator in front of them longer. -/
def Breaks (cs : List Char) : Prop :=
  ∀ c ∈ cs.head?, isWordChar c = false ∧ c ≠ '='

/-- In front of characters that make no token longer, the text is scanned as the tokens. -/
def Writes (text : String) (ts : List Token) : Prop :=
  ∀ cs us, Scans cs us → Breaks cs → Scans (text.toList ++ cs) (ts ++ us)

/-- In front of any characters, the text is scanned as the tokens. -/
def Delimited (text : String) (ts : List Token) : Prop :=
  ∀ cs us, Scans cs us → Scans (text.toList ++ cs) (ts ++ us)

theorem Breaks.append {cs ds : List Char} (h : Breaks cs) (h' : Breaks ds) : Breaks (cs ++ ds) := by
  cases cs with
  | nil => exact h'
  | cons c cs => exact h

theorem Delimited.writes {text : String} {ts : List Token} (h : Delimited text ts) :
    Writes text ts :=
  fun cs us hcs _ => h cs us hcs

/-- Behind a text that ends by itself any other text may stand. -/
theorem Delimited.append {s t : String} {ts us : List Token} (h : Delimited s ts)
    (h' : Writes t us) : Writes (s ++ t) (ts ++ us) := by
  intro cs vs hcs hbreaks
  rw [String.toList_append, List.append_assoc, List.append_assoc]
  exact h _ _ (h' cs vs hcs hbreaks)

theorem Delimited.append_delimited {s t : String} {ts us : List Token} (h : Delimited s ts)
    (h' : Delimited t us) : Delimited (s ++ t) (ts ++ us) := by
  intro cs vs hcs
  rw [String.toList_append, List.append_assoc, List.append_assoc]
  exact h _ _ (h' cs vs hcs)

/-- Behind a text that does not end by itself another one has to break it off. -/
theorem Writes.append {s t : String} {ts us : List Token} (h : Writes s ts) (h' : Writes t us)
    (hbreaks : Breaks t.toList) : Writes (s ++ t) (ts ++ us) := by
  intro cs vs hcs hcs'
  rw [String.toList_append, List.append_assoc, List.append_assoc]
  exact h _ _ (h' cs vs hcs hcs') (hbreaks.append hcs')

/-- One character that breaks a text off is enough, if what it belongs to ends by itself. -/
theorem Writes.append_delimited {s t : String} {ts us : List Token} {c : Char} {rest : List Char}
    (h : Writes s ts) (h' : Delimited t us) (ht : t.toList = c :: rest)
    (hc : isWordChar c = false ∧ c ≠ '=') : Delimited (s ++ t) (ts ++ us) := by
  intro cs vs hcs
  rw [String.toList_append, List.append_assoc, List.append_assoc]
  refine h _ _ (h' cs vs hcs) ?_
  rw [ht]
  rintro d ⟨⟩
  exact hc

/-! ## Single tokens -/

section Single

variable {s : String} {c : Char} {cs : List Char} {t : Token}

/-- A text that is read as one token in front of characters that make it no longer. -/
theorem writes_token (hs : s.toList = c :: cs)
    (hread : ∀ ds, Breaks ds → Scanner.read (c :: (cs ++ ds)) = .token t (c :: cs).length)
    (ht : t ≠ .endOfText) (hspace : Unicode.isWhiteSpace c = false) : Writes s [t] := by
  intro ds us hds hbreaks
  rw [hs]
  exact hds.token (hread ds hbreaks) ht hspace

/-- A text that is read as one token in front of any characters. -/
theorem delimited_token (hs : s.toList = c :: cs)
    (hread : ∀ ds, Scanner.read (c :: (cs ++ ds)) = .token t (c :: cs).length)
    (ht : t ≠ .endOfText) (hspace : Unicode.isWhiteSpace c = false) : Delimited s [t] := by
  intro ds us hds
  rw [hs]
  exact hds.token (hread ds) ht hspace

end Single

/-- A word is written as it is. -/
theorem writes_word {w : String} (hw : IsWord w) : Writes w [.word w] := by
  obtain ⟨hne, hall⟩ := hw
  cases hw : w.toList with
  | nil => exact absurd hw hne
  | cons c rest =>
      rw [hw] at hall
      have hc := hall c List.mem_cons_self
      refine writes_token hw (fun cs hbreaks => ?_) (by simp) (not_isWhiteSpace_of_isWordChar hc)
      -- The word ends where its characters do, for what follows starts with no word character.
      have hcs : cs.takeWhile isWordChar = [] := by
        cases cs with
        | nil => rfl
        | cons d cs => simp [(hbreaks d rfl).1]
      have htake : (rest ++ cs).takeWhile isWordChar = rest := by
        rw [List.takeWhile_append_of_pos fun d hd => hall d (List.mem_cons_of_mem c hd), hcs,
          List.append_nil]
      have hword : String.ofList (c :: rest) = w := by rw [← hw, String.ofList_toList]
      rw [Scanner.read_word hc, htake, hword]

/-- A string in quotes is one token, whatever is in it and behind it. -/
theorem delimited_quote (content : String) :
    Delimited (Text.quote content) [.literal content] := by
  have hquote : (Text.quote content).toList =
      '"' :: (content.toList.flatMap Text.escape ++ ['"']) := by
    rw [Text.quote, String.toList_ofList]
  refine delimited_token hquote (fun cs => ?_) (by simp) (by decide)
  rw [List.append_assoc, List.singleton_append, Scanner.read,
    Scanner.readBody_quote content.toList cs, Scanner.Body.reading, String.ofList_toList]
  simp

theorem delimited_space : Delimited " " [] :=
  fun _ _ hcs => hcs.space

theorem delimited_openParen : Delimited "(" [.openParen] :=
  delimited_token rfl (fun _ => rfl) (by simp) (by decide)

theorem delimited_closeParen : Delimited ")" [.closeParen] :=
  delimited_token rfl (fun _ => rfl) (by simp) (by decide)

theorem delimited_comma : Delimited "," [.comma] :=
  delimited_token rfl (fun _ => rfl) (by simp) (by decide)

/-- The operators of one character, in front of no second one. -/
theorem Breaks.read_operator {ds : List Char} (h : Breaks ds) :
    Scanner.read ('=' :: ds) = .token .equal 1 ∧ Scanner.read ('<' :: ds) = .token .less 1 ∧
      Scanner.read ('>' :: ds) = .token .greater 1 := by
  cases ds with
  | nil => exact ⟨rfl, rfl, rfl⟩
  | cons d ds =>
      have hne : ∀ rest, d :: ds = '=' :: rest → False :=
        fun rest hcons => (h d rfl).2 (List.cons.inj hcons).1
      exact ⟨Scanner.read.eq_6 _ hne, Scanner.read.eq_12 _ hne, Scanner.read.eq_10 _ hne⟩

/-! ## Tokens of texts -/

/-- Tokenizing succeeds exactly if scanning does, and tells the same tokens with the end behind
    them. -/
theorem tokenize_eq_ok_iff {text : String} {ts : List Token} :
    tokenize text = .ok (ts ++ [.endOfText]) ↔
      (lex text).lexemes.map (·.token) = ts ∧ ∃ p, (lex text).ending = .ok p := by
  dsimp only [tokenize]
  cases h : (lex text).ending <;> simp [Except.map]

/-- All characters of a text that is written as tokens form tokens. -/
theorem tokenize_of_writes {text : String} {ts : List Token} (h : Writes text ts) :
    tokenize text = .ok (ts ++ [.endOfText]) := by
  have hscans : Scans text.toList ts := by simpa using h [] [] Scans.nil (by simp [Breaks])
  exact tokenize_eq_ok_iff.mpr (hscans .start)

/-- The words among the tokens of a text are words. -/
theorem isWord_of_tokenize {text : String} {ts : List Token}
    (h : tokenize text = .ok (ts ++ [.endOfText])) {w : String} (hw : .word w ∈ ts) :
    IsWord w := by
  obtain ⟨rfl, -⟩ := tokenize_eq_ok_iff.mp h
  obtain ⟨l, hl, htoken⟩ := List.mem_map.mp hw
  -- Each lexeme that is a word was read as one.
  have hword : ∀ w, l.token = .word w → IsWord w := by
    refine Scanner.forall_mem_lexed (p := fun t => ∀ w, t = .word w → IsWord w) ?_ _ l hl
    rintro cs t n hread - w rfl
    exact Scanner.isWord_of_read hread
  exact hword w htoken

end RecordQuery
