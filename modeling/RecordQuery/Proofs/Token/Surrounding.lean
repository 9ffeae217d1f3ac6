/-
  RecordQuery.Proofs.Token.Surrounding

  Whitespace around a text. In front of it whitespace moves every place, and behind it only the end
  of the text. No token changes, nor what the characters are refused for, but for one case: where a
  text ends in a string that its last character, a backslash, keeps open, whitespace behind it is
  what the backslash would escape.
-/

import RecordQuery.Proofs.Token.Concatenation

namespace RecordQuery

theorem Text.unescape?_of_whiteSpace {c : Char} (h : Unicode.isWhiteSpace c = true) :
    unescape? c = none := by
  unfold unescape?
  split
  case h_7 => rfl
  all_goals exact absurd h (by decide)

namespace Scanner

/-! ## Strings that are not read to their end -/

/-- Whitespace leaves a string open. -/
theorem isOpen_of_whiteSpace {quote : Char} (hquote : quote ∈ ['"', '\'']) {ws : List Char}
    (hws : ∀ c ∈ ws, Unicode.isWhiteSpace c = true) : IsOpen quote ws := by
  have hne {c d : Char} (hc : Unicode.isWhiteSpace c = true)
      (hd : Unicode.isWhiteSpace d = false) : c ≠ d := by
    rintro rfl
    cases hd.symm.trans hc
  have hspace : Unicode.isWhiteSpace quote = false := by
    simp only [List.mem_cons, List.not_mem_nil, or_false] at hquote
    rcases hquote with rfl | rfl <;> decide
  induction ws with
  | nil => exact .nil
  | cons c ws ih =>
      have hc := hws c List.mem_cons_self
      have hmore := ih fun d hd => hws d (List.mem_cons_of_mem c hd)
      exact .plain (hne hc (by decide)) (hne hc hspace) hmore

/-- A string without an end stays one in front of whitespace, unless its last character is a
    backslash with nothing to escape. -/
theorem readBody_append_of_unclosed {quote : Char} (hquote : quote ∈ ['"', '\''])
    {ws : List Char} (hws : ∀ c ∈ ws, Unicode.isWhiteSpace c = true) (cs : List Char)
    (h : readBody quote cs = .unclosed) :
    readBody quote (cs ++ ws) = .unclosed ∨
      ∃ b w, cs = b ++ ['\\'] ∧ w ∈ ws.head? ∧
        readBody quote (cs ++ ws) = .badEscape w b.length := by
  obtain ⟨b, hb, rfl | rfl⟩ := isOpen_of_unclosed cs h
  · exact .inl (hb.append (isOpen_of_whiteSpace hquote hws)).readBody_unclosed
  · cases ws with
    | nil =>
        rw [List.append_nil]
        exact .inl h
    | cons w ws =>
        have hnone := Text.unescape?_of_whiteSpace (hws w List.mem_cons_self)
        refine .inr ⟨b, w, rfl, rfl, ?_⟩
        rw [List.append_assoc]
        exact hb.readBody_badEscape hnone ws

end Scanner

/-! ## Whitespace behind a text -/

/-- What the end of the tokens becomes when the characters `cs`, which start at `q` now, get the
    whitespace `ws` behind them, and all their places are moved by `f`. -/
inductive Trails (f : Position → Position) (q : Position) (cs ws : List Char) :
    Except LexicalError Position → Except LexicalError Position → Prop
  | ended {p : Position} (hp : f p = q.after cs) :
      Trails f q cs ws (.ok p) (.ok (q.after (cs ++ ws)))
  /-- An escape that is bad without the whitespace has its character in front of it. -/
  | moved {e : LexicalError}
      (h : ∀ c p, e = .invalidEscape c p → ∃ b rest, cs = b ++ '\\' :: c :: rest ∧ f p = q.after b) :
      Trails f q cs ws (.error e) (.error (e.movedTo (f e.position)))
  | cut {b : List Char} {w : Char} {p : Position} (hcs : cs = b ++ ['\\']) (hw : w ∈ ws.head?) :
      Trails f q cs ws (.error (.unterminatedString p)) (.error (.invalidEscape w (q.after b)))

/-- What holds of the characters that are left holds of them with others in front. -/
theorem Trails.append {f : Position → Position} {q : Position} {cs ws : List Char}
    {x y : Except LexicalError Position} (before : List Char)
    (h : Trails f (q.after before) cs ws x y) : Trails f q (before ++ cs) ws x y := by
  cases h with
  | ended hp =>
      rw [← Position.after_append, ← List.append_assoc]
      exact .ended (by rw [hp, Position.after_append])
  | moved h =>
      refine .moved fun c p he => ?_
      obtain ⟨b, rest, rfl, hp⟩ := h c p he
      exact ⟨before ++ b, rest, by rw [List.append_assoc], by rw [hp, Position.after_append]⟩
  | cut hcs hw =>
      rw [← Position.after_append]
      exact .cut (by rw [hcs, List.append_assoc]) hw

namespace Scanner

variable {f : Position → Position} {ws : List Char} {e : LexicalError}

/-- A scanner in front of characters that form no token finds the same fault in them when
    whitespace comes behind, or the whitespace in the place of an escaped character. -/
theorem take_append_of_fails {cs : List Char} {p q : Position} {r : Reading}
    (hws : ∀ c ∈ ws, Unicode.isWhiteSpace c = true) (hf : ∀ b, f (p.after b) = q.after b)
    (hr : read cs = r) (h : Fails cs r) (he : (take ⟨cs, p⟩).1 = .error e) :
    ∃ e', (take ⟨cs ++ ws, q⟩).1 = .error e' ∧ Trails f q cs ws (.error e) (.error e') := by
  have hp : f p = q := hf []
  rw [take, hr] at he
  cases h with
  | @unexpected c rest hc h =>
      obtain rfl := Except.error.inj he
      refine ⟨.unexpectedChar c q, ?_, ?_⟩
      · rw [take, List.cons_append, read_unexpected hc h]
      · rw [← hp]
        exact .moved fun _ _ h => by cases h
  | @loneBang rest h =>
      have hedge := (breaks_of_whiteSpace hws).sameEdge_append rest
      obtain rfl := Except.error.inj he
      refine ⟨.loneBang q, ?_, ?_⟩
      · rw [take, List.cons_append, read.eq_8 _ (hedge.not_equal h)]
      · rw [← hp]
        exact .moved fun _ _ h => by cases h
  | @string quote rest hquote =>
      cases hbody : readBody quote rest with
      | closed content n =>
          rw [hbody] at he
          cases he
      | badEscape c n =>
          obtain ⟨b, ds, rfl, rfl, hb, hc⟩ := isOpen_of_badEscape rest c n hbody
          have htake (more : List Char) :
              (quote :: (b ++ '\\' :: c :: more)).take (b.length + 1) = quote :: b := by
            rw [List.take_succ_cons, List.take_left]
          rw [hbody] at he
          obtain rfl := Except.error.inj he
          refine ⟨.invalidEscape c (q.after (quote :: b)), ?_, ?_⟩
          · rw [take, List.cons_append, read_string hquote, List.append_assoc, List.cons_append,
              List.cons_append, hb.readBody_badEscape hc]
            simp only [Body.reading, skip, htake]
          · have hplace : f (p.after (quote :: b)) = q.after (quote :: b) := hf _
            simp only [skip, htake]
            rw [← hplace]
            refine .moved fun d _ hd => ?_
            obtain ⟨rfl, rfl⟩ := LexicalError.invalidEscape.inj hd
            exact ⟨quote :: b, ds, rfl, hplace⟩
      | unclosed =>
          rw [hbody] at he
          obtain rfl := Except.error.inj he
          obtain hsame | ⟨b, w, rfl, hw, hcut⟩ :=
            readBody_append_of_unclosed hquote hws rest hbody
          · refine ⟨.unterminatedString q, ?_, ?_⟩
            · rw [take, List.cons_append, read_string hquote, hsame]
              rfl
            · rw [← hp]
              exact .moved fun _ _ h => by cases h
          · refine ⟨.invalidEscape w (q.after (quote :: b)), ?_, .cut rfl hw⟩
            rw [take, List.cons_append, read_string hquote, hcut]
            simp only [Body.reading, skip, List.append_assoc, List.take_succ_cons, List.take_left]

/-- The same for a scanner in front of whitespace and such characters. -/
theorem next_append_of_error {s s' : Scanner} {q : Position}
    (hws : ∀ c ∈ ws, Unicode.isWhiteSpace c = true)
    (hf : ∀ b, f (s.position.after b) = q.after b) (h : s.next = (.error e, s')) :
    ∃ e', (next ⟨s.rest ++ ws, q⟩).1 = .error e' ∧ Trails f q s.rest ws (.error e) (.error e') := by
  have hsplit : s.rest.takeWhile Unicode.isWhiteSpace ++ s.rest.dropWhile Unicode.isWhiteSpace =
    s.rest := List.takeWhile_append_dropWhile
  have hhead := List.head?_dropWhile_not Unicode.isWhiteSpace s.rest
  have hspace : ∀ c ∈ s.rest.takeWhile Unicode.isWhiteSpace, Unicode.isWhiteSpace c = true :=
    fun c hc => List.mem_takeWhile_imp hc
  have htake : (take ⟨s.rest.dropWhile Unicode.isWhiteSpace,
      s.position.after (s.rest.takeWhile Unicode.isWhiteSpace)⟩).1 = .error e := by
    rw [← skipSpace_eq]
    exact congrArg Prod.fst h
  generalize s.rest.takeWhile Unicode.isWhiteSpace = sp at *
  generalize s.rest.dropWhile Unicode.isWhiteSpace = cs at *
  have hfails : Fails cs (read cs) := fails_of_read fun t n hread => by
    rw [take, hread] at htake
    cases htake
  have hf' (b : List Char) : f ((s.position.after sp).after b) = (q.after sp).after b := by
    rw [← Position.after_append, ← Position.after_append, hf]
  obtain ⟨e', he', htrails⟩ := take_append_of_fails hws hf' rfl hfails htake
  have hfirst : ∀ c ∈ (cs ++ ws).head?, Unicode.isWhiteSpace c = false := by
    intro c hc
    rw [List.head?_append_of_ne_nil _ hfails.ne_nil] at hc
    rw [Option.mem_def.mp hc] at hhead
    exact hhead
  rw [← hsplit]
  refine ⟨e', ?_, htrails.append sp⟩
  rw [List.append_assoc, next_whiteSpace_append hspace, next, skipSpace_of_head hfirst, he']

/-- Tokens in front of whitespace are the tokens without it. -/
theorem lexed_append_whiteSpace (hws : ∀ c ∈ ws, Unicode.isWhiteSpace c = true) (s : Scanner)
    (q : Position) (hf : ∀ b, f (s.position.after b) = q.after b) :
    (lexed ⟨s.rest ++ ws, q⟩).lexemes =
        s.lexed.lexemes.map (fun l => { l with start := f l.start }) ∧
      Trails f q s.rest ws s.lexed.ending (lexed ⟨s.rest ++ ws, q⟩).ending := by
  induction s using lexed.induct generalizing q with
  | case1 s e s' hs =>
      obtain ⟨e', he', htrails⟩ := next_append_of_error hws hf hs
      rw [lexed_of_error hs, lexed_of_error (Prod.ext he' rfl)]
      exact ⟨rfl, htrails⟩
  | case2 s l s' hs hl =>
      obtain ⟨n, hread⟩ := read_of_next hs
      have hnil := eq_nil_of_read_end (hl ▸ hread)
      rw [skipSpace_eq] at hnil
      have hall : ∀ c ∈ s.rest ++ ws, Unicode.isWhiteSpace c = true :=
        List.forall_mem_append.mpr ⟨List.dropWhile_eq_nil_iff.mp hnil, hws⟩
      have hnext := next_whiteSpace_append hall [] q
      rw [List.append_nil] at hnext
      have hstart : l.start = s.position.after s.rest := by
        obtain ⟨sp, b, hrest, -, hfits, hstart, -⟩ := span_of_next hs
        rw [hl] at hfits
        obtain ⟨rfl, hnone⟩ := hfits
        rw [hstart, hrest, hnone, List.nil_append, List.append_nil]
      rw [lexed_of_end hs hl, lexed_of_end hnext rfl]
      exact ⟨rfl, .ended (by rw [hstart, hf])⟩
  | case3 s l s' hs hl ih =>
      obtain ⟨sp, b, hrest, hsp, hspace, hb, hread, hstart, hbehind⟩ := next_split hs hl
      have hf' (d : List Char) : f (s'.position.after d) = ((q.after sp).after b).after d := by
        rw [hbehind, hstart, ← Position.after_append, ← Position.after_append, hf,
          Position.after_append, Position.after_append]
      obtain ⟨htokens, htrails⟩ := ih _ hf'
      have hsame := next_of_read (q.after sp) hspace hb
        (hread _ ((breaks_of_whiteSpace hws).sameEdge_append s'.rest))
      have hplace : f l.start = q.after sp := by
        rw [hstart, hf]
      rw [hrest, List.append_assoc, List.append_assoc, lexed_congr (next_whiteSpace_append hsp _ q),
        lexed_of_token hsame hl, lexed_of_token hs hl]
      refine ⟨?_, (htrails.append b).append sp⟩
      rw [htokens, List.map_cons, hplace]

end Scanner

/-! ## Whitespace around a text -/

namespace Text

/-- The whitespace that trimming takes from the front of a text. -/
def leading (s : String) : List Char :=
  s.toList.takeWhile Unicode.isWhiteSpace

/-- The whitespace that trimming takes from the end of a text. -/
def trailing (s : String) : List Char :=
  ((s.toList.dropWhile Unicode.isWhiteSpace).reverse.takeWhile Unicode.isWhiteSpace).reverse

theorem toList_eq_trim (s : String) :
    s.toList = leading s ++ ((trim s).toList ++ trailing s) := by
  rw [leading, trim, trimEnd, trailing, String.toList_ofList, ← List.reverse_append,
    List.takeWhile_append_dropWhile, List.reverse_reverse, List.takeWhile_append_dropWhile]

theorem isWhiteSpace_of_mem_leading {s : String} {c : Char} (h : c ∈ leading s) :
    Unicode.isWhiteSpace c = true :=
  List.mem_takeWhile_imp h

theorem isWhiteSpace_of_mem_trailing {s : String} {c : Char} (h : c ∈ trailing s) :
    Unicode.isWhiteSpace c = true :=
  List.mem_takeWhile_imp (List.mem_reverse.mp h)

end Text

/-- The tokens of a text are those of the trimmed text behind the whitespace in front. -/
theorem lex_eq_trim (s : String) :
    (lex s).lexemes = (lex (Text.trim s)).lexemes.map
        (fun l => { l with start := l.start.behind (Text.leading s) }) ∧
      Trails (·.behind (Text.leading s)) (Position.start.after (Text.leading s))
        (Text.trim s).toList (Text.trailing s) (lex (Text.trim s)).ending (lex s).ending := by
  have hleading : ∀ c ∈ Text.leading s, Unicode.isWhiteSpace c = true :=
    fun _ => Text.isWhiteSpace_of_mem_leading
  have htrailing : ∀ c ∈ Text.trailing s, Unicode.isWhiteSpace c = true :=
    fun _ => Text.isWhiteSpace_of_mem_trailing
  have hfront : lex s = Scanner.lexed ⟨(Text.trim s).toList ++ Text.trailing s,
      Position.start.after (Text.leading s)⟩ := by
    have hnext := Scanner.next_whiteSpace_append hleading
      ((Text.trim s).toList ++ Text.trailing s) .start
    rw [lex, Scanner.ofText, Text.toList_eq_trim s, Scanner.lexed_congr hnext]
  have hbehind := Scanner.lexed_append_whiteSpace (f := (·.behind (Text.leading s))) htrailing
    ⟨(Text.trim s).toList, .start⟩ _ (Position.after_behind (Text.leading s))
  dsimp only at hbehind
  rw [hfront, lex, Scanner.ofText]
  exact hbehind

end RecordQuery
