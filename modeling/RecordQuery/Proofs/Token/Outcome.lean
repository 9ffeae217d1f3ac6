/-
  RecordQuery.Proofs.Token.Outcome

  What one call for a token meets in the text, and where. In front of the place that the outcome
  tells stand whitespace and, for a bad escape, the beginning of its string; at the place stand the
  characters that the outcome is about; behind those the scanner goes on. The outcome is described
  by these characters alone, with no regard to how they were found.
-/

import RecordQuery.Proofs.Token.Tiling

namespace RecordQuery

open Text (unescape?)

namespace Scanner

/-! ## Strings that are not read to their end -/

/-- Characters with which a string goes on behind its opening quote: each escape among them is good
    and complete, and the quote that closes the string is not there. -/
inductive IsOpen (quote : Char) : List Char → Prop
  | nil : IsOpen quote []
  | escaped {e c : Char} {b : List Char} (he : unescape? e = some c) (h : IsOpen quote b) :
      IsOpen quote ('\\' :: e :: b)
  | plain {c : Char} {b : List Char} (hc : c ≠ '\\') (hquote : c ≠ quote) (h : IsOpen quote b) :
      IsOpen quote (c :: b)

theorem badEscape_of_prepend {c e : Char} {k n : Nat} {body : Body}
    (h : body.prepend c k = .badEscape e n) : ∃ m, body = .badEscape e m ∧ n = m + k := by
  cases body with
  | closed content m => cases h
  | badEscape e' m =>
      obtain ⟨rfl, rfl⟩ := Body.badEscape.inj h
      exact ⟨m, rfl, rfl⟩
  | unclosed => cases h

theorem unclosed_of_prepend {c : Char} {k : Nat} {body : Body}
    (h : body.prepend c k = .unclosed) : body = .unclosed := by
  cases body with
  | unclosed => rfl
  | closed content m => cases h
  | badEscape e m => cases h

/-- A backslash that has been passed over by the cases for escapes is none. -/
theorem ne_backslash_of_rest {c : Char} {rest : List Char} (h : c = '\\' → rest = [] → False)
    (h' : ∀ e es, c = '\\' → rest = e :: es → False) : c ≠ '\\' := by
  intro hc
  cases rest with
  | nil => exact h hc rfl
  | cons e es => exact h' e es hc rfl

/-- A character that is neither a backslash nor the quote is content. -/
theorem readBody_cons {quote c : Char} (hc : c ≠ '\\') (hquote : c ≠ quote) (cs : List Char) :
    readBody quote (c :: cs) = (readBody quote cs).prepend c 1 := by
  rw [readBody.eq_4 _ _ _ (fun h => absurd h hc) (fun _ _ h => absurd h hc), if_neg hquote]

/-- A bad escape stands behind the open part of its string. -/
theorem isOpen_of_badEscape {quote : Char} (cs : List Char) :
    ∀ e n, readBody quote cs = .badEscape e n →
      ∃ b rest, cs = b ++ '\\' :: e :: rest ∧ b.length = n ∧ IsOpen quote b ∧
        unescape? e = none := by
  induction cs using readBody.induct quote with
  | case1 => intro _ _ h; cases h
  | case2 => intro _ _ h; cases h
  | case3 e' rest c he ih =>
      intro e n h
      rw [readBody.eq_3, he] at h
      obtain ⟨m, hbody, rfl⟩ := badEscape_of_prepend h
      obtain ⟨b, ds, rfl, rfl, hb, hnone⟩ := ih e m hbody
      exact ⟨'\\' :: e' :: b, ds, rfl, rfl, .escaped he hb, hnone⟩
  | case4 e' rest he =>
      intro e n h
      rw [readBody.eq_3, he] at h
      cases h
      exact ⟨[], rest, rfl, rfl, .nil, he⟩
  | case5 rest h₁ h₂ =>
      intro e n h
      rw [readBody.eq_4 _ _ _ h₁ h₂, if_pos rfl] at h
      cases h
  | case6 c rest h₁ h₂ hne ih =>
      intro e n h
      have hc := ne_backslash_of_rest h₁ h₂
      rw [readBody_cons hc hne] at h
      obtain ⟨m, hbody, rfl⟩ := badEscape_of_prepend h
      obtain ⟨b, ds, rfl, rfl, hb, hnone⟩ := ih e m hbody
      exact ⟨c :: b, ds, rfl, rfl, .plain hc hne hb, hnone⟩

/-- A string without an end is open all the way, but for a backslash as the last character of the
    text. -/
theorem isOpen_of_unclosed {quote : Char} (cs : List Char) (h : readBody quote cs = .unclosed) :
    ∃ b, IsOpen quote b ∧ (cs = b ∨ cs = b ++ ['\\']) := by
  induction cs using readBody.induct quote with
  | case1 => exact ⟨[], .nil, .inl rfl⟩
  | case2 => exact ⟨[], .nil, .inr rfl⟩
  | case3 e rest c he ih =>
      rw [readBody.eq_3, he] at h
      obtain ⟨b, hb, hrest⟩ := ih (unclosed_of_prepend h)
      refine ⟨'\\' :: e :: b, .escaped he hb, ?_⟩
      rcases hrest with rfl | rfl
      · exact .inl rfl
      · exact .inr rfl
  | case4 e rest he =>
      rw [readBody.eq_3, he] at h
      cases h
  | case5 rest h₁ h₂ =>
      rw [readBody.eq_4 _ _ _ h₁ h₂, if_pos rfl] at h
      cases h
  | case6 c rest h₁ h₂ hne ih =>
      have hc := ne_backslash_of_rest h₁ h₂
      rw [readBody_cons hc hne] at h
      obtain ⟨b, hb, hrest⟩ := ih (unclosed_of_prepend h)
      refine ⟨c :: b, .plain hc hne hb, ?_⟩
      rcases hrest with rfl | rfl
      · exact .inl rfl
      · exact .inr rfl

namespace IsOpen

variable {quote : Char} {b cs : List Char}

/-- An open string is still open behind more of its content. -/
theorem append (h : IsOpen quote b) (hcs : IsOpen quote cs) : IsOpen quote (b ++ cs) := by
  induction h with
  | nil => exact hcs
  | escaped he _ ih => exact .escaped he ih
  | plain hc hquote _ ih => exact .plain hc hquote ih

/-- Nothing is decided about a string by its open part. -/
theorem readBody_eq (h : IsOpen quote b) (cs : List Char) :
    (∀ e n, readBody quote cs = .badEscape e n →
      readBody quote (b ++ cs) = .badEscape e (n + b.length)) ∧
    (readBody quote cs = .unclosed → readBody quote (b ++ cs) = .unclosed) := by
  induction h with
  | nil => exact ⟨fun _ _ h => h, fun h => h⟩
  | escaped he _ ih =>
      rw [List.cons_append, List.cons_append, readBody.eq_3, he]
      refine ⟨fun e n h => ?_, fun h => ?_⟩
      · rw [ih.1 e n h]
        rfl
      · rw [ih.2 h]
        rfl
  | plain hc hquote _ ih =>
      rw [List.cons_append, readBody_cons hc hquote]
      refine ⟨fun e n h => ?_, fun h => ?_⟩
      · rw [ih.1 e n h]
        rfl
      · rw [ih.2 h]
        rfl

/-- An open string ends at an escape that there is not. -/
theorem readBody_badEscape (h : IsOpen quote b) {e : Char} (he : unescape? e = none)
    (cs : List Char) : readBody quote (b ++ '\\' :: e :: cs) = .badEscape e b.length := by
  have hhere : readBody quote ('\\' :: e :: cs) = .badEscape e 0 := by rw [readBody.eq_3, he]
  rw [(h.readBody_eq _).1 _ _ hhere, Nat.zero_add]

/-- An open string ends with the text. -/
theorem readBody_unclosed (h : IsOpen quote b) : readBody quote b = .unclosed := by
  have hend := (h.readBody_eq []).2 rfl
  rwa [List.append_nil] at hend

end IsOpen

/-! ## Characters that form no token -/

/-- The characters that tokens start with, apart from those of words. -/
def tokenSigns : List Char :=
  ['=', '!', '<', '>', '(', ')', ',', '"', '\'']

/-- A token starts with a word character or with one of the signs. -/
theorem starts_of_fits {t : Token} {c : Char} {cs after : List Char} (h : t.Fits (c :: cs) after) :
    isWordChar c = true ∨ c ∈ tokenSigns := by
  cases t with
  | word w =>
      obtain ⟨hword, hchars, -⟩ := h
      exact .inl (hword.2 c (hchars ▸ List.mem_cons_self))
  | literal content =>
      obtain ⟨quote, hquote, ds, hchars, -⟩ := h
      obtain rfl : c = quote := (List.cons.inj hchars).1
      right
      simp only [tokenSigns, List.mem_cons, List.not_mem_nil, or_false] at *
      grind
  | endOfText => cases h.1
  | _ =>
      obtain ⟨hspelt, -⟩ := h
      right
      simp only [Token.spellings, tokenSigns, List.mem_cons, List.not_mem_nil, or_false,
        List.cons.injEq] at *
      grind

/-- Why the characters form no token: one of them starts none, or they start a string. -/
inductive Fails : List Char → Reading → Prop
  | unexpected {c : Char} {rest : List Char} (hc : isWordChar c = false) (h : c ∉ tokenSigns) :
      Fails (c :: rest) (.unexpected c)
  | loneBang {rest : List Char} (h : ∀ more, rest = '=' :: more → False) :
      Fails ('!' :: rest) .loneBang
  | string {quote : Char} {rest : List Char} (hquote : quote ∈ ['"', '\'']) :
      Fails (quote :: rest) (readBody quote rest).reading

theorem read_unexpected {c : Char} (hc : isWordChar c = false) (h : c ∉ tokenSigns)
    (cs : List Char) : read (c :: cs) = .unexpected c := by
  simp only [tokenSigns, List.mem_cons, List.not_mem_nil, or_false, not_or] at h
  rw [read.eq_15]
  · rw [hc]
    rfl
  all_goals grind

theorem read_string {quote : Char} (hquote : quote ∈ ['"', '\'']) (cs : List Char) :
    read (quote :: cs) = (readBody quote cs).reading := by
  simp only [List.mem_cons, List.not_mem_nil, or_false] at hquote
  rcases hquote with rfl | rfl
  · exact read.eq_13 cs
  · exact read.eq_14 cs

theorem Fails.ne_nil {cs : List Char} {r : Reading} (h : Fails cs r) : cs ≠ [] := by
  cases h <;> exact List.cons_ne_nil _ _

/-- What is not read as a token fails in one of three ways. -/
theorem fails_of_read {cs : List Char} (h : ∀ t n, read cs ≠ .token t n) : Fails cs (read cs) := by
  generalize hread : read cs = r at h ⊢
  unfold read at hread
  split at hread
  case h_8 rest hne =>
    subst hread
    exact .loneBang hne
  case h_13 rest =>
    subst hread
    exact .string (by simp)
  case h_14 rest =>
    subst hread
    exact .string (by simp)
  case h_15 c rest _ _ _ _ _ _ _ _ _ _ _ _ _ =>
    split at hread
    next => exact absurd hread.symm (h _ _)
    next hc =>
      subst hread
      exact .unexpected (by simpa using hc) (by simp_all [tokenSigns])
  all_goals exact absurd hread.symm (h _ _)

/-! ## The outcome of a call -/

/-- What a call meets in front of it: the characters `skipped` up to the place that its outcome
    tells, the characters `taken` from there on, and the characters `rest` that it leaves. -/
inductive Meets : Except LexicalError Lexeme → List Char → List Char → List Char → Prop
  /-- The characters that spell the token. -/
  | token {l : Lexeme} {skipped taken rest : List Char}
      (hskipped : ∀ c ∈ skipped, Unicode.isWhiteSpace c = true) (h : l.token.Fits taken rest) :
      Meets (.ok l) skipped taken rest
  /-- A character with which no token starts. -/
  | unexpectedChar {c : Char} {p : Position} {skipped rest : List Char}
      (hskipped : ∀ c ∈ skipped, Unicode.isWhiteSpace c = true)
      (hspace : Unicode.isWhiteSpace c = false)
      (h : ∀ (t : Token) (taken after : List Char), ¬ t.Fits (c :: taken) after) :
      Meets (.error (.unexpectedChar c p)) skipped [] (c :: rest)
  /-- An exclamation mark without an equals sign. -/
  | loneBang {p : Position} {skipped rest : List Char}
      (hskipped : ∀ c ∈ skipped, Unicode.isWhiteSpace c = true)
      (h : ∀ more, rest = '=' :: more → False) :
      Meets (.error (.loneBang p)) skipped [] ('!' :: rest)
  /-- A backslash in an open string, in front of a character that has no escape. -/
  | invalidEscape {quote c : Char} {p : Position} {ws b rest : List Char}
      (hskipped : ∀ c ∈ ws, Unicode.isWhiteSpace c = true) (hquote : quote ∈ ['"', '\''])
      (hb : IsOpen quote b) (h : unescape? c = none) :
      Meets (.error (.invalidEscape c p)) (ws ++ quote :: b) ['\\'] (c :: rest)
  /-- A quote, and a string that is open up to the end of the text. -/
  | unterminatedString {quote : Char} {p : Position} {skipped b cs : List Char}
      (hskipped : ∀ c ∈ skipped, Unicode.isWhiteSpace c = true) (hquote : quote ∈ ['"', '\''])
      (hb : IsOpen quote b) (h : cs = b ∨ cs = b ++ ['\\']) :
      Meets (.error (.unterminatedString p)) skipped (quote :: cs) []

/-- The position that the outcome of a call tells: that of the token, or that of the error. -/
def told : Except LexicalError Lexeme → Position
  | .ok l => l.start
  | .error e => e.position

namespace Meets

variable {outcome : Except LexicalError Lexeme} {ws skipped taken rest : List Char}

/-- What is met behind whitespace is met in front of it. -/
theorem whiteSpace (hws : ∀ c ∈ ws, Unicode.isWhiteSpace c = true)
    (h : Meets outcome skipped taken rest) : Meets outcome (ws ++ skipped) taken rest := by
  cases h with
  | token hskipped h => exact .token (List.forall_mem_append.mpr ⟨hws, hskipped⟩) h
  | unexpectedChar hskipped hspace h =>
      exact .unexpectedChar (List.forall_mem_append.mpr ⟨hws, hskipped⟩) hspace h
  | loneBang hskipped h => exact .loneBang (List.forall_mem_append.mpr ⟨hws, hskipped⟩) h
  | invalidEscape hskipped hquote hb h =>
      rw [← List.append_assoc]
      exact .invalidEscape (List.forall_mem_append.mpr ⟨hws, hskipped⟩) hquote hb h
  | unterminatedString hskipped hquote hb h =>
      exact .unterminatedString (List.forall_mem_append.mpr ⟨hws, hskipped⟩) hquote hb h

end Meets

/-- From the scanner `s` a call comes to the result `r`: it skips some characters and takes others,
    it is about those that it meets, and it counts them all in the positions that it tells and goes
    on with. -/
structure Advances (s : Scanner) (r : Except LexicalError Lexeme × Scanner)
    (skipped taken : List Char) : Prop where
  rest_eq : s.rest = skipped ++ (taken ++ r.2.rest)
  meets : Meets r.1 skipped taken r.2.rest
  told_eq : told r.1 = s.position.after skipped
  behind_eq : r.2.position = s.position.after (skipped ++ taken)

/-- A call on a scanner in front of a string with a bad escape. -/
theorem advances_badEscape {quote e : Char} {b : List Char} (hquote : quote ∈ ['"', '\''])
    (hb : IsOpen quote b) (he : unescape? e = none) (more : List Char) (p : Position) :
    Advances ⟨quote :: (b ++ '\\' :: e :: more), p⟩ (take ⟨quote :: (b ++ '\\' :: e :: more), p⟩)
      (quote :: b) ['\\'] := by
  have hread : read (quote :: (b ++ '\\' :: e :: more)) = .badEscape e (b.length + 1) := by
    rw [read_string hquote, hb.readBody_badEscape he, Body.reading]
  have hfront : (quote :: (b ++ '\\' :: e :: more)).take (b.length + 1) = quote :: b := by
    rw [List.take_succ_cons, List.take_left]
  have hbehind : (quote :: (b ++ '\\' :: e :: more)).take (b.length + 2) =
      quote :: b ++ ['\\'] := by
    rw [List.take_succ_cons, List.take_length_add_append]
    rfl
  have hdrop : (quote :: (b ++ '\\' :: e :: more)).drop (b.length + 2) = e :: more := by
    rw [List.drop_succ_cons, List.drop_length_add_append]
    rfl
  rw [take, hread]
  refine ⟨?_, ?_, ?_, ?_⟩
  · simp only [skip, hdrop]
    rfl
  · simp only [skip, hdrop]
    exact Meets.invalidEscape (fun _ h => absurd h List.not_mem_nil) hquote hb he
  · simp only [told, LexicalError.position, skip, hfront]
  · simp only [skip, hbehind]

/-- A call on a scanner in front of a string without an end. -/
theorem advances_unclosed {quote : Char} {rest : List Char} (hquote : quote ∈ ['"', '\''])
    (hbody : readBody quote rest = .unclosed) (p : Position) :
    Advances ⟨quote :: rest, p⟩ (take ⟨quote :: rest, p⟩) [] (quote :: rest) := by
  obtain ⟨b, hb, hrest⟩ := isOpen_of_unclosed rest hbody
  rw [take, read_string hquote, hbody]
  refine ⟨?_, ?_, rfl, ?_⟩
  · simp [Body.reading, skip]
  · simp only [Body.reading, skip, List.drop_length]
    exact .unterminatedString (by simp) hquote hb hrest
  · simp [Body.reading, skip]

/-- A call on a scanner that does not stand on whitespace. -/
theorem exists_advances_take {cs : List Char} {p : Position}
    (hspace : ∀ c ∈ cs.head?, Unicode.isWhiteSpace c = false) :
    ∃ skipped taken, Advances ⟨cs, p⟩ (take ⟨cs, p⟩) skipped taken := by
  by_cases htoken : ∃ t n, read cs = .token t n
  · obtain ⟨t, n, hread⟩ := htoken
    rw [take, hread]
    refine ⟨[], cs.take n, ?_, .token (by simp) (fits_of_read hread), rfl, rfl⟩
    exact (List.take_append_drop n cs).symm
  have hnone : ∀ t n, read cs ≠ .token t n := fun t n hread => htoken ⟨t, n, hread⟩
  have hfails := fails_of_read hnone
  generalize hread : read cs = r at hfails
  cases hfails with
  | @unexpected c rest hc h =>
      rw [take, hread]
      refine ⟨[], [], rfl, ?_, rfl, rfl⟩
      refine .unexpectedChar (by simp) (hspace c rfl) fun t taken after hfits => ?_
      rcases starts_of_fits hfits with hword | hsign
      · cases hc.symm.trans hword
      · exact h hsign
  | loneBang h =>
      rw [take, hread]
      exact ⟨[], [], rfl, .loneBang (by simp) h, rfl, rfl⟩
  | @string quote rest hquote =>
      cases hbody : readBody quote rest with
      | closed content n =>
          rw [hbody] at hread
          exact absurd hread (hnone _ _)
      | badEscape e n =>
          obtain ⟨b, more, rfl, -, hb, he⟩ := isOpen_of_badEscape rest e n hbody
          exact ⟨_, _, advances_badEscape hquote hb he more p⟩
      | unclosed => exact ⟨_, _, advances_unclosed hquote hbody p⟩

/-- Every call is of this form. -/
theorem exists_advances (s : Scanner) : ∃ skipped taken, s.Advances s.next skipped taken := by
  have hsplit : s.rest.takeWhile Unicode.isWhiteSpace ++ s.rest.dropWhile Unicode.isWhiteSpace =
    s.rest := List.takeWhile_append_dropWhile
  have hhead := List.head?_dropWhile_not Unicode.isWhiteSpace s.rest
  have hws : ∀ c ∈ s.rest.takeWhile Unicode.isWhiteSpace, Unicode.isWhiteSpace c = true :=
    fun c hc => List.mem_takeWhile_imp hc
  rw [next, skipSpace_eq]
  generalize s.rest.takeWhile Unicode.isWhiteSpace = ws at *
  generalize s.rest.dropWhile Unicode.isWhiteSpace = cs at *
  have hspace : ∀ c ∈ cs.head?, Unicode.isWhiteSpace c = false := by
    intro c hc
    rw [Option.mem_def.mp hc] at hhead
    exact hhead
  obtain ⟨skipped, taken, hrest, hmeets, htold, hbehind⟩ :=
    exists_advances_take (p := s.position.after ws) hspace
  refine ⟨ws ++ skipped, taken, ?_, hmeets.whiteSpace hws, ?_, ?_⟩
  · rw [← hsplit, List.append_assoc, ← hrest]
  · rw [htold, Position.after_append]
  · rw [hbehind, List.append_assoc, ← Position.after_append]

end Scanner

end RecordQuery
