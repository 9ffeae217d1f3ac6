/-
  RecordQuery.Proofs.Token.Progress

  Asking a scanner again and again, also after errors and after the end of the text. Each call moves
  the scanner on or leaves it at rest: at the end of the text, or in front of a character with which
  no token starts. A scanner at rest gives the same result for ever. So the results are all one
  after as many calls as the text has characters and one more, and splitting the text into tokens
  takes no more calls than that.
-/

import RecordQuery.Proofs.Token.Position

namespace RecordQuery

namespace Scanner

variable {s : Scanner}

/-! ## One call -/

/-- The results with which a scanner comes to rest. -/
inductive Rests : Except LexicalError Lexeme → Prop
  | endOfText (p : Position) : Rests (.ok ⟨.endOfText, p⟩)
  | loneBang (p : Position) : Rests (.error (.loneBang p))
  | unexpectedChar (c : Char) (p : Position) : Rests (.error (.unexpectedChar c p))

/-- At the end nothing is skipped. -/
theorem skip_of_nil (h : s.rest = []) (n : Nat) : s.skip n = s := by
  obtain ⟨rest, position⟩ := s
  subst h
  simp [skip]

/-- Characters that are skipped are behind. -/
theorem offset_lt_skip (h : s.rest ≠ []) {n : Nat} (hn : 0 < n) :
    s.position.offset < (s.skip n).position.offset := by
  have hlength : 0 < s.rest.length := List.length_pos_iff.mpr h
  rw [offset_skip]
  omega

theorem offset_le_skipSpace (s : Scanner) : s.position.offset ≤ s.skipSpace.position.offset := by
  rw [skipSpace, offset_skip]
  omega

/-- At the end of the text nothing else is read than the end. -/
theorem ne_nil_of_read {cs : List Char} {r : Reading} (h : read cs = r)
    (hr : r ≠ .token .endOfText 0) : cs ≠ [] := by
  rintro rfl
  exact hr h.symm

/-- A call takes characters, or it goes over whitespace only and the scanner is at rest there. -/
theorem next_cases (s : Scanner) :
    (s.skipSpace.position.offset < s.next.2.position.offset ∧ ¬ Rests s.next.1) ∨
      (s.next.2 = s.skipSpace ∧ Rests s.next.1) := by
  rw [next, take]
  cases hread : read s.skipSpace.rest with
  | token t n =>
      by_cases ht : t = .endOfText
      · subst ht
        have hnil : s.skipSpace.rest = [] := eq_nil_of_read_end hread
        exact .inr ⟨skip_of_nil hnil n, .endOfText _⟩
      · obtain ⟨hn, hlength⟩ := read_length hread ht
        have hne : s.skipSpace.rest ≠ [] := List.length_pos_iff.mp hlength
        refine .inl ⟨offset_lt_skip hne hn, ?_⟩
        rintro ⟨⟩
        exact ht rfl
  | unexpected c => exact .inr ⟨rfl, .unexpectedChar c _⟩
  | loneBang => exact .inr ⟨rfl, .loneBang _⟩
  | badEscape e n =>
      have hne : s.skipSpace.rest ≠ [] := ne_nil_of_read hread Reading.noConfusion
      refine .inl ⟨offset_lt_skip hne (Nat.succ_pos n), ?_⟩
      rintro ⟨⟩
  | unclosed =>
      -- All that is left is taken, and that is not nothing.
      have hne : s.skipSpace.rest ≠ [] := ne_nil_of_read hread Reading.noConfusion
      refine .inl ⟨offset_lt_skip hne (List.length_pos_iff.mpr hne), ?_⟩
      rintro ⟨⟩

/-- A call moves on or has nothing to move over. -/
theorem offset_lt_next_or_rests (s : Scanner) :
    s.position.offset < s.next.2.position.offset ∨ Rests s.next.1 := by
  have hspace := s.offset_le_skipSpace
  rcases s.next_cases with ⟨hlt, -⟩ | ⟨-, hrests⟩
  · exact .inl (by omega)
  · exact .inr hrests

theorem skipSpace_skipSpace (s : Scanner) : s.skipSpace.skipSpace = s.skipSpace := by
  have hhead := List.head?_dropWhile_not Unicode.isWhiteSpace s.rest
  rw [s.skipSpace_eq]
  refine skipSpace_of_head fun c hc => ?_
  rw [Option.mem_def.mp hc] at hhead
  exact hhead

/-- The next call gives what the call gave with which the scanner came to rest. -/
theorem next_of_rests (h : Rests s.next.1) : s.next.2.next = s.next := by
  rcases s.next_cases with ⟨-, hnot⟩ | ⟨hspace, -⟩
  · exact absurd h hnot
  · rw [hspace]
    show s.skipSpace.skipSpace.take = s.skipSpace.take
    rw [skipSpace_skipSpace]

/-! ## Many calls -/

/-- Calls behind other calls start where these have led. -/
theorem calls_add (s : Scanner) (j k : Nat) : s.calls (j + k) = (s.calls j).calls k := by
  rw [Nat.add_comm]
  exact Function.iterate_add_apply _ k j s

/-- Once it has come to rest, a scanner gives one result for ever and stays where it is. -/
theorem next_calls_of_rests {k j : Nat} (h : Rests (s.calls k).next.1) (hkj : k < j) :
    (s.calls j).next = ((s.calls k).next.1, s.calls j) := by
  have hsame : (s.calls (k + 1)).next = (s.calls k).next := by
    rw [calls_succ_eq_next]
    exact next_of_rests h
  have hfixed : (s.calls (k + 1)).next.2 = s.calls (k + 1) := by
    rw [hsame, calls_succ_eq_next]
  have hcalls : s.calls j = s.calls (k + 1) := by
    obtain ⟨m, rfl⟩ : ∃ m, j = k + 1 + m := ⟨j - (k + 1), by omega⟩
    rw [calls_add]
    exact Function.iterate_fixed hfixed m
  rw [hcalls, hsame, calls_succ_eq_next]

/-- As long as it does not come to rest, a scanner moves on by a character or more in each call. -/
theorem add_le_offset_calls {k : Nat} (h : ∀ i < k, ¬ Rests (s.calls i).next.1) :
    s.position.offset + k ≤ (s.calls k).position.offset := by
  induction k with
  | zero => exact Nat.le_refl _
  | succ k ih =>
      have hbefore := ih fun i hi => h i (Nat.lt_succ_of_lt hi)
      have hstep : (s.calls k).position.offset < (s.calls (k + 1)).position.offset := by
        rw [calls_succ_eq_next]
        exact (s.calls k).offset_lt_next_or_rests.resolve_right (h k (Nat.lt_succ_self k))
      omega

/-- A scanner cannot move on more often than the text has characters. -/
theorem le_length_of_not_rests {text : String} {k : Nat}
    (h : ∀ i < k, ¬ Rests ((ofText text).calls i).next.1) : k ≤ text.toList.length := by
  have hmoved : 0 + k ≤ ((ofText text).calls k).position.offset := add_le_offset_calls h
  have hinside := ((inside_ofText text).calls k).placeIn.offset_le
  omega

theorem rests_calls_length (text : String) :
    Rests ((ofText text).calls text.toList.length).next.1 := by
  by_contra hnot
  have hmoving : ∀ i < text.toList.length + 1, ¬ Rests ((ofText text).calls i).next.1 := by
    intro i hi hrests
    rcases Nat.lt_or_ge i text.toList.length with hlt | hge
    · -- A scanner that had come to rest before would have the same result now.
      rw [next_calls_of_rests hrests hlt] at hnot
      exact hnot hrests
    · obtain rfl : i = text.toList.length := by omega
      exact hnot hrests
  have := le_length_of_not_rests hmoving
  omega

/-! ## Splitting -/

theorem not_rests_of_token {l : Lexeme} (hl : l.token ≠ .endOfText) : ¬ Rests (.ok l) := by
  rintro ⟨⟩
  exact hl rfl

/-- The tokens of a text are the results of as many calls, none of which brings the scanner to
    rest. -/
theorem not_rests_of_lt_length (s : Scanner) :
    ∀ i < s.lexed.lexemes.length, ¬ Rests (s.calls i).next.1 := by
  induction s using lexed.induct with
  | case1 s e s' hs =>
      rw [lexed_of_error hs]
      simp
  | case2 s l s' hs hl =>
      rw [lexed_of_end hs hl]
      simp
  | case3 s l s' hs hl ih =>
      rw [lexed_of_token hs hl]
      intro i hi
      cases i with
      | zero =>
          rw [calls_zero, hs]
          exact not_rests_of_token hl
      | succ i =>
          rw [calls_succ, hs]
          exact ih i (Nat.lt_of_succ_lt_succ hi)

/-- Splitting a text is calling until the end of the text or an error is the result. -/
theorem mapM_calls (s : Scanner) :
    ((List.range (s.lexed.lexemes.length + 1)).mapM fun i => (s.calls i).next.1) =
      s.lexed.ending.map fun p => s.lexed.lexemes ++ [⟨.endOfText, p⟩] := by
  induction s using lexed.induct with
  | case1 s e s' hs =>
      have hresult : (s.calls 0).next.1 = .error e := by rw [calls_zero, hs]
      rw [lexed_of_error hs]
      show ((do let l ← (s.calls 0).next.1; return [l]) : Except LexicalError (List Lexeme)) = _
      rw [hresult]
      rfl
  | case2 s l s' hs hl =>
      have hresult : (s.calls 0).next.1 = .ok ⟨.endOfText, l.start⟩ := by
        rw [calls_zero, hs, ← hl]
      rw [lexed_of_end hs hl]
      show ((do let l ← (s.calls 0).next.1; return [l]) : Except LexicalError (List Lexeme)) = _
      rw [hresult]
      rfl
  | case3 s l s' hs hl ih =>
      have hmore : (fun i => (s.calls i).next.1) ∘ Nat.succ = fun i => (s'.calls i).next.1 := by
        funext i
        show (s.calls (i + 1)).next.1 = (s'.calls i).next.1
        rw [calls_succ, hs]
      rw [lexed_of_token hs hl, List.length_cons, List.range_succ_eq_map, List.mapM_cons,
        List.mapM_map, calls_zero, hs, ok_bind, hmore, ih]
      cases s'.lexed.ending <;> rfl

end Scanner

/-- Splitting a text is calling for one token after the other, up to the first failure. -/
theorem tokenize_eq_mapM_calls (text : String) :
    tokenize text = ((List.range ((lex text).lexemes.length + 1)).mapM fun i =>
      ((Scanner.ofText text).calls i).next.1).map (·.map (·.token)) := by
  rw [lex, Scanner.mapM_calls]
  show (Scanner.ofText text).lexed.ending.map _ = _
  cases (Scanner.ofText text).lexed.ending with
  | error e => rfl
  | ok p =>
      have htokens : ((lex text).lexemes ++ [(⟨.endOfText, p⟩ : Lexeme)]).map Lexeme.token =
          (lex text).lexemes.map Lexeme.token ++ [.endOfText] := List.map_append
      exact congrArg Except.ok htokens.symm

theorem length_of_tokenize {text : String} {ts : List Token} (h : tokenize text = .ok ts) :
    ts.length = (lex text).lexemes.length + 1 := by
  obtain ⟨_, -, rfl⟩ := map_eq_ok.mp h
  simp

open Scanner (Rests) in
/-- Every call moves the scanner behind where it stood, or gives the end of the text or an error
    about a character with which no token starts; from then on every call gives this result and
    leaves the scanner where it is. That is so after a call for each character of the text and one
    more at the latest. Splitting the text is making such calls up to the first error or the end of
    the text, and takes no more of them than that. -/
theorem calls_advance_or_rest (text : String) :
    (∀ k, ((Scanner.ofText text).calls k).position.offset <
        ((Scanner.ofText text).calls (k + 1)).position.offset ∨
      Rests ((Scanner.ofText text).calls k).next.1) ∧
    (∀ k j, Rests ((Scanner.ofText text).calls k).next.1 → k < j →
      ((Scanner.ofText text).calls j).next =
        (((Scanner.ofText text).calls k).next.1, (Scanner.ofText text).calls j)) ∧
    (∀ j, text.toList.length < j →
      ((Scanner.ofText text).calls j).next =
        (((Scanner.ofText text).calls text.toList.length).next.1,
          (Scanner.ofText text).calls j)) ∧
    ∃ n ≤ text.toList.length,
      tokenize text = ((List.range (n + 1)).mapM fun i =>
        ((Scanner.ofText text).calls i).next.1).map (·.map (·.token)) ∧
      ∀ ts, tokenize text = .ok ts → ts.length = n + 1 := by
  refine ⟨fun k => ?_, fun k j => Scanner.next_calls_of_rests,
    fun j => Scanner.next_calls_of_rests (Scanner.rests_calls_length text), ?_⟩
  · rw [Scanner.calls_succ_eq_next]
    exact Scanner.offset_lt_next_or_rests _
  · have hle : (lex text).lexemes.length ≤ text.toList.length :=
      Scanner.le_length_of_not_rests (Scanner.ofText text).not_rests_of_lt_length
    exact ⟨_, hle, tokenize_eq_mapM_calls text, fun ts => length_of_tokenize⟩

/-- Behind a bad escape the scanner goes on with the letter that is not escaped, and then rests in
    front of an exclamation mark, whatever stands behind that. A text of six characters gives the
    end of the text with the seventh call at the latest, and is split into seven tokens at most. -/
theorem rests_at_bang_and_splits :
    (∀ j, 2 < j → ((Scanner.ofText "'\\q !'").calls j).next =
      (.error (.loneBang ⟨4, 1, 5⟩), (Scanner.ofText "'\\q !'").calls j)) ∧
    ((Scanner.ofText "a = ''").calls 7).next =
      (.ok ⟨.endOfText, ⟨6, 1, 7⟩⟩, (Scanner.ofText "a = ''").calls 7) ∧
    ∃ ts, tokenize "a = ''" = .ok ts ∧ ts.length ≤ "a = ''".toList.length + 1 := by
  obtain ⟨-, hrest, -, -⟩ := calls_advance_or_rest "'\\q !'"
  obtain ⟨-, -, hconstant, n, hn, -, hlength⟩ := calls_advance_or_rest "a = ''"
  have hbang : ((Scanner.ofText "'\\q !'").calls 2).next.1 = .error (.loneBang ⟨4, 1, 5⟩) := by
    decide +kernel
  have hend : ((Scanner.ofText "a = ''").calls 6).next.1 = .ok ⟨.endOfText, ⟨6, 1, 7⟩⟩ := by
    decide +kernel
  have htokens : tokenize "a = ''" = .ok [.word "a", .equal, .literal "", .endOfText] :=
    eq_ok_of_toOption (by decide +kernel)
  refine ⟨fun j hj => ?_, ?_, ?_⟩
  · rw [hrest 2 j (hbang ▸ .loneBang _) hj, hbang]
  · rw [hconstant 7 (by decide)]
    exact congrArg (·, _) hend
  · have hcount := hlength _ htokens
    exact ⟨_, htokens, by omega⟩

end RecordQuery
