/-
  RecordQuery.Proofs.Token.Stream

  The tokens of a text with their positions, one behind the other: those that are read, and the end
  of the text if it is reached. No two tokens have one position, so the index of a token says the
  same as its position.
-/

import RecordQuery.Proofs.Token.Scanning

namespace RecordQuery

/-- The tokens in front of the first error, the end of the text included. -/
def Lexed.stream (l : Lexed) : List Lexeme :=
  match l.ending with
  | .ok p => l.lexemes ++ [⟨.endOfText, p⟩]
  | .error _ => l.lexemes

/-- The tokens of a text, the end of the text included if it is reached. -/
def tokensOf (text : String) : List Token :=
  (lex text).stream.map (·.token)

/-- The tokens of a text are those of its lexemes, the end included. -/
theorem tokenize_eq_ok_iff_stream {text : String} {ts : List Token} :
    tokenize text = .ok ts ↔
      (lex text).stream.map (·.token) = ts ∧ ∃ p, (lex text).ending = .ok p := by
  dsimp only [tokenize]
  rw [Lexed.stream]
  cases (lex text).ending <;> simp [Except.map]

theorem tokensOf_of_tokenize {text : String} {ts : List Token} (h : tokenize text = .ok ts) :
    tokensOf text = ts :=
  (tokenize_eq_ok_iff_stream.mp h).1

/-- Tokenizing fails exactly if scanning does, with the same error. -/
theorem tokenize_eq_error_iff {text : String} {l : LexicalError} :
    tokenize text = .error l ↔ (lex text).ending = .error l := by
  dsimp only [tokenize]
  cases (lex text).ending <;> simp [Except.map]

/-! ## Positions -/

theorem Position.offset_after (p : Position) (cs : List Char) :
    (p.after cs).offset = p.offset + cs.length := by
  induction cs generalizing p with
  | nil => rfl
  | cons c cs ih =>
      rw [after_cons, ih, List.length_cons, Position.next]
      split <;> simp only <;> omega

namespace Scanner

/-- No more is skipped than there is. -/
theorem offset_skip (s : Scanner) (n : Nat) :
    (s.skip n).position.offset = s.position.offset + min n s.rest.length := by
  rw [skip, Position.offset_after, List.length_take]

/-- A token starts no earlier than where the scanner is, and the scanner moves behind its start. -/
theorem offset_of_next {s s' : Scanner} {l : Lexeme} (h : s.next = (.ok l, s')) :
    s.position.offset ≤ l.start.offset ∧
      (l.token ≠ .endOfText → l.start.offset < s'.position.offset) := by
  have hspace : s.position.offset ≤ s.skipSpace.position.offset := by
    rw [skipSpace, offset_skip]
    omega
  unfold next take at h
  split at h <;> simp only [Prod.mk.injEq, reduceCtorEq, false_and, Except.ok.injEq] at h
  next t n hread =>
    obtain ⟨rfl, rfl⟩ := h
    refine ⟨hspace, fun ht => ?_⟩
    obtain ⟨hn, hrest⟩ := read_length hread ht
    rw [offset_skip]
    exact Nat.lt_add_of_pos_right (Nat.lt_min.mpr ⟨hn, hrest⟩)

theorem stream_of_token {s s' : Scanner} {l : Lexeme} (h : s.next = (.ok l, s'))
    (hl : l.token ≠ .endOfText) : s.lexed.stream = l :: s'.lexed.stream := by
  rw [lexed_of_token h hl]
  unfold Lexed.stream
  cases s'.lexed.ending <;> rfl

theorem stream_of_end {s s' : Scanner} {l : Lexeme} (h : s.next = (.ok l, s'))
    (hl : l.token = .endOfText) : s.lexed.stream = [l] := by
  rw [lexed_of_end h hl, Lexed.stream, ← hl]
  rfl

theorem stream_of_error {s s' : Scanner} {e : LexicalError} (h : s.next = (.error e, s')) :
    s.lexed.stream = [] := by
  rw [lexed_of_error h]
  rfl

/-- The tokens of a text stand one behind the other. -/
theorem stream_sorted (s : Scanner) :
    (∀ l ∈ s.lexed.stream, s.position.offset ≤ l.start.offset) ∧
      s.lexed.stream.Pairwise fun l m => l.start.offset < m.start.offset := by
  induction s using lexed.induct with
  | case1 s e s' hs =>
      rw [stream_of_error hs]
      simp
  | case2 s l s' hs hl =>
      rw [stream_of_end hs hl]
      simpa using (offset_of_next hs).1
  | case3 s l s' hs hl ih =>
      obtain ⟨hle, hlt⟩ := offset_of_next hs
      rw [stream_of_token hs hl, List.pairwise_cons]
      refine ⟨fun m hm => ?_, fun m hm => Nat.lt_of_lt_of_le (hlt hl) (ih.1 m hm), ih.2⟩
      rcases List.mem_cons.mp hm with rfl | hm
      · exact hle
      · have := ih.1 m hm
        have := hlt hl
        omega

/-- An error is found no earlier than where the scanner is. -/
theorem offset_of_next_error {s s' : Scanner} {e : LexicalError} (h : s.next = (.error e, s')) :
    s.position.offset ≤ e.position.offset := by
  have hspace : s.position.offset ≤ s.skipSpace.position.offset := by
    rw [skipSpace, offset_skip]
    omega
  refine Nat.le_trans hspace ?_
  unfold next take at h
  split at h <;> simp only [Prod.mk.injEq, reduceCtorEq, false_and, Except.error.injEq] at h
  all_goals obtain ⟨rfl, -⟩ := h
  -- Only a bad escape is found behind other characters.
  case h_4 =>
    rw [LexicalError.position, offset_skip]
    exact Nat.le_add_right _ _
  all_goals exact Nat.le_refl _

/-- The error that ends a text stands behind all its tokens. -/
theorem stream_lt_error (s : Scanner) {e : LexicalError} (h : s.lexed.ending = .error e) :
    s.position.offset ≤ e.position.offset ∧
      ∀ l ∈ s.lexed.stream, l.start.offset < e.position.offset := by
  induction s using lexed.induct with
  | case1 s e' s' hs =>
      rw [lexed_of_error hs] at h
      obtain rfl := Except.error.inj h
      rw [stream_of_error hs]
      exact ⟨offset_of_next_error hs, by simp⟩
  | case2 s l s' hs hl =>
      rw [lexed_of_end hs hl] at h
      cases h
  | case3 s l s' hs hl ih =>
      rw [lexed_of_token hs hl] at h
      obtain ⟨hle, hall⟩ := ih h
      obtain ⟨hbefore, hlt⟩ := offset_of_next hs
      have hstart := Nat.lt_of_lt_of_le (hlt hl) hle
      rw [stream_of_token hs hl, List.forall_mem_cons]
      exact ⟨Nat.le_trans hbefore (Nat.le_of_lt hstart), hstart, hall⟩

end Scanner

/-- The token with the index `i` of a text stands at the position `p`. -/
def TokenAt (text : String) (i : Nat) (p : Position) : Prop :=
  (lex text).stream[i]?.map (·.start) = some p

instance (text : String) (i : Nat) (p : Position) : Decidable (TokenAt text i p) :=
  inferInstanceAs (Decidable (_ = _))

section

variable {text : String} {i j : Nat} {p q : Position}

/-- The tokens of a text stand in the order of their indices. -/
theorem TokenAt.offset_lt (hi : TokenAt text i p) (hj : TokenAt text j q) (h : i < j) :
    p.offset < q.offset := by
  obtain ⟨l, hl, rfl⟩ := Option.map_eq_some_iff.mp hi
  obtain ⟨m, hm, rfl⟩ := Option.map_eq_some_iff.mp hj
  have hsorted := List.pairwise_iff_getElem.mp (Scanner.ofText text).stream_sorted.2
  obtain ⟨hi', rfl⟩ := List.getElem?_eq_some_iff.mp hl
  obtain ⟨hj', rfl⟩ := List.getElem?_eq_some_iff.mp hm
  exact hsorted i j hi' hj' h

/-- The error that ends a text stands behind each of its tokens. -/
theorem TokenAt.offset_lt_error (hi : TokenAt text i p) {e : LexicalError}
    (he : (lex text).ending = .error e) : p.offset < e.position.offset := by
  obtain ⟨l, hl, rfl⟩ := Option.map_eq_some_iff.mp hi
  exact ((Scanner.ofText text).stream_lt_error he).2 l (List.mem_of_getElem? hl)

/-- No two tokens of a text have one position. -/
theorem TokenAt.unique (hi : TokenAt text i p) (hj : TokenAt text j p) : i = j := by
  rcases Nat.lt_trichotomy i j with h | h | h
  · exact absurd (hi.offset_lt hj h) (Nat.lt_irrefl _)
  · exact h
  · exact absurd (hj.offset_lt hi h) (Nat.lt_irrefl _)

end

end RecordQuery
