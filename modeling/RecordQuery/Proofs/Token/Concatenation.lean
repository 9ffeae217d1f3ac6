/-
  RecordQuery.Proofs.Token.Concatenation

  Texts put one behind the other with whitespace between them. No token reaches across whitespace,
  so the tokens of the first text are followed by those of the second. The scanner does not know
  what it has read, so behind the whitespace it reads the second text as it would read it alone, but
  for the places: these are as much further on as the characters in front say.
-/

import RecordQuery.Proofs.Token.Position
import RecordQuery.Proofs.Token.Trimming

namespace RecordQuery

/-! ## Places behind other characters -/

namespace Position

/-- The same place with the characters `cs` put in front of the text. A column is counted from the
    last line feed in front of it, which is one of `cs` for places on the first line only. -/
def behind (p : Position) (cs : List Char) : Position where
  offset := cs.length + p.offset
  line := cs.count '\n' + p.line
  column := if p.line = 1 then (lastLine cs).length + p.column else p.column

theorem behind_start (cs : List Char) : start.behind cs = start.after cs := by
  rw [after_start, behind, start]
  simp only [Nat.add_zero, if_pos, Nat.add_comm]

theorem next_behind {p : Position} (h : 1 ≤ p.line) (c : Char) (cs : List Char) :
    (p.next c).behind cs = (p.behind cs).next c := by
  unfold next
  split
  · -- A line feed starts a line that is not the first.
    have hline : p.line + 1 ≠ 1 := by omega
    simp only [behind, hline, if_false]
    rfl
  · by_cases hline : p.line = 1
    · simp only [behind, hline, if_true]
      rfl
    · simp only [behind, hline, if_false]
      rfl

theorem one_le_line (cs : List Char) : 1 ≤ (start.after cs).line := by
  rw [after_start]
  exact Nat.le_add_right 1 _

/-- The place behind two runs of characters is that behind the second one, moved by the first. -/
theorem after_behind (cs ds : List Char) : (start.after ds).behind cs = (start.after cs).after ds := by
  induction ds using List.reverseRecOn with
  | nil => exact behind_start cs
  | append_singleton ds c ih =>
      rw [after_append, after_append, after_cons, after_nil, after_cons, after_nil,
        next_behind (one_le_line ds), ih]

end Position

/-- The same error at another place. -/
def LexicalError.movedTo (p : Position) : LexicalError → LexicalError
  | .unexpectedChar c _ => .unexpectedChar c p
  | .loneBang _ => .loneBang p
  | .unterminatedString _ => .unterminatedString p
  | .invalidEscape c _ => .invalidEscape c p

/-! ## The same characters at another place -/

namespace Scanner

/-- Characters that are read as one token are the next token wherever they stand. -/
theorem next_of_read {b cs : List Char} {t : Token} (p : Position)
    (hspace : ∀ c ∈ b.head?, Unicode.isWhiteSpace c = false) (hb : b ≠ [])
    (hread : read (b ++ cs) = .token t b.length) :
    next ⟨b ++ cs, p⟩ = (.ok ⟨t, p⟩, ⟨cs, p.after b⟩) := by
  have hhead : ∀ c ∈ (b ++ cs).head?, Unicode.isWhiteSpace c = false := by
    rw [List.head?_append_of_ne_nil b hb]
    exact hspace
  rw [next, skipSpace_of_head hhead, take, hread]
  simp only [skip_append]

/-- An error is the same wherever the scanner stands, at a place that is as far from it. -/
theorem next_error_moved {s s' : Scanner} {e : LexicalError} (h : s.next = (.error e, s')) :
    ∃ b, e.position = s.position.after b ∧
      ∀ q, (next ⟨s.rest, q⟩).1 = .error (e.movedTo (q.after b)) := by
  simp only [next, skipSpace_eq, take] at h ⊢
  cases hread : read (s.rest.dropWhile Unicode.isWhiteSpace) with
  | token t n =>
      simp only [hread, Prod.mk.injEq, reduceCtorEq, false_and] at h
  | unexpected c =>
      simp only [hread, Prod.mk.injEq, Except.error.injEq] at h
      obtain ⟨rfl, -⟩ := h
      exact ⟨_, rfl, fun q => rfl⟩
  | loneBang =>
      simp only [hread, Prod.mk.injEq, Except.error.injEq] at h
      obtain ⟨rfl, -⟩ := h
      exact ⟨_, rfl, fun q => rfl⟩
  | badEscape c n =>
      simp only [hread, Prod.mk.injEq, Except.error.injEq] at h
      obtain ⟨rfl, -⟩ := h
      refine ⟨s.rest.takeWhile Unicode.isWhiteSpace ++
        (s.rest.dropWhile Unicode.isWhiteSpace).take n, ?_, fun q => ?_⟩
      · exact (Position.after_append ..).symm
      · rw [Position.after_append]
        rfl
  | unclosed =>
      simp only [hread, Prod.mk.injEq, Except.error.injEq] at h
      obtain ⟨rfl, -⟩ := h
      exact ⟨_, rfl, fun q => rfl⟩

/-- The error that ends the tokens is the same wherever the characters stand. -/
theorem ending_moved (s : Scanner) {e : LexicalError} (h : s.lexed.ending = .error e) :
    ∃ b, e.position = s.position.after b ∧
      ∀ q, (lexed ⟨s.rest, q⟩).ending = .error (e.movedTo (q.after b)) := by
  induction s using lexed.induct with
  | case1 s e' s' hs =>
      rw [lexed_of_error hs] at h
      obtain rfl := Except.error.inj h
      obtain ⟨b, hb, hmoved⟩ := next_error_moved hs
      refine ⟨b, hb, fun q => ?_⟩
      rw [lexed_of_error (Prod.ext (hmoved q) rfl)]
  | case2 s l s' hs hl =>
      rw [lexed_of_end hs hl] at h
      cases h
  | case3 s l s' hs hl ih =>
      rw [lexed_of_token hs hl] at h
      obtain ⟨ws, b, hrest, hws, hspace, hb, hread, hstart, hnext⟩ := next_split hs hl
      obtain ⟨more, hmore, hmoved⟩ := ih h
      refine ⟨ws ++ (b ++ more), ?_, fun q => ?_⟩
      · rw [hmore, hnext, hstart, Position.after_append, Position.after_append]
      · have hsame := next_of_read (q.after ws) hspace hb (hread _ ⟨rfl, rfl⟩)
        rw [hrest, lexed_congr (next_whiteSpace_append hws _ q), lexed_of_token hsame hl, hmoved,
          Position.after_append, Position.after_append]

end Scanner

/-! ## The first text -/

/-- Behind characters that form tokens, and in front of others that make none of these longer, the
    scanner goes on with the others. -/
theorem Layout.lexed_append {cs ds : List Char} {ts : List Token} (h : Layout cs ts)
    (hds : Breaks ds) (p : Position) :
    (Scanner.lexed ⟨cs ++ ds, p⟩).lexemes.map (·.token) =
        ts ++ (Scanner.lexed ⟨ds, p.after cs⟩).lexemes.map (·.token) ∧
      (Scanner.lexed ⟨cs ++ ds, p⟩).ending = (Scanner.lexed ⟨ds, p.after cs⟩).ending := by
  induction h generalizing p with
  | @blank ws hws =>
      rw [Scanner.lexed_congr (Scanner.next_whiteSpace_append hws ds p)]
      exact ⟨rfl, rfl⟩
  | @token ws b rest t ts hws hb hspace hread ht more ih =>
      have hnext := Scanner.next_of_read (p.after ws) hspace hb
        (hread (rest ++ ds) (hds.sameEdge_append rest))
      obtain ⟨htokens, hending⟩ := ih ((p.after ws).after b)
      rw [List.append_assoc, List.append_assoc,
        Scanner.lexed_congr (Scanner.next_whiteSpace_append hws _ p),
        Scanner.lexed_of_token hnext ht, Position.after_append, Position.after_append]
      exact ⟨congrArg (t :: ·) htokens, hending⟩

/-! ## Both texts -/

/-- Behind a text that is split into tokens, and behind whitespace, a second text has the outcome
    that it has alone: its tokens stand behind those of the first text, whose end is gone, or the
    error is the one that it has alone, with its offset and its line counted from the start of the
    first text. -/
theorem tokenize_behind_whiteSpace {s w : String} {ts : List Token} (h : tokenize s = .ok ts)
    (hw : w ≠ "") (hspace : ∀ c ∈ w.toList, Unicode.isWhiteSpace c = true) (s' : String) :
    ts = ts.dropLast ++ [.endOfText] ∧
      tokenize (s ++ w ++ s') = ((tokenize s').map (ts.dropLast ++ ·)).mapError fun e =>
        e.movedTo (e.position.behind (s ++ w).toList) := by
  obtain ⟨us, rfl, hscans⟩ := tokenize_eq_ok_iff_scans.mp h
  rw [List.dropLast_concat]
  refine ⟨rfl, ?_⟩
  have hbreaks : Breaks (w.toList ++ s'.toList) := by
    have hne : w.toList ≠ [] := by simpa using hw
    intro c hc
    rw [List.head?_append_of_ne_nil _ hne] at hc
    exact breaks_of_whiteSpace hspace c hc
  obtain ⟨htokens, hending⟩ := hscans.layout.lexed_append hbreaks .start
  -- Behind the whitespace the scanner stands in front of the second text, at a later place.
  rw [Scanner.lexed_congr (Scanner.next_whiteSpace_append hspace _ _), ← Position.after_append]
    at htokens hending
  have hfront : Scanner.lexed ⟨s.toList ++ (w.toList ++ s'.toList), .start⟩ =
      lex (s ++ w ++ s') := by
    rw [lex, Scanner.ofText, String.toList_append, String.toList_append, List.append_assoc]
  rw [hfront] at htokens hending
  rw [String.toList_append]
  cases hend : (lex s').ending with
  | ok p =>
      have hafter := Scans.of_lexed (.ofText s') ⟨p, hend⟩
      obtain ⟨hsame, q, hq⟩ := hafter (Position.start.after (s.toList ++ w.toList))
      have halone := tokenize_eq_ok_iff.mpr ⟨rfl, p, hend⟩
      have hboth := tokenize_eq_ok_iff.mpr ⟨htokens.trans (congrArg (us ++ ·) hsame),
        q, hending.trans hq⟩
      rw [hboth, halone, List.append_assoc]
      rfl
  | error e =>
      obtain ⟨b, hb, hmoved⟩ := (Scanner.ofText s').ending_moved hend
      have hplace : e.position.behind (s.toList ++ w.toList) =
          (Position.start.after (s.toList ++ w.toList)).after b := by
        rw [hb]
        exact Position.after_behind _ b
      have halone := tokenize_eq_error_iff.mpr hend
      have hboth := tokenize_eq_error_iff.mpr (hending.trans (hmoved _))
      rw [hboth, halone, ← hplace]
      rfl

/-- Two strings, the first of which spans two lines, and behind a line feed a word on the first line
    of the second text: in front of the end of that text, and in front of a string without an end.
    -/
theorem tokenize_behind_whiteSpace_of_lines :
    tokenize "a = 'x\ny'\n b == 'c'" =
        .ok [.word "a", .equal, .literal "x\ny", .word "b", .equal, .literal "c", .endOfText] ∧
      tokenize "a = 'x\ny'\n b == 'c" = .error (.unterminatedString ⟨16, 3, 7⟩) := by
  have hfirst : tokenize "a = 'x\ny'" =
      .ok [.word "a", .equal, .literal "x\ny", .endOfText] := by decide +kernel
  have hsecond : tokenize "b == 'c'" = .ok [.word "b", .equal, .literal "c", .endOfText] := by
    decide +kernel
  have hbroken : tokenize "b == 'c" = .error (.unterminatedString ⟨5, 1, 6⟩) := by
    decide +kernel
  have hspace : ∀ c ∈ "\n ".toList, Unicode.isWhiteSpace c = true :=
    List.all_eq_true.mp (by decide)
  refine ⟨?_, ?_⟩
  · refine (tokenize_behind_whiteSpace hfirst (by decide) hspace "b == 'c'").2.trans ?_
    rw [hsecond]
    rfl
  · refine (tokenize_behind_whiteSpace hfirst (by decide) hspace "b == 'c").2.trans ?_
    rw [hbroken]
    decide

end RecordQuery
