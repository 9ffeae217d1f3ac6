/-
  RecordQuery.Proofs.Token.Quoted

  Written string literals. Writing escapes the characters that would end a literal too early or
  break its line, and the scanner undoes just that. So a literal is read back as the string it was
  written for wherever it stands, and nothing of what stands behind it is taken with it.
-/

import RecordQuery.Proofs.Token.Concatenation

namespace RecordQuery

/-! ## The characters of a literal -/

namespace Text

theorem ne_of_mem_escape {c d : Char} (hd : d ∈ escape c) : d ≠ '\n' ∧ d ≠ '\t' ∧ d ≠ '\r' := by
  unfold escape at hd
  split at hd
  -- A character that is not escaped is none of the three.
  case h_6 hfeed htab hreturn =>
    obtain rfl := List.mem_singleton.mp hd
    exact ⟨hfeed, htab, hreturn⟩
  all_goals
    simp only [List.mem_cons, List.not_mem_nil, or_false] at hd
    obtain rfl | rfl := hd <;> decide

/-- A literal stands on one line, whatever the string. -/
theorem ne_of_mem_quote {s : String} {c : Char} (hc : c ∈ (quote s).toList) :
    c ≠ '\n' ∧ c ≠ '\t' ∧ c ≠ '\r' := by
  rw [quote, String.toList_ofList] at hc
  obtain rfl | hc := List.mem_cons.mp hc
  · decide
  obtain hc | hc := List.mem_append.mp hc
  · obtain ⟨d, -, hcd⟩ := List.mem_flatMap.mp hc
    exact ne_of_mem_escape hcd
  · obtain rfl := List.mem_singleton.mp hc
    decide

end Text

/-- Characters on one line move a position along its line. -/
theorem Position.after_of_line {cs : List Char} (h : ∀ c ∈ cs, c ≠ '\n') (p : Position) :
    p.after cs = ⟨p.offset + cs.length, p.line, p.column + cs.length⟩ := by
  induction cs generalizing p with
  | nil => rfl
  | cons c cs ih =>
      have hnext : p.next c = ⟨p.offset + 1, p.line, p.column + 1⟩ :=
        if_neg (h c List.mem_cons_self)
      rw [after_cons, hnext, ih fun d hd => h d (List.mem_cons_of_mem c hd)]
      simp only [List.length_cons, Position.mk.injEq, true_and]
      omega

/-! ## Reading it back -/

theorem Scanner.read_quote (s : String) (cs : List Char) :
    read ((Text.quote s).toList ++ cs) = .token (.literal s) (Text.quote s).toList.length := by
  rw [Text.quote, String.toList_ofList, List.cons_append, List.append_assoc]
  show (readBody '"' (s.toList.flatMap Text.escape ++ '"' :: cs)).reading = _
  rw [readBody_quote, Body.reading, String.ofList_toList, List.length_cons, List.length_append]
  rfl

/-- In front of a literal the scanner reads the string that it was written for and then stands at
    what follows it, as many columns further on as the literal has characters; for the literal has
    no line break in it, nor a tab. -/
theorem quote_reads_back (s : String) :
    (∀ (rest : List Char) (p : Position),
      Scanner.next ⟨(Text.quote s).toList ++ rest, p⟩ =
        (.ok ⟨.literal s, p⟩,
          ⟨rest, ⟨p.offset + (Text.quote s).toList.length, p.line,
            p.column + (Text.quote s).toList.length⟩⟩)) ∧
      ∀ c ∈ (Text.quote s).toList, c ≠ '\n' ∧ c ≠ '\t' ∧ c ≠ '\r' := by
  refine ⟨fun rest p => ?_, fun c hc => Text.ne_of_mem_quote hc⟩
  have hquote : (Text.quote s).toList.head? = some '"' := by
    rw [Text.quote, String.toList_ofList]
    rfl
  have hspace : ∀ c ∈ (Text.quote s).toList.head?, Unicode.isWhiteSpace c = false := by
    rw [hquote]
    rintro c ⟨⟩
    decide
  have hne : (Text.quote s).toList ≠ [] := by
    intro hnil
    rw [hnil] at hquote
    cases hquote
  rw [Scanner.next_of_read p hspace hne (Scanner.read_quote s rest),
    Position.after_of_line fun c hc => (Text.ne_of_mem_quote hc).1]

/-- A backslash at the end of the string does not escape the closing quote, and one in front of a
    quote escapes that quote no more than itself. -/
theorem quote_reads_back_of_backslash :
    Scanner.next ⟨(Text.quote "a\\\"\n\\").toList ++ ['"', 'x'], .start⟩ =
        (.ok ⟨.literal "a\\\"\n\\", .start⟩, ⟨['"', 'x'], ⟨11, 1, 12⟩⟩) ∧
      '\\' ∈ (Text.quote "a\\\"\n\\").toList ∧ '\\' ≠ '\n' ∧ '\\' ≠ '\t' ∧ '\\' ≠ '\r' := by
  have hmem : '\\' ∈ (Text.quote "a\\\"\n\\").toList := by decide +kernel
  have hlength : (Text.quote "a\\\"\n\\").toList.length = 11 := by decide +kernel
  obtain ⟨hread, hline⟩ := quote_reads_back "a\\\"\n\\"
  refine ⟨?_, hmem, hline _ hmem⟩
  rw [hread, hlength]
  rfl

end RecordQuery
