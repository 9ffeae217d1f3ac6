/-
  RecordQuery.Proofs.Token.Trimming

  Whitespace at the ends of a text makes no difference to its tokens. No token ends in whitespace,
  so trimming cuts none of them short, and whitespace behind a token makes none of them longer.
-/

import RecordQuery.Proofs.Token.Tiling
import RecordQuery.Text.Trim

namespace RecordQuery

/-! ## The last character of a token -/

theorem Token.last_of_spelling {t : Token} {cs : List Char} (h : cs ∈ t.spellings) :
    ∀ c ∈ cs.getLast?, Unicode.isWhiteSpace c = false := by
  have hspellings : ∀ cs ∈ [['='], ['=', '='], ['!', '='], ['<'], ['>'], ['<', '='], ['>', '='],
      ['('], [')'], [',']], (cs.getLast?.all fun c => !Unicode.isWhiteSpace c) = true := by decide
  intro c hc
  have hlast := hspellings cs ?_
  · rw [Option.mem_def.mp hc] at hlast
    simpa using hlast
  cases t <;> simp_all [spellings]
  rcases h with rfl | rfl <;> simp

/-- No token ends in whitespace. -/
theorem Token.Fits.last {t : Token} {b after : List Char} (h : t.Fits b after) :
    ∀ c ∈ b.getLast?, Unicode.isWhiteSpace c = false := by
  cases t with
  | word w =>
      obtain ⟨⟨-, hall⟩, rfl, -⟩ := h
      intro c hc
      exact not_isWhiteSpace_of_isWordChar (hall c (List.mem_of_getLast? hc))
  | literal content =>
      obtain ⟨quote, hquote, cs, rfl, -, -⟩ := h
      intro c hc
      rw [← List.cons_append, List.getLast?_concat] at hc
      obtain rfl := Option.some.inj hc
      obtain rfl | rfl : quote = '"' ∨ quote = '\'' := by simpa using hquote
      · decide
      · decide
  | endOfText =>
      obtain ⟨rfl, -⟩ := h
      simp
  | _ => exact last_of_spelling h.1

/-! ## Whitespace at the ends -/

/-- Whitespace makes no token in front of it longer. -/
theorem breaks_of_whiteSpace {ws : List Char} (h : ∀ c ∈ ws, Unicode.isWhiteSpace c = true) :
    Breaks ws := by
  intro c hc
  have hspace := h c (List.mem_of_head? hc)
  refine ⟨not_isWordChar_of_isWhiteSpace hspace, ?_⟩
  rintro rfl
  exact absurd hspace (by decide)

/-- What a token sees behind it stays what it is when characters that make no token longer come
    behind the text. -/
theorem Breaks.sameEdge_append {ds : List Char} (h : Breaks ds) (cs : List Char) :
    SameEdge cs (cs ++ ds) := by
  cases cs with
  | nil => exact Breaks.sameEdge (by simp [Breaks]) h
  | cons c cs => exact ⟨rfl, rfl⟩

/-- Characters that do not end in whitespace stand in front of the whitespace at the end. -/
theorem exists_append_of_last {b ws cs after : List Char}
    (hws : ∀ c ∈ ws, Unicode.isWhiteSpace c = true)
    (hb : ∀ c ∈ b.getLast?, Unicode.isWhiteSpace c = false) (h : cs ++ ws = b ++ after) :
    ∃ more, cs = b ++ more ∧ after = more ++ ws := by
  obtain ⟨beyond, rfl, rfl⟩ | ⟨more, rfl, rfl⟩ := List.append_eq_append_iff.mp h
  · -- Characters of `b` among the whitespace would be its last ones.
    cases hbeyond : beyond.getLast? with
    | none =>
        obtain rfl := List.getLast?_eq_none_iff.mp hbeyond
        exact ⟨[], by simp⟩
    | some c =>
        have hlast := hb c (by simp [List.getLast?_append, hbeyond])
        rw [hws c (List.mem_append_left _ (List.mem_of_getLast? hbeyond))] at hlast
        cases hlast
  · exact ⟨more, rfl, rfl⟩

namespace Scans

variable {cs ws : List Char} {ts : List Token}

theorem of_whiteSpace_append (hws : ∀ c ∈ ws, Unicode.isWhiteSpace c = true)
    (h : Scans (ws ++ cs) ts) : Scans cs ts := by
  obtain ⟨rfl, hend⟩ := h .start
  rw [Scanner.lexed_congr (Scanner.next_whiteSpace_append hws cs .start)] at hend ⊢
  exact of_lexed _ hend

/-- Whitespace behind a text adds no token to it. -/
theorem append_whiteSpace (hws : ∀ c ∈ ws, Unicode.isWhiteSpace c = true) (h : Scans cs ts) :
    Scans (cs ++ ws) ts := by
  induction h.layout with
  | @blank ws' hws' =>
      have hall : ∀ c ∈ ws' ++ ws, Unicode.isWhiteSpace c = true :=
        List.forall_mem_append.mpr ⟨hws', hws⟩
      simpa using Scans.nil.whiteSpace hall
  | @token ws' b rest t ts hws' hb hspace hread ht more ih =>
      rw [List.append_assoc, List.append_assoc]
      have hrest := ih more.scans
      have hedge := (breaks_of_whiteSpace hws).sameEdge_append rest
      exact (hrest.cons_token hb hspace (hread _ hedge) ht).whiteSpace hws'

/-- Taking whitespace from the end of a text takes no token from it and cuts none of them. -/
theorem of_append_whiteSpace (hws : ∀ c ∈ ws, Unicode.isWhiteSpace c = true)
    (h : Scans (cs ++ ws) ts) : Scans cs ts := by
  generalize hall : cs ++ ws = all at h
  induction h.layout generalizing cs with
  | blank hws' =>
      subst hall
      have hcs : ∀ c ∈ cs, Unicode.isWhiteSpace c = true :=
        fun c hc => hws' c (List.mem_append_left ws hc)
      simpa using Scans.nil.whiteSpace hcs
  | @token ws' b rest t ts hws' hb hspace hread ht more ih =>
      have hfits : t.Fits b rest := by
        simpa using Scanner.fits_of_read (hread rest ⟨rfl, rfl⟩)
      have hlast : ∀ c ∈ (ws' ++ b).getLast?, Unicode.isWhiteSpace c = false := by
        rw [List.getLast?_append, Option.or_of_isSome (List.getLast?_isSome.mpr hb)]
        exact hfits.last
      rw [← List.append_assoc] at hall
      obtain ⟨less, rfl, rfl⟩ := exists_append_of_last hws hlast hall
      have hless := ih rfl more.scans
      have hedge := (breaks_of_whiteSpace hws).sameEdge_append less
      rw [List.append_assoc]
      exact (hless.cons_token hb hspace (hread _ ⟨hedge.word.symm, hedge.equal.symm⟩) ht).whiteSpace
        hws'

end Scans

/-! ## Trimming -/

/-- Trimming takes whitespace from both ends and nothing else. -/
theorem Text.exists_trim (s : String) :
    ∃ ws ws', s.toList = ws ++ ((trim s).toList ++ ws') ∧
      (∀ c ∈ ws, Unicode.isWhiteSpace c = true) ∧ ∀ c ∈ ws', Unicode.isWhiteSpace c = true := by
  have hback (cs : List Char) :
      ∃ ws, cs = trimEnd cs ++ ws ∧ ∀ c ∈ ws, Unicode.isWhiteSpace c = true := by
    refine ⟨(cs.reverse.takeWhile Unicode.isWhiteSpace).reverse, ?_, fun c hc => ?_⟩
    · rw [trimEnd, ← List.reverse_append, List.takeWhile_append_dropWhile, List.reverse_reverse]
    · exact List.mem_takeWhile_imp (List.mem_reverse.mp hc)
  obtain ⟨ws', hend, hws'⟩ := hback (s.toList.dropWhile Unicode.isWhiteSpace)
  refine ⟨s.toList.takeWhile Unicode.isWhiteSpace, ws', ?_, fun c hc => List.mem_takeWhile_imp hc,
    hws'⟩
  rw [trim, String.toList_ofList, ← hend, List.takeWhile_append_dropWhile]

theorem tokenize_eq_ok_iff_scans {s : String} {ts : List Token} :
    tokenize s = .ok ts ↔ ∃ us, ts = us ++ [.endOfText] ∧ Scans s.toList us := by
  constructor
  · intro h
    obtain ⟨hts, p, hp⟩ := tokenize_eq_ok_iff_stream.mp h
    rw [Lexed.stream, hp] at hts
    refine ⟨_, ?_, .of_lexed (.ofText s) ⟨p, hp⟩⟩
    rw [← hts]
    exact List.map_append
  · rintro ⟨us, rfl, h⟩
    exact tokenize_eq_ok_iff.mpr (h .start)

/-- A text is split into the same tokens with and without whitespace at its ends. -/
theorem tokenize_trim_eq_ok_iff {s : String} {ts : List Token} :
    tokenize (Text.trim s) = .ok ts ↔ tokenize s = .ok ts := by
  obtain ⟨ws, ws', hs, hws, hws'⟩ := Text.exists_trim s
  have hscans (us : List Token) : Scans (Text.trim s).toList us ↔ Scans s.toList us := by
    rw [hs]
    exact ⟨fun h => (h.append_whiteSpace hws').whiteSpace hws,
      fun h => (h.of_whiteSpace_append hws).of_append_whiteSpace hws'⟩
  simp only [tokenize_eq_ok_iff_scans, hscans]

end RecordQuery
