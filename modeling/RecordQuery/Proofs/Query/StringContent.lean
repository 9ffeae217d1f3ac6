/-
  RecordQuery.Proofs.Query.StringContent

  Strings hold data only. Whatever is quoted in the place of a string of a text, the text says the
  same with that string as what a field is compared with: no quote, backslash, operator or keyword
  in it reaches the rest of the query.
-/

import RecordQuery.Proofs.Compilation
import RecordQuery.Proofs.Grammar.Gap
import RecordQuery.Proofs.Token.Locality

namespace RecordQuery

/-- Each string of a recognized text is some of its characters. It is pushed by one action, and
    another string that is quoted in its place changes that action only. What the text compiles to
    has the string in one comparison, and another string in its place changes that comparison only;
    or no such text compiles, for one reason. -/
theorem string_content_stays_in_place {v : Vocabulary} {text : String} {as : List Action}
    (has : recognize v text = .ok as) :
    (∀ content p, ⟨.literal content, p⟩ ∈ (lex text).lexemes →
      ∃ before chars after, p = Position.start.after before ∧
        LiteralAt text before chars after content) ∧
    ∀ before chars after content, LiteralAt text before chars after content →
      (∃ pre post, as = pre ++ .push content :: post ∧
        ∀ s, recognize v (withLiteral before s after) = .ok (pre ++ .push s :: post)) ∧
      ((∃ q : Query, ∃ g : Gap Criteria,
          compileWith v text = .ok { q with criteria := some (g.criteria content) } ∧
            ∀ s, compileWith v (withLiteral before s after) =
              .ok { q with criteria := some (g.criteria s) }) ∨
        ∃ e, compileWith v text = .error (.badValue e) ∧
          ∀ s, compileWith v (withLiteral before s after) = .error (.badValue e)) := by
  refine ⟨fun content p => exists_literalAt, fun before chars after content h => ?_⟩
  obtain ⟨ts, n, d, hts, hd, hn, rfl⟩ := recognize_eq_ok_iff.mp has
  obtain ⟨us, vs, rfl, hts'⟩ := h.tokenize hts
  -- The tokens around the string derive the same draft around whatever fills the gap.
  obtain ⟨g, hg, hd'⟩ := Grammar.derivesQuery_fills hd
  have hcompile (s : String) : compileWith v (withLiteral before s after) =
      (d.withFilter (some (g.condition s))).read.mapError .badValue :=
    compileWith_of_derives (hts' s) (hd' s) hn
  have hold : compileWith v text =
      (d.withFilter (some (g.condition content))).read.mapError .badValue := by
    rw [← hg]
    exact compileWith_of_derives hts hd hn
  constructor
  · obtain ⟨pre, post, hactions⟩ := d.actions_gap g
    refine ⟨pre, post, by rw [← hactions, ← hg], fun s => ?_⟩
    exact recognize_eq_ok_iff.mpr ⟨_, n, _, hts' s, hd' s, hn, (hactions s).symm⟩
  · rcases d.read_gap g with ⟨q, g', hread⟩ | ⟨e, hread⟩
    · exact .inl ⟨q, g', by rw [hold, hread]; rfl, fun s => by rw [hcompile, hread]; rfl⟩
    · exact .inr ⟨e, by rw [hold, hread]; rfl, fun s => by rw [hcompile, hread]; rfl⟩

/-- A text with a string written in it. -/
def textWith (written : String) : String :=
  "DELETE FROM img.x WHERE NOT a = " ++ written ++ " AND b > 1"

/-- A string that says more if it is not quoted. -/
def hostileString : String :=
  "\" OR a IN \"\\"

/-- The string is compared with the field, as the shorter one is. -/
theorem hostileString_is_compared :
    ∃ q : Query, ∃ g : Gap Criteria,
      compileWith .standard (textWith "'it\\'s'") =
        .ok { q with criteria := some (g.criteria "it's") } ∧
      compileWith .standard (textWith (Text.quote hostileString)) =
        .ok { q with criteria := some (g.criteria hostileString) } := by
  have hq : ((compileWith .standard (textWith "'it\\'s'")).toOption).isSome = true := by
    decide +kernel
  obtain ⟨q, hq⟩ := Option.isSome_iff_exists.mp hq
  have hcompile := eq_ok_of_toOption hq
  have hliteral : LiteralAt (textWith "'it\\'s'") "DELETE FROM img.x WHERE NOT a = ".toList
      "'it\\'s'".toList " AND b > 1".toList "it's" :=
    ⟨by decide +kernel, by decide +kernel, by decide +kernel⟩
  cases hrun : recognize .standard (textWith "'it\\'s'") with
  | error e =>
      rw [compileWith_of_error hrun] at hcompile
      cases hcompile
  | ok as =>
      obtain ⟨-, ⟨q', g, hold, hnew⟩ | ⟨e, hold, -⟩⟩ :=
        (string_content_stays_in_place hrun).2 _ _ _ _ hliteral
      · exact ⟨q', g, hold, hnew hostileString⟩
      · cases hold.symm.trans hcompile

end RecordQuery
