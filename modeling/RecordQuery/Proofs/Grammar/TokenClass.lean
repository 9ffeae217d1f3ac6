/-
  RecordQuery.Proofs.Grammar.TokenClass

  What a text compiles to is decided by the classes of its tokens. Nothing else about it matters:
  neither whitespace, nor the quotes of a string, nor which of its spellings a word or an operator
  has, nor the vocabulary that tells the keywords apart.
-/

import RecordQuery.Proofs.Compilation
import RecordQuery.Proofs.Grammar.Lockstep

namespace RecordQuery

/-- Vocabularies that are configured with the same patterns, which the same engine reads, and the
    same limit differ in nothing but their keywords. -/
theorem Vocabulary.alike_of_config {v v' : Vocabulary} (hengine : v.engine = v'.engine)
    (hfield : v.config.fieldPattern = v'.config.fieldPattern)
    (hsource : v.config.namespacePattern = v'.config.namespacePattern)
    (hnesting : v.config.maxNesting = v'.config.maxNesting) : v.Alike v' where
  field := Option.some.inj (v.field_read.symm.trans (hengine ▸ hfield ▸ v'.field_read))
  source := Option.some.inj (v.namespace_read.symm.trans (hengine ▸ hsource ▸ v'.namespace_read))
  nesting := by rw [maxNesting, maxNesting, hnesting]

/-- Two texts whose tokens are of the same classes, each in its vocabulary, compile alike: both are
    recognized as the same actions, or both are refused for the same kind of reason at the same
    token. -/
theorem compile_alike_of_sameClass {v v' : Vocabulary} {text text' : String} {ts ts' : List Token}
    (hengine : v.engine = v'.engine)
    (hfield : v.config.fieldPattern = v'.config.fieldPattern)
    (hsource : v.config.namespacePattern = v'.config.namespacePattern)
    (hnesting : v.config.maxNesting = v'.config.maxNesting)
    (ht : tokenize text = .ok ts) (ht' : tokenize text' = .ok ts')
    (h : List.Forall₂ (SameClass v v') ts ts') :
    (∃ as, recognize v text = .ok as ∧ recognize v' text' = .ok as ∧
        compileWith v text = compileWith v' text') ∨
      ∃ e e' i, recognize v text = .error e ∧ recognize v' text' = .error e' ∧
        e.kind = e'.kind ∧ TokenAt text i e.position ∧ TokenAt text' i e'.position := by
  have ha := Vocabulary.alike_of_config hengine hfield hsource hnesting
  obtain ⟨rfl, p, hp⟩ := tokenize_eq_ok_iff_stream.mp ht
  obtain ⟨rfl, -⟩ := tokenize_eq_ok_iff_stream.mp ht'
  -- Whatever the first run passes, the second text has in the same place.
  have hretrace {us : List Token} {d : Cursor} (hus : (Cursor.front text).Passes us d) :
      ∃ d', Retraces v v' us d.token (Cursor.front text') d' := by
    refine retraces_of_stream hus ?_
    rw [List.map_take, List.map_take]
    exact List.forall₂_take _ h
  cases hrun : recognize v text with
  | ok as =>
      obtain ⟨us, d, hus, hfollow⟩ := recognize_retraced ha hrun
      obtain ⟨d', hr⟩ := hretrace hus
      have hrun' := hfollow text' d' hr
      exact .inl ⟨as, rfl, hrun', by rw [compileWith, compileWith, hrun, hrun']⟩
  | error e =>
      obtain ⟨l, -, hl⟩ | ⟨us, d, m, hus, hm, hd, hfollow⟩ := recognize_error_retraced ha hrun
      · cases hl.symm.trans hp
      · obtain ⟨m', hr⟩ := hretrace (hus.trans hm)
        obtain ⟨d', hr₁, hr₂⟩ := hr.split hm
        have hlimit : v.maxNesting = v'.maxNesting := by
          rw [Vocabulary.maxNesting, Vocabulary.maxNesting, hnesting]
        obtain ⟨e', hrun', hkind, hd'⟩ := hfollow text' d' m' hr₁ hr₂ fun _ => hlimit
        refine .inr ⟨e, e', us.length, rfl, hrun', hkind.symm, ?_, ?_⟩
        · rw [hd.position_eq]
          exact hus.tokenAt
        · rw [hd'.position_eq]
          exact hr₁.tokenAt

/-- Some of the keywords spelt in another way. -/
def respelling : Spellings
  | .select => "find"
  | .filter => "having"
  | .and => "also"
  | k => k.name

theorem keywordFault?_respelling : Vocabulary.Config.keywordFault?
    { keywords := respelling, caseSensitive := true } = none := by
  decide +kernel

/-- The standard vocabulary with other keywords, which are words in one case only. -/
def Vocabulary.respelt : Vocabulary where
  engine := standard.engine
  config := { keywords := respelling, caseSensitive := true }
  fieldTest := standard.fieldTest
  namespaceTest := standard.namespaceTest
  field_read := standard.field_read
  namespace_read := standard.namespace_read
  isSpelling_keyword k :=
    (Config.spellingFault?_eq_none (Config.keywordFault?_eq_none keywordFault?_respelling k)).1
  key_injective := Config.key_injective keywordFault?_respelling

/-- A query in the standard vocabulary, in capitals and on one line. -/
def standardText : String :=
  "SELECT a,b FROM img.* WHERE (a='x' AND NOT b>1)"

/-- The same query in other words, with other quotes, another sign and other whitespace. -/
def respeltText : String :=
  "find a, b from img.*\n  having ( a == \"x\" also not b > 1 )"

/-- Both texts compile to one query. -/
theorem compile_respeltText :
    (∃ q, compileWith .standard standardText = .ok q) ∧
      compileWith .standard standardText = compileWith .respelt respeltText := by
  have hq : ((compileWith .standard standardText).toOption).isSome = true := by decide +kernel
  obtain ⟨q, hq⟩ := Option.isSome_iff_exists.mp hq
  have hcompile := eq_ok_of_toOption hq
  have ht : tokenize standardText = .ok ((lex standardText).stream.map (·.token)) := by
    apply eq_ok_of_toOption
    decide +kernel
  have ht' : tokenize respeltText = .ok ((lex respeltText).stream.map (·.token)) := by
    apply eq_ok_of_toOption
    decide +kernel
  have hclasses : List.Forall₂ (SameClass .standard .respelt)
      ((lex standardText).stream.map (·.token)) ((lex respeltText).stream.map (·.token)) := by
    decide +kernel
  refine ⟨⟨q, hcompile⟩, ?_⟩
  obtain ⟨as, -, -, hsame⟩ | ⟨e, e', i, he, -⟩ :=
    compile_alike_of_sameClass (by rfl) (by rfl) (by rfl) (by rfl) ht ht' hclasses
  · exact hsame
  · rw [compileWith_of_error he] at hcompile
    cases hcompile

end RecordQuery
