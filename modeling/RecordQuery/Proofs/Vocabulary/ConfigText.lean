/-
  RecordQuery.Proofs.Vocabulary.ConfigText

  Configurations as text. Members may be left out of the text of a configuration, both from its own
  object and from the one inside that holds the spellings, as long as they have their standard
  values. What is left still makes the same vocabulary, or is refused for the same fault.
-/

import RecordQuery.Proofs.Query.JsonForm
import RecordQuery.Proofs.Vocabulary.Checking
import RecordQuery.Vocabulary.Json

namespace RecordQuery

open Json

/-! ## Leaving out members -/

namespace Json

/-- The value of the first member with a key. -/
def member? (key : String) : Json → Option Json
  | .object members => members.lookup key
  | _ => none

/-- The value that a path of keys leads to. -/
def valueAt? (j : Json) : List String → Option Json
  | [] => some j
  | key :: path => (j.member? key).bind (·.valueAt? path)

mutual

/-- A value without the members that the paths in `gone` lead to. -/
def leaveOut (gone : List String → Bool) : Json → Json
  | .object members => .object (leaveOutMembers gone members)
  | j => j

/-- The members that stay, without what is left out inside of them. -/
def leaveOutMembers (gone : List String → Bool) : List (String × Json) → List (String × Json)
  | [] => []
  | (key, j) :: members =>
    if gone [key] then leaveOutMembers gone members
    else (key, j.leaveOut fun path => gone (key :: path)) :: leaveOutMembers gone members

end

mutual

/-- Leaving out members makes no number longer. -/
theorem integral_leaveOut (gone : List String → Bool) :
    ∀ j : Json, j.Integral → (j.leaveOut gone).Integral
  | .object members, .object h => .object (integral_leaveOutMembers gone members h)
  | .null, h => h
  | .bool _, h => h
  | .number _, h => h
  | .string _, h => h
  | .array _, h => h

theorem integral_leaveOutMembers (gone : List String → Bool) :
    ∀ members : List (String × Json), (∀ m ∈ members, m.2.Integral) →
      ∀ m ∈ leaveOutMembers gone members, m.2.Integral
  | [], h => h
  | (key, j) :: members, h => by
    obtain ⟨hj, hmembers⟩ := List.forall_mem_cons.mp h
    rw [leaveOutMembers]
    split
    next => exact integral_leaveOutMembers gone members hmembers
    next =>
      exact List.forall_mem_cons.mpr
        ⟨integral_leaveOut _ j hj, integral_leaveOutMembers gone members hmembers⟩

end

/-- What is read of a part that has a member of its own. -/
def partUnless {α : Type} (gone : List String → Bool) (key : String) (a : α) : Option α :=
  if gone [key] then none else some a

/-- A part that is left out comes back if it has its standard value. -/
theorem partUnless_getD {α : Type} {gone : List String → Bool} {key : String} {a standard : α}
    (h : gone [key] = true → a = standard) : (partUnless gone key a).getD standard = a := by
  unfold partUnless
  split
  next hgone => exact (h hgone).symm
  next => rfl

/-- A record gets the part that a member holds, unless the member is left out. -/
theorem addTo_leaveOutMembers_cons {σ α : Type} {add : σ → String → Doc → Decoded σ}
    {gone : List String → Bool} {key : String} {j : Json} {r : σ} {a : α} (fill : Option α → σ)
    (hnone : fill none = r)
    (hsome : add r key (j.leaveOut fun path => gone (key :: path)).doc = .ok (fill (some a)))
    (members : List (String × Json)) :
    (docMembers (leaveOutMembers gone ((key, j) :: members))).addTo add r =
      (docMembers (leaveOutMembers gone members)).addTo add (fill (partUnless gone key a)) := by
  rw [leaveOutMembers, partUnless]
  split
  next => rw [hnone]
  next => rw [addTo_docMembers_cons, hsome, ok_bind]

end Json

theorem Keyword.ofName?_name (k : Keyword) : ofName? k.name = some k := by
  cases k <;> rfl

namespace Vocabulary

variable {gone : List String → Bool}

/-! ## Spellings -/

/-- The spelling of a keyword is added under its name. -/
theorem SpellingParts.add_spelling {p : SpellingParts} {k : Keyword} (hk : p k = none)
    (s : String) :
    p.add k.name (doc (.string s)) = .ok fun j => if j = k then some s else p j := by
  simp only [SpellingParts.add, Keyword.ofName?_name, hk, unset_none, ok_bind]
  rfl

/-- Of the spellings of some keywords, those that stay are read. -/
theorem addTo_spellings (s : Spellings) {ks : List Keyword} (hnodup : ks.Nodup)
    {p : SpellingParts} (hp : ∀ k ∈ ks, p k = none) :
    (docMembers (leaveOutMembers gone (ks.map fun k => (k.name, .string (s k))))).addTo
        SpellingParts.add p =
      .ok fun j => if j ∈ ks then partUnless gone j.name (s j) else p j := by
  induction ks generalizing p with
  | nil => simp [leaveOutMembers, docMembers, Members.addTo]
  | cons k ks ih =>
      obtain ⟨hnew, hnodup⟩ := List.nodup_cons.mp hnodup
      obtain ⟨hk, hks⟩ := List.forall_mem_cons.mp hp
      let fill : Option String → SpellingParts := fun part j => if j = k then part else p j
      have hnone : fill none = p := by
        funext j
        by_cases hjk : j = k
        · simp [fill, hjk, hk]
        · simp [fill, hjk]
      -- What is read of the first keyword says nothing of the others.
      have hrest : ∀ part, ∀ j ∈ ks, fill part j = none := by
        intro part j hj
        have hjk : j ≠ k := fun heq => hnew (heq ▸ hj)
        simp [fill, hjk, hks j hj]
      have hadd := SpellingParts.add_spelling hk (s k)
      rw [List.map_cons, addTo_leaveOutMembers_cons fill hnone hadd, ih hnodup (hrest _)]
      refine congrArg Except.ok (funext fun j => ?_)
      by_cases hjk : j = k
      · subst hjk
        simp [fill, hnew]
      · simp [fill, hjk]

/-- Spellings come back if those that are left out are names. -/
theorem spellingsOfDoc_leaveOut {depth : Nat} (hdepth : depth < maxDepth) {s : Spellings}
    (hnames : ∀ k, gone [k.name] = true → s k = k.name) :
    spellingsOfDoc depth ((spellingsToJson s).leaveOut gone).doc = .ok s := by
  rw [spellingsToJson, leaveOut, doc, spellingsOfDoc, Doc.addTo, enter_of_lt hdepth, sound_ok,
    ok_bind, addTo_spellings s Keyword.nodup_all fun _ _ => rfl, ok_bind]
  refine congrArg Except.ok (funext fun k => ?_)
  simp only [SpellingParts.finish, k.mem_all, if_true]
  exact partUnless_getD (hnames k)

/-! ## Configurations -/

namespace Config

/-- The configuration has its standard value where a path of keys leads to. -/
def StandardAt (c : Config) (path : List String) : Prop :=
  c.toJson.valueAt? path = ({} : Config).toJson.valueAt? path

variable {c : Config}

theorem valueAt?_keywords (c : Config) (path : List String) :
    c.toJson.valueAt? ("keywords" :: path) = (spellingsToJson c.keywords).valueAt? path :=
  rfl

theorem valueAt?_spelling (s : Spellings) (k : Keyword) :
    (spellingsToJson s).valueAt? [k.name] = some (.string (s k)) := by
  cases k <;> rfl

/-- A keyword has its standard spelling exactly if it is spelt by its name. -/
theorem standardAt_spelling {k : Keyword} :
    c.StandardAt ["keywords", k.name] ↔ c.keywords k = k.name := by
  rw [StandardAt, valueAt?_keywords, valueAt?_keywords, valueAt?_spelling, valueAt?_spelling,
    Option.some.injEq, string.injEq]

/-- The object of spellings is the standard one exactly if every spelling is. -/
theorem standardAt_keywords :
    c.StandardAt ["keywords"] ↔ c.keywords = ({} : Config).keywords := by
  constructor
  · intro h
    have hobject : spellingsToJson c.keywords = spellingsToJson Keyword.name := Option.some.inj h
    refine funext fun k => standardAt_spelling.mp ?_
    rw [StandardAt, valueAt?_keywords, valueAt?_keywords, hobject]
  · intro h
    rw [StandardAt, valueAt?_keywords, valueAt?_keywords, h]

theorem standardAt_caseSensitive :
    c.StandardAt ["case_sensitive"] ↔ c.caseSensitive = ({} : Config).caseSensitive := by
  show some (Json.bool _) = some (.bool _) ↔ _
  rw [Option.some.injEq, bool.injEq]

theorem standardAt_fieldPattern :
    c.StandardAt ["field_pattern"] ↔ c.fieldPattern = ({} : Config).fieldPattern := by
  show some (Json.string _) = some (.string _) ↔ _
  rw [Option.some.injEq, string.injEq]

theorem standardAt_namespacePattern :
    c.StandardAt ["namespace_pattern"] ↔ c.namespacePattern = ({} : Config).namespacePattern := by
  show some (Json.string _) = some (.string _) ↔ _
  rw [Option.some.injEq, string.injEq]

/-- The limit on nesting is compared as an integer. -/
theorem standardAt_maxNesting :
    c.StandardAt ["max_nesting"] ↔ c.maxNesting = ({} : Config).maxNesting := by
  show some (Json.integer c.maxNesting.toNat) = some (.integer (UInt64.toNat _)) ↔ _
  rw [Option.some.injEq, Json.integer, Json.integer, number.injEq, JsonNumber.integer.injEq,
    Int.ofNat_inj, UInt64.toNat_inj]

theorem integral_toJson (c : Config) : c.toJson.Integral := by
  have hspellings : (spellingsToJson c.keywords).Integral := by
    apply Integral.object
    rw [List.forall_mem_map]
    exact fun k _ => .string (c.keywords k)
  have hnesting : (Json.integer c.maxNesting.toNat).Integral :=
    .integer (fitsInteger_toNat c.maxNesting)
  exact .object (by simp [Integral.string, Integral.bool, hspellings, hnesting])

/-- The parts of the configuration whose members are not left out. -/
def partsLeft (c : Config) (gone : List String → Bool) : ConfigParts where
  keywords := partUnless gone "keywords" c.keywords
  caseSensitive := partUnless gone "case_sensitive" c.caseSensitive
  fieldPattern := partUnless gone "field_pattern" c.fieldPattern
  namespacePattern := partUnless gone "namespace_pattern" c.namespacePattern
  maxNesting := partUnless gone "max_nesting" c.maxNesting

/-- The members that are not left out fill the parts of the configuration. -/
theorem addTo_leaveOut (hnames : ∀ k, gone ["keywords", k.name] = true → c.keywords k = k.name) :
    (c.toJson.leaveOut gone).doc.addTo ConfigParts.add (fun _ => true) ConfigParts.names 0 {} =
      .ok (c.partsLeft gone) := by
  have hspellings : spellingsOfDoc 1
      ((spellingsToJson c.keywords).leaveOut fun path => gone ("keywords" :: path)).doc =
        .ok c.keywords :=
    spellingsOfDoc_leaveOut (by decide) hnames
  have hkeywords : ConfigParts.add {} "keywords"
      ((spellingsToJson c.keywords).leaveOut fun path => gone ("keywords" :: path)).doc =
        .ok { keywords := some c.keywords } := by
    simp only [ConfigParts.add, unset_none, ok_bind, hspellings]
    rfl
  -- What is read in front of a member, each of whose parts may be missing.
  let p := c.partsLeft gone
  have hnumber : (Json.integer c.maxNesting.toNat).doc.asUnsigned = .ok c.maxNesting :=
    unsigned_toNat c.maxNesting
  have hnesting : ConfigParts.add { p with maxNesting := none } "max_nesting"
      (Json.integer c.maxNesting.toNat).doc = .ok { p with maxNesting := some c.maxNesting } := by
    simp only [ConfigParts.add, unset_none, ok_bind, hnumber]
    rfl
  rw [toJson, leaveOut, doc, Doc.addTo, enter_of_lt (by decide), sound_ok, ok_bind]
  refine Eq.trans (addTo_leaveOutMembers_cons
    (fun part => ({ keywords := part } : ConfigParts)) rfl hkeywords _) ?_
  refine Eq.trans (addTo_leaveOutMembers_cons
    (fun part => ({ keywords := p.keywords, caseSensitive := part } : ConfigParts)) rfl rfl _) ?_
  refine Eq.trans (addTo_leaveOutMembers_cons
    (fun part => { p with fieldPattern := part, namespacePattern := none, maxNesting := none })
    rfl rfl _) ?_
  refine Eq.trans (addTo_leaveOutMembers_cons
    (fun part => { p with namespacePattern := part, maxNesting := none }) rfl rfl _) ?_
  refine Eq.trans (addTo_leaveOutMembers_cons
    (fun part => { p with maxNesting := part }) rfl hnesting _) ?_
  rfl

section

variable (hgone : ∀ path, gone path = true → c.StandardAt path)
include hgone

/-- From the members that stay, the whole configuration comes back. -/
theorem finish_partsLeft : (c.partsLeft gone).finish = c := by
  simp only [ConfigParts.finish, partsLeft]
  rw [partUnless_getD fun h => standardAt_keywords.mp (hgone _ h),
    partUnless_getD fun h => standardAt_caseSensitive.mp (hgone _ h),
    partUnless_getD fun h => standardAt_fieldPattern.mp (hgone _ h),
    partUnless_getD fun h => standardAt_namespacePattern.mp (hgone _ h),
    partUnless_getD fun h => standardAt_maxNesting.mp (hgone _ h)]

/-- A configuration comes back from its document if the members that are left out have their
    standard values. -/
theorem ofDoc_leaveOut : ofDoc (c.toJson.leaveOut gone).doc = .ok c := by
  have hnames : ∀ k, gone ["keywords", k.name] = true → c.keywords k = k.name :=
    fun k hk => standardAt_spelling.mp (hgone _ hk)
  rw [ofDoc, addTo_leaveOut hnames, ok_bind, finish_partsLeft hgone]
  rfl

end

end Config

/-! ## Vocabularies -/

variable {engine : PatternEngine}

/-- A text is read as the configuration whose JSON it is, and checked like it. -/
theorem ofJsonText_of_readText {c : Config} {text : String} {d : Doc}
    (htext : readText text = ⟨d, false⟩) (hd : Config.ofDoc d = .ok c) :
    ofJsonText text engine = (ofConfig c engine).mapError .fault := by
  have hread : Config.ofJsonText text = .ok c := by
    rw [Config.ofJsonText, htext, decodeText, hd, ok_bind]
    rfl
  rw [ofJsonText, hread]
  rfl

section

variable {c : Config} (hgone : ∀ path, gone path = true → c.StandardAt path)
include hgone

/-- With members left out that have their standard values, a configuration still makes the same
    vocabulary, or is refused for the same fault. -/
theorem ofJsonText_leaveOut :
    ofJsonText (c.toJson.leaveOut gone).compact engine = (ofConfig c engine).mapError .fault ∧
      ofJsonText (c.toJson.leaveOut gone).indented engine =
        (ofConfig c engine).mapError .fault := by
  have hj : (c.toJson.leaveOut gone).Integral := integral_leaveOut gone _ c.integral_toJson
  have hd := Config.ofDoc_leaveOut hgone
  exact ⟨ofJsonText_of_readText (readText_compact hj) hd,
    ofJsonText_of_readText (readText_indented hj) hd⟩

/-- A configuration that makes a vocabulary makes the very same one, in the same engine, from its
    JSON text, in which any of its members and any of its spellings may be left out that have their
    standard values. -/
theorem vocabulary_survives_leaveOut {v : Vocabulary} (hv : ofConfig c engine = .ok v) :
    ofJsonText (c.toJson.leaveOut gone).compact engine = .ok v ∧
      ofJsonText (c.toJson.leaveOut gone).indented engine = .ok v ∧ v.config = c := by
  obtain ⟨hcompact, hindented⟩ := ofJsonText_leaveOut hgone
  rw [hv] at hcompact hindented
  exact ⟨hcompact, hindented, config_of_ofConfig hv⟩

end

/-- One keyword is spelt in another way, and case matters. -/
def findConfig : Config where
  keywords
    | .select => "find"
    | k => k.name
  caseSensitive := true

/-- All other members of the configuration. -/
def standardPaths : List (List String) :=
  ["field_pattern"] :: ["namespace_pattern"] :: ["max_nesting"] ::
    (Keyword.all.erase .select).map fun k => ["keywords", k.name]

/-- What is left of its text. -/
def findText : String :=
  "\x7b\"keywords\":\x7b\"select\":\"find\"\x7d,\"case_sensitive\":true\x7d"

/-- Two members are enough, one of them with a single spelling inside. -/
theorem findConfig_survives :
    ∃ v, ofConfig findConfig = .ok v ∧ ofJsonText findText = .ok v ∧ v.config = findConfig := by
  obtain ⟨v, hv⟩ := (exists_ofConfig_iff (c := findConfig)
    PatternEngine.dialect.read?_standardField
    PatternEngine.dialect.read?_standardNamespace).mpr (by decide +kernel)
  have hgone : ∀ path, decide (path ∈ standardPaths) = true → findConfig.StandardAt path := by
    intro path hpath
    simp only [decide_eq_true_eq, standardPaths, List.mem_cons, List.mem_map] at hpath
    rcases hpath with rfl | rfl | rfl | ⟨k, hk, rfl⟩
    · exact Config.standardAt_fieldPattern.mpr rfl
    · exact Config.standardAt_namespacePattern.mpr rfl
    · exact Config.standardAt_maxNesting.mpr rfl
    · refine Config.standardAt_spelling.mpr ?_
      revert k
      decide +kernel
  obtain ⟨hcompact, -, hconfig⟩ := vocabulary_survives_leaveOut hgone hv
  have htext : (findConfig.toJson.leaveOut fun path => path ∈ standardPaths).compact = findText := by
    decide +kernel
  rw [htext] at hcompact
  exact ⟨v, hv, hcompact, hconfig⟩

end Vocabulary

end RecordQuery
