/-
  RecordQuery.Proofs.Vocabulary.Checking

  Which configurations are accepted. Apart from the patterns only the spellings of keywords are
  checked: each has to be a word of letters, numbers and underscores, and no two may have one key.
  In a vocabulary that is accepted, a word stands for a keyword exactly if it has the key of its
  spelling. A configuration that is refused is refused for the first keyword that is spelt badly.
-/

import Mathlib.Data.List.Induction
import Mathlib.Data.List.Pairwise
import RecordQuery.Proofs.Vocabulary

namespace RecordQuery

/-! ## Spellings -/

namespace Vocabulary

/-- The text is made of letters, numbers and underscores, and is not empty. -/
def Spelling (s : String) : Prop :=
  s ≠ "" ∧ ∀ c ∈ s.toList, Unicode.isAlphanumeric c = true ∨ c = '_'

/-- The check of a spelling looks at its characters. -/
theorem isSpelling_eq_true_iff {s : String} : isSpelling s = true ↔ Spelling s := by
  simp [isSpelling, Spelling, isSpellingChar]

instance (s : String) : Decidable (Spelling s) :=
  decidable_of_iff _ isSpelling_eq_true_iff

/-- The characters of spellings are word characters. -/
theorem Spelling.isWord {s : String} (h : Spelling s) : IsWord s := by
  obtain ⟨hne, hall⟩ := h
  refine ⟨fun hnil => hne (String.toList_eq_nil_iff.mp hnil), fun c hc => ?_⟩
  rcases hall c hc with halnum | rfl
  · simp [isWordChar, halnum]
  · rfl

end Vocabulary

namespace Keyword

theorem nodup_all : all.Nodup := by
  decide

/-- What stands in front of a keyword in the list is what is listed before it. -/
theorem earlier_of_split {k : Keyword} {before after : List Keyword}
    (h : all = before ++ k :: after) : k.earlier = before := by
  have hnodup := nodup_all
  rw [h, List.nodup_append] at hnodup
  have hbefore : ∀ j ∈ before, (j != k) = true := fun j hj =>
    bne_iff_ne.mpr (hnodup.2.2 j hj k List.mem_cons_self)
  rw [earlier, h, List.takeWhile_append_of_pos hbefore, List.takeWhile_cons_of_neg (by simp),
    List.append_nil]

end Keyword

namespace Vocabulary

namespace Config

variable (c : Config)

/-! ## Keywords that are spelt well -/

/-- The keywords are spelt by words, no two of which have one key. -/
structure SpeltWell (ks : List Keyword) : Prop where
  spelling : ∀ k ∈ ks, Spelling (c.keywords k)
  apart : ks.Pairwise fun j k => c.normalize (c.keywords j) ≠ c.normalize (c.keywords k)

/-- Why the first keyword that is spelt badly is. Whether it is spelt by a word is asked first. -/
inductive FirstFault : Fault → Prop
  | invalid {before after : List Keyword} {k : Keyword} (hall : Keyword.all = before ++ k :: after)
      (hbefore : c.SpeltWell before) (hk : ¬ Spelling (c.keywords k)) :
      FirstFault (.invalidKeyword (c.keywords k))
  | duplicate {before after : List Keyword} {j k : Keyword}
      (hall : Keyword.all = before ++ k :: after) (hbefore : c.SpeltWell before)
      (hk : Spelling (c.keywords k)) (hj : j ∈ before)
      (hjk : c.normalize (c.keywords j) = c.normalize (c.keywords k)) :
      FirstFault (.duplicateKeyword (c.keywords k))

variable {c}

theorem spellingFault?_eq_none_iff {k : Keyword} :
    c.spellingFault? k = none ↔
      Spelling (c.keywords k) ∧ ∀ j ∈ k.earlier, c.key j ≠ c.key k := by
  constructor
  · intro h
    exact (spellingFault?_eq_none h).imp_left isSpelling_eq_true_iff.mp
  · rintro ⟨hk, hearlier⟩
    rw [spellingFault?, isSpelling_eq_true_iff.mpr hk]
    simpa using hearlier

/-- A bad spelling is no word, or else a word with the key of an earlier one. -/
theorem spellingFault?_eq_some_iff {k : Keyword} {e : Fault} :
    c.spellingFault? k = some e ↔
      ¬ Spelling (c.keywords k) ∧ e = .invalidKeyword (c.keywords k) ∨
        Spelling (c.keywords k) ∧ (∃ j ∈ k.earlier, c.key j = c.key k) ∧
          e = .duplicateKeyword (c.keywords k) := by
  rw [← isSpelling_eq_true_iff, spellingFault?]
  cases isSpelling (c.keywords k) with
  | false => simp [@eq_comm _ e]
  | true => simp [@eq_comm _ e]

/-- No fault is found in front of a point in the list exactly if the keywords in front of it are
    spelt well: each is compared with all those before it. -/
theorem speltWell_iff {before rest : List Keyword} (hall : Keyword.all = before ++ rest) :
    (∀ k ∈ before, c.spellingFault? k = none) ↔ c.SpeltWell before := by
  induction before using List.reverseRecOn generalizing rest with
  | nil => exact ⟨fun _ => ⟨by simp, .nil⟩, fun _ => by simp⟩
  | append_singleton before k ih =>
      rw [List.append_assoc, List.singleton_append] at hall
      rw [List.forall_mem_append, List.forall_mem_singleton, ih hall, spellingFault?_eq_none_iff,
        Keyword.earlier_of_split hall]
      constructor
      · rintro ⟨⟨hwords, hapart⟩, hk, hearlier⟩
        refine ⟨List.forall_mem_append.mpr ⟨hwords, List.forall_mem_singleton.mpr hk⟩, ?_⟩
        refine List.pairwise_append.mpr ⟨hapart, List.pairwise_singleton _ _, fun j hj i hi => ?_⟩
        obtain rfl := List.mem_singleton.mp hi
        exact hearlier j hj
      · rintro ⟨hwords, hapart⟩
        obtain ⟨hbefore, hk⟩ := List.forall_mem_append.mp hwords
        obtain ⟨hpairs, -, hlast⟩ := List.pairwise_append.mp hapart
        exact ⟨⟨hbefore, hpairs⟩, hk k List.mem_cons_self,
          fun j hj => hlast j hj k List.mem_cons_self⟩

theorem keywordFault?_eq_none_iff : c.keywordFault? = none ↔ c.SpeltWell Keyword.all := by
  rw [← speltWell_iff (List.append_nil _).symm, keywordFault?, List.findSome?_eq_none_iff]

/-- All keywords are spelt well exactly if each is spelt by a word and different ones have different
    keys. -/
theorem speltWell_all_iff :
    c.SpeltWell Keyword.all ↔
      (∀ k, Spelling (c.keywords k)) ∧
        ∀ j k, j ≠ k → c.normalize (c.keywords j) ≠ c.normalize (c.keywords k) := by
  constructor
  · intro h
    have hsymm : Std.Symm fun j k => c.normalize (c.keywords j) ≠ c.normalize (c.keywords k) :=
      ⟨fun _ _ => Ne.symm⟩
    exact ⟨fun k => h.spelling k k.mem_all, fun j k => h.apart.forall j.mem_all k.mem_all⟩
  · rintro ⟨hwords, hapart⟩
    exact ⟨fun k _ => hwords k, Keyword.nodup_all.imp fun {j k} => hapart j k⟩

/-- The fault of the keywords is the first one in their order. -/
theorem keywordFault?_eq_some_iff {e : Fault} : c.keywordFault? = some e ↔ c.FirstFault e := by
  rw [keywordFault?, List.findSome?_eq_some_iff]
  constructor
  · rintro ⟨before, k, after, hall, hk, hbefore⟩
    have hwell := (speltWell_iff hall).mp hbefore
    rcases spellingFault?_eq_some_iff.mp hk with ⟨hword, rfl⟩ | ⟨hword, ⟨j, hj, hjk⟩, rfl⟩
    · exact .invalid hall hwell hword
    · rw [Keyword.earlier_of_split hall] at hj
      exact .duplicate hall hwell hword hj hjk
  · rintro (⟨hall, hwell, hk⟩ | ⟨hall, hwell, hk, hj, hjk⟩)
    · exact ⟨_, _, _, hall, spellingFault?_eq_some_iff.mpr (.inl ⟨hk, rfl⟩),
        (speltWell_iff hall).mpr hwell⟩
    · rw [← Keyword.earlier_of_split hall] at hj
      exact ⟨_, _, _, hall, spellingFault?_eq_some_iff.mpr (.inr ⟨hk, ⟨_, hj, hjk⟩, rfl⟩),
        (speltWell_iff hall).mpr hwell⟩

end Config

/-! ## Configurations that are accepted -/

variable {engine : PatternEngine} {c : Config} {v : Vocabulary} {field source : String → Bool}

/-- A vocabulary keeps the configuration that it is made from. -/
theorem config_of_ofConfig (h : ofConfig c engine = .ok v) : v.config = c := by
  unfold ofConfig at h
  split at h
  · cases h
  split at h
  · cases h
  split at h
  · cases h
  · cases h
    rfl

section

variable (hfield : engine.read? c.fieldPattern = some field)
  (hsource : engine.read? c.namespacePattern = some source)
include hfield hsource

/-- With patterns that can be read, a configuration is refused for its keywords only. -/
theorem ofConfig_eq_error_iff {e : Fault} :
    ofConfig c engine = .error e ↔ c.keywordFault? = some e := by
  unfold ofConfig
  split
  next hnone => cases hnone.symm.trans hfield
  split
  next hnone => cases hnone.symm.trans hsource
  split
  next fault hfault => simp [hfault, eq_comm]
  next hnone => simp [hnone]

/-- With patterns that can be read, a vocabulary is made exactly if no keyword is at fault. -/
theorem exists_ofConfig_iff : (∃ v, ofConfig c engine = .ok v) ↔ c.keywordFault? = none := by
  cases h : ofConfig c engine with
  | ok v =>
      have hne : ∀ e, c.keywordFault? ≠ some e := by
        intro e he
        cases h.symm.trans ((ofConfig_eq_error_iff hfield hsource).mpr he)
      simp [Option.eq_none_iff_forall_ne_some, hne]
  | error e =>
      rw [(ofConfig_eq_error_iff hfield hsource).mp h]
      simp

end

/-- A spelling stands for its keyword, is one word where it stands alone, and names neither a field
    nor a namespace. -/
theorem spelling_reserved (v : Vocabulary) (k : Keyword) :
    v.keyword? (v.spelling k) = some k ∧
      tokenize (v.spelling k) = .ok [.word (v.spelling k), .endOfText] ∧
      v.isField (v.spelling k) = false ∧ v.isNamespace (v.spelling k) = false := by
  have hk := v.keyword?_spelling k
  have hword : IsWord (v.spelling k) :=
    (isSpelling_eq_true_iff.mp (v.isSpelling_keyword k)).isWord
  refine ⟨hk, tokenize_of_writes (writes_word hword), ?_, ?_⟩
  · simp [isField, hk]
  · simp [isNamespace, hk]

/-- A configuration with patterns that its engine can read makes a vocabulary exactly if all
    keywords are spelt by words of letters, numbers and underscores that differ once they are
    normalized. In the vocabulary a word stands for the keyword whose spelling it is once both are
    normalized, and spellings are reserved. A configuration that makes none is refused for the first
    keyword in the list that is spelt by no word, or like one before it. -/
theorem ofConfig_checks_spellings (hfield : engine.read? c.fieldPattern = some field)
    (hsource : engine.read? c.namespacePattern = some source) :
    ((∃ v, ofConfig c engine = .ok v) ↔
      (∀ k, Spelling (c.keywords k)) ∧
        ∀ j k, j ≠ k → c.normalize (c.keywords j) ≠ c.normalize (c.keywords k)) ∧
    (∀ v, ofConfig c engine = .ok v →
      v.config = c ∧
      (∀ w k, v.keyword? w = some k ↔ c.normalize w = c.normalize (c.keywords k)) ∧
      ∀ k, v.keyword? (v.spelling k) = some k ∧
        tokenize (v.spelling k) = .ok [.word (v.spelling k), .endOfText] ∧
        v.isField (v.spelling k) = false ∧ v.isNamespace (v.spelling k) = false) ∧
    ∀ e, ofConfig c engine = .error e ↔ c.FirstFault e := by
  refine ⟨?_, fun v hv => ?_, fun e => ?_⟩
  · rw [exists_ofConfig_iff hfield hsource, Config.keywordFault?_eq_none_iff,
      Config.speltWell_all_iff]
  · obtain rfl := config_of_ofConfig hv
    refine ⟨rfl, fun w k => ?_, v.spelling_reserved⟩
    rw [keyword?_eq_some_iff, eq_comm]
    rfl
  · rw [ofConfig_eq_error_iff hfield hsource, Config.keywordFault?_eq_some_iff]

/-- A spelling that ends in a capital sigma. -/
def greekSpellings : Spellings
  | .select => "ΟΔΟΣ"
  | k => k.name

/-- A letter and the sign of a unit that has it for its lowercase, in front of a spelling that is no
    word. -/
def unitSpellings : Spellings
  | .orderBy => "k"
  | .asc => "\u212A"
  | .desc => "going down"
  | k => k.name

/-- The sigma at the end of a word is another letter once it is lowercase, in a word as in the
    spelling. Two spellings that differ in writing only are refused for the second one, although a
    later one is no word. -/
theorem greek_accepted_unit_refused :
    (∃ v, ofConfig { keywords := greekSpellings } = .ok v ∧ v.keyword? "οδος" = some .select ∧
      v.keyword? "οδοσ" ≠ some .select) ∧
    ofConfig { keywords := unitSpellings } = .error (.duplicateKeyword "\u212A") := by
  constructor
  · obtain ⟨haccepts, hwords, -⟩ :=
      ofConfig_checks_spellings (c := { keywords := greekSpellings })
        PatternEngine.dialect.read?_standardField PatternEngine.dialect.read?_standardNamespace
    obtain ⟨v, hv⟩ := haccepts.mpr <| Config.speltWell_all_iff.mp <|
      Config.keywordFault?_eq_none_iff.mp (by decide +kernel)
    obtain ⟨-, hkeyword, -⟩ := hwords v hv
    refine ⟨v, hv, (hkeyword _ _).mpr (by decide +kernel), ?_⟩
    rw [Ne, hkeyword]
    decide +kernel
  · obtain ⟨-, -, hrefused⟩ :=
      ofConfig_checks_spellings (c := { keywords := unitSpellings })
        PatternEngine.dialect.read?_standardField PatternEngine.dialect.read?_standardNamespace
    exact (hrefused _).mpr (Config.keywordFault?_eq_some_iff.mp (by decide +kernel))

end Vocabulary

end RecordQuery
