/-
  RecordQuery.Vocabulary.Basic

  Vocabularies: how keywords are spelt, which words can name fields and namespaces, and how deeply
  criteria may nest. A configuration becomes a vocabulary once it is checked: its patterns can be
  read, and its spellings are words that no two keywords share.
-/

import RecordQuery.Pattern.Engine
import RecordQuery.Unicode.Lowercase
import RecordQuery.Vocabulary.Keyword

namespace RecordQuery

/-- The spelling of each keyword. -/
abbrev Spellings := Keyword → String

namespace Vocabulary

/-- What a vocabulary is made from. -/
structure Config where
  keywords : Spellings := Keyword.name
  caseSensitive : Bool := false
  fieldPattern : String := Pattern.standardField
  namespacePattern : String := Pattern.standardNamespace
  /-- The greatest number of `not` operands and parentheses that may be open at one place. -/
  maxNesting : UInt64 := 256

namespace Config

/-- The form of a word in which spellings are compared. -/
def normalize (c : Config) (word : String) : String :=
  if c.caseSensitive then word else Unicode.lowercase word

/-- The form of a keyword's spelling in which words are compared with it. -/
def key (c : Config) (k : Keyword) : String :=
  c.normalize (c.keywords k)

end Config

/-- Which of the two patterns of a configuration. -/
inductive PatternRole where
  | field
  | source
deriving DecidableEq, Repr

/-- Why a configuration makes no vocabulary. -/
inductive Fault where
  | invalidPattern (role : PatternRole)
  | invalidKeyword (spelling : String)
  | duplicateKeyword (spelling : String)
deriving DecidableEq, Repr

/-- What the names that a pattern holds for are names of. -/
def PatternRole.describe : PatternRole → String
  | .field => "field"
  | .source => "namespace"

/-- The wording of the fault. -/
def Fault.message : Fault → String
  | .invalidPattern role => "invalid " ++ role.describe ++ " pattern"
  | .invalidKeyword s => "keyword spelling '" ++ s ++ "' is not a single word"
  | .duplicateKeyword s =>
    "keyword spelling '" ++ s ++ "' is used for more than one keyword"

/-- The characters of keyword spellings. -/
def isSpellingChar (c : Char) : Bool :=
  Unicode.isAlphanumeric c || c == '_'

/-- Whether a text is a word that can spell a keyword. -/
def isSpelling (s : String) : Bool :=
  !s.isEmpty && s.toList.all isSpellingChar

namespace Config

/-- What is wrong with the spelling of `k`: it is no word, or an earlier keyword has it. -/
def spellingFault? (c : Config) (k : Keyword) : Option Fault :=
  if !isSpelling (c.keywords k) then some (.invalidKeyword (c.keywords k))
  else if k.earlier.any fun j => c.key j == c.key k then some (.duplicateKeyword (c.keywords k))
  else none

/-- What is wrong with the first keyword that has a bad spelling. -/
def keywordFault? (c : Config) : Option Fault :=
  Keyword.all.findSome? c.spellingFault?

theorem spellingFault?_eq_none {c : Config} {k : Keyword} (h : c.spellingFault? k = none) :
    isSpelling (c.keywords k) = true ∧ ∀ j ∈ k.earlier, c.key j ≠ c.key k := by
  unfold spellingFault? at h
  split at h
  · simp at h
  next hs =>
    split at h
    · simp at h
    next hd => exact ⟨by simpa using hs, by simpa using hd⟩

theorem keywordFault?_eq_none {c : Config} (h : c.keywordFault? = none) (k : Keyword) :
    c.spellingFault? k = none := by
  simp only [keywordFault?, List.findSome?_eq_none_iff] at h
  exact h k k.mem_all

theorem key_injective {c : Config} (h : c.keywordFault? = none) {j k : Keyword}
    (hjk : c.key j = c.key k) : j = k := by
  apply Classical.byContradiction
  intro hne
  rcases Keyword.mem_earlier_or j k hne with hj | hk
  · exact (spellingFault?_eq_none (keywordFault?_eq_none h k)).2 j hj hjk
  · exact (spellingFault?_eq_none (keywordFault?_eq_none h j)).2 k hk hjk.symm

end Config

end Vocabulary

/-- A checked vocabulary, with its patterns read by an engine. -/
structure Vocabulary where
  engine : PatternEngine
  config : Vocabulary.Config
  /-- Whether the pattern of fields is found in a word. -/
  fieldTest : String → Bool
  /-- Whether the pattern of namespaces is found in a word. -/
  namespaceTest : String → Bool
  field_read : engine.read? config.fieldPattern = some fieldTest
  namespace_read : engine.read? config.namespacePattern = some namespaceTest
  isSpelling_keyword : ∀ k, Vocabulary.isSpelling (config.keywords k) = true
  key_injective : ∀ {j k}, config.key j = config.key k → j = k

namespace Vocabulary

/-- Checks a configuration: the pattern of fields, the pattern of namespaces, and the keywords. -/
def ofConfig (c : Config) (engine : PatternEngine := .dialect) : Except Fault Vocabulary :=
  match hf : engine.read? c.fieldPattern with
  | none => .error (.invalidPattern .field)
  | some field =>
    match hn : engine.read? c.namespacePattern with
    | none => .error (.invalidPattern .source)
    | some source =>
      match hk : c.keywordFault? with
      | some fault => .error fault
      | none =>
        .ok {
          engine
          config := c
          fieldTest := field
          namespaceTest := source
          field_read := hf
          namespace_read := hn
          isSpelling_keyword := fun k =>
            (Config.spellingFault?_eq_none (Config.keywordFault?_eq_none hk k)).1
          key_injective := Config.key_injective hk }

/-- The greatest number of `not` operands and parentheses that may be open at one place. -/
def maxNesting (v : Vocabulary) : Nat :=
  v.config.maxNesting.toNat

/-- How the vocabulary spells a keyword. -/
def spelling (v : Vocabulary) (k : Keyword) : String :=
  v.config.keywords k

/-- The keyword that a word stands for. -/
def keyword? (v : Vocabulary) (word : String) : Option Keyword :=
  let normal := v.config.normalize word
  Keyword.all.find? fun k => v.config.key k == normal

/-- Whether a word can name a field. -/
def isField (v : Vocabulary) (word : String) : Bool :=
  (v.keyword? word).isNone && v.fieldTest word

/-- Whether a word can name a namespace. -/
def isNamespace (v : Vocabulary) (word : String) : Bool :=
  (v.keyword? word).isNone && v.namespaceTest word

end Vocabulary

end RecordQuery
