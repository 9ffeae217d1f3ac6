/-
  RecordQuery.Vocabulary.Standard

  The standard vocabulary: every keyword is spelt by its name, in any case. A field is `*` or an
  identifier with points; a namespace may also start with a digit, hold hyphens, and end in `*`.
-/

import RecordQuery.Vocabulary.Basic

namespace RecordQuery

namespace CharSet

/-- The letters of the Latin alphabet. -/
def asciiLetter : CharSet := .union (.range 'A' 'Z') (.range 'a' 'z')

/-- The letters of the Latin alphabet and the ten digits. -/
def asciiAlphanumeric : CharSet := .union asciiLetter (.range '0' '9')

end CharSet

namespace Pattern

/-- Any number of characters of a set. -/
def many (set : CharSet) : Pattern := .repeated (.chars set) 0 none

/-- The names of fields. -/
def fieldName : Pattern :=
  let identifier := .concat
    (.chars (.union .asciiLetter (.single '_')))
    (many (.union (.union .asciiAlphanumeric (.single '_')) (.single '.')))
  .concat .startOfText (.concat (.either (.chars (.single '*')) identifier) .endOfText)

/-- The names of namespaces. -/
def namespaceName : Pattern :=
  let wordChar := .union .asciiAlphanumeric (.single '_')
  .concat .startOfText
    (.concat (.chars wordChar)
      (.concat (many (.union (.union wordChar (.single '.')) (.single '-')))
        (.concat (.repeated (.chars (.single '*')) 0 (some 1)) .endOfText)))

theorem ofString?_standardField : ofString? standardField = some fieldName := by
  decide +kernel

theorem ofString?_standardNamespace : ofString? standardNamespace = some namespaceName := by
  decide +kernel

end Pattern

namespace PatternEngine

theorem read?_standardField (engine : PatternEngine) :
    engine.read? Pattern.standardField = some Pattern.fieldName.isMatch := by
  rw [engine.read?_standard _ (by simp), Pattern.ofString?_standardField]
  rfl

theorem read?_standardNamespace (engine : PatternEngine) :
    engine.read? Pattern.standardNamespace = some Pattern.namespaceName.isMatch := by
  rw [engine.read?_standard _ (by simp), Pattern.ofString?_standardNamespace]
  rfl

end PatternEngine

namespace Vocabulary

theorem keywordFault?_standard : ({} : Config).keywordFault? = none := by
  decide +kernel

/-- The vocabulary of the configuration that changes nothing. -/
def standardIn (engine : PatternEngine) : Vocabulary where
  engine
  config := {}
  fieldTest := Pattern.fieldName.isMatch
  namespaceTest := Pattern.namespaceName.isMatch
  field_read := engine.read?_standardField
  namespace_read := engine.read?_standardNamespace
  isSpelling_keyword k :=
    (Config.spellingFault?_eq_none (Config.keywordFault?_eq_none keywordFault?_standard k)).1
  key_injective := Config.key_injective keywordFault?_standard

/-- This vocabulary in the engine of the dialect. -/
def standard : Vocabulary :=
  standardIn .dialect

end Vocabulary

end RecordQuery
