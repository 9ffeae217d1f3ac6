/-
  RecordQuery.Pattern.Engine

  Engines of regular expressions. A vocabulary asks two things of one: whether a text writes a
  pattern, and in which texts the pattern is then found. What patterns there are beyond the two of
  the standard vocabulary is the engine's own affair.

  A vocabulary keeps the engine that read its patterns, so what is said of every vocabulary is said
  of every engine. Where none is named, it is the engine of the dialect.
-/

import RecordQuery.Pattern.Reader

namespace RecordQuery

namespace Pattern

/-- The pattern of the names of fields, where no other is given. -/
def standardField : String := "^(\\*|[A-Za-z_][A-Za-z0-9_.]*)$"

/-- The pattern of the names of namespaces, where no other is given. -/
def standardNamespace : String := "^[A-Za-z0-9_][A-Za-z0-9_.\\-]*\\*?$"

end Pattern

/-- An engine of regular expressions. -/
structure PatternEngine where
  /-- The texts in which a pattern is found, if there is a pattern that is written so. -/
  read? (pattern : String) : Option (String → Bool)
  /-- The standard patterns mean what they mean in the dialect of `Pattern.ofString?`. -/
  read?_standard : ∀ pattern ∈ [Pattern.standardField, Pattern.standardNamespace],
    read? pattern = (Pattern.ofString? pattern).map Pattern.isMatch

namespace PatternEngine

/-- The engine that knows the dialect and refuses every other pattern. -/
def dialect : PatternEngine where
  read? pattern := (Pattern.ofString? pattern).map Pattern.isMatch
  read?_standard _ _ := rfl

end PatternEngine

end RecordQuery
