/-
  RecordQuery.Vocabulary.Json

  Vocabularies as JSON. Every member may be left out and then has its standard value, but no other
  members may be there.
-/

import RecordQuery.Json.Decoder
import RecordQuery.Json.Printer
import RecordQuery.Json.Reader
import RecordQuery.Vocabulary.Standard

namespace RecordQuery

open Json

namespace Vocabulary

/-! ## Writing -/

/-- The spellings of all keywords, by their names. -/
def spellingsToJson (s : Spellings) : Json :=
  .object (Keyword.all.map fun k => (k.name, .string (s k)))

namespace Config

/-- The JSON of a configuration. Every member is there. -/
def toJson (c : Config) : Json :=
  .object [
    ("keywords", spellingsToJson c.keywords),
    ("case_sensitive", .bool c.caseSensitive),
    ("field_pattern", .string c.fieldPattern),
    ("namespace_pattern", .string c.namespacePattern),
    ("max_nesting", .integer c.maxNesting.toNat)]

/-- The JSON text of a configuration, without any blanks. -/
def toJsonText (c : Config) : String :=
  c.toJson.compact

end Config

/-! ## Reading -/

/-- The spellings that have been read. -/
abbrev SpellingParts := Keyword → Option String

namespace SpellingParts

/-- The names of all keywords, in order. -/
def names : List String := Keyword.all.map Keyword.name

/-- Adds the spelling of the keyword with a name. No configuration has spellings under other
    names. -/
def add (p : SpellingParts) (key : String) (d : Doc) : Decoded SpellingParts :=
  match Keyword.ofName? key with
  | some k => do
    unset (p k) key
    let s ← d.asString
    return fun j => if j = k then some s else p j
  | none => .error (.unknownField key names)

/-- The spellings, in which keywords that have not been read are spelt by their names. -/
def finish (p : SpellingParts) : Spellings :=
  fun k => (p k).getD k.name

end SpellingParts

/-- Spellings inside of `depth` arrays and objects. -/
def spellingsOfDoc (depth : Nat) (d : Doc) : Decoded Spellings := do
  return (← d.addTo SpellingParts.add (fun _ => true) SpellingParts.names depth
    fun _ => none).finish

/-- The parts of a configuration that have been read. -/
structure ConfigParts where
  keywords : Option Spellings := none
  caseSensitive : Option Bool := none
  fieldPattern : Option String := none
  namespacePattern : Option String := none
  maxNesting : Option UInt64 := none

namespace ConfigParts

/-- The members of a configuration, in order. -/
def names : List String :=
  ["keywords", "case_sensitive", "field_pattern", "namespace_pattern", "max_nesting"]

/-- Adds a member. No configuration has members of other names. -/
def add (p : ConfigParts) (key : String) (d : Doc) : Decoded ConfigParts :=
  match key with
  | "keywords" => do
    unset p.keywords "keywords"
    return { p with keywords := some (← spellingsOfDoc 1 d) }
  | "case_sensitive" => do
    unset p.caseSensitive "case_sensitive"
    return { p with caseSensitive := some (← d.asBool) }
  | "field_pattern" => do
    unset p.fieldPattern "field_pattern"
    return { p with fieldPattern := some (← d.asString) }
  | "namespace_pattern" => do
    unset p.namespacePattern "namespace_pattern"
    return { p with namespacePattern := some (← d.asString) }
  | "max_nesting" => do
    unset p.maxNesting "max_nesting"
    return { p with maxNesting := some (← d.asUnsigned) }
  | _ => .error (.unknownField key names)

/-- The configuration, with standard values for what has not been read. -/
def finish (p : ConfigParts) : Config :=
  let standard : Config := {}
  { keywords := p.keywords.getD standard.keywords
    caseSensitive := p.caseSensitive.getD standard.caseSensitive
    fieldPattern := p.fieldPattern.getD standard.fieldPattern
    namespacePattern := p.namespacePattern.getD standard.namespacePattern
    maxNesting := p.maxNesting.getD standard.maxNesting }

end ConfigParts

/-- The configuration of a document. -/
def Config.ofDoc (d : Doc) : Decoded Config := do
  return (← d.addTo ConfigParts.add (fun _ => true) ConfigParts.names 0 {}).finish

/-- The configuration that a JSON text holds. -/
def Config.ofJsonText (text : String) : Decoded Config :=
  decodeText Config.ofDoc (readText text)

/-! ## Vocabularies -/

/-- Why a text holds no vocabulary. -/
inductive LoadError where
  | json (error : DecodeError)
  | fault (fault : Fault)
deriving DecidableEq, Repr

/-- The wording of the error. -/
def LoadError.message : LoadError → String
  | .json e => "invalid vocabulary JSON: " ++ e.message
  | .fault f => f.message

/-- The vocabulary that a JSON text holds. -/
def ofJsonText (text : String) (engine : PatternEngine := .dialect) :
    Except LoadError Vocabulary := do
  let config ← (Config.ofJsonText text).mapError .json
  (ofConfig config engine).mapError .fault

end Vocabulary

end RecordQuery
