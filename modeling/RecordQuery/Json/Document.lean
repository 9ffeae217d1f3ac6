/-
  RecordQuery.Json.Document

  JSON text as far as it can be read. A document is a value, except that at one place the text may
  stop making sense; nothing is known of what stands behind that place. Whoever decodes a document
  in the order of its text meets the first problem first, be it malformed text or a value of the
  wrong shape.

  Some faults matter only if the value is used: a string that pairs its surrogates badly, and a
  number that is too large. Where a value is skipped, they are no faults.
-/

import RecordQuery.Json.Value

namespace RecordQuery.Json

/-- Why text cannot be read on. -/
inductive Stop where
  /-- The text ends too early. -/
  | cutShort
  /-- A character stands where it cannot stand. -/
  | misplaced
deriving DecidableEq, Repr

/-- What stands where a value should. -/
inductive Broken where
  /-- The text ends. -/
  | absent
  /-- A character that starts no value. -/
  | unreadable
  /-- The first letter of `null`, but not the rest. -/
  | misspeltNull (stop : Stop)
  /-- The first letter of `true` or `false`, but not the rest. -/
  | misspeltBool (stop : Stop)
  /-- The start of a number. -/
  | number (stop : Stop)
  /-- A string without an end or with a bad escape, and the fault met if it is skipped. -/
  | string (stop skipped : Stop)
  /-- Something other than the colon that a member needs. -/
  | noColon (stop : Stop)
deriving DecidableEq, Repr

mutual

/-- A value as far as its text can be read. -/
inductive Doc where
  | null
  | bool (value : Bool)
  | number (value : Except Stop JsonNumber)
  | string (value : Except Stop String)
  | array (items : Items)
  | object (members : Members)
  | broken (what : Broken)

/-- What follows the opening bracket of an array or one of its items. -/
inductive Items where
  | close
  /-- The text ends. -/
  | cut
  /-- Neither a comma nor the closing bracket, or a comma in front of the bracket. -/
  | stray
  /-- A comma, and then the text ends. -/
  | danglingComma
  /-- An item, behind its comma if it is not the first. -/
  | item (value : Doc) (rest : Items)

/-- What follows the opening brace of an object or one of its members. -/
inductive Members where
  | close
  | cut
  | stray
  | danglingComma
  /-- Something other than a readable string where a key should stand. -/
  | keyless (found : Doc)
  | member (key : Except Stop String) (value : Doc) (rest : Members)

end

/-- A whole text: a document, and whether more than blanks follows it. -/
structure Source where
  doc : Doc
  trailing : Bool

end RecordQuery.Json
