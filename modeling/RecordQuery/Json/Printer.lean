/-
  RecordQuery.Json.Printer

  Writing JSON values. A layout says what stands around the items of arrays and objects: nothing in
  compact text, line breaks and two blanks for each level in indented text.
-/

import RecordQuery.Json.Value

namespace RecordQuery.Json

/-! ## Strings -/

/-- The hexadecimal digit of a number below sixteen. -/
def hexDigit (n : Nat) : Char :=
  Nat.digitChar n

/-- How a character is written inside a string. Only quotes, backslashes and control characters
    are escaped. -/
def escapeChar (c : Char) : List Char :=
  if c = '"' then ['\\', '"']
  else if c = '\\' then ['\\', '\\']
  else if c = '\x08' then ['\\', 'b']
  else if c = '\x0c' then ['\\', 'f']
  else if c = '\n' then ['\\', 'n']
  else if c = '\r' then ['\\', 'r']
  else if c = '\t' then ['\\', 't']
  else if c.toNat < 0x20 then
    ['\\', 'u', '0', '0', hexDigit (c.toNat / 16), hexDigit (c.toNat % 16)]
  else [c]

/-- The text of a string, with its quotes. -/
def writeString (s : String) : String :=
  String.ofList ('"' :: (s.toList.flatMap escapeChar ++ ['"']))

/-- The text of a number. -/
def writeNumber : JsonNumber → String
  | .integer n => toString n
  | .other text => text

/-! ## Values -/

/-- What stands in front of each item and of the closing bracket at a level, and what stands
    between a key and its value. -/
structure Layout where
  gap : Nat → String
  colon : String

namespace Layout

/-- No blanks at all. -/
def compact : Layout where
  gap _ := ""
  colon := ":"

/-- Every item on a line of its own, two blanks further in than what it belongs to. -/
def indented : Layout where
  gap level := String.ofList ('\n' :: List.replicate (2 * level) ' ')
  colon := ": "

end Layout

mutual

/-- The text of a value that stands at a level. -/
def write (l : Layout) (level : Nat) : Json → String
  | .null => "null"
  | .bool true => "true"
  | .bool false => "false"
  | .number n => writeNumber n
  | .string s => writeString s
  | .array [] => "[]"
  | .array (first :: rest) =>
    "[" ++ l.gap (level + 1) ++ write l (level + 1) first ++ writeItems l (level + 1) rest
      ++ l.gap level ++ "]"
  | .object [] => "\x7b\x7d"
  | .object ((key, first) :: rest) =>
    "\x7b" ++ l.gap (level + 1) ++ writeString key ++ l.colon ++ write l (level + 1) first
      ++ writeMembers l (level + 1) rest ++ l.gap level ++ "\x7d"

/-- The items of an array behind the first. -/
def writeItems (l : Layout) (level : Nat) : List Json → String
  | [] => ""
  | item :: rest => "," ++ l.gap level ++ write l level item ++ writeItems l level rest

/-- The members of an object behind the first. -/
def writeMembers (l : Layout) (level : Nat) : List (String × Json) → String
  | [] => ""
  | (key, value) :: rest =>
    "," ++ l.gap level ++ writeString key ++ l.colon ++ write l level value
      ++ writeMembers l level rest

end

/-- The text of a value without any blanks. -/
def compact (j : Json) : String :=
  j.write .compact 0

/-- The text of a value with every item on a line of its own. -/
def indented (j : Json) : String :=
  j.write .indented 0

end RecordQuery.Json
