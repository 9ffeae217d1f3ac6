/-
  RecordQuery.Text.Listing

  Texts as listings show them: between double quotes, on one line, with every character that has no
  visible form of its own written by its code point.
-/

import RecordQuery.Unicode.Class

namespace RecordQuery.Text

/-- A code point in lowercase hexadecimal digits, without leading zeros. -/
def hexDigits (c : Char) : List Char :=
  Nat.toDigits 16 c.toNat

/-- How a listing writes a character. -/
def listedChar (c : Char) : List Char :=
  if c = '\x00' then ['\\', '0']
  else if c = '\t' then ['\\', 't']
  else if c = '\r' then ['\\', 'r']
  else if c = '\n' then ['\\', 'n']
  else if c = '"' then ['\\', '"']
  else if c = '\\' then ['\\', '\\']
  else if Unicode.isVisible c && !Unicode.extendsGrapheme c then [c]
  else ['\\', 'u', '\x7b'] ++ hexDigits c ++ ['\x7d']

/-- How a listing writes a text. -/
def listed (s : String) : String :=
  String.ofList ('"' :: (s.toList.flatMap listedChar ++ ['"']))

end RecordQuery.Text
