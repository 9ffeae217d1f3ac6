/-
  RecordQuery.Unicode.Lowercase

  Full lowercasing of text. Every character has its own mapping, but for a capital sigma, which
  becomes a final sigma at the end of a word.
-/

import RecordQuery.Unicode.Cased
import RecordQuery.Unicode.LowercaseMapping

namespace RecordQuery.Unicode

/-- Whether a character has the property Cased. -/
def isCased (c : Char) : Bool :=
  cased.contains c.toNat

/-- Whether a character has the property Case_Ignorable. -/
def isCaseIgnorable (c : Char) : Bool :=
  caseIgnorable.contains c.toNat

/-- The lowercase of a character by itself. A dotted capital I keeps its dot as a mark. -/
def lowercaseChar (c : Char) : List Char :=
  if c = '\u0130' then ['i', '\u0307'] else [lowercaseShifts.apply c]

/-- Whether the first character that is not case ignorable is cased. -/
def meetsCased (cs : List Char) : Bool :=
  match cs.dropWhile isCaseIgnorable with
  | [] => false
  | c :: _ => isCased c

/-- Lowercases characters that stand after `before`, whose last character comes first. A capital
    sigma is final if a cased character precedes it and none follows it. -/
def lowercaseAfter (before : List Char) : List Char → List Char
  | [] => []
  | c :: rest =>
    let lowered :=
      if c = 'Σ' then
        if meetsCased before && !meetsCased rest then ['ς'] else ['σ']
      else lowercaseChar c
    lowered ++ lowercaseAfter (c :: before) rest

/-- The lowercase of a text. -/
def lowercase (s : String) : String :=
  String.ofList (lowercaseAfter [] s.toList)

end RecordQuery.Unicode
