/-
  RecordQuery.Json.Reader

  Reading JSON text into a document.
-/

import RecordQuery.Json.Document
import RecordQuery.Text.Numeral
import RecordQuery.Text.Taken

namespace RecordQuery.Json

open Text (Taken)

/-- The blanks of JSON. -/
def isSpace (c : Char) : Bool :=
  c == ' ' || c == '\n' || c == '\t' || c == '\r'

/-- The text behind the blanks at its front. -/
def skipSpace (cs : List Char) : List Char :=
  cs.dropWhile isSpace

theorem length_dropWhile_le (p : Char → Bool) (cs : List Char) :
    (cs.dropWhile p).length ≤ cs.length :=
  (List.dropWhile_suffix p).length_le

theorem length_skipSpace (cs : List Char) : (skipSpace cs).length ≤ cs.length :=
  length_dropWhile_le _ _

/-! ## Words -/

/-- Goes past the letters of `word`. -/
def matchWord (word : List Char) (cs : List Char) :
    Except Stop { rest : List Char // rest.length ≤ cs.length } :=
  match word, cs with
  | [], cs => .ok ⟨cs, Nat.le_refl _⟩
  | _ :: _, [] => .error .cutShort
  | w :: word, c :: cs =>
    if w = c then do
      let rest ← matchWord word cs
      return ⟨rest.1, Nat.le_succ_of_le rest.2⟩
    else .error .misplaced

/-! ## Numbers -/

/-- One digit or more. -/
def readDigits (cs : List Char) : Except Stop (Taken (List Char) cs.length) :=
  match cs with
  | [] => .error .cutShort
  | c :: rest =>
    if c.isDigit then
      .ok ⟨c :: rest.takeWhile Char.isDigit, rest.dropWhile Char.isDigit,
        Nat.lt_succ_of_le (length_dropWhile_le _ _)⟩
    else .error .misplaced

/-- The digits of an integer, of which a zero is the only one that may come first alone. -/
def readInteger (cs : List Char) : Except Stop (Taken (List Char) cs.length) := do
  let digits ← readDigits cs
  match digits.value with
  | '0' :: _ :: _ => throw .misplaced
  | _ => return digits

/-- A point and digits, if there is a point. -/
def readFraction (cs : List Char) : Except Stop (Taken (List Char) (cs.length + 1)) :=
  match cs with
  | '.' :: rest => do
    let digits ← readDigits rest
    return digits.widen (by simp only [List.length_cons]; omega)
  | rest => .ok ⟨[], rest, Nat.lt_succ_self _⟩

/-- The digits behind the sign of an exponent. -/
def readSignedDigits (cs : List Char) : Except Stop (Taken Int cs.length) :=
  match cs with
  | '-' :: rest => do
    let digits ← readDigits rest
    return (digits.map fun ds => -(Nat.ofDigitChars 10 ds 0 : Int)).widen (by simp)
  | '+' :: rest => do
    let digits ← readDigits rest
    return (digits.map fun ds => (Nat.ofDigitChars 10 ds 0 : Int)).widen (by simp)
  | rest => do
    let digits ← readDigits rest
    return digits.map fun ds => (Nat.ofDigitChars 10 ds 0 : Int)

/-- An exponent, if there is one. -/
def readExponent (cs : List Char) : Except Stop (Taken (Option Int) (cs.length + 1)) :=
  match cs with
  | 'e' :: rest | 'E' :: rest => do
    let exponent ← readSignedDigits rest
    return (exponent.map some).widen (by simp only [List.length_cons]; omega)
  | rest => .ok ⟨none, rest, Nat.lt_succ_self _⟩

/-- Whether `digits` times ten to the power `exponent` rounds to no finite number of 64 bits. -/
def isHuge (digits : Nat) (exponent : Int) : Bool :=
  let width := (Nat.toDigits 10 digits).length
  if digits = 0 then false
  else if (width : Int) + exponent ≤ 308 then false
  else if 310 ≤ (width : Int) + exponent then true
  else
    let limit := Nat.pow 2 1024 - Nat.pow 2 970
    limit * Nat.pow 10 (-exponent).toNat ≤ digits * Nat.pow 10 exponent.toNat

/-- The number with the given parts. An integer without fraction and exponent stays one if it has a
    type of 64 bits. -/
def makeNumber (negative : Bool) (digits fraction : List Char) (exponent : Option Int)
    (text : List Char) : Except Stop JsonNumber :=
  let n := Nat.ofDigitChars 10 digits 0
  let float :=
    if isHuge (Nat.ofDigitChars 10 fraction n) (exponent.getD 0 - fraction.length) then
      .error .misplaced
    else .ok (.other (String.ofList text))
  if fraction.isEmpty && exponent.isNone then
    if negative then
      if n = 0 || n > RecordQuery.Text.maxSigned + 1 then float else .ok (.integer (-n))
    else if n > RecordQuery.Text.maxUnsigned then float else .ok (.integer n)
  else float

/-- The parts of a number behind its sign. -/
def readUnsigned (negative : Bool) (cs : List Char) :
    Except Stop (Taken (Except Stop JsonNumber) cs.length) := do
  let digits ← readInteger cs
  let fraction ← readFraction digits.rest
  let exponent ← readExponent fraction.rest
  have hd := digits.shorter
  have hf := fraction.shorter
  have he := exponent.shorter
  let text := cs.take (cs.length - exponent.rest.length)
  return ⟨makeNumber negative digits.value fraction.value exponent.value
    (if negative then '-' :: text else text), exponent.rest, by omega⟩

/-- A number, which starts with a sign or a digit. -/
def readNumber (cs : List Char) : Except Stop (Taken (Except Stop JsonNumber) cs.length) :=
  match cs with
  | '-' :: rest => do
    let number ← readUnsigned true rest
    return number.widen (by simp)
  | rest => readUnsigned false rest

/-! ## Strings -/

/-- A character of a string, or a unit of sixteen bits that an escape writes. -/
inductive Piece where
  | char (c : Char)
  | unit (n : Nat)
deriving DecidableEq, Repr

/-- The character of an escape with one letter. -/
def unescape? : Char → Option Char
  | '"' => some '"'
  | '\\' => some '\\'
  | '/' => some '/'
  | 'b' => some '\x08'
  | 'f' => some '\x0c'
  | 'n' => some '\n'
  | 'r' => some '\r'
  | 't' => some '\t'
  | _ => none

/-- The value of a hexadecimal digit. -/
def hexValue? (c : Char) : Option Nat :=
  if c.isDigit then some (c.toNat - '0'.toNat)
  else if 'a' ≤ c ∧ c ≤ 'f' then some (c.toNat - 'a'.toNat + 10)
  else if 'A' ≤ c ∧ c ≤ 'F' then some (c.toNat - 'A'.toNat + 10)
  else none

/-- The value of four hexadecimal digits. -/
def hexUnit? (a b c d : Char) : Option Nat := do
  return 16 * (16 * (16 * (← hexValue? a) + (← hexValue? b)) + (← hexValue? c)) + (← hexValue? d)

/-- The stop at an escape whose digits are bad, given the rest of the text: four bytes have to be
    left for the digits. -/
def badUnit (cs : List Char) : Stop :=
  if (cs.take 4).foldl (fun n c => n + c.utf8Size) 0 < 4 then .cutShort else .misplaced

/-- What is left behind a closing quote, of a text of `n` characters. -/
abbrev Closed (n : Nat) := Except Stop { rest : List Char // rest.length < n }

/-- The same rest, seen from a longer text. -/
def Closed.widen {m n : Nat} (h : m ≤ n) : Closed m → Closed n
  | .ok rest => .ok ⟨rest.1, Nat.lt_of_lt_of_le rest.2 h⟩
  | .error stop => .error stop

/-- The pieces of a string up to its closing quote or the first fault. -/
def readPieces (cs : List Char) : List Piece × Closed cs.length :=
  match cs with
  | [] => ([], .error .cutShort)
  | ['\\'] => ([], .error .cutShort)
  | '\\' :: 'u' :: rest =>
    match rest with
    | a :: b :: c :: d :: rest =>
      match hexUnit? a b c d with
      | some n =>
        let more := readPieces rest
        (.unit n :: more.1, more.2.widen (by simp only [List.length_cons]; omega))
      | none => ([], .error (badUnit (a :: b :: c :: d :: rest)))
    | rest => ([], .error (badUnit rest))
  | '\\' :: e :: rest =>
    match unescape? e with
    | some c =>
      let more := readPieces rest
      (.char c :: more.1, more.2.widen (by simp only [List.length_cons]; omega))
    | none => ([], .error .misplaced)
  | '"' :: rest => ([], .ok ⟨rest, by simp⟩)
  | c :: rest =>
    if c.toNat < 0x20 then ([], .error .misplaced)
    else
      let more := readPieces rest
      (.char c :: more.1, more.2.widen (Nat.le_succ _))

/-- Units that start a pair. -/
def isHighSurrogate (n : Nat) : Bool :=
  0xD800 ≤ n && n ≤ 0xDBFF

/-- Units that end a pair. -/
def isLowSurrogate (n : Nat) : Bool :=
  0xDC00 ≤ n && n ≤ 0xDFFF

/-- The character of a pair of units. -/
def pairChar (high low : Nat) : Char :=
  Char.ofNat (0x10000 + (high - 0xD800) * 0x400 + (low - 0xDC00))

/-- The characters that pieces stand for. Pieces that end within a pair are cut short. -/
def joinPieces : List Piece → Except Stop (List Char)
  | [] => .ok []
  | .char c :: rest => (joinPieces rest).map (c :: ·)
  | .unit n :: rest =>
    if isHighSurrogate n then
      match rest with
      | [] => .error .cutShort
      | .unit m :: rest =>
        if isLowSurrogate m then (joinPieces rest).map (pairChar n m :: ·) else .error .misplaced
      | .char _ :: _ => .error .misplaced
    else if isLowSurrogate n then .error .misplaced
    else (joinPieces rest).map (Char.ofNat n :: ·)

/-- The content of a string whose closing quote is there. -/
def closedString (pieces : List Piece) : Except Stop String :=
  match joinPieces pieces with
  | .ok cs => .ok (String.ofList cs)
  | .error _ => .error .misplaced

/-- A string that stops before its closing quote. -/
def brokenString (pieces : List Piece) (stop : Stop) : Broken :=
  match joinPieces pieces with
  | .error .misplaced => .string .misplaced stop
  | _ => .string stop stop

/-! ## Documents -/

/-- What was read, and what is left of a text of `n` characters unless the reading broke off. -/
structure Read (α : Type) (n : Nat) where
  value : α
  rest : Option { cs : List Char // cs.length < n }

namespace Read

variable {α β : Type} {m n : Nat}

/-- A reading that broke off. -/
def stuck (value : α) : Read α n :=
  ⟨value, none⟩

/-- The same reading of a longer text, with another value. -/
def lift (r : Read α m) (f : α → β) (h : m ≤ n) : Read β n :=
  match r.rest with
  | none => ⟨f r.value, none⟩
  | some rest => ⟨f r.value, some ⟨rest.1, Nat.lt_of_lt_of_le rest.2 h⟩⟩

end Read

/-- The rest of a word that stands for `value`. -/
def readWord (word : List Char) (value : Doc) (misspelt : Stop → Broken) (cs : List Char) :
    Read Doc (cs.length + 1) :=
  match matchWord word cs with
  | .ok rest => ⟨value, some ⟨rest, Nat.lt_succ_of_le rest.2⟩⟩
  | .error stop => .stuck (.broken (misspelt stop))

/-- What follows the opening quote of a string. -/
def readString (cs : List Char) : Read Doc cs.length :=
  match readPieces cs with
  | (pieces, .ok rest) => ⟨.string (closedString pieces), some rest⟩
  | (pieces, .error stop) => .stuck (.broken (brokenString pieces stop))

mutual

/-- A value, behind blanks. -/
def readValue (cs : List Char) : Read Doc cs.length :=
  have hs := length_skipSpace cs
  match _h : skipSpace cs with
  | [] => .stuck (.broken .absent)
  | '"' :: rest => (readString rest).lift id (by simp only [_h, List.length_cons] at hs; omega)
  | '[' :: rest =>
    have hr : rest.length < cs.length := by simp only [_h, List.length_cons] at hs; omega
    (readItems rest).lift .array (Nat.le_of_lt hr)
  | '\x7b' :: rest =>
    have hr : rest.length < cs.length := by simp only [_h, List.length_cons] at hs; omega
    (readMembers rest).lift .object (Nat.le_of_lt hr)
  | 'n' :: rest =>
    (readWord ['u', 'l', 'l'] .null .misspeltNull rest).lift id (by
      simp only [_h, List.length_cons] at hs; omega)
  | 't' :: rest =>
    (readWord ['r', 'u', 'e'] (.bool true) .misspeltBool rest).lift id (by
      simp only [_h, List.length_cons] at hs; omega)
  | 'f' :: rest =>
    (readWord ['a', 'l', 's', 'e'] (.bool false) .misspeltBool rest).lift id (by
      simp only [_h, List.length_cons] at hs; omega)
  | c :: rest =>
    if c == '-' || c.isDigit then
      match readNumber (c :: rest) with
      | .ok n => ⟨.number n.value, some ⟨n.rest, Nat.lt_of_lt_of_le n.shorter (_h ▸ hs)⟩⟩
      | .error stop => .stuck (.broken (.number stop))
    else .stuck (.broken .unreadable)
termination_by 3 * cs.length

/-- What follows the opening bracket of an array. -/
def readItems (cs : List Char) : Read Items cs.length :=
  have hs := length_skipSpace cs
  match _h : skipSpace cs with
  | [] => .stuck .cut
  | ']' :: rest =>
    ⟨.close, some ⟨rest, by simp only [_h, List.length_cons] at hs; omega⟩⟩
  | c :: rest => (readItem (c :: rest)).lift id (_h ▸ hs)
termination_by 3 * cs.length + 2
decreasing_by
  simp only [_h] at hs
  omega

/-- An item of an array and what follows it. -/
def readItem (cs : List Char) : Read Items cs.length :=
  let first := readValue cs
  match first.rest with
  | none => .stuck (.item first.value .cut)
  | some rest => (readMoreItems rest).lift (.item first.value) (Nat.le_of_lt rest.2)
termination_by 3 * cs.length + 1
decreasing_by
  · omega
  · have := rest.2
    omega

/-- What follows an item of an array. -/
def readMoreItems (cs : List Char) : Read Items cs.length :=
  have hs := length_skipSpace cs
  match _h : skipSpace cs with
  | [] => .stuck .cut
  | ']' :: rest =>
    ⟨.close, some ⟨rest, by simp only [_h, List.length_cons] at hs; omega⟩⟩
  | ',' :: rest =>
    have ht := length_skipSpace rest
    match _h' : skipSpace rest with
    | [] => .stuck .danglingComma
    | ']' :: _ => .stuck .stray
    | c :: rest' =>
      (readItem (c :: rest')).lift id (by
        simp only [_h, _h', List.length_cons] at hs ht ⊢
        omega)
  | _ => .stuck .stray
termination_by 3 * cs.length + 2
decreasing_by
  simp only [_h, _h', List.length_cons] at hs ht ⊢
  omega

/-- What follows the opening brace of an object. -/
def readMembers (cs : List Char) : Read Members cs.length :=
  have hs := length_skipSpace cs
  match _h : skipSpace cs with
  | [] => .stuck .cut
  | '\x7d' :: rest =>
    ⟨.close, some ⟨rest, by simp only [_h, List.length_cons] at hs; omega⟩⟩
  | c :: rest => (readMember (c :: rest)).lift id (_h ▸ hs)
termination_by 3 * cs.length + 2
decreasing_by
  simp only [_h] at hs
  omega

/-- A member of an object and what follows it. -/
def readMember (cs : List Char) : Read Members cs.length :=
  match cs with
  | '"' :: rest =>
    match readPieces rest with
    | (pieces, .error stop) => .stuck (.keyless (.broken (brokenString pieces stop)))
    | (pieces, .ok behind) =>
      have hb := behind.2
      have hs := length_skipSpace behind
      let key := closedString pieces
      match _h : skipSpace behind with
      | [] => .stuck (.member key (.broken (.noColon .cutShort)) .cut)
      | ':' :: start =>
        have ht : start.length < rest.length := by
          simp only [_h, List.length_cons] at hs; omega
        let value := readValue start
        match value.rest with
        | none => .stuck (.member key value.value .cut)
        | some more =>
          have hm := more.2
          (readMoreMembers more).lift (.member key value.value) (by
            simp only [List.length_cons]; omega)
      | _ => .stuck (.member key (.broken (.noColon .misplaced)) .cut)
  | rest => .stuck (.keyless (readValue rest).value)
termination_by 3 * cs.length + 1

/-- What follows a member of an object. -/
def readMoreMembers (cs : List Char) : Read Members cs.length :=
  have hs := length_skipSpace cs
  match _h : skipSpace cs with
  | [] => .stuck .cut
  | '\x7d' :: rest =>
    ⟨.close, some ⟨rest, by simp only [_h, List.length_cons] at hs; omega⟩⟩
  | ',' :: rest =>
    have ht := length_skipSpace rest
    match _h' : skipSpace rest with
    | [] => .stuck .danglingComma
    | '\x7d' :: _ => .stuck .stray
    | c :: rest' =>
      (readMember (c :: rest')).lift id (by
        simp only [_h, _h', List.length_cons] at hs ht ⊢
        omega)
  | _ => .stuck .stray
termination_by 3 * cs.length + 2
decreasing_by
  simp only [_h, _h', List.length_cons] at hs ht ⊢
  omega

end

/-- Reads a whole text. -/
def readText (s : String) : Source :=
  let r := readValue s.toList
  ⟨r.value, match r.rest with
    | some rest => !(skipSpace rest).isEmpty
    | none => false⟩

end RecordQuery.Json
