/-
  RecordQuery.Token.Scanner

  Splitting text into tokens. `Scanner.read` says what the characters at the front of a text
  amount to and how many of them it takes; `Scanner.next` moves over whitespace and that token and
  keeps the position; `Scanner.lexemes` goes on to the end of the text or to the first characters
  that form no token.

  A scanner can be asked again after an error. It then stands where the reading stopped: in front
  of a character that starts no token, behind the backslash of a bad escape, at the end of the text
  for a string without an end.
-/

import RecordQuery.Token.Basic
import RecordQuery.Text.Quoted
import RecordQuery.Unicode.Class

namespace RecordQuery

/-- The characters that words are made of. -/
def isWordChar (c : Char) : Bool :=
  Unicode.isAlphanumeric c || c == '_' || c == '.' || c == '-' || c == '*'

/-- The unread characters of a text and where the first of them stands. -/
structure Scanner where
  rest : List Char
  position : Position
deriving DecidableEq, Repr

namespace Scanner

/-- What follows an opening quote. -/
inductive Body where
  /-- The closing quote is there; `length` counts the characters up to it and it. -/
  | closed (content : List Char) (length : Nat)
  /-- A backslash in front of `escaped`, behind `before` characters, escapes nothing. -/
  | badEscape (escaped : Char) (before : Nat)
  | unclosed
deriving DecidableEq, Repr

/-- The body with `length` more characters in front that stand for `c`. -/
def Body.prepend (c : Char) (length : Nat) : Body → Body
  | .closed content n => .closed (c :: content) (n + length)
  | .badEscape e n => .badEscape e (n + length)
  | .unclosed => .unclosed

/-- Reads the characters behind an opening quote. -/
def readBody (quote : Char) : List Char → Body
  | [] => .unclosed
  | ['\\'] => .unclosed
  | '\\' :: e :: rest =>
    match Text.unescape? e with
    | some c => (readBody quote rest).prepend c 2
    | none => .badEscape e 0
  | c :: rest =>
    if c = quote then .closed [] 1 else (readBody quote rest).prepend c 1

/-- What the characters at the front of a text amount to. -/
inductive Reading where
  /-- A token of `length` characters; the end of the text has none. -/
  | token (token : Token) (length : Nat)
  | unexpected (found : Char)
  | loneBang
  /-- A bad escape whose backslash stands behind `before` characters. -/
  | badEscape (escaped : Char) (before : Nat)
  | unclosed
deriving DecidableEq, Repr

/-- A string literal, opening quote included. -/
def Body.reading : Body → Reading
  | .closed content n => .token (.literal (String.ofList content)) (n + 1)
  | .badEscape e n => .badEscape e (n + 1)
  | .unclosed => .unclosed

/-- Reads a token. An operator takes as many characters as it can, and so does a word. -/
def read : List Char → Reading
  | [] => .token .endOfText 0
  | ',' :: _ => .token .comma 1
  | '(' :: _ => .token .openParen 1
  | ')' :: _ => .token .closeParen 1
  | '=' :: '=' :: _ => .token .equal 2
  | '=' :: _ => .token .equal 1
  | '!' :: '=' :: _ => .token .notEqual 2
  | '!' :: _ => .loneBang
  | '>' :: '=' :: _ => .token .greaterEqual 2
  | '>' :: _ => .token .greater 1
  | '<' :: '=' :: _ => .token .lessEqual 2
  | '<' :: _ => .token .less 1
  | '"' :: rest => (readBody '"' rest).reading
  | '\'' :: rest => (readBody '\'' rest).reading
  | c :: rest =>
    if isWordChar c then
      let word := c :: rest.takeWhile isWordChar
      .token (.word (String.ofList word)) word.length
    else .unexpected c

/-- A scanner in front of a whole text. -/
def ofText (text : String) : Scanner :=
  ⟨text.toList, .start⟩

/-- The scanner behind the next `n` characters. -/
def skip (s : Scanner) (n : Nat) : Scanner :=
  ⟨s.rest.drop n, s.position.after (s.rest.take n)⟩

/-- The scanner in front of the next character that is not whitespace. -/
def skipSpace (s : Scanner) : Scanner :=
  s.skip (s.rest.takeWhile Unicode.isWhiteSpace).length

/-- The token at a scanner that stands on no whitespace, and the scanner behind it. -/
def take (s : Scanner) : Except LexicalError Lexeme × Scanner :=
  match read s.rest with
  | .token t n => (.ok ⟨t, s.position⟩, s.skip n)
  | .unexpected c => (.error (.unexpectedChar c s.position), s)
  | .loneBang => (.error (.loneBang s.position), s)
  | .badEscape e n => (.error (.invalidEscape e (s.skip n).position), s.skip (n + 1))
  | .unclosed => (.error (.unterminatedString s.position), s.skip s.rest.length)

/-- The next token or why there is none, and the scanner to go on with. -/
def next (s : Scanner) : Except LexicalError Lexeme × Scanner :=
  s.skipSpace.take

/-! ## Progress -/

theorem reading_length {b : Body} {t : Token} {n : Nat} (h : b.reading = .token t n) : 0 < n := by
  cases b <;> simp [Body.reading] at h
  omega

/-- Every token but the end of the text takes characters, and there are some to take. -/
theorem read_length {cs : List Char} {t : Token} {n : Nat} (h : read cs = .token t n)
    (ht : t ≠ .endOfText) : 0 < n ∧ 0 < cs.length := by
  unfold read at h
  split at h
  case h_1 => simp_all
  case h_13 => exact ⟨reading_length h, by simp⟩
  case h_14 => exact ⟨reading_length h, by simp⟩
  case h_15 =>
    split at h
    · simp only [Reading.token.injEq] at h
      exact ⟨by simp [← h.2], by simp⟩
    · simp at h
  all_goals simp_all
  all_goals omega

theorem skip_length_le (s : Scanner) (n : Nat) : (s.skip n).rest.length ≤ s.rest.length := by
  simp [skip]

theorem next_length {s s' : Scanner} {l : Lexeme} (h : s.next = (.ok l, s'))
    (hl : l.token ≠ .endOfText) : s'.rest.length < s.rest.length := by
  have hs := s.skip_length_le (s.rest.takeWhile Unicode.isWhiteSpace).length
  unfold next take at h
  split at h <;> simp only [Prod.mk.injEq, reduceCtorEq, false_and, Except.ok.injEq] at h
  next t n hr =>
    obtain ⟨rfl, rfl⟩ := h
    have := read_length hr hl
    simp only [skipSpace] at *
    simp only [skip, List.length_drop] at *
    omega

end Scanner

/-! ## Whole texts -/

/-- The tokens of a text in order, and what ends them: the end of the text or an error. -/
structure Lexed where
  lexemes : List Lexeme
  ending : Except LexicalError Position

/-- All tokens from here on. -/
def Scanner.lexed (s : Scanner) : Lexed :=
  match _h : s.next with
  | (.error e, _) => ⟨[], .error e⟩
  | (.ok l, s') =>
    if _hl : l.token = .endOfText then ⟨[], .ok l.start⟩
    else
      let more := s'.lexed
      ⟨l :: more.lexemes, more.ending⟩
termination_by s.rest.length
decreasing_by exact next_length _h _hl

/-- The tokens of a text and what ends them. -/
def lex (text : String) : Lexed :=
  (Scanner.ofText text).lexed

/-- The tokens of a text, the last of which is the end of the text. -/
def tokenize (text : String) : Except LexicalError (List Token) :=
  let lexed := lex text
  lexed.ending.map fun _ => lexed.lexemes.map (·.token) ++ [.endOfText]

end RecordQuery
