/-
  RecordQuery.Grammar.Cursor

  A place between the tokens of a text, and the moves that need no knowledge of the grammar. A
  cursor always knows the token behind it: moving in front of characters that form no token fails.
-/

import RecordQuery.Grammar.SyntaxError
import RecordQuery.Token.Scanner
import RecordQuery.Vocabulary.Basic

namespace RecordQuery

/-- The tokens that are left, what ends them, and the number of `not` operands and parentheses that
    are open here. -/
structure Cursor where
  lexemes : List Lexeme
  ending : Except LexicalError Position
  depth : Nat := 0

/-- What was read, and the cursor behind it, with fewer than `n` tokens left. -/
structure Parsed (α : Type) (n : Nat) where
  value : α
  rest : Cursor
  shorter : rest.lexemes.length < n

namespace Parsed

variable {α β : Type} {n : Nat}

/-- The same reading, with another value. -/
def map (f : α → β) (p : Parsed α n) : Parsed β n :=
  ⟨f p.value, p.rest, p.shorter⟩

end Parsed

namespace Cursor

/-- The number of tokens that are left, the end of the text aside. -/
def size (c : Cursor) : Nat :=
  c.lexemes.length

/-- The token behind the cursor. -/
def token (c : Cursor) : Token :=
  match c.lexemes with
  | l :: _ => l.token
  | [] => .endOfText

/-- The position of the token behind the cursor. -/
def position (c : Cursor) : Position :=
  match c.lexemes, c.ending with
  | l :: _, _ => l.start
  | [], .ok p => p
  | [], .error e => e.position

/-- Fails in front of characters that form no token. -/
def settle (c : Cursor) : Except SyntaxError Unit :=
  match c.lexemes, c.ending with
  | [], .error e => .error (.lexical e)
  | _, _ => .ok ()

/-- The cursor in front of a whole text. -/
def ofText (text : String) : Except SyntaxError Cursor := do
  let lexed := lex text
  let c : Cursor := { lexemes := lexed.lexemes, ending := lexed.ending }
  c.settle
  return c

theorem size_pos {c : Cursor} (h : c.token ≠ .endOfText) : 0 < c.size := by
  unfold token at h
  split at h <;> simp_all [size]

/-- Moves behind the next token. -/
def advance (c : Cursor) (h : c.token ≠ .endOfText) : Except SyntaxError (Parsed Unit c.size) := do
  let next := { c with lexemes := c.lexemes.tail }
  next.settle
  return ⟨(), next, by
    have := size_pos h
    simp only [next, List.length_tail, size] at *
    omega⟩

/-- The error of finding the next token instead of what was expected. -/
def unexpected (c : Cursor) (expected : Expectation) : SyntaxError :=
  .unexpected expected c.token c.position

/-- Moves behind the next token, which has to be `t`. -/
def expect (c : Cursor) (t : Token) (ht : t ≠ .endOfText) :
    Except SyntaxError (Parsed Unit c.size) :=
  if h : c.token = t then c.advance (h ▸ ht) else .error (c.unexpected (.token t))

/-! ## Words and keywords -/

/-- The keyword behind the cursor. -/
def keyword? (c : Cursor) (v : Vocabulary) : Option Keyword :=
  match c.token with
  | .word w => v.keyword? w
  | _ => none

theorem token_ne_end {c : Cursor} {v : Vocabulary} {k : Keyword} (h : c.keyword? v = some k) :
    c.token ≠ .endOfText := by
  intro ht
  simp [keyword?, ht] at h

/-- Moves behind the keyword `k` if it is next. -/
def eat? (c : Cursor) (v : Vocabulary) (k : Keyword) :
    Except SyntaxError (Option (Parsed Unit c.size)) :=
  if h : c.keyword? v = some k then some <$> c.advance (token_ne_end h) else return none

/-- Moves behind the keyword `k`, which has to be next. -/
def expectKeyword (c : Cursor) (v : Vocabulary) (k : Keyword) :
    Except SyntaxError (Parsed Unit c.size) :=
  if h : c.keyword? v = some k then c.advance (token_ne_end h)
  else .error (c.unexpected (.keyword (v.spelling k)))

/-- Reads a word that is no keyword. -/
def word (c : Cursor) (v : Vocabulary) (expected : Expectation) :
    Except SyntaxError (Parsed String c.size) :=
  match h : c.token with
  | .word w =>
    if (v.keyword? w).isNone then do
      let behind ← c.advance (by simp [h])
      return behind.map fun _ => w
    else .error (c.unexpected expected)
  | _ => .error (c.unexpected expected)

/-- Reads the name of a field. Whether a word is one is asked only when the token behind it is
    known. -/
def field (c : Cursor) (v : Vocabulary) : Except SyntaxError (Parsed String c.size) := do
  let name ← c.word v .fieldName
  if v.isField name.value then return name
  else throw (.invalidField name.value c.position)

/-- Reads a literal: a string or a word. -/
def literal (c : Cursor) (v : Vocabulary) : Except SyntaxError (Parsed String c.size) :=
  match h : c.token with
  | .literal content => do
    let behind ← c.advance (by simp [h])
    return behind.map fun _ => content
  | _ => c.word v .literal

/-! ## Nesting -/

/-- Fails if a `not` or a parenthesis here would be one too many. -/
def checkNesting (c : Cursor) (v : Vocabulary) : Except SyntaxError Unit :=
  if v.maxNesting ≤ c.depth then .error (.nestingTooDeep v.maxNesting c.position) else .ok ()

/-- Counts one more `not` or parenthesis as open. -/
def enter (c : Cursor) : Cursor :=
  { c with depth := c.depth + 1 }

/-- Counts one less as open. -/
def leave (c : Cursor) : Cursor :=
  { c with depth := c.depth - 1 }

@[simp] theorem lexemes_enter (c : Cursor) : c.enter.lexemes = c.lexemes := rfl

end Cursor

end RecordQuery
