/-
  RecordQuery.Pattern.Reader

  The written form of patterns: literal characters, `.`, classes in brackets, `\d` `\s` `\w` and
  their capital complements, escaped punctuation, groups, `|`, the repetitions `*` `+` `?` `{m}`
  `{m,}` `{m,n}`, the anchors `^` and `$`, and the flag `(?i)`, which holds to the end of the group
  it stands in. Classes may be nested, hold the named sets `[:alpha:]` and so on, and be put
  together by `&&`, `--` and `~~`.

  This is a dialect of regular expressions: what it accepts means what it means in the whole
  language. It refuses escapes by number (`\x61`), Unicode properties (`\p{L}`), word boundaries
  (`\b`), groups with names, and the other flags, which the language has; and it knows no bound on
  the size of a pattern. Theorems about vocabularies hold for an engine of the whole language too.

  The reader keeps the open groups on a stack, so that each step looks at the front of the text and
  at the innermost group only.
-/

import RecordQuery.Pattern.Basic
import RecordQuery.Text.Taken

namespace RecordQuery

open Text (Taken length_lt_cons length_lt_cons_cons)

namespace Pattern

/-! ## Single characters and escapes -/

/-- What one place of a class or pattern says. -/
inductive Atom where
  | char (c : Char)
  | set (s : CharSet)
  | anchor (p : Pattern)

/-- Whether a backslash in front of `c` makes it stand for itself. -/
def isEscapable (c : Char) : Bool :=
  c.toNat < 128 && !c.isAlphanum && c != '<' && c != '>'

/-- The meaning of a backslash in front of `c`. -/
def escaped? (c : Char) : Option Atom :=
  match c with
  | 'd' => some (.set .digit)
  | 'D' => some (.set (.complement .digit))
  | 's' => some (.set .space)
  | 'S' => some (.set (.complement .space))
  | 'w' => some (.set .word)
  | 'W' => some (.set (.complement .word))
  | 'n' => some (.char '\n')
  | 't' => some (.char '\t')
  | 'r' => some (.char '\r')
  | 'f' => some (.char '\x0C')
  | 'v' => some (.char '\x0B')
  | 'a' => some (.char '\x07')
  | 'A' => some (.anchor .startOfText)
  | 'z' => some (.anchor .endOfText)
  | c => if isEscapable c then some (.char c) else none

/-! ## Classes -/

/-- One character or set inside brackets. -/
def readAtom : (cs : List Char) → Option (Taken Atom cs.length)
  | [] => none
  | ['\\'] => none
  | '\\' :: c :: rest => (escaped? c).map fun a => ⟨a, rest, length_lt_cons_cons '\\' c rest⟩
  | c :: rest => some ⟨.char c, rest, length_lt_cons c rest⟩

/-- The set an atom of a class stands for; anchors have no place in a class. -/
def Atom.charSet? : Atom → Option CharSet
  | .char c => some (.single c)
  | .set s => some s
  | .anchor _ => none

/-- The range between two atoms, which have to be characters in order. -/
def range? : Atom → Atom → Option CharSet
  | .char first, .char last => if first.toNat ≤ last.toNat then some (.range first last) else none
  | _, _ => none

/-- One item of a class: an atom, or a range if a hyphen and a further atom follow. A hyphen in
    front of the closing bracket stands for itself, and two hyphens are an operation. -/
def readItem (cs : List Char) : Option (Taken CharSet cs.length) := do
  let first ← readAtom cs
  match _h : first.rest with
  | [] => none
  | '-' :: ']' :: _ => return ⟨← first.value.charSet?, first.rest, first.shorter⟩
  | '-' :: '-' :: _ => return ⟨← first.value.charSet?, first.rest, first.shorter⟩
  | '-' :: rest =>
    let last ← readAtom rest
    return ⟨← range? first.value last.value, last.rest,
      Nat.lt_trans last.shorter (Taken.length_lt_of_rest_eq _h)⟩
  | _ => return ⟨← first.value.charSet?, first.rest, first.shorter⟩

/-- The sets that have a name. Their characters are among the first 128. -/
def namedSet? (name : String) : Option CharSet :=
  let digits := .range '0' '9'
  let capitals := .range 'A' 'Z'
  let smalls := .range 'a' 'z'
  let letters := .union capitals smalls
  let alphanumerics := .union digits letters
  let signs := .range '!' '~'
  match name with
  | "alnum" => some alphanumerics
  | "alpha" => some letters
  | "ascii" => some (.range '\x00' '\x7F')
  | "blank" => some (.union (.single '\t') (.single ' '))
  | "cntrl" => some (.union (.range '\x00' '\x1F') (.single '\x7F'))
  | "digit" => some digits
  | "graph" => some signs
  | "lower" => some smalls
  | "print" => some (.range ' ' '~')
  | "punct" => some (.diff signs alphanumerics)
  | "space" => some (.union (.range '\t' '\r') (.single ' '))
  | "upper" => some capitals
  | "word" => some (.union alphanumerics (.single '_'))
  | "xdigit" => some (.union digits (.union (.range 'A' 'F') (.range 'a' 'f')))
  | _ => none

/-- The name of a set and the `:]` behind it. -/
def readName (cs : List Char) : Option (Taken CharSet cs.length) :=
  match cs.dropWhile (· != ':') with
  | ':' :: ']' :: rest =>
    if h : rest.length < cs.length then
      (namedSet? (String.ofList (cs.takeWhile (· != ':')))).map fun s => ⟨s, rest, h⟩
    else none
  | _ => none

/-- A class that is being read: the union of its last items, and what an operation in front of them
    does with it. -/
structure OpenClass where
  anyCase : Bool
  negated : Bool := false
  items : Option CharSet := none
  pending : Option (CharSet → CharSet) := none

namespace OpenClass

/-- A set under the flag of the group around the class. -/
def fold (c : OpenClass) (set : CharSet) : CharSet :=
  if c.anyCase then .anyCase set else set

/-- Puts a set behind the items. -/
def add (c : OpenClass) (set : CharSet) : OpenClass :=
  { c with items := some (match c.items with | none => set | some before => .union before set) }

/-- The set up to here. There may be no items behind an operation. -/
def total (c : OpenClass) : CharSet :=
  let set := c.items.getD .empty
  match c.pending with
  | none => set
  | some apply => apply (c.fold set)

/-- Starts the right side of an operation, which has everything in front of it for its left side. -/
def operate (c : OpenClass) (f : CharSet → CharSet → CharSet) : OpenClass :=
  { c with items := none, pending := some (f (c.fold c.total)) }

/-- The set of the finished class. The flag comes before the sign that negates. -/
def close (c : OpenClass) : CharSet :=
  let set := c.fold c.total
  if c.negated then .complement set else set

end OpenClass

/-- The operation of a doubled sign. -/
def readOperation :
    (cs : List Char) → Option (Taken (CharSet → CharSet → CharSet) cs.length)
  | '&' :: '&' :: rest => some ⟨.inter, rest, length_lt_cons_cons '&' '&' rest⟩
  | '-' :: '-' :: rest => some ⟨.diff, rest, length_lt_cons_cons '-' '-' rest⟩
  | '~' :: '~' :: rest => some ⟨.symmDiff, rest, length_lt_cons_cons '~' '~' rest⟩
  | _ => none

/-- A class with one more operation or item. -/
def readPart (c : OpenClass) (cs : List Char) : Option (Taken OpenClass cs.length) :=
  match readOperation cs with
  | some operation => some (operation.map c.operate)
  | none => (readItem cs).map (·.map c.add)

/-- A named set, `:name:]` or `:^name:]` behind its opening bracket. -/
def readNamedSet (anyCase : Bool) : (cs : List Char) → Option (Taken CharSet cs.length)
  | ':' :: '^' :: rest => do
    let set ← readName rest
    return (set.map fun s => OpenClass.close { anyCase, negated := true, items := some s }).widen
      (Nat.le_of_lt (length_lt_cons_cons ':' '^' rest))
  | ':' :: rest => do
    let set ← readName rest
    return (set.map fun s => OpenClass.close { anyCase, items := some s }).widen
      (Nat.le_of_lt (length_lt_cons ':' rest))
  | _ => none

mutual

/-- A class behind its opening bracket. Hyphens at its start, and a closing bracket that is the
    first character, stand for themselves. -/
def readClass (anyCase : Bool) (cs : List Char) : Option (Taken CharSet cs.length) :=
  match cs with
  | '^' :: rest =>
    (readClassStart { anyCase, negated := true } rest).map fun t => t.widen (by simp)
  | rest => readClassStart { anyCase } rest
termination_by 3 * cs.length + 2
decreasing_by
  · simp only [List.length_cons]
    omega
  · omega

/-- The start of a class, behind the sign that negates it. -/
def readClassStart (c : OpenClass) (cs : List Char) : Option (Taken CharSet cs.length) :=
  match cs with
  | '-' :: rest =>
    (readClassStart (c.add (.single '-')) rest).map fun t => t.widen (by simp)
  | ']' :: rest =>
    if c.items.isNone then
      (readClassItems (c.add (.single ']')) rest).map fun t => t.widen (by simp)
    else readClassItems c (']' :: rest)
  | rest => readClassItems c rest
termination_by 3 * cs.length + 1
decreasing_by
  · simp only [List.length_cons]
    omega
  · simp only [List.length_cons]
    omega
  · omega
  · omega

/-- The items of a class up to its closing bracket. An opening bracket starts a named set, or else
    a class inside. -/
def readClassItems (c : OpenClass) (cs : List Char) : Option (Taken CharSet cs.length) :=
  match cs with
  | [] => none
  | ']' :: rest => some ⟨c.close, rest, length_lt_cons ']' rest⟩
  | '[' :: rest => do
    let inner ← readNamedSet c.anyCase rest <|> readClass c.anyCase rest
    have hi := inner.shorter
    let more ← readClassItems (c.add inner.value) inner.rest
    return more.widen (by simp only [List.length_cons]; omega)
  | sign :: rest => do
    let next ← readPart c (sign :: rest)
    have hi := next.shorter
    let more ← readClassItems next.value next.rest
    return more.widen (Nat.le_of_lt hi)
termination_by 3 * cs.length
decreasing_by
  all_goals
    simp only [List.length_cons] at *
    omega

end

/-! ## Repetition counts -/

/-- A decimal number with blanks around it. Its value has to fit into 32 bits. -/
def readCount (cs : List Char) : Option (Taken Nat cs.length) :=
  let cs' := cs.dropWhile Unicode.isWhiteSpace
  let digits := cs'.takeWhile Char.isDigit
  let rest := (cs'.dropWhile Char.isDigit).dropWhile Unicode.isWhiteSpace
  let value := Nat.ofDigitChars 10 digits 0
  if h : rest.length < cs.length ∧ digits ≠ [] ∧ value ≤ 0xFFFF_FFFF then
    some ⟨value, rest, h.1⟩
  else none

/-- The bounds of a repetition, behind the opening brace. -/
def readBounds (cs : List Char) : Option (Taken (Nat × Option Nat) cs.length) := do
  let least ← readCount cs
  match _h : least.rest with
  | '}' :: rest =>
    return ⟨(least.value, some least.value), rest, Taken.length_lt_of_rest_eq _h⟩
  | ',' :: '}' :: rest =>
    return ⟨(least.value, none), rest,
      Nat.lt_trans (length_lt_cons '}' rest) (Taken.length_lt_of_rest_eq _h)⟩
  | ',' :: rest =>
    let most ← readCount rest
    match _h' : most.rest with
    | '}' :: rest' =>
      if least.value ≤ most.value then
        return ⟨(least.value, some most.value), rest',
          Nat.lt_trans (Taken.length_lt_of_rest_eq _h') (Taken.length_lt_of_rest_eq _h)⟩
      else none
    | _ => none
  | _ => none

/-! ## Groups -/

/-- A group that is being read: its finished alternatives and the items of the open one, the last
    first. `repeatable` tells whether the last item can be repeated, which a flag cannot. -/
structure Level where
  alternatives : List Pattern := []
  items : List Pattern := []
  repeatable : Bool := false
  anyCase : Bool := false

namespace Level

/-- Puts an item behind those of the open alternative. -/
def add (l : Level) (p : Pattern) : Level :=
  { l with items := p :: l.items, repeatable := true }

/-- The items of an alternative, one behind the other. -/
def sequence : List Pattern → Pattern
  | [] => .empty
  | p :: before => before.foldl (fun later q => .concat q later) p

/-- Ends the open alternative and starts another. -/
def divide (l : Level) : Level :=
  { l with alternatives := sequence l.items :: l.alternatives, items := [], repeatable := false }

/-- The pattern a finished group stands for. -/
def close (l : Level) : Pattern :=
  l.alternatives.foldl (fun later p => .either p later) (sequence l.items)

/-- The set of one character, under the flag of the group. -/
def literal (l : Level) (c : Char) : Pattern :=
  .chars (if l.anyCase then .anyCase (.single c) else .single c)

/-- The pattern of an atom, under the flag of the group. -/
def atom (l : Level) : Atom → Pattern
  | .char c => l.literal c
  | .set s => .chars s
  | .anchor p => p

/-- Repeats the last item. -/
def repeatLast? (l : Level) (least : Nat) (most : Option Nat) : Option Level :=
  match l.repeatable, l.items with
  | true, p :: before => some { l with items := .repeated p least most :: before }
  | _, _ => none

end Level

/-- A question mark behind a repetition asks for few rounds first, which changes no match. -/
def skipLazy : List Char → List Char
  | '?' :: rest => rest
  | rest => rest

theorem length_skipLazy (cs : List Char) : (skipLazy cs).length ≤ cs.length := by
  unfold skipLazy
  split <;> simp

/-- Reads a pattern inside the groups `level` and, further out, `outer`. -/
def readPattern (level : Level) (outer : List Level) (cs : List Char) : Option Pattern :=
  match cs with
  | [] => if outer.isEmpty then some level.close else none
  | '(' :: '?' :: 'i' :: ')' :: rest =>
    readPattern { level with anyCase := true, repeatable := false } outer rest
  | '(' :: '?' :: ':' :: rest => readPattern { anyCase := level.anyCase } (level :: outer) rest
  | '(' :: '?' :: 'i' :: ':' :: rest => readPattern { anyCase := true } (level :: outer) rest
  | '(' :: '?' :: _ => none
  | '(' :: rest => readPattern { anyCase := level.anyCase } (level :: outer) rest
  | ')' :: rest =>
    match outer with
    | [] => none
    | around :: outer => readPattern (around.add level.close) outer rest
  | '|' :: rest => readPattern level.divide outer rest
  | '*' :: rest => do
    have := length_skipLazy rest
    readPattern (← level.repeatLast? 0 none) outer (skipLazy rest)
  | '+' :: rest => do
    have := length_skipLazy rest
    readPattern (← level.repeatLast? 1 none) outer (skipLazy rest)
  | '?' :: rest => do
    have := length_skipLazy rest
    readPattern (← level.repeatLast? 0 (some 1)) outer (skipLazy rest)
  | '{' :: rest => do
    let bounds ← readBounds rest
    let level ← level.repeatLast? bounds.value.1 bounds.value.2
    have := bounds.shorter
    have := length_skipLazy bounds.rest
    readPattern level outer (skipLazy bounds.rest)
  | '[' :: rest => do
    let chars ← readClass level.anyCase rest
    have := chars.shorter
    readPattern (level.add (.chars chars.value)) outer chars.rest
  | '.' :: rest => readPattern (level.add (.chars .notLineFeed)) outer rest
  | '^' :: rest => readPattern (level.add .startOfText) outer rest
  | '$' :: rest => readPattern (level.add .endOfText) outer rest
  | ['\\'] => none
  | '\\' :: c :: rest => do
    readPattern (level.add (level.atom (← escaped? c))) outer rest
  | c :: rest => readPattern (level.add (level.literal c)) outer rest
termination_by cs.length
decreasing_by
  all_goals
    simp only [List.length_cons]
    omega

/-- The pattern that a text writes, if it writes one. -/
def ofString? (text : String) : Option Pattern :=
  readPattern {} [] text.toList

end Pattern

end RecordQuery
