/-
  RecordQuery.Command.Arguments

  Command lines. A line is a request or it is wrong; what is wrong with it is not said. Options may
  stand before and behind the query, each at most once; two hyphens end them.

  Help is no request here: `--help`, `-h` and the subcommand `help` count as wrong command lines,
  with code 2 and no output, and their texts are left out.
-/

namespace RecordQuery.Command

/-- What a command line can ask for by name. -/
inductive Subcommand where
  | compile
  | actions
  | docs
deriving DecidableEq, Repr

/-- The subcommand of a name. -/
def Subcommand.ofName? : String → Option Subcommand
  | "compile" => some .compile
  | "actions" => some .actions
  | "docs" => some .docs
  | _ => none

/-- Options without a value. -/
inductive Flag where
  | verbose
  | pretty
  | syntaxOnly
deriving DecidableEq, Repr

/-- What the arguments of a subcommand say. -/
structure Options where
  flags : List Flag := []
  /-- The path of a vocabulary. -/
  vocabulary : Option String := none
  query : Option String := none
deriving DecidableEq, Repr

/-- What a command line asks for. -/
inductive Request where
  | version
  | command (subcommand : Subcommand) (options : Options)
deriving DecidableEq, Repr

namespace Subcommand

/-- Whether the subcommand takes a query and a vocabulary. -/
def takesQuery : Subcommand → Bool
  | .docs => false
  | _ => true

/-- The flag that a subcommand has under a long name. -/
def longFlag? (s : Subcommand) (name : String) : Option Flag :=
  match s, name with
  | _, "verbose" => some .verbose
  | .compile, "pretty" => some .pretty
  | .compile, "syntax-only" => some .syntaxOnly
  | _, _ => none

/-- The flag that a subcommand has under a letter. -/
def shortFlag? (s : Subcommand) (letter : Char) : Option Flag :=
  match s, letter with
  | _, 'v' => some .verbose
  | .compile, 'p' => some .pretty
  | _, _ => none

end Subcommand

namespace Options

/-- Sets a flag that is not set yet. -/
def addFlag (o : Options) (f : Flag) : Option Options :=
  if f ∈ o.flags then none else some { o with flags := f :: o.flags }

/-- Sets the path of the vocabulary, which is not empty. -/
def addVocabulary (o : Options) (path : String) : Option Options :=
  if o.vocabulary.isSome || path.isEmpty then none else some { o with vocabulary := some path }

/-- Sets the query. -/
def addQuery (o : Options) (text : String) : Option Options :=
  if o.query.isSome then none else some { o with query := some text }

end Options

/-- The forms of an argument. -/
inductive Argument where
  /-- Two hyphens. -/
  | endOfOptions
  /-- A name behind two hyphens, and a value if an equals sign follows. -/
  | long (name : String) (value : Option String)
  /-- Letters behind one hyphen. -/
  | short (letters : List Char)
  | positional (text : String)

/-- The form of an argument. One hyphen alone is a text. -/
def Argument.ofString (s : String) : Argument :=
  match s.toList with
  | ['-', '-'] => .endOfOptions
  | '-' :: '-' :: cs =>
    match cs.dropWhile (· != '=') with
    | '=' :: value => .long (String.ofList (cs.takeWhile (· != '='))) (some (String.ofList value))
    | _ => .long (String.ofList cs) none
  | '-' :: c :: cs => .short (c :: cs)
  | _ => .positional s

/-- Adds arguments behind the end of the options. -/
def addPositionals (s : Subcommand) (o : Options) : List String → Option Options
  | [] => some o
  | text :: rest =>
    if s.takesQuery then do addPositionals s (← o.addQuery text) rest else none

/-- Adds the arguments of a subcommand. -/
def addArguments (s : Subcommand) (o : Options) : List String → Option Options
  | [] => some o
  | arg :: rest =>
    match Argument.ofString arg with
    | .endOfOptions => addPositionals s o rest
    | .long "vocabulary" value =>
      if s.takesQuery then
        match value, rest with
        | some path, rest => do addArguments s (← o.addVocabulary path) rest
        | none, [] => none
        | none, path :: rest =>
          match Argument.ofString path with
          | .positional path => do addArguments s (← o.addVocabulary path) rest
          | _ => none
      else none
    | .long _ (some _) => none
    | .long name none => do addArguments s (← o.addFlag (← s.longFlag? name)) rest
    | .short letters => do
      let flags ← letters.mapM s.shortFlag?
      addArguments s (← flags.foldlM Options.addFlag o) rest
    | .positional text =>
      if s.takesQuery then do addArguments s (← o.addQuery text) rest else none

/-- What letters in front of the subcommand ask for: the version, or more output at most once. -/
def addLetters (verbose : Bool) : List Char → Option (Sum Unit Bool)
  | [] => some (.inr verbose)
  | 'V' :: _ => some (.inl ())
  | 'v' :: rest => if verbose then none else addLetters true rest
  | _ => none

/-- Reads a command line, in which `verbose` tells whether more output is asked for already. -/
def readRequest (verbose : Bool) : List String → Option Request
  | [] => none
  | arg :: rest =>
    match Argument.ofString arg with
    | .endOfOptions => none
    | .long "version" none => some .version
    | .long "verbose" none => if verbose then none else readRequest true rest
    | .long _ _ => none
    | .short letters =>
      match addLetters verbose letters with
      | some (.inl ()) => some .version
      | some (.inr verbose) => readRequest verbose rest
      | none => none
    | .positional name => do
      let s ← Subcommand.ofName? name
      return .command s (← addArguments s {} rest)

/-- The request that a command line makes. -/
def Request.ofArguments? (args : List String) : Option Request :=
  readRequest false args

end RecordQuery.Command
