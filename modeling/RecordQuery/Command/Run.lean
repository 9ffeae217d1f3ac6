/-
  RecordQuery.Command.Run

  What the command line does, as a function of the arguments, the text of the standard input and
  the files that can be read.

  The log is left out. With `--verbose`, or where the environment variable `MCQL_LOG` asks for it,
  lines of a log stand on the standard error in front of the message of a failure; they tell of
  the compiler's work and change nothing else.
-/

import RecordQuery.Command.Arguments
import RecordQuery.Command.Reference
import RecordQuery.Compile
import RecordQuery.Query.Encode
import RecordQuery.Text.Trim
import RecordQuery.Vocabulary.Json

namespace RecordQuery.Command

/-- Why a file cannot be read. -/
inductive ReadFailure where
  | notFound
  | permissionDenied
  | notDirectory
  | isDirectory
  | notText
  | other (description : String)
deriving DecidableEq, Repr

/-- The wording of a failure to read, with the number of its cause. -/
def ReadFailure.message : ReadFailure → String
  | .notFound => "No such file or directory (os error 2)"
  | .permissionDenied => "Permission denied (os error 13)"
  | .notDirectory => "Not a directory (os error 20)"
  | .isDirectory => "Is a directory (os error 21)"
  | .notText => "stream did not contain valid UTF-8"
  | .other description => description

/-- The files a command can see, by their paths. -/
abbrev Files := String → Except ReadFailure String

/-- Why a command fails. -/
inductive Failure where
  | compile (error : CompileError)
  | malformed (error : SyntaxError)
  | vocabulary (error : Vocabulary.LoadError)
  | unreadable (path : String) (reason : ReadFailure)
deriving DecidableEq, Repr

/-- The wording of a failure, which opens with the step that failed. -/
def Failure.message : Failure → String
  | .compile e => "Compile error: " ++ e.message
  | .malformed e => "Syntax error: " ++ e.message
  | .vocabulary e => "Vocabulary error: " ++ e.message
  | .unreadable path reason =>
    "Vocabulary error: failed to read vocabulary from " ++ path ++ ": " ++ reason.message

/-- The vocabulary of a file, or the standard one. -/
def loadVocabulary (files : Files) (path : Option String) (engine : PatternEngine := .dialect) :
    Except Failure Vocabulary :=
  match path with
  | none => .ok (.standardIn engine)
  | some path =>
    match files path with
    | .error reason => .error (.unreadable path reason)
    | .ok text => (Vocabulary.ofJsonText text engine).mapError .vocabulary

/-- Compiles a query in the vocabulary of a file. -/
def compileQuery (files : Files) (path : Option String) (text : String)
    (engine : PatternEngine := .dialect) : Except Failure Query := do
  let v ← loadVocabulary files path engine
  (compileWith v text).mapError .compile

/-- Lists the actions of a query in the vocabulary of a file. -/
def listActions (files : Files) (path : Option String) (text : String)
    (engine : PatternEngine := .dialect) : Except Failure (List Action) := do
  let v ← loadVocabulary files path engine
  (recognize v text).mapError .malformed

/-- What compiling ends in. -/
inductive Compilation where
  /-- The text is a query; nothing more was asked for. -/
  | checked
  | compiled (query : Query)
deriving DecidableEq, Repr

/-- Compiles a query in the vocabulary of a file, or only looks whether the text is one. -/
def checkOrCompile (files : Files) (path : Option String) (syntaxOnly : Bool) (text : String)
    (engine : PatternEngine := .dialect) : Except Failure Compilation :=
  if syntaxOnly then (listActions files path text engine).map fun _ => .checked
  else (compileQuery files path text engine).map .compiled

/-- What a command leaves behind. -/
structure Outcome where
  code : Nat
  output : String
  /-- What stands on the standard error apart from the log. -/
  errors : String
deriving DecidableEq, Repr

namespace Outcome

/-- A command that did what it was asked for. -/
def success (output : String) : Outcome :=
  ⟨0, output, ""⟩

/-- A command that failed, with the reason on a line of its own. -/
def failure (e : Failure) : Outcome :=
  ⟨1, "", e.message ++ "\n"⟩

/-- The outcome of a command line that makes no request. -/
def usage : Outcome :=
  ⟨2, "", ""⟩

end Outcome

/-- The query of a command: the argument, or the standard input without whitespace at its ends. -/
def Options.text (o : Options) (input : String) : String :=
  o.query.getD (Text.trim input)

/-- The output of the command that compiles. -/
def compileOutput (files : Files) (o : Options) (text : String)
    (engine : PatternEngine := .dialect) : Except Failure String := do
  match ← checkOrCompile files o.vocabulary (.syntaxOnly ∈ o.flags) text engine with
  | .checked => return "Syntax is valid\n"
  | .compiled q =>
    return (if .pretty ∈ o.flags then q.toIndentedJsonText else q.toJsonText) ++ "\n"

/-- The output of the command that lists actions, one on each line. -/
def actionsOutput (files : Files) (o : Options) (text : String)
    (engine : PatternEngine := .dialect) : Except Failure String := do
  let actions ← listActions files o.vocabulary text engine
  return String.join (actions.map fun a => a.line ++ "\n")

/-- The name and the version of the program. -/
def versionLine : String := "mcql 0.1.0\n"

/-- Carries out a request. -/
def Request.run (files : Files) (input : String) (r : Request)
    (engine : PatternEngine := .dialect) : Outcome :=
  let result : Except Failure String := match r with
    | .version => .ok versionLine
    | .command .compile o => compileOutput files o (o.text input) engine
    | .command .actions o => actionsOutput files o (o.text input) engine
    | .command .docs _ => .ok reference
  match result with
  | .ok output => .success output
  | .error e => .failure e

/-- Carries out the request of a command line. A command reads patterns by an engine; the program
    itself uses that of the dialect. -/
def run (files : Files) (input : String) (args : List String)
    (engine : PatternEngine := .dialect) : Outcome :=
  match Request.ofArguments? args with
  | some r => r.run files input engine
  | none => .usage

/-- Whether a request reads the standard input. -/
def Request.readsInput : Request → Bool
  | .command s o => s.takesQuery && o.query.isNone
  | .version => false

/-- The file that a request reads. -/
def Request.path? : Request → Option String
  | .command _ o => o.vocabulary
  | .version => none

end RecordQuery.Command
