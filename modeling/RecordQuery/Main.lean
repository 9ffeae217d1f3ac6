/-
  RecordQuery.Main

  The command line. It reads the standard input and the file that a request names, and does what
  `Command.run` says.
-/

import RecordQuery.Command.Run

open RecordQuery.Command

/-- Why the system cannot read a file. -/
def readFailure : IO.Error → ReadFailure
  | .noFileOrDirectory .. => .notFound
  | .permissionDenied .. => .permissionDenied
  | .inappropriateType _ code _ => if code = 21 then .isDirectory else .notDirectory
  | e => .other (toString e)

/-- The text of a file, or why it cannot be read. -/
def readPath (path : String) : IO (Except ReadFailure String) := do
  try
    match String.fromUTF8? (← IO.FS.readBinFile path) with
    | some text => return .ok text
    | none => return .error .notText
  catch e =>
    return .error (readFailure e)

/-- Runs the request of the command line. -/
def main (args : List String) : IO UInt32 := do
  let request := Request.ofArguments? args
  let input ← match request.map Request.readsInput with
    | some true => (← IO.getStdin).readToEnd
    | _ => pure ""
  let file ← match request.bind Request.path? with
    | some path => readPath path
    | none => pure (.error .notFound)
  let outcome := run (fun _ => file) input args
  IO.print outcome.output
  IO.eprint outcome.errors
  return UInt32.ofNat outcome.code
