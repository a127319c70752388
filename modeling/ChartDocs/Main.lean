import ChartDocs.Command.Run

/-!
# The command line

Reads the files that a command needs, prints what the command shows, and writes what it writes. A
command line that is not understood ends with exit code 2 and a failure with exit code 1.
-/

namespace ChartDocs.Main

/-- Whether a code of the system, which may be negated, is the given one. -/
def isCode (code expected : UInt32) : Bool :=
  code = expected || code = 0 - expected

/-- The fault that the system reports. -/
def faultOf : IO.Error → FileFault
  | .noFileOrDirectory .. => .missing
  | .inappropriateType _ code _ => if isCode code 21 then .directory else .notDirectory
  | .invalidArgument _ code details =>
    if isCode code 36 then .nameTooLong else .other details
  | .permissionDenied .. => .other "Permission denied (os error 13)"
  | error => .other (toString error)

/-- What the file at a path holds. -/
def readFile (path : String) : IO (Except FileFault Content) := do
  try
    let bytes ← IO.FS.readBinFile path
    match String.fromUTF8? bytes with
    | some text => return .ok (.text text)
    | none => return .ok (.bytes bytes.toList)
  catch error => return .error (faultOf error)

/-- Write texts to paths in order, up to the first that cannot be written. -/
def writeFiles : List (String × String) → IO (Option Failure)
  | [] => return none
  | (path, text) :: rest => do
    try
      IO.FS.writeFile path text
    catch error => return some (.write path (faultOf error))
    writeFiles rest

/-- How the program is called. -/
def usage : String :=
  "usage: readme-generator [-v] generate|check|metadata|values --values FILE [options]"

/-- Run a command. -/
def perform (command : Command) : IO UInt32 := do
  let found ← command.inputs.mapM fun path => return (path, ← readFile path)
  let read (path : String) := (found.lookup path).getD (.error .missing)
  let plan := command.plan read
  IO.print plan.output
  let failure ← writeFiles plan.writes
  match plan.failure <|> failure with
  | some failure =>
    IO.eprintln ("error: " ++ failure.message)
    return 1
  | none => return 0

end ChartDocs.Main

/-- The entry point. -/
def main (arguments : List String) : IO UInt32 := do
  match ChartDocs.Command.ofArguments? arguments with
  | some command => ChartDocs.Main.perform command
  | none =>
    IO.eprintln ChartDocs.Main.usage
    return 2
