import ChartDocs.Command.Basic
import ChartDocs.Files
import ChartDocs.Readme
import ChartDocs.Schema
import ChartDocs.Settings.File
import ChartDocs.Survey

/-!
# Running a command

A command first reads all files that it needs and decides what to show, what to write and whether
it fails; this plan depends on the files only through reading. Then the files are written one after
the other, up to the first one that cannot be written.
-/

namespace ChartDocs

/-- Why a command fails. -/
inductive Failure where
  /-- The settings cannot be loaded. -/
  | settings (path : String) (fault : LoadFault)
  /-- The values file cannot be used. -/
  | values (path : String) (fault : LoadFault)
  /-- Nothing is generated while documentation and values disagree. -/
  | inconsistent (count : Nat) (path : String)
  /-- A check found disagreements. -/
  | findings (count : Nat) (path : String)
  | modifier (unknown : UnknownModifier)
  /-- The README cannot be read. -/
  | readme (path : String) (fault : FileFault)
  /-- The README has no heading for the tables. -/
  | heading (path title : String)
  | dump (fault : Dump.Fault)
  | write (path : String) (fault : FileFault)
deriving DecidableEq, Repr

namespace Failure

/-- The number of findings and the file that has them. -/
def countText (count : Nat) (path : String) : String :=
  String.ofList (Decimal.digits count) ++ " check error(s) in '" ++ path ++ "'"

/-- The wording of a failure. -/
def message : Failure → String
  | settings path fault => "Failed to load config '" ++ path ++ "': " ++ fault.message
  | values path fault => "Failed to read '" ++ path ++ "': " ++ fault.message
  | inconsistent count path =>
    countText count path ++ "; run \x60readme-generator check\x60 for details"
  | findings count path => countText count path
  | modifier unknown => unknown.message
  | readme path fault => "Failed to read '" ++ path ++ "': " ++ fault.message
  | heading path title => path ++ ": " ++ Readme.missingHeading title
  | dump fault => fault.message
  | write path fault => "Failed to write '" ++ path ++ "': " ++ fault.message

end Failure

/-- How the content of a file is found. -/
abbrev Reader := String → Except FileFault Content

/-- What a command is going to do. -/
structure Plan where
  output : String := ""
  /-- The paths to write and their new texts, in order. -/
  writes : List (String × String) := []
  failure : Option Failure := none
deriving DecidableEq, Repr, Inhabited

namespace Plan

/-- Do nothing but fail. -/
def fail (failure : Failure) : Plan :=
  { failure := some failure }

/-- Show a dump on lines of its own, and fail afterwards if there is a failure. -/
def showDump (dumped : Dump.Dumped) (failure : Option Failure) : Plan :=
  match dumped with
  | .ok text => { output := String.ofList (text ++ ['\n']), failure }
  | .error fault => .fail (.dump fault)

end Plan

namespace Command

/-- The text of a values file. -/
def readText (read : Reader) (path : String) : Except Failure String :=
  match read path with
  | .error fault => .error (.values path (.file fault))
  | .ok content =>
    match content.text? with
    | .error fault => .error (.values path (.file fault))
    | .ok text => .ok text

/-- The settings at a path, or the defaults without a path. -/
def readSettings (read : Reader) : Option String → Except Failure Settings
  | none => .ok {}
  | some path =>
    match Settings.load path (read path) with
    | .ok settings => .ok settings
    | .error fault => .error (.settings path fault)

/-- The survey of a values file. -/
def readSurvey (read : Reader) (settings : Settings) (path : String) : Except Failure Survey :=
  match readText read path with
  | .error failure => .error failure
  | .ok text =>
    match Survey.ofText settings path text with
    | .ok survey => .ok survey
    | .error _ => .error (.values path .yaml)

/-- The catalog to generate from; it needs values that agree with their documentation. -/
def readPrepared (read : Reader) (settings : Settings) (path : String) : Except Failure Catalog :=
  match readSurvey read settings path with
  | .error failure => .error failure
  | .ok survey =>
    if survey.report.success then
      match survey.prepare settings with
      | .ok catalog => .ok catalog
      | .error unknown => .error (.modifier unknown)
    else .error (.inconsistent survey.report.findings.length path)

/-- The new text of a README. -/
def newReadme (read : Reader) (settings : Settings) (catalog : Catalog) (path : String) :
    Except Failure String :=
  match read path with
  | .error fault => .error (.readme path fault)
  | .ok content =>
    match content.text? with
    | .error fault => .error (.readme path fault)
    | .ok text =>
      match Readme.replaceBody? text.toList catalog.tables settings.title.toList with
      | some text => .ok (String.ofList text)
      | none => .error (.heading path settings.title)

/-- The text of a schema file. -/
def schemaText (catalog : Catalog) : String :=
  String.ofList (catalog.schema.pretty ++ ['\n'])

/-- What to write for a schema path. -/
def schemaWrites (catalog : Catalog) : Option String → List (String × String)
  | none => []
  | some path => [(path, schemaText catalog)]

/-- What to do with a prepared catalog. A README that cannot be updated prevents the schema. -/
def planOutputs (read : Reader) (settings : Settings) (catalog : Catalog)
    (readme schema : Option String) : Plan :=
  match readme with
  | some path =>
    match newReadme read settings catalog path with
    | .error failure => .fail failure
    | .ok text => { writes := (path, text) :: schemaWrites catalog schema }
  | none =>
    if schema.isSome then { writes := schemaWrites catalog schema }
    else { output := String.ofList catalog.tables }

/-- What generating does. -/
def planGenerate (read : Reader) (file : String) (readme schema settings : Option String) : Plan :=
  match readSettings read settings with
  | .error failure => .fail failure
  | .ok settings =>
    match readPrepared read settings file with
    | .error failure => .fail failure
    | .ok catalog => planOutputs read settings catalog readme schema

/-- What checking does. -/
def planCheck (read : Reader) (file : String) (settings : Option String) (format : Dump.Format) :
    Plan :=
  match readSettings read settings with
  | .error failure => .fail failure
  | .ok settings =>
    match readSurvey read settings file with
    | .error failure => .fail failure
    | .ok survey =>
      .showDump (survey.report.dump format)
        (if survey.report.success then none
          else some (.findings survey.report.findings.length file))

/-- What showing the catalog does. -/
def planMetadata (read : Reader) (file : String) (settings : Option String)
    (format : Dump.Format) : Plan :=
  match readSettings read settings with
  | .error failure => .fail failure
  | .ok settings =>
    match readText read file with
    | .error failure => .fail failure
    | .ok text => .showDump ((Catalog.ofText settings text).dump format) none

/-- What showing the observed values does. -/
def planValues (read : Reader) (file : String) (format : Dump.Format) : Plan :=
  match readText read file with
  | .error failure => .fail failure
  | .ok text =>
    match observedIn text with
    | .ok observed => .showDump (Parameter.dumpList observed format) none
    | .error _ => .fail (.values file .yaml)

/-- The text that tells the version. -/
def versionText : String := "readme-generator 0.1.0\n"

/-- What a command is going to do, given how files are read. -/
def plan (read : Reader) : Command → Plan
  | .generate file readme schema settings => planGenerate read file readme schema settings
  | .check file settings format => planCheck read file settings format
  | .metadata file settings format => planMetadata read file settings format
  | .values file format => planValues read file format
  | .version => { output := versionText }
  | .help topic => { output := String.ofList (Help.page topic) }

/-- The paths that a command may read. -/
def inputs : Command → List String
  | .generate file readme _ settings => settings.toList ++ [file] ++ readme.toList
  | .check file settings _ => settings.toList ++ [file]
  | .metadata file settings _ => settings.toList ++ [file]
  | .values file _ => [file]
  | .version | .help _ => []

end Command

/-- What a command has done. -/
structure Outcome where
  output : String
  failure : Option Failure
  files : Files
deriving DecidableEq, Repr, Inhabited

namespace Outcome

/-- The exit code of a command that was understood. -/
def exitCode (outcome : Outcome) : Nat :=
  if outcome.failure.isSome then 1 else 0

end Outcome

namespace Files

/-- Write texts to paths in order, up to the first that cannot be written. -/
def writeAll (files : Files) (writes : List (String × String)) (directories : Directories) :
    Files × Option Failure :=
  match writes with
  | [] => (files, none)
  | (path, text) :: rest =>
    match files.write path text directories with
    | .ok files => files.writeAll rest directories
    | .error fault => (files, some (.write path fault))

end Files

namespace Command

/-- Run a command on a tree of files. -/
def run (command : Command) (files : Files) (directories : Directories := {}) : Outcome :=
  let plan := command.plan (files.read · directories)
  let (after, failure) := files.writeAll plan.writes directories
  { output := plan.output, failure := plan.failure <|> failure, files := after }

end Command

end ChartDocs
