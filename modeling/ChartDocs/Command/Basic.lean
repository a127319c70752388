import ChartDocs.Command.Help

/-!
# Commands

The four things that can be asked of a values file, and the questions for the version and for help.
A command line is a command with its options in any order; the names of options are written in
full, their values follow them or are joined to them by an equals sign. No option may be given
twice, and a value must not look like an option unless it is joined.

Arguments are read from left to right, and reading ends where help or the version is asked for. What
stands before must be right, what comes after does not matter.
-/

namespace ChartDocs

open Text

/-- What is asked for. -/
inductive Command where
  /-- Put tables into a README and write a schema; without either, show the tables. -/
  | generate (values : String) (readme schema settings : Option String)
  /-- Compare documentation and values. -/
  | check (values : String) (settings : Option String) (format : Dump.Format)
  /-- Show the catalog. -/
  | metadata (values : String) (settings : Option String) (format : Dump.Format)
  /-- Show the observed values. -/
  | values (values : String) (format : Dump.Format)
  /-- Show the version. -/
  | version
  /-- Show a page of help. -/
  | help (topic : Help.Topic)
deriving DecidableEq, Repr

namespace Command

/-- Why no command with its options is found. -/
inductive Halt where
  /-- Help is asked for. -/
  | help
  /-- The version is asked for. -/
  | version
  /-- The arguments have no meaning. -/
  | misused
deriving DecidableEq, Repr

/-- Whether the letters after one hyphen, and those before them, ask for more to be reported. The
version can only be asked for where that is `allowed`. -/
def readLetters (allowed : Bool) : (verbose : Bool) → List Char → Except Halt Bool
  | verbose, [] => .ok verbose
  | verbose, c :: letters =>
    if c = 'h' then .error .help
    else if c = 'V' && allowed then .error .version
    else if c = 'v' && !verbose then readLetters allowed true letters
    else .error .misused

/-- What an argument does that is an option without a value, and nothing for other arguments. -/
def readFlag? (allowed verbose : Bool) (argument : String) : Option (Except Halt Bool) :=
  if argument = "--help" then some (.error .help)
  else if argument = "--version" then some (.error (if allowed then .version else .misused))
  else if argument = "--verbose" then some (if verbose then .error .misused else .ok true)
  else
    match argument.toList with
    | '-' :: c :: letters =>
      if c = '-' then none else some (readLetters allowed verbose (c :: letters))
    | _ => none

/-- Whether an argument can be the value of the option before it. -/
def isValue (argument : String) : Bool :=
  argument.toList.head? ≠ some '-' || argument = "-"

/-- The name and the joined value of an argument that starts with two hyphens. -/
def option? (argument : String) : Option (String × Option String) :=
  match argument.toList with
  | '-' :: '-' :: rest =>
    match Path.cutAt? '=' rest with
    | some (name, value) => some (String.ofList name, some (String.ofList value))
    | none => some (String.ofList rest, none)
  | _ => none

/-- Whether an option can have a value: a format must be known, and a path must not be empty. -/
def admits (name value : String) : Bool :=
  if name = "format" then (Dump.Format.ofName? value).isSome else value ≠ ""

/-- Add an option that is allowed and not given yet. -/
def addOption (allowed : List String) (found : List (String × String)) (name value : String) :
    Except Halt (List (String × String)) :=
  if allowed.contains name && (found.lookup name).isNone && admits name value then
    .ok ((name, value) :: found)
  else .error .misused

/-- The options of a command with their values. -/
def readOptions (allowed : List String) :
    (verbose : Bool) → (found : List (String × String)) → List String →
      Except Halt (List (String × String))
  | _, found, [] => .ok found
  | _, found, ["--"] => .ok found
  | verbose, found, argument :: rest =>
    match readFlag? false verbose argument with
    | some (.ok verbose) => readOptions allowed verbose found rest
    | some (.error halt) => .error halt
    | none =>
      match option? argument, rest with
      | some (name, some value), rest =>
        match addOption allowed found name value with
        | .ok found => readOptions allowed verbose found rest
        | .error halt => .error halt
      | some (name, none), value :: rest =>
        if isValue value then
          match addOption allowed found name value with
          | .ok found => readOptions allowed verbose found rest
          | .error halt => .error halt
        else .error .misused
      | _, _ => .error .misused

/-- The format among the options. -/
def formatOf (options : List (String × String)) (usual : Dump.Format) : Dump.Format :=
  ((options.lookup "format").bind Dump.Format.ofName?).getD usual

/-- The topic of the command whose help is asked for by words. No command has commands of its
own. -/
def helpTopic? : List String → Option Help.Topic
  | [] => some .program
  | [name] => Help.Topic.ofName? name
  | _ => none

/-- What the reading of a command's options leads to. -/
def conclude (topic : Help.Topic) (options : Except Halt (List (String × String)))
    (build : List (String × String) → Option Command) : Option Command :=
  match options with
  | .ok options => build options
  | .error .help => some (.help topic)
  | .error .version => some .version
  | .error .misused => none

/-- The command of a topic with its arguments. Without a values file there is no command. -/
def ofTopic? (topic : Help.Topic) (arguments : List String) : Option Command :=
  match topic with
  | .generate =>
    conclude topic (readOptions ["values", "readme", "schema", "config"] false [] arguments)
      fun options => (options.lookup "values").map fun file =>
        .generate file (options.lookup "readme") (options.lookup "schema")
          (options.lookup "config")
  | .check =>
    conclude topic (readOptions ["values", "config", "format"] false [] arguments)
      fun options => (options.lookup "values").map fun file =>
        .check file (options.lookup "config") (formatOf options .table)
  | .metadata =>
    conclude topic (readOptions ["values", "config", "format"] false [] arguments)
      fun options => (options.lookup "values").map fun file =>
        .metadata file (options.lookup "config") (formatOf options .json)
  | .values =>
    conclude topic (readOptions ["values", "format"] false [] arguments)
      fun options => (options.lookup "values").map fun file =>
        .values file (formatOf options .json)
  | .help => (helpTopic? arguments).map .help
  | .program => none

/-- The command of a command line, where options may stand before the command. -/
def ofArgumentsAfter? : (verbose : Bool) → List String → Option Command
  | _, [] => none
  | verbose, argument :: rest =>
    match readFlag? true verbose argument with
    | some (.ok verbose) => ofArgumentsAfter? verbose rest
    | some (.error halt) => conclude .program (.error halt) fun _ => none
    | none => (Help.Topic.ofName? argument).bind fun topic => ofTopic? topic rest

/-- The command of a command line. -/
def ofArguments? (arguments : List String) : Option Command :=
  ofArgumentsAfter? false arguments

example : ofArguments? ["-v", "values", "--format=yaml", "--values", "v.yaml"] =
    some (.values "v.yaml" .yaml) := by decide +kernel

example : ofArguments? ["values", "--values"] = none ∧
    ofArguments? ["check", "--values", "a", "--values", "b"] = none := by decide +kernel

example : ofArguments? ["check", "-h", "--unknown"] = some (.help .check) ∧
    ofArguments? ["check", "--unknown", "-h"] = none := by decide +kernel

end Command

end ChartDocs
