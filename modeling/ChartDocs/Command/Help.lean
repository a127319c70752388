import ChartDocs.Dump.Format

/-!
# Pages of help

There is a page for the whole program and one for each command. A page tells what its subject does,
how it is called, and what it takes: commands or arguments first, then options, each list with its
descriptions in a column of their own. Lines are as long as the descriptions are.
-/

namespace ChartDocs

open Text

namespace Help

/-- What a page of help is about. -/
inductive Topic where
  | program
  | generate
  | check
  | metadata
  | values
  | help
deriving DecidableEq, Repr, Inhabited

namespace Topic

/-- The word that calls a command; the program itself has none. -/
def name? : Topic → Option String
  | program => none
  | generate => some "generate"
  | check => some "check"
  | metadata => some "metadata"
  | values => some "values"
  | help => some "help"

/-- The topics of the commands, in the order in which they are listed. -/
def commands : List Topic := [generate, check, metadata, values, help]

/-- The command that a word calls. -/
def ofName? (name : String) : Option Topic :=
  commands.find? fun topic => topic.name? = some name

/-- What a topic is about, in one line. -/
def about : Topic → String
  | program => "Generate README parameter tables from annotated chart values files"
  | generate => "Update a README and/or write a JSON schema from a values file"
  | check => "Check that documented parameters and values agree"
  | metadata => "Print the documentation extracted from comment tags"
  | values => "Print the flattened values of a values file"
  | help => "Print this message or the help of the given subcommand(s)"

/-- What is written after the name of the program. -/
def call : Topic → String
  | program => "[OPTIONS] <COMMAND>"
  | generate => "generate [OPTIONS] --values <VALUES>"
  | check => "check [OPTIONS] --values <VALUES>"
  | metadata => "metadata [OPTIONS] --values <VALUES>"
  | values => "values [OPTIONS] --values <VALUES>"
  | help => "help [COMMAND]..."

end Topic

/-- Something that a page lists, with its description. -/
structure Entry where
  name : String
  description : String
deriving DecidableEq, Repr, Inhabited

/-- The option for the output format, which has a usual value. -/
def formatEntry (usual : Dump.Format) : Entry where
  name := "    --format <FORMAT>"
  description := "Output format [default: " ++ usual.name ++ "] [possible values: " ++
    joinStrings ", " (Dump.Format.all.map Dump.Format.name) ++ "]"

/-- The option for the settings. -/
def configEntry : Entry where
  name := "    --config <CONFIG>"
  description := "Tag configuration file (JSON or YAML)"

/-- The option for the values file. -/
def valuesEntry (description : String) : Entry where
  name := "    --values <VALUES>"
  description := description

/-- The options that only one topic has. -/
def ownOptions : Topic → List Entry
  | .program | .help => []
  | .generate => [
      valuesEntry "Annotated values file",
      ⟨"    --readme <README>", "README whose parameters section is replaced in place"⟩,
      ⟨"    --schema <SCHEMA>", "Output path for the generated JSON schema"⟩,
      configEntry]
  | .check => [valuesEntry "Annotated values file", configEntry, formatEntry .table]
  | .metadata => [valuesEntry "Annotated values file", configEntry, formatEntry .json]
  | .values => [valuesEntry "Values file", formatEntry .json]

/-- All options of a topic: what every command understands stands around what is its own, and the
version can only be asked of the program. -/
def options (topic : Topic) : List Entry :=
  match topic with
  | .help => []
  | _ =>
    ⟨"-v, --verbose", "Log debug events to stderr (overridden by RUST_LOG)"⟩ :: ownOptions topic ++
      ⟨"-h, --help", "Print help"⟩ ::
        if topic = .program then [⟨"-V, --version", "Print version"⟩] else []

/-- The commands that a topic offers. -/
def commands : Topic → List Entry
  | .program => Topic.commands.map fun topic => ⟨topic.name?.getD "", topic.about⟩
  | _ => []

/-- The arguments of a topic that are no options. -/
def arguments : Topic → List Entry
  | .help => [⟨"[COMMAND]...", "Print help for the subcommand(s)"⟩]
  | _ => []

/-- An entry whose description starts at a column. -/
def Entry.render (column : Nat) (entry : Entry) : List Char :=
  Dump.padTo column (' ' :: ' ' :: entry.name.toList) ++ entry.description.toList ++ ['\n']

/-- A list with a heading. The descriptions start two columns after the longest name; nothing is
shown of an empty list. -/
def renderList (heading : String) (entries : List Entry) : List Char :=
  if entries.isEmpty then []
  else
    let column := (entries.map fun entry => entry.name.length).foldl max 0 + 4
    '\n' :: heading.toList ++ ":\n".toList ++ entries.flatMap (Entry.render column)

/-- The page about a topic. -/
def page (topic : Topic) : List Char :=
  topic.about.toList ++ "\n\nUsage: readme-generator ".toList ++ topic.call.toList ++ ['\n'] ++
    renderList "Commands" (commands topic) ++ renderList "Arguments" (arguments topic) ++
      renderList "Options" (options topic)

example : page .help =
    "Print this message or the help of the given subcommand(s)\n\n".toList ++
      "Usage: readme-generator help [COMMAND]...\n\n".toList ++
      "Arguments:\n  [COMMAND]...  Print help for the subcommand(s)\n".toList := by
  decide +kernel

end Help

end ChartDocs
