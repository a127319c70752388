import ChartDocs.Files
import ChartDocs.Json.Octets
import ChartDocs.Path
import ChartDocs.Settings.Tree

/-!
# Settings files

A file whose name ends in `.json`, in letters of any case, holds settings in JSON, and any other
file holds them in YAML. Octets that are no text may occur in JSON where their string is ignored.
-/

namespace ChartDocs

/-- Why a file does not give what it should hold. -/
inductive LoadFault where
  | file (fault : FileFault)
  | yaml
  | json
deriving DecidableEq, Repr

/-- The wording of a fault. -/
def LoadFault.message : LoadFault → String
  | file fault => "I/O error: " ++ fault.message
  | yaml => "YAML error"
  | json => "JSON error"

namespace Settings

/-- Whether a path names a JSON file: there must be a name before the ending. -/
def isJsonFile (path : String) : Bool :=
  let name := ((Files.fileName? path).getD "").toList
  match Path.beforeLast? '.' name with
  | some (_ :: stem) => (name.drop (stem.length + 2)).map Char.toLower = "json".toList
  | _ => false

/-- The fault of a file that does not hold settings. -/
def malformed (path : String) : LoadFault :=
  if isJsonFile path then .json else .yaml

/-- The settings that a file holds, in its format. -/
def ofContent? (path : String) : Content → Option Settings
  | .text text =>
    if isJsonFile path then (Json.read text.toList).bind ofJson?
    else (Yaml.document text.toList).toOption.bind ofDocument?
  | .bytes octets => if isJsonFile path then (Json.readOctets octets).bind ofJson? else none

/-- The settings of a file, from what was read there. A directory can be opened and is malformed. -/
def load (path : String) (found : Except FileFault Content) : Except LoadFault Settings :=
  match found with
  | .error .directory => .error (malformed path)
  | .error fault => .error (.file fault)
  | .ok content =>
    match ofContent? path content with
    | some settings => .ok settings
    | none => .error (malformed path)

example : isJsonFile "conf/a.JSON" ∧ isJsonFile "a.json/." ∧ ¬isJsonFile ".json" ∧
    ¬isJsonFile "a.json.yaml" := by decide

end Settings

end ChartDocs
