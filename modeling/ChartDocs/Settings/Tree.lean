import ChartDocs.Json.Record
import ChartDocs.Settings.Basic
import ChartDocs.Yaml.Node

/-!
# Settings in JSON and YAML

Settings are a record of four records of texts. Both formats name the fields alike and take
defaults for fields that are missing; they differ in what counts as a record and as a text. JSON
wants objects or arrays and strings. YAML wants mappings, takes an empty plain scalar for a record
without fields, and any scalar for a text.
-/

namespace ChartDocs

namespace Settings

/-- How a tree of some format is read as records of texts. -/
structure TreeView (α : Type) where
  /-- The fields of a record with known names. -/
  record? : List String → α → Option (List (String × α))
  text? : α → Option String

namespace TreeView

variable {α : Type} (view : TreeView α)

/-- The fields of a record inside a record; a record that is missing has none. -/
def inner? (fields : List (String × α)) (name : String) (names : List String) :
    Option (List (String × α)) :=
  match fields.lookup name with
  | some tree => view.record? names tree
  | none => some []

/-- A text inside a record, with a default. -/
def textOr? (fields : List (String × α)) (name default : String) : Option String :=
  match fields.lookup name with
  | some tree => view.text? tree
  | none => some default

/-- The tag words in a record. -/
def tagWords? (fields : List (String × α)) : Option TagWords := do
  let usual : TagWords := {}
  return {
    param := ← view.textOr? fields "param" usual.param
    group := ← view.textOr? fields "section" usual.group
    skip := ← view.textOr? fields "skip" usual.skip
    extra := ← view.textOr? fields "extra" usual.extra
    descriptionStart := ← view.textOr? fields "descriptionStart" usual.descriptionStart
    descriptionEnd := ← view.textOr? fields "descriptionEnd" usual.descriptionEnd }

/-- The words for modifiers in a record. -/
def modifierWords? (fields : List (String × α)) : Option ModifierWords := do
  let usual : ModifierWords := {}
  return {
    array := ← view.textOr? fields "array" usual.array
    object := ← view.textOr? fields "object" usual.object
    string := ← view.textOr? fields "string" usual.string
    nullable := ← view.textOr? fields "nullable" usual.nullable
    default := ← view.textOr? fields "default" usual.default }

/-- The settings in a tree. -/
def settings? (tree : α) : Option Settings := do
  let usual : Settings := {}
  let root ← view.record? ["comments", "tags", "modifiers", "regexp"] tree
  let comments ← view.inner? root "comments" ["format"]
  let tags ← view.inner? root "tags"
    ["param", "section", "skip", "extra", "descriptionStart", "descriptionEnd"]
  let modifiers ← view.inner? root "modifiers" ["array", "object", "string", "nullable", "default"]
  let regexp ← view.inner? root "regexp" ["paramsSectionTitle"]
  return {
    comment := ← view.textOr? comments "format" usual.comment
    tags := ← view.tagWords? tags
    modifiers := ← view.modifierWords? modifiers
    title := ← view.textOr? regexp "paramsSectionTitle" usual.title }

end TreeView

/-- Records and texts in JSON. -/
def jsonView : TreeView Json where
  record? := Json.record?
  text? := Json.toText?

/-- The settings in a JSON tree. -/
def ofJson? (json : Json) : Option Settings :=
  jsonView.settings? json

end Settings

namespace Yaml.Document

/-- The node that is meant at a place, where an alias stands for the node with its anchor. -/
def meant? (d : Document) : Node → Option Node
  | .alias slot => d.target? slot
  | node => some node

/-- The text of a scalar, whatever its tag and style. -/
def scalarText? (d : Document) (node : Node) : Option String :=
  match d.meant? node with
  | some (.scalar _ _ text) => some (String.ofList text)
  | _ => none

/-- The fields of a mapping with known names; every key has to be a scalar. -/
def record? (d : Document) (names : List String) (node : Node) :
    Option (List (String × Node)) :=
  match d.meant? node with
  | some (.scalar _ true []) => some []
  | some (.mapping _ entries) => do
    let fields ← entries.mapM fun entry => (d.scalarText? entry.1).map (·, entry.2)
    let known := fields.filter fun field => names.contains field.1
    if (known.map (·.1)).Nodup then some known else none
  | _ => none

end Yaml.Document

namespace Settings

/-- The settings in a YAML document; one without a root holds the defaults. -/
def ofDocument? (d : Yaml.Document) : Option Settings :=
  match d.root with
  | some root => TreeView.settings? ⟨d.record?, d.scalarText?⟩ root
  | none => some {}

end Settings

end ChartDocs
