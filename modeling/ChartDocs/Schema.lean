import ChartDocs.Catalog.Basic
import ChartDocs.Value.Json

/-!
# The JSON schema of a catalog

The dotted names of parameters are paths in a tree of properties. Each node of the tree collects
what is known about its path: a parameter documented there adds its facts, and a parameter below it
makes it an object with properties. Neither takes away what the other has set. Properties are kept
in the order of their names.
-/

namespace ChartDocs

open Text

namespace Schema

/-- What a schema says about one property. -/
structure Facts where
  kind : Option Kind := none
  description : Option String := none
  default : Option Json := none
  nullable : Bool := false
  /-- Whether the items are strings. -/
  stringItems : Bool := false
deriving Repr, Inhabited

/-- The facts with newer ones over them. -/
def Facts.update (old new : Facts) : Facts :=
  { kind := new.kind <|> old.kind
    description := new.description <|> old.description
    default := new.default <|> old.default
    nullable := old.nullable || new.nullable
    stringItems := old.stringItems || new.stringItems }

/-- A property and the properties below it, if it has such. -/
inductive Node where
  | node (facts : Facts) (properties : Option (List (String × Node)))
deriving Repr, Inhabited

/-- Properties in the order of their names. -/
abbrev Properties := List (String × Node)

namespace Node

/-- The facts of a property. -/
def facts : Node → Facts
  | node facts _ => facts

/-- The properties below a property, if it has such. -/
def properties : Node → Option Properties
  | node _ properties => properties

/-- The node of an object that is only known by what is below it. -/
def object : Node :=
  node { kind := some .object } (some [])

/-- A property after a parameter has been documented there. -/
def document (new : Facts) : Option Node → Node
  | some (node old properties) => node (old.update new) properties
  | none => node new none

/-- A property after something has been put below it. -/
def descend (change : Properties → Properties) (found : Option Node) : Node :=
  let old := found.getD object
  node old.facts (some (change (old.properties.getD [])))

end Node

namespace Properties

/-- Change the property with a name, which may not exist yet. -/
def alter (name : String) (change : Option Node → Node) : Properties → Properties
  | [] => [(name, change none)]
  | (other, old) :: rest =>
    if name = other then (name, change (some old)) :: rest
    else if name < other then (name, change none) :: (other, old) :: rest
    else (other, old) :: alter name change rest

/-- Document a parameter at a path. -/
def insert (facts : Facts) : List String → Properties → Properties
  | [], properties => properties
  | [name], properties => alter name (Node.document facts) properties
  | name :: rest, properties => alter name (Node.descend (insert facts rest)) properties

/-- The node at a path. -/
def find? : List String → Properties → Option Node
  | [], _ => none
  | [name], properties => properties.lookup name
  | name :: rest, properties =>
    match properties.lookup name with
    | some found => find? rest (found.properties.getD [])
    | none => none

end Properties

/-- A field that is written only if it has a value. -/
def field? (name : String) (value : Option Json) : List (String × Json) :=
  match value with
  | some json => [(name, json)]
  | none => []

/-- An object that only gives a type. -/
def typeOnly (kind : Kind) : Json :=
  .object [("type", .string kind.name)]

mutual

/-- The schema of a property. -/
def Node.toJson : Node → Json
  | .node facts properties =>
    .object (field? "default" facts.default ++
      field? "description" (facts.description.map .string) ++
      field? "items" (if facts.stringItems then some (typeOnly .string) else none) ++
      field? "nullable" (if facts.nullable then some (.bool true) else none) ++
      (match properties with
        | some properties => [("properties", .object (propertiesToJson properties))]
        | none => []) ++
      field? "type" (facts.kind.map fun kind => .string kind.name))

/-- The schemas of properties. -/
def propertiesToJson : List (String × Node) → List (String × Json)
  | [] => []
  | (name, node) :: rest => (name, node.toJson) :: propertiesToJson rest

end

end Schema

namespace Parameter

/-- The default value in a schema; null if there is none or JSON has no form for it. -/
def schemaDefault (p : Parameter) : Json :=
  match p.value with
  | none => .null
  | some value =>
    if p.kind = some .nil then .null
    else
      match value.toJson with
      | .ok json => json.sorted
      | .error _ => .null

/-- What a parameter says about its property. -/
def facts (p : Parameter) : Schema.Facts :=
  { kind := p.kind.filter (· ≠ .nil)
    description := some p.description
    default := some p.schemaDefault
    nullable := p.nullable
    stringItems := p.holdsStrings }

/-- Whether a schema shows a parameter: skipped parameters, items of sequences and paths that no
segments spell are left out. -/
def inProperties (p : Parameter) : Bool :=
  !p.skip && p.inSchema && !p.name.toList.contains '['

/-- The path of property names that a parameter name spells. -/
def propertyPath (p : Parameter) : List String :=
  (splitAt '.' p.name.toList).map String.ofList

end Parameter

namespace Catalog

/-- The properties of a schema. -/
def properties (c : Catalog) : Schema.Properties :=
  (c.parameters.filter (·.inProperties)).foldl
    (fun found p => found.insert p.facts p.propertyPath) []

/-- The schema of a catalog. -/
def schema (c : Catalog) : Json :=
  .object [
    ("$schema", .string "http://json-schema.org/draft-07/schema#"),
    ("properties", .object (Schema.propertiesToJson c.properties)),
    ("title", .string "Chart Values"),
    ("type", .string Kind.object.name)]

end Catalog

end ChartDocs
