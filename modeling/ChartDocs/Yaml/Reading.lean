import ChartDocs.Yaml.Node
import ChartDocs.Yaml.Scalar

/-!
# The value that a text holds

Reading turns the nodes of a document into a tree of values: plain scalars are resolved, tags are
obeyed, aliases are replaced by what they mean. Collections may be nested to a fixed depth, aliases
may be used a hundred times as often as the document has parts, and a mapping must not have two
equal keys.
-/

namespace ChartDocs.Yaml

/-- How deeply collections may be nested. -/
def depthLimit : Nat := 128

/-- How many uses of aliases are allowed for each part of a document. -/
def repetitionLimit : Nat := 100

/-- A computation that counts uses of aliases. -/
abbrev Counting := StateT Nat (Except Fault)

namespace Document

/-- The node that is meant at a place: an alias counts as used and is replaced. -/
def follow (d : Document) : Node → Counting Node
  | .alias slot => do
    let uses := (← get) + 1
    if d.size * repetitionLimit < uses then throw .repetition
    set uses
    match d.target? slot with
    | some node => return node
    | none => throw .unknownAnchor
  | node => return node

end Document

/-- A value, or a fault if there is none. -/
def required (value : Option Value) : Except Fault Value :=
  match value with
  | some value => .ok value
  | none => .error .scalar

/-- The value of a scalar without a tag. -/
def untaggedScalar (plain : Bool) (text : List Char) : Except Fault Value :=
  if plain then required (plainValue? text) else .ok (.string (String.ofList text))

/-- The value of a scalar under a tag that is not local. -/
def taggedScalar (tag : Option Tag) (plain : Bool) (text : List Char) : Except Fault Value :=
  match tag with
  | some .bool => required ((boolWord? text).map .bool)
  | some .int => required ((integerValue text).join)
  | some .float => required ((float? text).map fun x => .number (.float x))
  | some .null => required (if isNullWord text then some .null else none)
  | some .foreign => .ok (.string (String.ofList text))
  | _ => untaggedScalar plain text

namespace Document

/-- The value of a node, with room for so many nested collections. -/
def valueOf (d : Document) : (room : Nat) → Node → Counting Value
  | 0, node => do
    match ← d.follow node with
    | .scalar (some (.named name)) plain text =>
      return .tagged name (← untaggedScalar plain text)
    | .scalar tag plain text => taggedScalar tag plain text
    | _ => throw .tooDeep
  | room + 1, node => do
    match ← d.follow node with
    | .scalar (some (.named name)) plain text =>
      return .tagged name (← untaggedScalar plain text)
    | .scalar tag plain text => taggedScalar tag plain text
    | .sequence tag items =>
      let values ← items.mapM (valueOf d room)
      return underTag tag (.sequence values)
    | .mapping tag entries =>
      let entries ← entries.foldlM (fun found entry => do
        let key ← valueOf d room entry.1
        if Value.hasKey key found then throw .duplicateKey
        return (key, ← valueOf d room entry.2) :: found) []
      return underTag tag (.mapping entries.reverse)
    | .alias _ => throw .unknownAnchor
where
  /-- A collection under its tag, if the tag is local. -/
  underTag : Option Tag → Value → Value
    | some (.named name), value => .tagged name value
    | _, value => value

/-- The value of a document; one without a root holds null. -/
def value (d : Document) : Except Fault Value :=
  match d.root with
  | some root => do
    let (value, _) ← (d.valueOf depthLimit root).run 0
    return value
  | none => .ok .null

end Document

/-- The value that a text holds. -/
def read (text : List Char) : Except Fault Value := do
  (← document text).value

example : (read "a: [x, 1]\nb:\n".toList).toOption =
    some (.record [("a", .sequence [.string "x", .number (.int 1)]), ("b", .null)]) := by
  decide +kernel

end ChartDocs.Yaml
