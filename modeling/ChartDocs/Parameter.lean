import ChartDocs.Path
import ChartDocs.Text.Blank
import ChartDocs.Value.Equality

/-!
# Parameters

A parameter is one configurable key of a chart. Its documentation comes from the comments of a
values file, its kind and value from the values themselves; either side alone leaves the fields of
the other side at their defaults. The name is the dotted path of the key.
-/

namespace ChartDocs

open Text

/-- A documented or observed key of a values file. -/
structure Parameter where
  name : String
  description : String := ""
  /-- The rendering hints of the tag line, in written order. -/
  modifiers : List String := []
  /-- The name of the section that the parameter belongs to. -/
  sectionName : Option String := none
  /-- Left out of tables and schema. -/
  skip : Bool := false
  /-- Documented without a value of its own in the file. -/
  extra : Bool := false
  kind : Option Kind := none
  value : Option Value := none
  /-- Whether the path can be written as a path of schema properties. -/
  inSchema : Bool := true
  nullable : Bool := false
deriving DecidableEq, Repr, Inhabited

namespace Parameter

/-- Whether there is a value that is neither null nor an empty string. -/
def hasValue (p : Parameter) : Bool :=
  match p.value with
  | none => false
  | some .null => false
  | some (.string text) => text ≠ ""
  | some _ => true

/-- Whether a path is the name of the parameter or lies below it. -/
def covers (p : Parameter) (path : String) : Bool :=
  (dropLeading? p.name.toList path.toList).any Path.endsName

/-- Append a modifier without the blanks around it, unless it is empty or already there. -/
def addModifier (kept : List String) (modifier : String) : List String :=
  let modifier := trimString modifier
  if modifier = "" ∨ modifier ∈ kept then kept else kept ++ [modifier]

/-- Modifiers without blanks around them, without empty ones and without repetitions. -/
def cleanModifiers (modifiers : List String) : List String :=
  modifiers.foldl addModifier []

/-- The parameter with other modifiers. -/
def withModifiers (p : Parameter) (modifiers : List String) : Parameter :=
  { p with modifiers := cleanModifiers modifiers }

/-- The parameter marked as skipped. -/
def skipped (p : Parameter) : Parameter :=
  { p with skip := true }

/-- The parameter marked as extra; its value is the empty string. -/
def asExtra (p : Parameter) : Parameter :=
  { p with extra := true, value := some (.string "") }

/-- Whether the value is a sequence of strings with at least one item. -/
def holdsStrings (p : Parameter) : Bool :=
  match p.value with
  | some (.sequence items) => !items.isEmpty && items.all Value.isString
  | _ => false

example : cleanModifiers [" a ", "", "b", "a"] = ["a", "b"] := by decide

example : ({ name := "a.b" } : Parameter).covers "a.b[0]" ∧
    ¬({ name := "a.b" } : Parameter).covers "a.bc" := by decide

end Parameter

end ChartDocs
