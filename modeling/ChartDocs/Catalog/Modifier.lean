import ChartDocs.Catalog.Filling
import ChartDocs.Settings.Basic
import ChartDocs.Yaml.Reading

/-!
# Modifiers

The word for nullable marks a parameter wherever it stands among the modifiers. Of the others only
the last one decides: it replaces kind and value by an empty array, object or string, or gives a
default value and leaves the kind alone. Any other last word is unknown.
-/

namespace ChartDocs

open Text

/-- A modifier without a meaning, and the parameter that has it. -/
structure UnknownModifier where
  modifier : String
  parameter : String
deriving DecidableEq, Repr, Inhabited

/-- The wording for an unknown modifier. -/
def UnknownModifier.message (u : UnknownModifier) : String :=
  "unknown modifier '" ++ u.modifier ++ "' for parameter " ++ u.parameter

namespace ModifierWords

/-- The text after the word for defaults and a colon, without blanks around it. -/
def defaultText? (words : ModifierWords) (modifier : String) : Option (List Char) :=
  match dropLeading? words.default.toList modifier.toList with
  | some rest =>
    match trimStart rest with
    | ':' :: text => some (trim text)
    | _ => none
  | none => none

/-- The value of a default: the scalar that the text denotes, or else the text itself. -/
def defaultValue (text : List Char) : Value :=
  match Yaml.read text with
  | .ok (.mapping _) => .string (String.ofList text)
  | .ok (.sequence _) => .string (String.ofList text)
  | .ok value => value
  | .error _ => .string (String.ofList text)

/-- What a modifier does to a parameter, if it is known. -/
def effect? (words : ModifierWords) (modifier : String) (p : Parameter) : Option Parameter :=
  if modifier = words.array then some { p with kind := some .array, value := some (.sequence []) }
  else if modifier = words.object then
    some { p with kind := some .object, value := some (.mapping []) }
  else if modifier = words.string then
    some { p with kind := some .string, value := some (.string "") }
  else (words.defaultText? modifier).map fun text => { p with value := some (defaultValue text) }

end ModifierWords

namespace Parameter

/-- The parameter marked as nullable if its modifiers say so. -/
def markNullable (words : ModifierWords) (p : Parameter) : Parameter :=
  { p with nullable := p.nullable || p.modifiers.contains words.nullable }

/-- The last modifier other than the word for nullable. -/
def deciding? (words : ModifierWords) (p : Parameter) : Option String :=
  (p.modifiers.filter (· ≠ words.nullable)).getLast?

/-- The parameter after its modifiers have been obeyed. -/
def modify (words : ModifierWords) (p : Parameter) : Except UnknownModifier Parameter :=
  match p.deciding? words with
  | none => .ok (p.markNullable words)
  | some modifier =>
    match words.effect? modifier (p.markNullable words) with
    | some p => .ok p
    | none => .error ⟨modifier, p.name⟩

end Parameter

namespace Catalog

/-- The parameters after the modifiers of those that are not skipped have been obeyed; the first
unknown modifier is reported. -/
def modifyAll (words : ModifierWords) : List Parameter → Except UnknownModifier (List Parameter)
  | [] => .ok []
  | p :: rest =>
    match if p.skip then .ok p else p.modify words with
    | .error unknown => .error unknown
    | .ok p =>
      match modifyAll words rest with
      | .error unknown => .error unknown
      | .ok rest => .ok (p :: rest)

/-- The catalog as it is shown: filled with observed values, with its modifiers obeyed. -/
def prepare (c : Catalog) (words : ModifierWords) (observed : List Parameter) :
    Except UnknownModifier Catalog :=
  match modifyAll words (c.fill observed).parameters with
  | .error unknown => .error unknown
  | .ok parameters => .ok { c with parameters }

end Catalog

end ChartDocs
