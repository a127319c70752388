import ChartDocs.Json.Numeral
import ChartDocs.Json.Writing

/-!
# Values as JSON trees

A tree of values becomes JSON with its keys as names: strings as they are, integers, finite numbers
and truth values in their spelling. Other keys have no name. A value under a tag becomes an object
with the tag as its only name, and a number that is not finite becomes null.

Reading a JSON tree as a value is possible if numbers are in range, names of one object differ and
arrays and objects are not nested too deeply.
-/

namespace ChartDocs.Value

open Decimal

/-- Why a mapping key cannot be the name of a field. -/
inductive KeyFault where
  /-- Null, a collection or a tagged value. -/
  | notText
  /-- A number that is not finite. -/
  | notFinite
deriving DecidableEq, Repr

namespace KeyFault

/-- The wording of a fault. -/
def message : KeyFault → String
  | notText => "key must be a string"
  | notFinite => "float key must be finite (got NaN or +/-inf)"

end KeyFault

/-- The name that a mapping key becomes. -/
def fieldName : Value → Except KeyFault String
  | string text => .ok text
  | bool b => .ok (boolText b)
  | number (.int n) => .ok (String.ofList (intText n))
  | number (.float x) =>
    match jsonText? x with
    | some text => .ok (String.ofList text)
    | none => .error .notFinite
  | _ => .error .notText

/-- The JSON tree of a number. -/
def numberToJson : Number → Json
  | .int n => .number (intText n)
  | .float x => (jsonText? x).elim .null .number

mutual

/-- The JSON tree of a value. -/
def toJson : Value → Except KeyFault Json
  | null => .ok .null
  | bool b => .ok (.bool b)
  | number n => .ok (numberToJson n)
  | string text => .ok (.string text)
  | sequence items => return .array (← itemsToJson items)
  | mapping entries => return .object (← entriesToJson entries)
  | tagged tag content => return .object [("!" ++ tag, ← toJson content)]

/-- The JSON trees of the items of a sequence. -/
def itemsToJson : List Value → Except KeyFault (List Json)
  | [] => .ok []
  | item :: rest => return (← toJson item) :: (← itemsToJson rest)

/-- The fields of a mapping. -/
def entriesToJson : List (Value × Value) → Except KeyFault (List (String × Json))
  | [] => .ok []
  | (key, value) :: rest =>
    return (← fieldName key, ← toJson value) :: (← entriesToJson rest)

end

/-- How deeply the arrays and objects of a text may be nested. -/
def nestingLimit : Nat := 127

mutual

/-- The value of a JSON tree, with room for so many nested arrays and objects. -/
def ofJson? : (room : Nat) → Json → Option Value
  | _, .null => some .null
  | _, .bool b => some (.bool b)
  | _, .number numeral => (Json.number? numeral).map number
  | _, .string text => some (.string text)
  | room + 1, .array items => (itemsOfJson? room items).map sequence
  | room + 1, .object fields =>
    if (fields.map (·.1)).Nodup then (entriesOfJson? room fields).map mapping else none
  | _, _ => none

/-- The values of the items of an array. -/
def itemsOfJson? : (room : Nat) → List Json → Option (List Value)
  | _, [] => some []
  | room, item :: rest => return (← ofJson? room item) :: (← itemsOfJson? room rest)

/-- The entries of an object. -/
def entriesOfJson? : (room : Nat) → List (String × Json) → Option (List (Value × Value))
  | _, [] => some []
  | room, (name, json) :: rest =>
    return (string name, ← ofJson? room json) :: (← entriesOfJson? room rest)

end

end ChartDocs.Value
