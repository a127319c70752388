import ChartDocs.Json.Basic
import ChartDocs.Json.Numeral

/-!
# Records in JSON

A record is an object with known names, each at most once; other names are passed over. It may
also be an array whose items are the fields in their declared order, of which the last ones may be
missing.
-/

namespace ChartDocs.Json

/-- The fields of a record that are present, with their names. -/
def record? (names : List String) : Json → Option (List (String × Json))
  | object fields =>
    let known := fields.filter fun field => names.contains field.1
    if (known.map (·.1)).Nodup then some known else none
  | array items => if items.length ≤ names.length then some (names.zip items) else none
  | _ => none

/-- A field that has to be present. -/
def field? {α : Type} (fields : List (String × Json)) (name : String) (ofJson : Json → Option α) :
    Option α :=
  (fields.lookup name).bind ofJson

/-- A field that has a default. -/
def fieldOr? {α : Type} (fields : List (String × Json)) (name : String) (default : α)
    (ofJson : Json → Option α) : Option α :=
  match fields.lookup name with
  | some json => ofJson json
  | none => some default

/-- A truth value. -/
def toBool? : Json → Option Bool
  | bool b => some b
  | _ => none

/-- A text. -/
def toText? : Json → Option String
  | string text => some text
  | _ => none

/-- A natural number of 64 bits. -/
def toNat? : Json → Option Nat
  | number numeral =>
    match number? numeral with
    | some (.int (.ofNat n)) => some n
    | _ => none
  | _ => none

/-- A list of things of one type. -/
def toList? {α : Type} (ofJson : Json → Option α) : Json → Option (List α)
  | array items => items.mapM ofJson
  | _ => none

/-- A thing that may be null. -/
def toOption? {α : Type} (ofJson : Json → Option α) : Json → Option (Option α)
  | null => some none
  | json => (ofJson json).map some

/-- A choice among names: a text, or an object with the name as its only field and null in it. -/
def toChoice? {α : Type} (ofName? : String → Option α) : Json → Option α
  | string name => ofName? name
  | object [(name, null)] => ofName? name
  | _ => none

end ChartDocs.Json
