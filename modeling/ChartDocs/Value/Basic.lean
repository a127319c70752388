import ChartDocs.Decimal.Notation

/-!
# Trees of values

A values file holds a tree: scalars, sequences, mappings with keys of any shape in their written
order, and values under a tag. A tag is kept without its leading exclamation mark. `Kind` is the
coarse type that tables and schemas show; a tagged value has the kind of what is under the tag.
-/

namespace ChartDocs

open Decimal

/-- An integer or a binary number; the two never coincide. -/
inductive Number where
  | int (value : Int)
  | float (value : Binary64)
deriving DecidableEq, Repr, Inhabited

/-- A tree of values. -/
inductive Value where
  | null
  | bool (value : Bool)
  | number (value : Number)
  | string (text : String)
  | sequence (items : List Value)
  | mapping (entries : List (Value × Value))
  | tagged (tag : String) (content : Value)
deriving Repr, Inhabited

/-- The type of a value as tables and schemas name it. -/
inductive Kind where
  | string
  | number
  | boolean
  | object
  | array
  | nil
deriving DecidableEq, Repr, Inhabited

namespace Kind

/-- The written name of a kind. -/
def name : Kind → String
  | string => "string"
  | number => "number"
  | boolean => "boolean"
  | object => "object"
  | array => "array"
  | nil => "nil"

/-- All kinds. -/
def all : List Kind := [string, number, boolean, object, array, nil]

/-- The kind with a written name. -/
def ofName? (text : String) : Option Kind :=
  all.find? fun kind => kind.name = text

/-- A kind is read back from its name. -/
@[simp] theorem ofName?_name (kind : Kind) : ofName? kind.name = some kind := by
  cases kind <;> decide

end Kind

namespace Number

/-- The text of a number as YAML writes it. -/
def text : Number → List Char
  | int n => intText n
  | float x => yamlText x

/-- Equality of numbers as mapping keys. -/
def sameKey : Number → Number → Bool
  | int m, int n => m = n
  | float x, float y => x.sameKey y
  | _, _ => false

/-- The least integer that a values file can hold. -/
def leastInt : Int := -9223372036854775808

/-- The largest integer that a values file can hold. -/
def largestInt : Int := 18446744073709551615

end Number

namespace Value

/-- The value under all tags. -/
def untag : Value → Value
  | tagged _ content => untag content
  | value => value

/-- Whether a value is a string without a tag. -/
def isString : Value → Bool
  | string _ => true
  | _ => false

/-- The kind of a value; tags are looked through. -/
def kind : Value → Kind
  | null => .nil
  | bool _ => .boolean
  | number _ => .number
  | string _ => .string
  | sequence _ => .array
  | mapping _ => .object
  | tagged _ content => kind content

/-- The spelling of a truth value. -/
def boolText (b : Bool) : String :=
  if b then "true" else "false"

/-- The text that stands for a mapping key in a path; collections have none. -/
def keyText? : Value → Option String
  | null => some "null"
  | bool b => some (boolText b)
  | number n => some (String.ofList n.text)
  | string s => some s
  | sequence _ => none
  | mapping _ => none
  | tagged _ content => keyText? content

/-- A mapping whose keys are the given strings. -/
def record (fields : List (String × Value)) : Value :=
  mapping (fields.map fun field => (string field.1, field.2))

mutual

/-- Equality of values as mapping keys: the order of entries does not matter. -/
def sameKey : Value → Value → Bool
  | null, null => true
  | bool a, bool b => a = b
  | number a, number b => a.sameKey b
  | string a, string b => a = b
  | sequence xs, sequence ys => sameItems xs ys
  | mapping es, mapping fs => es.length = fs.length && sameEntries es fs
  | tagged s v, tagged t w => s = t && sameKey v w
  | _, _ => false

/-- Item by item equality of sequences as keys. -/
def sameItems : List Value → List Value → Bool
  | [], [] => true
  | x :: xs, y :: ys => sameKey x y && sameItems xs ys
  | _, _ => false

/-- Whether each entry on the left has an equal one on the right. -/
def sameEntries : List (Value × Value) → List (Value × Value) → Bool
  | [], _ => true
  | (k, v) :: es, fs => fs.any (fun f => sameKey k f.1 && sameKey v f.2) && sameEntries es fs

end

/-- Whether an entry with an equal key is present. -/
def hasKey (key : Value) (entries : List (Value × Value)) : Bool :=
  entries.any fun entry => sameKey key entry.1

/-- Set an entry: an equal key keeps its place and takes the new value. -/
def setKey (key value : Value) : List (Value × Value) → List (Value × Value)
  | [] => [(key, value)]
  | (k, v) :: rest => if sameKey key k then (k, value) :: rest else (k, v) :: setKey key value rest

/-- A value without its tags has no tags to take away. -/
@[simp] theorem untag_untag (v : Value) : v.untag.untag = v.untag := by
  fun_induction untag v with
  | case1 _ _ ih => exact ih
  | case2 v h => cases v <;> simp_all [untag]

/-- Tags are no part of the kind of a value. -/
@[simp] theorem kind_untag (v : Value) : v.untag.kind = v.kind := by
  fun_induction untag v with
  | case1 _ _ ih => simpa [kind] using ih
  | case2 v h => rfl

end Value

end ChartDocs
