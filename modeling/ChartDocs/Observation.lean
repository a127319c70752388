import ChartDocs.Parameter
import ChartDocs.Value.Lookup

/-!
# Observed parameters

Every leaf of a tree of values is observed under its path, with the value that the path leads to.
A path that only whole keys spell, or that leads nowhere, cannot be shown in a schema. The items of
a sequence of strings are observed together, as the sequence. Of several observations under one
name the first counts.
-/

namespace ChartDocs

open ChartDocs.Path

namespace Value

/-- What a path text leads to, and whether it does so segment by segment. -/
def find? (root : Value) (path : List Char) : Option (Value × Bool) :=
  match root.lookup? path with
  | some found => some (found, true)
  | none => (root.spelled? path).map (·, false)

/-- The sequence of strings that a path leads into, with its own path. -/
def stringsAround? (root : Value) (path : List Char) : Option (List Char × Value) :=
  match beforeLast? '[' path with
  | none => none
  | some above =>
    match root.find? above with
    | some (sequence items, _) => if items.all isString then some (above, sequence items) else none
    | _ => none

/-- The parameter observed at a key. -/
def observedAs (value : Value) (name : List Char) (inSchema : Bool) : Parameter :=
  { name := String.ofList name
    kind := some value.kind
    value := some (if value = null then string "nil" else value)
    inSchema }

/-- The observation at a leaf. -/
def observeAt (root : Value) (path : List Char) (leaf : Value) : Parameter :=
  let (found, inSchema) := (root.find? path).getD (leaf, false)
  match root.stringsAround? path with
  | some (above, items) => items.observedAs above inSchema
  | none => found.observedAs path inSchema

/-- The first parameter of each name that is not among the given ones. -/
def firstNames (seen : List String) : List Parameter → List Parameter
  | [] => []
  | p :: rest =>
    if p.name ∈ seen then firstNames seen rest else p :: firstNames (p.name :: seen) rest

/-- The observed parameters of a tree of values. -/
def observed (root : Value) : List Parameter :=
  firstNames [] (root.leaves.map fun leaf => root.observeAt leaf.1 leaf.2)

end Value

end ChartDocs
