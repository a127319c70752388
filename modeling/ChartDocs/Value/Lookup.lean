import ChartDocs.Path
import ChartDocs.Value.Basic

/-!
# Leaves and lookups in a tree of values

The leaves of a tree are its scalars, its empty mappings and its empty sequences, each with the
text of its path. Two lookups find a place again. `at?` follows the segments of a path and cannot
find keys that contain a dot or a bracket. `spelled?` matches whole keys against the path text,
and prefers the longest key from which the rest of the path can be found.
-/

namespace ChartDocs.Value

open Text ChartDocs.Path

mutual

/-- The leaves at and below a value, in document order; the root itself is no leaf. -/
def leavesFrom : Value → List Char → List (List Char × Value)
  | mapping entries, path =>
    if entries.isEmpty then leafAt path (mapping entries) else entryLeaves entries path
  | sequence items, path =>
    if items.isEmpty then leafAt path (sequence items) else itemLeaves items path 0
  | tagged _ content, path => leavesFrom content path
  | value, path => leafAt path value

/-- A leaf, unless the path is empty. -/
def leafAt (path : List Char) (leaf : Value) : List (List Char × Value) :=
  if path = [] then [] else [(path, leaf)]

/-- The leaves below the entries of a mapping; keys without a text are passed over. -/
def entryLeaves : List (Value × Value) → List Char → List (List Char × Value)
  | [], _ => []
  | (key, child) :: rest, path =>
    (match key.keyText? with
      | some name => leavesFrom child (extend path (.key name))
      | none => []) ++ entryLeaves rest path

/-- The leaves below the items of a sequence, counted from a position. -/
def itemLeaves : List Value → List Char → Nat → List (List Char × Value)
  | [], _, _ => []
  | child :: rest, path, n =>
    leavesFrom child (extend path (.index n)) ++ itemLeaves rest path (n + 1)

end

/-- The leaves of a tree with the texts of their paths. -/
def leaves (root : Value) : List (List Char × Value) :=
  leavesFrom root []

/-- The value of the first entry whose key has a text. -/
def entry? (name : String) : List (Value × Value) → Option Value
  | [] => none
  | (key, child) :: rest => if key.keyText? = some name then some child else entry? name rest

/-- The value at the end of a list of segments, without its tags. -/
def at? : Value → List Segment → Option Value
  | root, [] => some root.untag
  | root, .key name :: rest =>
    match root.untag with
    | mapping entries =>
      match entry? name entries with
      | some child => at? child rest
      | none => none
    | _ => none
  | root, .index n :: rest =>
    match root.untag with
    | sequence items =>
      match items[n]? with
      | some child => at? child rest
      | none => none
    | _ => none

/-- The value that a path text leads to segment by segment. -/
def lookup? (root : Value) (path : List Char) : Option Value :=
  at? root (segments path)

/-- The number of characters of a key that a path starts with, and the path below it. -/
def belowKey? (key : Value) (path : List Char) : Option (Nat × List Char) := do
  let name ← key.keyText?
  let rest ← dropLeading? name.toList path
  if endsName rest then some (name.length, dropDot rest) else none

/-- The find with the longest key; of equally long keys the first. -/
def longest? : List (Nat × Value) → Option (Nat × Value)
  | [] => none
  | (n, found) :: rest =>
    match longest? rest with
    | some (m, other) => if n < m then some (m, other) else some (n, found)
    | none => some (n, found)

mutual

/-- The value that a path text spells with whole keys, without its tags. -/
def spelled? : Value → List Char → Option Value
  | tagged _ content, path => spelled? content path
  | value, [] => some value
  | mapping entries, path => (longest? (entryFinds entries path)).map (·.2)
  | sequence items, path =>
    match takeIndex? path with
    | some (n, rest) => itemFind items n (dropDot rest)
    | none => none
  | _, _ => none

/-- What can be found below the entries whose key starts the path, with the lengths of the keys. -/
def entryFinds : List (Value × Value) → List Char → List (Nat × Value)
  | [], _ => []
  | (key, child) :: rest, path =>
    match belowKey? key path with
    | some (n, below) =>
      match spelled? child below with
      | some found => (n, found) :: entryFinds rest path
      | none => entryFinds rest path
    | none => entryFinds rest path

/-- What can be found below the item at a position. -/
def itemFind : List Value → Nat → List Char → Option Value
  | [], _, _ => none
  | child :: _, 0, path => spelled? child path
  | _ :: rest, n + 1, path => itemFind rest n path

end

end ChartDocs.Value
