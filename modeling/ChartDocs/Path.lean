import ChartDocs.Decimal.Notation
import ChartDocs.Decimal.Literal
import ChartDocs.Text.Split

/-!
# Dotted paths

A path names a place in a tree of values: keys are joined by dots and positions in sequences are
written `[n]` in decimal. `segments` takes a path text apart and `render` writes segments down.
A bracket that holds no position stays text, so every text has segments.
-/

namespace ChartDocs

open Text Decimal

/-- One step of a path. -/
inductive Segment where
  | key (name : String)
  | index (position : Nat)
deriving DecidableEq, Repr, Inhabited

namespace Path

/-- Positions are below this bound. -/
def indexBound : Nat := Nat.pow 2 64

/-- The position that a text denotes: decimal digits with an optional plus, below the bound. -/
def position? (text : List Char) : Option Nat :=
  let ds := match text with
    | '+' :: rest => rest
    | _ => text
  if ds = [] ∨ ds.all Char.isDigit = false then none
  else if ofDigits ds < indexBound then some (ofDigits ds) else none

/-- The text before and after the first occurrence of a character. -/
def cutAt? (c : Char) : List Char → Option (List Char × List Char)
  | [] => none
  | d :: rest =>
    if d = c then some ([], rest)
    else (cutAt? c rest).map fun cut => (d :: cut.1, cut.2)

/-- The text before the last occurrence of a character. -/
def beforeLast? (c : Char) : List Char → Option (List Char)
  | [] => none
  | d :: rest =>
    match beforeLast? c rest with
    | some kept => some (d :: kept)
    | none => if d = c then some [] else none

/-- A bracketed position at the start of a text, and the text after it. -/
def takeIndex? : List Char → Option (Nat × List Char)
  | '[' :: rest => do
    let (inner, after) ← cutAt? ']' rest
    let n ← position? inner
    some (n, after)
  | _ => none

/-- The bracketed positions at the start of a text; what follows them is a key of its own. -/
def indexSegments : (fuel : Nat) → List Char → List Segment
  | 0, text => if text = [] then [] else [.key (String.ofList text)]
  | fuel + 1, text =>
    match takeIndex? text with
    | some (n, after) => .index n :: indexSegments fuel after
    | none => if text = [] then [] else [.key (String.ofList text)]

/-- The segments of a piece between dots: a key up to the first bracket, then positions. -/
def pieceSegments (piece : List Char) : List Segment :=
  let name := piece.takeWhile (· ≠ '[')
  let rest := piece.dropWhile (· ≠ '[')
  (if name = [] then [] else [.key (String.ofList name)]) ++ indexSegments rest.length rest

/-- The segments of a path text. -/
def segments (text : List Char) : List Segment :=
  (splitAt '.' text).flatMap pieceSegments

/-- The path text one segment further down. -/
def extend (path : List Char) : Segment → List Char
  | .key name => if path = [] then name.toList else path ++ '.' :: name.toList
  | .index n => path ++ '[' :: digits n ++ [']']

/-- The path text of a list of segments. -/
def render (segments : List Segment) : List Char :=
  segments.foldl extend []

/-- Whether the text after a key or name ends it: the end, a dot or a bracket. -/
def endsName : List Char → Bool
  | [] => true
  | c :: _ => c = '.' || c = '['

/-- The text without one leading dot. -/
def dropDot : List Char → List Char
  | '.' :: rest => rest
  | text => text

example : segments "a.b[2].c".toList = [.key "a", .key "b", .index 2, .key "c"] := by decide

example : segments "[+07][x].[0".toList = [.index 7, .key "[x]", .key "[0"] := by decide

end Path

end ChartDocs
