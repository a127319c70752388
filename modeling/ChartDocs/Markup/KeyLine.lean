import ChartDocs.Path
import ChartDocs.Text.Blank

/-!
# Key lines and the trail of open keys

A key line is a line of a values file that starts with a key and a colon, outside comments. Its
indentation places it below the nearest line before it that is indented less. The trail holds the
keys that are open at a line; their keys, joined by dots, are the path of the line.
-/

namespace ChartDocs.Markup

open Text ChartDocs.Path

/-- A key and the number of blanks before it. -/
structure KeyLine where
  indent : Nat
  key : List Char
deriving DecidableEq, Repr

/-- The colon after a key and the blanks before it, and what follows. -/
def dropColon? (text : List Char) : Option (List Char) :=
  match trimStart text with
  | ':' :: rest => some rest
  | _ => none

/-- A key up to a closing quote, and what follows its colon. -/
def takeQuoted? (quote : Char) (text : List Char) : Option (List Char × List Char) := do
  let (key, rest) ← cutAt? quote text
  return (key, ← dropColon? rest)

/-- A key without quotes, and what follows its colon. -/
def takeBare? (text : List Char) : Option (List Char × List Char) := do
  let (key, rest) ← cutAt? ':' text
  if key.contains '#' then none else some (trimEnd key, rest)

/-- The key at the start of a text without leading blanks, and what follows its colon. -/
def takeKey? : List Char → Option (List Char × List Char)
  | [] => none
  | '"' :: rest => takeQuoted? '"' rest
  | '\'' :: rest => takeQuoted? '\'' rest
  | c :: rest => if c = ':' || c = '-' then none else takeBare? (c :: rest)

/-- Whether a line is a comment: it starts with a number sign or with the start of tag comments. -/
def isComment (comment line : List Char) : Bool :=
  let text := trimStart line
  text.head? = some '#' || (comment ≠ [] && startsWith comment text)

namespace KeyLine

/-- The key line that a line is; a blank or nothing follows the colon. -/
def ofLine? (comment line : List Char) : Option KeyLine :=
  if isComment comment line then none
  else
    match takeKey? (trimStart line) with
    | some (key, rest) =>
      if rest.head?.all isBlank then some ⟨(line.takeWhile isBlank).length, key⟩ else none
    | none => none

end KeyLine

/-- The open keys, the innermost first. -/
abbrev Trail := List KeyLine

namespace Trail

/-- The trail after a key line: keys that are not indented less than the line are closed. -/
def enter (trail : Trail) (line : KeyLine) : Trail :=
  line :: trail.dropWhile (line.indent ≤ ·.indent)

/-- The path of keys, given from the outermost on. -/
def joined (keys : List KeyLine) : List Char :=
  join ['.'] (keys.map (·.key))

/-- The path of the innermost open key. -/
def path (trail : Trail) : List Char :=
  joined trail.reverse

/-- The path that a key line would have: the outer keys that are indented less, and its own. -/
def pathTo (trail : Trail) (line : KeyLine) : List Char :=
  joined (trail.reverse.takeWhile (·.indent < line.indent) ++ [line])

end Trail

example : KeyLine.ofLine? "##".toList "  \"a b\" : 1".toList = some ⟨2, "a b".toList⟩ := by decide

example : KeyLine.ofLine? "##".toList "- a: 1".toList = none ∧
    KeyLine.ofLine? "##".toList "a:1".toList = none := by decide

end ChartDocs.Markup
