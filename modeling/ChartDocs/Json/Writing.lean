import ChartDocs.Json.Basic
import ChartDocs.Text.Hexadecimal

/-!
# Writing JSON

A tree is written on one line without blanks, or over several lines with two spaces for each level
and a space after each colon. Empty arrays and objects stay on one line in both layouts. In a
string only the quote, the backslash and the control characters are escaped.
-/

namespace ChartDocs.Json

/-- A character between the quotes of a string. -/
def quotedChar (c : Char) : List Char :=
  if c = '"' then ['\\', '"']
  else if c = '\\' then ['\\', '\\']
  else if c = '\x08' then ['\\', 'b']
  else if c = '\x0c' then ['\\', 'f']
  else if c = '\n' then ['\\', 'n']
  else if c = '\r' then ['\\', 'r']
  else if c = '\t' then ['\\', 't']
  else if c.toNat < 0x20 then '\\' :: 'u' :: Text.hexDigits false 4 c.toNat
  else [c]

/-- A string in quotes. -/
def quote (s : String) : List Char :=
  '"' :: s.toList.flatMap quotedChar ++ ['"']

/-- The level of a tree that is written over several lines; none if it is written on one line. -/
abbrev Level := Option Nat

namespace Level

/-- The level of what is inside an array or an object. -/
def inner (level : Level) : Level :=
  level.map (· + 1)

/-- What stands before an item or a closing bracket of a level. -/
def lineStart : Level → List Char
  | none => []
  | some depth => '\n' :: List.replicate (2 * depth) ' '

/-- What stands between a name and its value. -/
def colon : Level → List Char
  | none => [':']
  | some _ => [':', ' ']

end Level

mutual

/-- The text of a tree at a level. -/
def write (level : Level) : Json → List Char
  | null => ['n', 'u', 'l', 'l']
  | bool true => ['t', 'r', 'u', 'e']
  | bool false => ['f', 'a', 'l', 's', 'e']
  | number numeral => numeral
  | string text => quote text
  | array [] => ['[', ']']
  | array (item :: rest) =>
    '[' :: level.inner.lineStart ++ write level.inner item ++ writeItems level.inner rest ++
      level.lineStart ++ [']']
  | object [] => ['\x7b', '\x7d']
  | object ((name, value) :: rest) =>
    '\x7b' :: level.inner.lineStart ++ quote name ++ level.colon ++ write level.inner value ++
      writeFields level.inner rest ++ level.lineStart ++ ['\x7d']
  | unpaired => ['"', '\\', 'u', 'd', '8', '0', '0', '"']

/-- The items after the first one. -/
def writeItems (level : Level) : List Json → List Char
  | [] => []
  | item :: rest => ',' :: level.lineStart ++ write level item ++ writeItems level rest

/-- The fields after the first one. -/
def writeFields (level : Level) : List (String × Json) → List Char
  | [] => []
  | (name, value) :: rest =>
    ',' :: level.lineStart ++ quote name ++ level.colon ++ write level value ++
      writeFields level rest

end

/-- The text of a tree on one line. -/
def compact (json : Json) : List Char :=
  write none json

/-- The text of a tree over several lines. -/
def pretty (json : Json) : List Char :=
  write (some 0) json

example : compact (.object [("a", .array [.null, .bool true]), ("b", .object [])]) =
    "\x7b\"a\":[null,true],\"b\":\x7b\x7d\x7d".toList := by decide

example : pretty (.array [.string "x\ty", .array []]) =
    "[\n  \"x\\ty\",\n  []\n]".toList := by decide

end ChartDocs.Json
