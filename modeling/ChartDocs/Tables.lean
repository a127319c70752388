import ChartDocs.Catalog.Basic
import ChartDocs.Value.Json
import ChartDocs.Yaml.Writing

/-!
# Markdown tables of sections

Each section of a catalog becomes a heading of level three, its description and a table of its
parameters that are not skipped. Names and values stand in code spans whose fence is longer than
any run of backticks inside, so that no text can end its span.
-/

namespace ChartDocs

open Text

namespace Value

/-- A value on one line: compact JSON, or YAML with its lines joined where JSON has no form for a
key. -/
def inlineText (value : Value) : List Char :=
  match value.toJson with
  | .ok json => json.compact
  | .error _ =>
    match Yaml.write value with
    | .ok text => replace '\n' [' '] (trimEnd text)
    | .error _ => []

end Value

namespace Parameter

/-- The value of a parameter as tables show it. -/
def display (p : Parameter) : List Char :=
  match p.value with
  | none => []
  | some .null => "nil".toList
  | some (.string text) =>
    if p.kind = some .nil ∧ text = "nil" then "nil".toList else '"' :: text.toList ++ ['"']
  | some (.bool b) => (Value.boolText b).toList
  | some (.number n) => n.text
  | some (.sequence []) => ['[', ']']
  | some (.mapping []) => ['\x7b', '\x7d']
  | some value => value.inlineText

end Parameter

namespace Tables

/-- A text inside a table cell: bars are escaped and line feeds become spaces. -/
def escapeCell (text : List Char) : List Char :=
  replace '\n' [' '] (replace '|' ['\\', '|'] text)

/-- The length of the longest run of a character, where a run has already begun. -/
def longestRun (c : Char) : (current : Nat) → List Char → Nat
  | current, [] => current
  | current, d :: rest =>
    if d = c then longestRun c (current + 1) rest else max current (longestRun c 0 rest)

/-- A text in a code span; a text that starts or ends with a backtick is set off by spaces. -/
def codeCell (text : List Char) : List Char :=
  if text = [] then []
  else
    let fence := List.replicate (longestRun '\x60' 0 text + 1) '\x60'
    if text.head? = some '\x60' || text.getLast? = some '\x60' then
      fence ++ ' ' :: escapeCell text ++ ' ' :: fence
    else fence ++ escapeCell text ++ fence

/-- The two lines above the rows of a table. -/
def header : List Char :=
  "| Name | Description | Value |\n| ---- | ----------- | ----- |\n".toList

/-- The row of a parameter. -/
def row (p : Parameter) : List Char :=
  "| ".toList ++ codeCell p.name.toList ++ " | ".toList ++ escapeCell p.description.toList ++
    " | ".toList ++ codeCell p.display ++ " |\n".toList

/-- The heading and the description of a section. -/
def heading (s : Section) : List Char :=
  "### ".toList ++ s.name.toList ++ "\n\n".toList ++
    if s.description = [] then []
    else join ['\n'] (s.description.map String.toList) ++ "\n\n".toList

/-- The table of parameters; without any there is none. -/
def table (rows : List Parameter) : List Char :=
  if rows = [] then [] else header ++ rows.flatMap row

end Tables

namespace Catalog

/-- The parameters of a section that its table shows. -/
def rows (c : Catalog) (s : Section) : List Parameter :=
  (c.members s).filter (!·.skip)

/-- The tables of all sections. -/
def tables (c : Catalog) : List Char :=
  join ['\n'] (c.sections.map fun s => Tables.heading s ++ Tables.table (c.rows s))

end Catalog

example : Tables.codeCell "a\x60\x60|b".toList =
    "\x60\x60\x60a\x60\x60\\|b\x60\x60\x60".toList := by decide

end ChartDocs
