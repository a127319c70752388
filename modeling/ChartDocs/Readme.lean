import ChartDocs.Text.Blank
import ChartDocs.Text.Lines
import ChartDocs.Text.Split

/-!
# The body of a README section

A heading is a line of one to six number signs that end the line or are followed by a space. Lines
between code fences are no headings. The body of a heading reaches to the next heading of the same
or a higher rank; replacing it keeps all lines before and after.
-/

namespace ChartDocs.Readme

open Text

/-- The level of a heading. -/
def headingLevel? (line : List Char) : Option Nat :=
  let level := (line.takeWhile (· = '#')).length
  let rest := line.dropWhile (· = '#')
  if 1 ≤ level ∧ level ≤ 6 ∧ rest.head?.all (· = ' ') then some level else none

/-- The title of a heading, without the number signs around it. -/
def headingTitle (line : List Char) : List Char :=
  trimEnd (dropEndWhile (· = '#') (trim (line.dropWhile (· = '#'))))

/-- Whether a line opens or closes a block of code. -/
def isFence (line : List Char) : Bool :=
  let text := trimStart line
  startsWith "\x60\x60\x60".toList text || startsWith "~~~".toList text

/-- A line and its level, if it is a heading. -/
abbrev MarkedLine := Option Nat × List Char

/-- The lines with the levels of the headings among them. -/
def mark : (fenced : Bool) → List (List Char) → List MarkedLine
  | _, [] => []
  | fenced, line :: rest =>
    if isFence line then (none, line) :: mark (!fenced) rest
    else (if fenced then none else headingLevel? line, line) :: mark fenced rest

/-- The lines up to the first heading with a title, the level of that heading, and the lines after
it. -/
def cutBelow? (title : List Char) :
    List MarkedLine → Option (List MarkedLine × Nat × List MarkedLine)
  | [] => none
  | (some level, line) :: rest =>
    if headingTitle line = title then some ([(some level, line)], level, rest)
    else (cutBelow? title rest).map fun cut => ((some level, line) :: cut.1, cut.2)
  | (none, line) :: rest =>
    (cutBelow? title rest).map fun cut => ((none, line) :: cut.1, cut.2)

/-- The lines from the first heading of at most a level on. -/
def dropBody (level : Nat) : List MarkedLine → List MarkedLine
  | [] => []
  | (some other, line) :: rest =>
    if other ≤ level then (some other, line) :: rest else dropBody level rest
  | (none, _) :: rest => dropBody level rest

/-- The text of lines that all end with a line feed. -/
def unlines (lines : List MarkedLine) : List Char :=
  lines.flatMap fun line => line.2 ++ ['\n']

/-- The README in which the body of the first heading with a title is replaced. -/
def replaceBody? (readme body title : List Char) : Option (List Char) :=
  (cutBelow? title (mark false (lines readme))).map fun (above, level, below) =>
    let after := dropBody level below
    unlines above ++ '\n' :: trimEnd body ++ '\n' ::
      if after = [] then [] else '\n' :: unlines after

/-- The wording for a README without the heading. -/
def missingHeading (title : String) : String :=
  "README has no '" ++ title ++ "' section"

example : replaceBody? "# T\n## P #\nold\n### x\n## Q\n".toList "new\n\n".toList "P".toList =
    some "# T\n## P #\n\nnew\n\n## Q\n".toList := by decide

end ChartDocs.Readme
