import ChartDocs.Text.Split

/-!
# The lines of a text

A line ends at a line feed, and one carriage return directly before the line feed belongs to the
line end. An unfinished last line counts if it is not empty, and keeps its carriage return.
-/

namespace ChartDocs.Text

/-- A finished line without the carriage return of its line end. -/
def dropReturn (line : List Char) : List Char :=
  if line.getLast? = some '\r' then line.dropLast else line

/-- The lines among the pieces between line feeds: the last piece is unfinished. -/
def linesOfPieces : List (List Char) → List (List Char)
  | [] => []
  | [last] => if last = [] then [] else [last]
  | piece :: rest => dropReturn piece :: linesOfPieces rest

/-- The lines of a text, without their line ends. -/
def lines (text : List Char) : List (List Char) :=
  linesOfPieces (splitAt '\n' text)

/-- The empty text has no lines. -/
@[simp] theorem lines_nil : lines [] = [] := rfl

example : lines "a\r\nb\n\nc\r".toList = ["a".toList, "b".toList, [], "c\r".toList] := by decide

end ChartDocs.Text
