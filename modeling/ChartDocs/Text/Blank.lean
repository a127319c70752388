import ChartDocs.Text.Ranges

/-!
# Blank characters and trimming

A character is blank when it has the Unicode property White_Space. Trimming removes blanks from
the ends of a text; what remains starts and ends with a character that is not blank.
-/

namespace ChartDocs.Text

/-- The code points with the Unicode property White_Space. -/
def blankRanges : Ranges := [
  (0x9, 0xD), (0x20, 0x20), (0x85, 0x85), (0xA0, 0xA0), (0x1680, 0x1680), (0x2000, 0x200A),
  (0x2028, 0x2029), (0x202F, 0x202F), (0x205F, 0x205F), (0x3000, 0x3000)]

/-- Whether a character is white space. -/
def isBlank (c : Char) : Bool :=
  blankRanges.contains c

/-- The text without its leading blanks. -/
def trimStart (text : List Char) : List Char :=
  text.dropWhile isBlank

/-- The text without the trailing characters that satisfy a test. -/
def dropEndWhile (test : Char → Bool) (text : List Char) : List Char :=
  (text.reverse.dropWhile test).reverse

/-- The text without its trailing blanks. -/
def trimEnd (text : List Char) : List Char :=
  dropEndWhile isBlank text

/-- The text without blanks at either end. -/
def trim (text : List Char) : List Char :=
  trimEnd (trimStart text)

/-- A string without blanks at either end. -/
def trimString (s : String) : String :=
  String.ofList (trim s.toList)

/-- There is nothing to drop at the start of the empty text. -/
@[simp] theorem trimStart_nil : trimStart [] = [] := rfl

/-- There is nothing to drop at the end of the empty text. -/
@[simp] theorem trimEnd_nil : trimEnd [] = [] := rfl

/-- There is nothing to drop around the empty text. -/
@[simp] theorem trim_nil : trim [] = [] := rfl

/-- The property of ten ranges covers twenty-five code points. -/
example : (blankRanges.map fun range => range.2 + 1 - range.1).sum = 25 := by decide

/-- Every character that the standard library calls white space is blank. -/
theorem isBlank_of_isWhitespace {c : Char} (h : c.isWhitespace = true) : isBlank c = true := by
  simp only [Char.isWhitespace, Bool.or_eq_true, decide_eq_true_eq] at h
  rcases h with ((rfl | rfl) | rfl) | rfl <;> decide

end ChartDocs.Text
