import ChartDocs.Text.Octets
import ChartDocs.Yaml.Fault

/-!
# Positions in a text

A cursor holds what is left of a text, the number of octets read, the line and the column. A
carriage return with a line feed is one line break. The breaks between lines and the blanks within
a line have classes of their own here, which are smaller than white space in general.
-/

namespace ChartDocs.Yaml

/-- Whether a character ends a line. -/
def isBreak (c : Char) : Bool :=
  c = '\r' || c = '\n' || c = '\u0085' || c = '\u2028' || c = '\u2029'

/-- Whether a character is a space or a tab. -/
def isGap (c : Char) : Bool :=
  c = ' ' || c = '\t'

/-- Whether a position is the end of the text or before a blank or a break. -/
def endsWord : Option Char → Bool
  | none => true
  | some c => isGap c || isBreak c

/-- Whether a position is the end of the text or before a break. -/
def endsLine : Option Char → Bool
  | none => true
  | some c => isBreak c

/-- Letters, digits, the hyphen and the underscore of ASCII: the characters of names. -/
def isNameChar (c : Char) : Bool :=
  c.isAlphanum || c = '-' || c = '_'

/-- Whether a character may occur in a text at all. -/
def isAllowed (c : Char) : Bool :=
  let n := c.toNat
  n = 0x9 || n = 0xA || n = 0xD || (0x20 ≤ n && n ≤ 0x7E) || n = 0x85 ||
    (0xA0 ≤ n && n ≤ 0xD7FF) || (0xE000 ≤ n && n ≤ 0xFFFD) || 0x10000 ≤ n

/-- A place in a text. -/
structure Cursor where
  /-- What is left of the text. -/
  rest : List Char
  /-- At least the number of characters that are left; it bounds every loop over them. -/
  left : Nat
  /-- The number of octets read so far. -/
  offset : Nat := 0
  line : Nat := 0
  /-- The number of characters read since the line started. -/
  column : Nat := 0
deriving Repr, Inhabited

namespace Cursor

/-- The start of a text. -/
def ofText (text : List Char) : Cursor :=
  { rest := text, left := text.length }

/-- The next character. -/
def next? (c : Cursor) : Option Char :=
  c.rest.head?

/-- The character a number of places ahead. -/
def ahead? (c : Cursor) (n : Nat) : Option Char :=
  c.rest[n]?

/-- Pass over characters of the same line. -/
def skip (c : Cursor) (count : Nat := 1) : Cursor :=
  { c with rest := c.rest.drop count, left := c.left - count
           offset := c.offset + Text.octetLength (c.rest.take count), column := c.column + count }

/-- Pass over one line break, if one is next, and say how it counts in a text.

The separators of lines and paragraphs are kept, all other breaks count as a line feed. -/
def takeBreak (c : Cursor) : List Char × Cursor :=
  match c.rest with
  | '\r' :: '\n' :: rest =>
    (['\n'], { rest, left := c.left - 2, offset := c.offset + 2, line := c.line + 1, column := 0 })
  | d :: rest =>
    if isBreak d then
      (if d = '\u2028' || d = '\u2029' then [d] else ['\n'],
        { rest, left := c.left - 1, offset := c.offset + d.utf8Size
          line := c.line + 1, column := 0 })
    else ([], c)
  | [] => ([], c)

/-- Pass over the characters that satisfy a test; the test holds for no break. -/
def skipWhile (c : Cursor) (test : Char → Bool) : Cursor :=
  c.skip (c.rest.takeWhile test).length

/-- Pass over what is left of the line, if it is blank or a comment. -/
def skipComment (c : Cursor) : Cursor :=
  if c.next? = some '#' then c.skipWhile (!isBreak ·) else c

/-- Whether three copies of a character stand alone at the start of the line. -/
def atMark (c : Cursor) (mark : Char) : Bool :=
  c.column = 0 && c.rest.take 3 = [mark, mark, mark] && endsWord (c.ahead? 3)

/-- Whether a line starts here that separates documents. -/
def atDocumentMark (c : Cursor) : Bool :=
  c.atMark '-' || c.atMark '.'

end Cursor

/-- Blanks and line breaks between two words of a text that may span lines. -/
structure Gap where
  /-- The blanks, as long as no line has ended. -/
  blanks : List Char := []
  /-- Whether a line has ended. -/
  broken : Bool := false
  /-- The first line break. -/
  first : List Char := []
  /-- All later line breaks. -/
  later : List Char := []
deriving Repr, Inhabited

namespace Gap

/-- What a gap counts for: one line break is a space, and further ones are kept. -/
def folded (g : Gap) : List Char :=
  if !g.broken then g.blanks
  else if g.first = ['\n'] then (if g.later = [] then [' '] else g.later)
  else g.first ++ g.later

/-- Read a gap. After a line break a tab left of the given column is refused. -/
def read (tabColumn : Nat) : (fuel : Nat) → Gap → Cursor → Except Fault (Gap × Cursor)
  | 0, g, c => .ok (g, c)
  | fuel + 1, g, c =>
    match c.rest with
    | [] => .ok (g, c)
    | d :: _ =>
      if isGap d then
        if g.broken then
          if d = '\t' && c.column < tabColumn then .error .indentation
          else read tabColumn fuel g c.skip
        else read tabColumn fuel { g with blanks := g.blanks ++ [d] } c.skip
      else if isBreak d then
        let (text, c) := c.takeBreak
        if g.broken then read tabColumn fuel { g with later := g.later ++ text } c
        else read tabColumn fuel { broken := true, first := text } c
      else .ok (g, c)

end Gap

end ChartDocs.Yaml
