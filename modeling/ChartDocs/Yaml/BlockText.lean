import ChartDocs.Yaml.Cursor

/-!
# Block texts

A block text starts on the line after its header and takes the lines that are indented enough. A
literal text keeps its line breaks; a folded one joins neighbouring lines that do not start with a
blank. The header says what becomes of the last line break and of the empty lines at the end.
-/

namespace ChartDocs.Yaml

/-- What becomes of the line breaks at the end of a block text. -/
inductive Chomping where
  /-- No line break is kept. -/
  | strip
  /-- One line break is kept. -/
  | clip
  /-- All line breaks are kept. -/
  | keep
deriving DecidableEq, Repr

/-- What the header of a block text says. -/
structure BlockHeader where
  chomping : Chomping := .clip
  /-- By how much the text is indented further than its surroundings, if stated. -/
  increment : Option Nat := none

/-- The chomping that a sign stands for. -/
def chomping? : Char → Option Chomping
  | '+' => some .keep
  | '-' => some .strip
  | _ => none

/-- The stated indentation at the cursor, if there is a digit. -/
def takeIncrement (h : BlockHeader) (c : Cursor) : Except Fault (BlockHeader × Cursor) :=
  match c.next? with
  | some d =>
    if d = '0' then .error .blockHeader
    else if d.isDigit then .ok ({ h with increment := some (d.toNat - '0'.toNat) }, c.skip)
    else .ok (h, c)
  | none => .ok (h, c)

/-- The chomping at the cursor, if there is a sign. -/
def takeChomping (h : BlockHeader) (c : Cursor) : BlockHeader × Cursor :=
  match c.next?.bind chomping? with
  | some chomping => ({ h with chomping }, c.skip)
  | none => (h, c)

/-- Read the header of a block text and the end of its line. -/
def blockHeader (c : Cursor) : Except Fault (BlockHeader × Cursor) := do
  let (h, c) ←
    if c.next?.any fun d => (chomping? d).isSome then
      let (h, c) := takeChomping {} c
      takeIncrement h c
    else do
      let (h, c) ← takeIncrement {} c
      pure (if h.increment.isSome then takeChomping h c else (h, c))
  let c := (c.skipWhile isGap).skipComment
  if endsLine c.next? then return (h, c.takeBreak.2) else .error .blockHeader

/-- Pass over spaces left of the indentation; while it is unknown, over all spaces. -/
def skipIndent (indent : Option Nat) : (fuel : Nat) → Cursor → Cursor
  | 0, c => c
  | fuel + 1, c =>
    if c.next? = some ' ' && indent.all (c.column < ·) then skipIndent indent fuel c.skip else c

/-- Read empty lines. Gives their breaks and the widest column that was reached. -/
def emptyLines (indent : Option Nat) :
    (fuel : Nat) → List Char → Nat → Cursor → Except Fault (List Char × Nat × Cursor)
  | 0, breaks, widest, c => .ok (breaks, widest, c)
  | fuel + 1, breaks, widest, c => do
    let c := skipIndent indent c.left c
    let widest := max widest c.column
    if c.next? = some '\t' && indent.all (c.column < ·) then .error .indentation
    if c.next?.any isBreak then
      let (text, c) := c.takeBreak
      emptyLines indent fuel (breaks ++ text) widest c
    else return (breaks, widest, c)

/-- The lines read so far of a block text. -/
structure BlockLines where
  text : List Char := []
  /-- The break at the end of the last line. -/
  lineBreak : List Char := []
  /-- The breaks of the empty lines after it. -/
  emptyBreaks : List Char := []
  /-- Whether the last line starts with a blank. -/
  indented : Bool := false

/-- What stands between the text so far and the next line. -/
def BlockLines.joint (b : BlockLines) (literal indented : Bool) : List Char :=
  if !literal && b.lineBreak = ['\n'] && !b.indented && !indented then
    (if b.emptyBreaks = [] then [' '] else b.emptyBreaks)
  else b.lineBreak ++ b.emptyBreaks

/-- Read the lines of a block text with a known indentation. -/
def blockLines (literal : Bool) (indent : Nat) :
    (fuel : Nat) → BlockLines → Cursor → Except Fault (BlockLines × Cursor)
  | 0, b, c => .ok (b, c)
  | fuel + 1, b, c => do
    if c.column ≠ indent || c.rest = [] then return (b, c)
    let indented := c.next?.any isGap
    let line := c.rest.takeWhile (!isBreak ·)
    let text := b.text ++ b.joint literal indented ++ line
    let (lineBreak, c) := (c.skip line.length).takeBreak
    let (emptyBreaks, _, c) ← emptyLines (some indent) (c.left + 1) [] 0 c
    blockLines literal indent fuel { text, lineBreak, emptyBreaks, indented } c

/-- The text of the lines after chomping. -/
def BlockLines.chomped (b : BlockLines) : Chomping → List Char
  | .strip => b.text
  | .clip => b.text ++ b.lineBreak
  | .keep => b.text ++ b.lineBreak ++ b.emptyBreaks

/-- Read a block text from its header on, below a collection at the given column. -/
def blockText (literal : Bool) (surrounding : Option Nat) (c : Cursor) :
    Except Fault (List Char × Cursor) := do
  let (header, c) ← blockHeader c.skip
  let stated := header.increment.map fun n => surrounding.getD 0 + n
  let (emptyBreaks, widest, c) ← emptyLines stated (c.left + 1) [] 0 c
  let least := max (surrounding.elim 0 (· + 1)) 1
  let indent := stated.getD (max widest least)
  let (b, c) ← blockLines literal indent (c.left + 1) { emptyBreaks } c
  return (b.chomped header.chomping, c)

end ChartDocs.Yaml
