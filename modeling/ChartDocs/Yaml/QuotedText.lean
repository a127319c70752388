import ChartDocs.Text.Hexadecimal
import ChartDocs.Yaml.Cursor

/-!
# Quoted texts

Between single quotes a doubled quote stands for one quote. Between double quotes a backslash
starts an escape, and a backslash at the end of a line joins the lines. Line breaks fold: one
counts as a space, and all after the first are kept.
-/

namespace ChartDocs.Yaml

/-- The character with a code, unless the code is a surrogate or too large. -/
def charOfCode? (code : Nat) : Option Char :=
  if h : code.isValidChar then some (Char.ofNatAux code h) else none

/-- The character that one letter stands for after a backslash. -/
def letterEscape? : Char → Option Char
  | '0' => some '\x00'
  | 'a' => some '\x07'
  | 'b' => some '\x08'
  | 't' => some '\t'
  | '\t' => some '\t'
  | 'n' => some '\n'
  | 'v' => some '\x0b'
  | 'f' => some '\x0c'
  | 'r' => some '\r'
  | 'e' => some '\x1b'
  | ' ' => some ' '
  | '"' => some '"'
  | '/' => some '/'
  | '\\' => some '\\'
  | 'N' => some '\u0085'
  | '_' => some '\u00a0'
  | 'L' => some '\u2028'
  | 'P' => some '\u2029'
  | _ => none

/-- How many hexadecimal digits follow a letter after a backslash. -/
def codeLength? : Char → Option Nat
  | 'x' => some 2
  | 'u' => some 4
  | 'U' => some 8
  | _ => none

/-- The character that the text after a backslash stands for, and how many characters spell it. -/
def escape? : List Char → Option (Char × Nat)
  | [] => none
  | c :: rest =>
    match codeLength? c with
    | some count =>
      if rest.length < count then none
      else do
        let code ← Text.hexNumber? 0 (rest.take count)
        some (← charOfCode? code, count + 1)
    | none => (letterEscape? c).map (·, 1)

/-- Read up to a blank, a break, the closing quote or an escaped line break.

The flag says whether an escaped line break has been passed. -/
def quotedWord (double : Bool) :
    (fuel : Nat) → List Char → Cursor → Except Fault (List Char × Bool × Cursor)
  | 0, word, c => .ok (word.reverse, false, c)
  | fuel + 1, word, c =>
    match double, c.rest with
    | _, [] => .ok (word.reverse, false, c)
    | false, '\'' :: '\'' :: _ => quotedWord double fuel ('\'' :: word) (c.skip 2)
    | false, '\'' :: _ => .ok (word.reverse, false, c)
    | true, '"' :: _ => .ok (word.reverse, false, c)
    | true, '\\' :: rest =>
      if rest.head?.any isBreak then .ok (word.reverse, true, c.skip.takeBreak.2)
      else
        match escape? rest with
        | some (d, count) => quotedWord double fuel (d :: word) (c.skip (count + 1))
        | none => .error .escape
    | _, d :: _ =>
      if isGap d || isBreak d then .ok (word.reverse, false, c)
      else quotedWord double fuel (d :: word) c.skip

/-- Read the words and gaps of a quoted text up to its closing quote. -/
def quotedWords (double : Bool) :
    (fuel : Nat) → List Char → Cursor → Except Fault (List Char × Cursor)
  | 0, _, _ => .error .unclosedQuote
  | fuel + 1, text, c => do
    if c.atDocumentMark then .error .indicator
    if c.rest = [] then .error .unclosedQuote
    let (word, joined, c) ← quotedWord double (c.left + 1) [] c
    let text := text ++ word
    if c.next? = some (if double then '"' else '\'') then .ok (text, c.skip)
    else
      let (gap, c) ← Gap.read 0 c.left { broken := joined } c
      quotedWords double fuel (text ++ gap.folded) c

/-- Read a quoted text from its opening quote on. -/
def quotedText (double : Bool) (c : Cursor) : Except Fault (List Char × Cursor) :=
  quotedWords double (c.left + 1) [] c.skip

end ChartDocs.Yaml
