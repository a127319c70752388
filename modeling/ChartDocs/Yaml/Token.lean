import ChartDocs.Yaml.BlockText
import ChartDocs.Yaml.PlainText
import ChartDocs.Yaml.Tag

/-!
# The tokens of a text

Indentation becomes tokens too: a column further right than the innermost block collection opens a
new one, and a column further left closes those that it leaves. A key before a colon needs no mark
of its own, so each token that could be such a key is remembered with its place. When the colon
comes, the mark of the key, and the opening of its mapping if it has one, are put in at that place.
A remembered key must be followed by its colon on the same line and within 1024 octets.
-/

namespace ChartDocs.Yaml

/-- A part of a text that the structure of a document is made of. -/
inductive Token where
  | version (major minor : Nat)
  | handle (name : List Char) (beginning : Spelling)
  | documentStart
  | documentEnd
  | blockSequence
  | blockMapping
  | blockEnd
  | flowSequence
  | flowSequenceEnd
  | flowMapping
  | flowMappingEnd
  | entry
  | comma
  | key
  | value
  | alias (name : String)
  | anchor (name : String)
  | tag (text : TagText)
  | scalar (plain : Bool) (text : List Char)
deriving DecidableEq, Repr

/-- A token that could be a key: where it stands and whether it must turn out to be one. -/
structure PossibleKey where
  required : Bool
  position : Nat
  offset : Nat
  line : Nat
  column : Nat
deriving Repr

/-- What is carried from one token to the next. -/
structure Lexer where
  cursor : Cursor
  /-- The columns of the open block collections, innermost first. -/
  blocks : List Nat := []
  /-- The possible key at each level of brackets and braces, innermost first. -/
  keys : List (Option PossibleKey) := [none]
  /-- Whether a key may start here. -/
  keyAllowed : Bool := true
  /-- The tokens so far, last first. -/
  tokens : List Token := []
  /-- The number of tokens so far. -/
  count : Nat := 0
deriving Repr

namespace Lexer

/-- Whether the text is inside brackets or braces. -/
def inFlow (s : Lexer) : Bool :=
  1 < s.keys.length

/-- Add a token. -/
def emit (s : Lexer) (token : Token) : Lexer :=
  { s with tokens := token :: s.tokens, count := s.count + 1 }

/-- Put a token in before the token with the given number. -/
def insert (s : Lexer) (position : Nat) (token : Token) : Lexer :=
  let later := s.count - position
  { s with tokens := s.tokens.take later ++ token :: s.tokens.drop later, count := s.count + 1 }

/-- Add a token for an indicator of the given length. -/
def emitIndicator (s : Lexer) (token : Token) (length : Nat := 1) : Lexer :=
  { s.emit token with cursor := s.cursor.skip length }

/-- Add a token that ends where a cursor stands. -/
def emitUpTo (s : Lexer) (token : Token) (cursor : Cursor) : Lexer :=
  { s.emit token with cursor }

/-- Whether a column lies further right than the innermost block collection. -/
def opensBlock (s : Lexer) (column : Nat) : Bool :=
  !s.inFlow && s.blocks.head?.all (· < column)

/-- Open a block collection at a column before the token with the given number, if it is one. -/
def openBlock (s : Lexer) (column position : Nat) (token : Token) : Lexer :=
  if s.opensBlock column then { s.insert position token with blocks := column :: s.blocks } else s

/-- Close the block collections right of a column; without a column all of them. -/
def closeBlocks (s : Lexer) (column : Option Nat) : Lexer :=
  if s.inFlow then s
  else
    let closed := s.blocks.takeWhile fun b => column.all (· < b)
    { s with blocks := s.blocks.drop closed.length
             tokens := List.replicate closed.length .blockEnd ++ s.tokens
             count := s.count + closed.length }

/-- Forget the possible key of the current level. -/
def forgetKey (s : Lexer) : Except Fault Lexer :=
  match s.keys with
  | some key :: outer =>
    if key.required then .error .missingColon else .ok { s with keys := none :: outer }
  | _ => .ok s

/-- Remember that the next token could be a key. -/
def rememberKey (s : Lexer) : Except Fault Lexer :=
  if s.keyAllowed then do
    let c := s.cursor
    let required := !s.inFlow && s.blocks.head? = some c.column
    let key : PossibleKey := ⟨required, s.count, c.offset, c.line, c.column⟩
    let s ← s.forgetKey
    return { s with keys := some key :: s.keys.drop 1 }
  else .ok s

/-- A possible key after which the text has gone on to another line or too far is none. -/
def PossibleKey.check (c : Cursor) : Option PossibleKey → Except Fault (Option PossibleKey)
  | some key =>
    if key.line < c.line || key.offset + 1024 < c.offset then
      if key.required then .error .missingColon else .ok none
    else .ok (some key)
  | none => .ok none

/-- Drop the possible keys that are too far back. -/
def dropStaleKeys (s : Lexer) : Except Fault Lexer := do
  return { s with keys := ← s.keys.mapM (PossibleKey.check s.cursor) }

/-- Pass over blanks, comments and line breaks. A tab counts as blank only where no key may start,
and a byte order mark only at the start of a line.

Outside brackets and braces a key may start on a new line. -/
def skipGap : (fuel : Nat) → Lexer → Lexer
  | 0, s => s
  | fuel + 1, s =>
    let c := s.cursor
    let c := if c.column = 0 && c.next? = some '\ufeff' then c.skip else c
    let tabs := s.inFlow || !s.keyAllowed
    let c := (c.skipWhile fun d => d = ' ' || (tabs && d = '\t')).skipComment
    if c.next?.any isBreak then
      skipGap fuel { s with cursor := c.takeBreak.2, keyAllowed := s.keyAllowed || !s.inFlow }
    else { s with cursor := c }

/-- Read a number of a version directive. -/
def versionNumber (c : Cursor) : Except Fault (Nat × Cursor) :=
  let ds := c.rest.takeWhile Char.isDigit
  if ds = [] || 9 < ds.length then .error .directive
  else .ok (Nat.ofDigitChars 10 ds 0, c.skip ds.length)

/-- Read what a directive says after its name. -/
def directiveToken (name : List Char) (c : Cursor) : Except Fault (Token × Cursor) := do
  let c := c.skipWhile isGap
  if name = "YAML".toList then
    let (major, c) ← versionNumber c
    if c.next? ≠ some '.' then .error .directive
    let (minor, c) ← versionNumber c.skip
    return (.version major minor, c)
  else if name = "TAG".toList then
    let (handle, c) ← tagHandle c
    if handle ≠ ['!'] && (handle.length = 1 || handle.getLast? ≠ some '!') then .error .directive
    if !c.next?.any isGap then .error .directive
    let (beginning, c) ← tagChars true c.left [] (c.skipWhile isGap)
    if beginning = [] || !endsWord c.next? then .error .directive
    return (.handle handle beginning.upToNull, c)
  else .error .directive

/-- Read a directive up to the end of its line. -/
def directive (s : Lexer) : Except Fault Lexer := do
  let s ← (s.closeBlocks none).forgetKey
  let name := s.cursor.skip.rest.takeWhile isNameChar
  let c := s.cursor.skip (name.length + 1)
  if name = [] || !endsWord c.next? then .error .directive
  let (token, c) ← directiveToken name c
  let c := (c.skipWhile isGap).skipComment
  if !endsLine c.next? then .error .directive
  return { s.emitUpTo token c.takeBreak.2 with keyAllowed := false }

/-- Read a line that separates documents. -/
def documentMark (s : Lexer) (token : Token) : Except Fault Lexer := do
  let s ← (s.closeBlocks none).forgetKey
  return { s.emitIndicator token 3 with keyAllowed := false }

/-- Read an opening bracket or brace. -/
def openFlow (s : Lexer) (token : Token) : Except Fault Lexer := do
  let s ← s.rememberKey
  return { s.emitIndicator token with keys := none :: s.keys, keyAllowed := true }

/-- Read a closing bracket or brace. -/
def closeFlow (s : Lexer) (token : Token) : Except Fault Lexer := do
  let s ← s.forgetKey
  let keys := if s.inFlow then s.keys.drop 1 else s.keys
  return { s.emitIndicator token with keys, keyAllowed := false }

/-- Read a comma between entries. -/
def comma (s : Lexer) : Except Fault Lexer := do
  let s ← s.forgetKey
  return { s.emitIndicator .comma with keyAllowed := true }

/-- Open a block collection at the cursor, where one may start. -/
def openBlockHere (s : Lexer) (token : Token) : Except Fault Lexer :=
  if s.inFlow then .ok s
  else if s.keyAllowed then .ok (s.openBlock s.cursor.column s.count token)
  else .error .indicator

/-- Read the hyphen of a sequence entry. -/
def entry (s : Lexer) : Except Fault Lexer := do
  let s ← (← s.openBlockHere .blockSequence).forgetKey
  return { s.emitIndicator .entry with keyAllowed := true }

/-- Read the question mark of a key. -/
def explicitKey (s : Lexer) : Except Fault Lexer := do
  let s ← (← s.openBlockHere .blockMapping).forgetKey
  return { s.emitIndicator .key with keyAllowed := !s.inFlow }

/-- Read the colon of a value; a remembered key gets its mark now. -/
def value (s : Lexer) : Except Fault Lexer :=
  match s.keys with
  | some key :: outer =>
    let s := (s.insert key.position .key).openBlock key.column key.position .blockMapping
    .ok { s.emitIndicator .value with keys := none :: outer, keyAllowed := false }
  | _ => do
    let s ← s.openBlockHere .blockMapping
    return { s.emitIndicator .value with keyAllowed := !s.inFlow }

/-- Read a token that could be a key. -/
def keyLike (s : Lexer) (read : Cursor → Except Fault (Token × Cursor)) : Except Fault Lexer := do
  let s ← s.rememberKey
  let (token, c) ← read s.cursor
  return { s.emitUpTo token c with keyAllowed := false }

/-- Read a block text. -/
def block (s : Lexer) (literal : Bool) : Except Fault Lexer := do
  let s ← s.forgetKey
  let (text, c) ← blockText literal s.blocks.head? s.cursor
  return { s.emitUpTo (.scalar false text) c with keyAllowed := true }

/-- Read a plain text; after a line break a key may start. -/
def plain (s : Lexer) : Except Fault Lexer := do
  let s ← s.rememberKey
  let indent := s.blocks.head?.elim 0 (· + 1)
  let (text, broken, c) ← plainText s.inFlow indent s.cursor
  return { s.emitUpTo (.scalar true text) c with keyAllowed := broken }

/-- Read the token that starts with the given character. -/
def token (s : Lexer) (d : Char) : Except Fault Lexer :=
  let c := s.cursor
  let alone := endsWord (c.ahead? 1)
  if c.column = 0 && d = '%' then s.directive
  else if c.atMark '-' then s.documentMark .documentStart
  else if c.atMark '.' then s.documentMark .documentEnd
  else if d = '[' then s.openFlow .flowSequence
  else if d = '\x7b' then s.openFlow .flowMapping
  else if d = ']' then s.closeFlow .flowSequenceEnd
  else if d = '\x7d' then s.closeFlow .flowMappingEnd
  else if d = ',' then s.comma
  else if d = '-' && alone then s.entry
  else if d = '?' && (s.inFlow || alone) then s.explicitKey
  else if d = ':' && (s.inFlow || alone) then s.value
  else if d = '*' then s.keyLike fun c => do
    let (name, c) ← anchorName c
    return (.alias name, c)
  else if d = '&' then s.keyLike fun c => do
    let (name, c) ← anchorName c
    return (.anchor name, c)
  else if d = '!' then s.keyLike fun c => do
    let (text, c) ← tagText s.inFlow c
    return (.tag text, c)
  else if d = '|' && !s.inFlow then s.block true
  else if d = '>' && !s.inFlow then s.block false
  else if d = '\'' || d = '"' then s.keyLike fun c => do
    let (text, c) ← quotedText (d = '"') c
    return (.scalar false text, c)
  else if startsPlain s.inFlow d (c.ahead? 1) then s.plain
  else .error .character

/-- Close everything that is open at the end of the text. -/
def finish (s : Lexer) : Except Fault Lexer :=
  (s.closeBlocks none).forgetKey

/-- Read all tokens. -/
def run : (fuel : Nat) → Lexer → Except Fault Lexer
  | 0, s => .ok s
  | fuel + 1, s => do
    let s ← (s.skipGap (s.cursor.left + 1)).dropStaleKeys
    match s.cursor.next? with
    | none => s.finish
    | some d => run fuel (← (s.closeBlocks (some s.cursor.column)).token d)

end Lexer

/-- The tokens of a text. -/
def tokens (text : List Char) : Except Fault (List Token) := do
  if !text.all isAllowed then .error .character
  let s ← Lexer.run (text.length + 1) { cursor := .ofText text }
  return s.tokens.reverse

end ChartDocs.Yaml
