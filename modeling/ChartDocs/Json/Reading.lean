import ChartDocs.Json.Basic
import ChartDocs.Decimal.Literal
import ChartDocs.Text.Hexadecimal

/-!
# Reading JSON

A text is one JSON tree with blanks around it: spaces, tabs, line feeds and carriage returns. A
string is first read as code units, in which an escape may name half of a surrogate pair; two
halves that stand together make one character.
-/

namespace ChartDocs.Json

open Decimal

/-- Whether a character may stand between tokens. -/
def isSpace (c : Char) : Bool :=
  c = ' ' || c = '\n' || c = '\t' || c = '\r'

/-- The text without leading blanks. -/
def skipSpace (text : List Char) : List Char :=
  text.dropWhile isSpace

/-- The character that an escape of one letter stands for. -/
def escape? (c : Char) : Option Char :=
  match c with
  | '"' => some '"'
  | '\\' => some '\\'
  | '/' => some '/'
  | 'b' => some '\x08'
  | 'f' => some '\x0c'
  | 'n' => some '\n'
  | 'r' => some '\r'
  | 't' => some '\t'
  | _ => none

/-- The code units of a string after its opening quote, and the text after its closing quote. -/
def readUnits : List Char → Option (List Nat × List Char)
  | [] => none
  | '"' :: rest => some ([], rest)
  | '\\' :: 'u' :: a :: b :: c :: d :: rest => do
    let unit ← Text.hexNumber? 0 [a, b, c, d]
    let (units, rest) ← readUnits rest
    some (unit :: units, rest)
  | '\\' :: c :: rest => do
    let c ← escape? c
    let (units, rest) ← readUnits rest
    some (c.toNat :: units, rest)
  | c :: rest =>
    if c.toNat < 0x20 then none
    else do
      let (units, rest) ← readUnits rest
      some (c.toNat :: units, rest)

/-- Whether a code unit is the first half of a surrogate pair. -/
def isLeading (unit : Nat) : Bool :=
  0xD800 ≤ unit && unit ≤ 0xDBFF

/-- Whether a code unit is the second half of a surrogate pair. -/
def isTrailing (unit : Nat) : Bool :=
  0xDC00 ≤ unit && unit ≤ 0xDFFF

/-- The characters that code units denote, unless a half of a pair stands alone. -/
def ofUnits? : List Nat → Option (List Char)
  | [] => some []
  | unit :: rest =>
    if isTrailing unit then none
    else if isLeading unit then
      match rest with
      | next :: rest =>
        if isTrailing next then
          let code := 0x10000 + (unit - 0xD800) * 0x400 + (next - 0xDC00)
          (ofUnits? rest).map (Char.ofNat code :: ·)
        else none
      | [] => none
    else (ofUnits? rest).map (Char.ofNat unit :: ·)

/-- The text of a string after its opening quote, if it denotes one, and what follows. -/
def readString (text : List Char) : Option (Option String × List Char) := do
  let (units, rest) ← readUnits text
  some ((ofUnits? units).map String.ofList, rest)

/-- The fraction of a numeral, if there is one, and what follows. -/
def readFraction : List Char → Option (List Char × List Char)
  | '.' :: rest =>
    let (ds, rest) := takeDigits rest
    if ds = [] then none else some ('.' :: ds, rest)
  | text => some ([], text)

/-- The sign of an exponent, if there is one, and what follows. -/
def takeExponentSign : List Char → List Char × List Char
  | '+' :: rest => (['+'], rest)
  | '-' :: rest => (['-'], rest)
  | text => ([], text)

/-- The exponent of a numeral, if there is one, and what follows. -/
def readExponent : List Char → Option (List Char × List Char)
  | [] => some ([], [])
  | c :: rest =>
    if c = 'e' ∨ c = 'E' then
      let (sign, rest) := takeExponentSign rest
      let (ds, rest) := takeDigits rest
      if ds = [] then none else some (c :: (sign ++ ds), rest)
    else some ([], c :: rest)

/-- The digits before the point of a numeral, and what follows; a zero stands alone. -/
def readWhole : List Char → Option (List Char × List Char)
  | '0' :: rest => some (['0'], rest)
  | text =>
    let (ds, rest) := takeDigits text
    if ds = [] then none else some (ds, rest)

/-- A numeral without its sign, and what follows. -/
def readUnsigned (text : List Char) : Option (List Char × List Char) := do
  let (whole, rest) ← readWhole text
  let (fraction, rest) ← readFraction rest
  let (exponent, rest) ← readExponent rest
  some (whole ++ fraction ++ exponent, rest)

/-- A numeral, and what follows. -/
def readNumeral : List Char → Option (List Char × List Char)
  | '-' :: rest => do
    let (unsigned, rest) ← readUnsigned rest
    some ('-' :: unsigned, rest)
  | text => readUnsigned text

/-- A string that may denote nothing. -/
def ofText (text : Option String) : Json :=
  text.elim unpaired string

/-- An object, unless one of its names denotes nothing. -/
def ofFields (fields : List (Option String × Json)) : Json :=
  match fields.mapM fun (name, value) => name.map fun name => (name, value) with
  | some fields => object fields
  | none => unpaired

mutual

/-- A tree after leading blanks, and what follows. -/
def readTree : (fuel : Nat) → List Char → Option (Json × List Char)
  | 0, _ => none
  | fuel + 1, text =>
    match skipSpace text with
    | 'n' :: 'u' :: 'l' :: 'l' :: rest => some (null, rest)
    | 't' :: 'r' :: 'u' :: 'e' :: rest => some (bool true, rest)
    | 'f' :: 'a' :: 'l' :: 's' :: 'e' :: rest => some (bool false, rest)
    | '"' :: rest => (readString rest).map fun found => (ofText found.1, found.2)
    | '[' :: rest =>
      match skipSpace rest with
      | ']' :: rest => some (array [], rest)
      | rest => (readItems fuel rest).map fun found => (array found.1, found.2)
    | '\x7b' :: rest =>
      match skipSpace rest with
      | '\x7d' :: rest => some (object [], rest)
      | rest => (readFields fuel rest).map fun found => (ofFields found.1, found.2)
    | rest => (readNumeral rest).map fun found => (number found.1, found.2)

/-- The items of an array up to its closing bracket, and what follows. -/
def readItems : (fuel : Nat) → List Char → Option (List Json × List Char)
  | 0, _ => none
  | fuel + 1, text => do
    let (item, rest) ← readTree fuel text
    match skipSpace rest with
    | ']' :: rest => some ([item], rest)
    | ',' :: rest =>
      let (items, rest) ← readItems fuel rest
      some (item :: items, rest)
    | _ => none

/-- The fields of an object up to its closing brace, and what follows. -/
def readFields : (fuel : Nat) → List Char → Option (List (Option String × Json) × List Char)
  | 0, _ => none
  | fuel + 1, text =>
    match skipSpace text with
    | '"' :: rest => do
      let (name, rest) ← readString rest
      match skipSpace rest with
      | ':' :: rest =>
        let (value, rest) ← readTree fuel rest
        match skipSpace rest with
        | '\x7d' :: rest => some ([(name, value)], rest)
        | ',' :: rest =>
          let (fields, rest) ← readFields fuel rest
          some ((name, value) :: fields, rest)
        | _ => none
      | _ => none
    | _ => none

end

/-- The tree that a text holds. -/
def read (text : List Char) : Option Json := do
  let (json, rest) ← readTree (2 * text.length + 2) text
  if skipSpace rest = [] then some json else none

example : ofUnits? [0x61, 0xD83D, 0xDE00] = some ['a', '😀'] ∧ ofUnits? [0xDE00] = none := by decide

example : (read "[1,]".toList).isNone ∧ (read "01".toList).isNone := by
  decide +kernel

end ChartDocs.Json
