import ChartDocs.Decimal.Binary64

/-!
# Reading decimal numbers

A decimal literal has an optional sign, digits with an optional point among them, at least one
digit in all, and an optional exponent. It denotes the nearest binary value.
-/

namespace ChartDocs.Decimal

/-- The value of a string of decimal digits. -/
def ofDigits (ds : List Char) : Nat :=
  Nat.ofDigitChars 10 ds 0

/-- A sign and the text after it; no sign counts as plus. -/
def takeSign : List Char → Bool × List Char
  | '-' :: rest => (true, rest)
  | '+' :: rest => (false, rest)
  | text => (false, text)

/-- The longest run of digits at the start of a text, and the rest. -/
def takeDigits (text : List Char) : List Char × List Char :=
  (text.takeWhile Char.isDigit, text.dropWhile Char.isDigit)

/-- The digits after a decimal point, if there is one, and the rest. -/
def takeFraction : List Char → List Char × List Char
  | '.' :: rest => takeDigits rest
  | text => ([], text)

/-- A whole text that is an exponent, or no text for the exponent zero. -/
def readExponent? : List Char → Option Int
  | [] => some 0
  | c :: rest =>
    if c = 'e' ∨ c = 'E' then
      let (negative, rest) := takeSign rest
      let (ds, rest) := takeDigits rest
      if ds = [] ∨ rest ≠ [] then none
      else some (if negative then -(ofDigits ds : Int) else ofDigits ds)
    else none

/-- The binary value nearest to a decimal literal. -/
def ofLiteral? (text : List Char) : Option Binary64 :=
  let (negative, text) := takeSign text
  let (whole, text) := takeDigits text
  let (fraction, text) := takeFraction text
  if whole = [] ∧ fraction = [] then none
  else do
    let exponent ← readExponent? text
    some (.ofDecimal negative (ofDigits (whole ++ fraction)) (exponent - fraction.length))

example : ofLiteral? "-1.5e1".toList = some (.ofDecimal true 15 0) := by decide +kernel

example : ofLiteral? ".".toList = none := by decide +kernel

end ChartDocs.Decimal
