import ChartDocs.Decimal.Literal
import ChartDocs.Value.Equality
import ChartDocs.Text.Split

/-!
# The values of scalars

A plain scalar is null, a truth value, an integer or a binary number if its text has that form,
and a string otherwise. An integer too large for a values file is refused up to a width of 128
bits; beyond that its digits are read as a binary number.
-/

namespace ChartDocs.Yaml

open Text Decimal

/-- Whether a text is one of the words for null. -/
def isNullWord (text : List Char) : Bool :=
  text = ['~'] || text = "null".toList || text = "Null".toList || text = "NULL".toList

/-- The truth value that a word stands for. -/
def boolWord? (text : List Char) : Option Bool :=
  if text = "true".toList || text = "True".toList || text = "TRUE".toList then some true
  else if text = "false".toList || text = "False".toList || text = "FALSE".toList then some false
  else none

/-- Whether a text has only digits after its sign, more than one, and starts with zero. -/
def hasLeadingZero (text : List Char) : Bool :=
  match (takeSign text).2 with
  | '0' :: d :: rest => (d :: rest).all Char.isDigit
  | _ => false

/-- The value of a digit in bases up to sixteen. -/
def digitValue? (c : Char) : Option Nat :=
  if c.isDigit then some (c.toNat - '0'.toNat)
  else if 'a' ≤ c ∧ c ≤ 'f' then some (c.toNat - 'a'.toNat + 10)
  else if 'A' ≤ c ∧ c ≤ 'F' then some (c.toNat - 'A'.toNat + 10)
  else none

/-- The value of a nonempty digit string in a base, continued from the digits before it. -/
def inBase? (base value : Nat) : List Char → Option Nat
  | [] => some value
  | c :: rest => do
    let d ← digitValue? c
    if d < base then inBase? base (base * value + d) rest else none

/-- The natural number that digits denote, in the base that their beginning names. -/
def magnitude? : List Char → Option Nat
  | [] => none
  | '0' :: 'x' :: c :: rest => inBase? 16 0 (c :: rest)
  | '0' :: 'o' :: c :: rest => inBase? 8 0 (c :: rest)
  | '0' :: 'b' :: c :: rest => inBase? 2 0 (c :: rest)
  | text => inBase? 10 0 text

/-- The integer that a text denotes, of any size. -/
def integer? (text : List Char) : Option Int :=
  if hasLeadingZero text then none
  else
    let (negative, ds) := takeSign text
    (magnitude? ds).map fun n => if negative then -(n : Int) else n

/-- The binary number that a text denotes, if it is finite or one of the words for the others. -/
def float? (text : List Char) : Option Binary64 :=
  let (_, unsigned) := takeSign text
  if unsigned = ".inf".toList || unsigned = ".Inf".toList || unsigned = ".INF".toList then
    some (.infinite (text.head? = some '-'))
  else if text = ".nan".toList || text = ".NaN".toList || text = ".NAN".toList then some .nan
  else
    match ofLiteral? text with
    | some x => if x.isFinite then some x else none
    | none => none

/-- Whether an integer fits into a values file. -/
def fitsInt (n : Int) : Bool :=
  Number.leastInt ≤ n && n ≤ Number.largestInt

/-- Whether an integer has at most 128 bits. -/
def fitsWide (n : Int) : Bool :=
  -Int.ofNat (Nat.pow 2 127) ≤ n && n < Int.ofNat (Nat.pow 2 128)

/-- The value of an integer text: an integer, nothing if the text is none or is beyond 128 bits,
and a fault between. -/
def integerValue (text : List Char) : Option (Option Value) :=
  match integer? text with
  | some n =>
    if fitsInt n then some (some (.number (.int n)))
    else if fitsWide n then some none
    else none
  | none => none

/-- The value of a plain scalar, or nothing if it is an integer that is too large. -/
def plainValue? (text : List Char) : Option Value :=
  if text = [] || isNullWord text then some .null
  else
    match boolWord? text with
    | some b => some (.bool b)
    | none =>
      match integerValue text with
      | some value? => value?
      | none =>
        if hasLeadingZero text then some (.string (String.ofList text))
        else
          match float? text with
          | some x => some (.number (.float x))
          | none => some (.string (String.ofList text))

example : plainValue? "0x1F".toList = some (.number (.int 31)) := by decide +kernel

example : plainValue? "007".toList = some (.string "007") := by decide +kernel

example : plainValue? "18446744073709551616".toList = none := by decide +kernel

example : plainValue? "1e3".toList = some (.number (.float (.ofDecimal false 1 3))) := by
  decide +kernel

end ChartDocs.Yaml
