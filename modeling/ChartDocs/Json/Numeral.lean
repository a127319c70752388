import ChartDocs.Decimal.Literal
import ChartDocs.Value.Basic

/-!
# The number that a JSON numeral denotes

A numeral without point and exponent denotes an integer if it fits into 64 bits. All other
numerals denote binary numbers. Their digits are gathered into a significand of 64 bits, which is
rounded and then multiplied or divided by a power of ten; digits that no longer fit are dropped. A
number that is too large is none.
-/

namespace ChartDocs.Json

open Decimal

/-- Significands are below this bound. -/
def significandBound : Nat := Nat.pow 2 64

/-- Digits gathered into a significand as long as it fits, and how many of them were gathered. -/
def gather (significand : Nat) : List Char → Nat × Nat
  | [] => (significand, 0)
  | c :: rest =>
    let next := 10 * significand + (c.toNat - '0'.toNat)
    if next < significandBound then
      let (found, count) := gather next rest
      (found, count + 1)
    else (significand, 0)

/-- The largest power of ten that scales in one step. -/
def stepExponent : Int := 308

/-- The nearest binary number to a power of ten. -/
def powerOfTen (exponent : Nat) : Binary64 :=
  .ofDecimal false 1 exponent

/-- A significand scaled by a power of ten, in at most two divisions. -/
def scale? (significand : Nat) (exponent : Int) : Option Binary64 :=
  let f := Binary64.ofNat significand
  if 0 ≤ exponent then
    if significand = 0 then some f
    else if stepExponent < exponent then none
    else
      let product := f.mul (powerOfTen exponent.toNat)
      if product.isFinite then some product else none
  else if -exponent ≤ stepExponent then some (f.div (powerOfTen (-exponent).toNat))
  else if 2 * stepExponent < -exponent then some (.zero false)
  else some ((f.div (powerOfTen stepExponent.toNat)).div
    (powerOfTen (-exponent - stepExponent).toNat))

/-- The binary number of a numeral with its parts. -/
def float? (negative : Bool) (whole fraction : List Char) (exponent : Int) : Option Binary64 :=
  let (significand, taken) := gather 0 whole
  let dropped : Int := whole.length - taken
  let (significand, places) := gather significand fraction
  let size := scale? significand (dropped - places + exponent)
  if negative then size.map Binary64.neg else size

/-- The number that a numeral denotes. -/
def number? (numeral : List Char) : Option Number := do
  let (negative, unsigned) := takeSign numeral
  let (whole, rest) := takeDigits unsigned
  let n := ofDigits whole
  if rest = [] ∧ !negative ∧ n < significandBound then return .int n
  else if rest = [] ∧ negative ∧ 0 < n ∧ n ≤ Nat.pow 2 63 then return .int (-n)
  else
    let (fraction, rest) := takeFraction rest
    return .float (← float? negative whole fraction (← readExponent? rest))

example : number? "-9223372036854775808".toList = some (.int (-9223372036854775808)) := by
  decide +kernel

example : number? "-0".toList = some (.float (.zero true)) := by decide +kernel

example : number? "0.1".toList = some (.float (.ofDecimal false 1 (-1))) := by decide +kernel

example : number? "1e309".toList = none ∧ number? "0e309".toList = some (.float (.zero false)) := by
  decide +kernel

end ChartDocs.Json
