/-!
# Numbers with 53 significant bits

A `Binary64` is not a number, an infinity, or a sign with `mantissa · 2 ^ exponent`. Finite values
are kept canonical: the mantissa is below `2 ^ 53`, the exponent is at least `-1074`, and the
mantissa is at least `2 ^ 52` unless the exponent is the least one. Rounding takes an exact
quotient to the nearest canonical value and a tie to the even mantissa, in integer arithmetic.
-/

namespace ChartDocs.Decimal

/-- A number in the binary interchange format of 64 bits. -/
inductive Binary64 where
  | nan
  | infinite (negative : Bool)
  | finite (negative : Bool) (mantissa : Nat) (exponent : Int)
deriving DecidableEq, Repr, Inhabited

/-- The nearest integer to a quotient; a half goes to the even neighbour. -/
def roundHalfEven (num den : Nat) : Nat :=
  let q := num / den
  let r := num % den
  if den < 2 * r || (2 * r == den && q % 2 == 1) then q + 1 else q

/-- A power of two with a possibly negative exponent, as numerator and denominator. -/
def twoPower (e : Int) : Nat × Nat :=
  (Nat.pow 2 e.toNat, Nat.pow 2 (-e).toNat)

/-- A power of ten with a possibly negative exponent, as numerator and denominator. -/
def tenPower (e : Int) : Nat × Nat :=
  (Nat.pow 10 e.toNat, Nat.pow 10 (-e).toNat)

/-- The largest `k` with `2 ^ k ≤ num / den`, for a positive quotient. -/
def floorLog2 (num den : Nat) : Int :=
  let k : Int := (num.log2 : Int) - (den.log2 : Int)
  let (up, down) := twoPower k
  if den * up ≤ num * down then k else k - 1

namespace Binary64

/-- The least exponent of a finite value. -/
def leastExponent : Int := -1074

/-- The largest exponent of a finite value. -/
def largestExponent : Int := 971

/-- Zero with a sign. -/
def zero (negative : Bool) : Binary64 :=
  .finite negative 0 leastExponent

/-- The value nearest to a quotient with a sign. -/
def ofRatio (negative : Bool) (num den : Nat) : Binary64 :=
  if num = 0 then zero negative
  else
    let e := max (floorLog2 num den - 52) leastExponent
    let (up, down) := twoPower e
    let m := roundHalfEven (num * down) (den * up)
    let (m, e) := if m = Nat.pow 2 53 then (Nat.pow 2 52, e + 1) else (m, e)
    if largestExponent < e then .infinite negative else .finite negative m e

/-- The value nearest to `digits · 10 ^ exponent`.

Exponents far outside the range are decided without computing the power of ten. -/
def ofDecimal (negative : Bool) (digits : Nat) (exponent : Int) : Binary64 :=
  if digits = 0 then zero negative
  else if 310 < exponent then .infinite negative
  else if (digits.log2 : Int) + 1090 < -3 * exponent then zero negative
  else
    let (up, down) := tenPower exponent
    ofRatio negative (digits * up) down

/-- The value nearest to a natural number. -/
def ofNat (n : Nat) : Binary64 :=
  ofRatio false n 1

/-- Whether the value is neither infinite nor not a number. -/
def isFinite : Binary64 → Bool
  | .finite .. => true
  | _ => false

/-- Whether the value is a zero of either sign. -/
def isZero : Binary64 → Bool
  | .finite _ 0 _ => true
  | _ => false

/-- The value with its sign changed. -/
def neg : Binary64 → Binary64
  | .nan => .nan
  | .infinite negative => .infinite (!negative)
  | .finite negative m e => .finite (!negative) m e

/-- The magnitude of a finite value as numerator and denominator. -/
def magnitude (m : Nat) (e : Int) : Nat × Nat :=
  (m * (twoPower e).1, (twoPower e).2)

/-- The nearest value to the product of two finite values; other factors give `nan`. -/
def mul : Binary64 → Binary64 → Binary64
  | .finite s m e, .finite t n f =>
    let (a, b) := magnitude m e
    let (c, d) := magnitude n f
    ofRatio (s != t) (a * c) (b * d)
  | _, _ => .nan

/-- The nearest value to the quotient of two finite values; other operands give `nan`. -/
def div : Binary64 → Binary64 → Binary64
  | .finite s m e, .finite t n f =>
    let (a, b) := magnitude m e
    let (c, d) := magnitude n f
    ofRatio (s != t) (a * d) (b * c)
  | _, _ => .nan

/-- Equality as keys: all values that are not numbers agree, and so do both zeros. -/
def sameKey (x y : Binary64) : Bool :=
  x = y || (x.isZero && y.isZero)

example : ofDecimal false 1 (-1) = .finite false 7205759403792794 (-56) := by decide +kernel

example : ofDecimal true 5 (-324) = .finite true 1 (-1074) := by decide +kernel

example : ofDecimal false 18 307 = .infinite false := by decide +kernel

end Binary64

end ChartDocs.Decimal
