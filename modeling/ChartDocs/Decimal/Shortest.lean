import ChartDocs.Decimal.Binary64

/-!
# The shortest decimal of a binary number

The decimals that round to a value form an interval around it, which contains its ends when the
mantissa is even. The shortest decimal has the fewest digits of all in the interval, and among
those it is the nearest to the value; a tie goes to the even last digit. For one digit, two digits
and so on, the two neighbours of the value on that decimal grid are tried: if any point of a grid
lies in the interval, so does one of the two neighbours.
-/

namespace ChartDocs.Decimal

/-- A value between the ends of the interval that rounds to it, all over one denominator. -/
structure Neighbourhood where
  below : Nat
  value : Nat
  above : Nat
  den : Nat
  closed : Bool

namespace Neighbourhood

/-- The decimals that round to `m · 2 ^ e`; below a power of two the gap is half as wide. -/
def ofBinary (m : Nat) (e : Int) : Neighbourhood :=
  let (up, down) := twoPower (e - 2)
  let gap := if m = Nat.pow 2 52 ∧ Binary64.leastExponent < e then 1 else 2
  ⟨(4 * m - gap) * up, 4 * m * up, (4 * m + 2) * up, down, m % 2 == 0⟩

/-- Measure everything in units of a power of ten. -/
def inUnits (n : Neighbourhood) (t : Int) : Neighbourhood :=
  let (up, down) := tenPower t
  { n with below := n.below * down, value := n.value * down, above := n.above * down,
           den := n.den * up }

/-- Whether an integer lies in the interval. -/
def holds (n : Neighbourhood) (c : Nat) : Bool :=
  let x := c * n.den
  if n.closed then n.below ≤ x && x ≤ n.above else n.below < x && x < n.above

/-- The integer next to the value that lies in the interval, the nearer one if both do. -/
def integer? (n : Neighbourhood) : Option Nat :=
  let low := n.value / n.den
  let r := n.value % n.den
  match n.holds low, n.holds (low + 1) with
  | false, false => none
  | true, false => some low
  | false, true => some (low + 1)
  | true, true =>
    if 2 * r < n.den || (2 * r == n.den && low % 2 == 0) then some low else some (low + 1)

/-- The number of digits before the decimal point of the value; zero or less for fractions. -/
def pointPosition (n : Neighbourhood) : Int :=
  let guess : Int := ((floorLog2 n.value n.den) * 30103) / 100000
  let fits (k : Int) : Bool := n.den * (tenPower k).1 ≤ n.value * (tenPower k).2
  if fits (guess + 1) then guess + 2 else if fits guess then guess + 1 else guess

/-- The first hit on the grids with `count`, `count + 1`, … digits, as digits and exponent. -/
def search (n : Neighbourhood) (point : Int) : (fuel count : Nat) → Nat × Int
  | 0, count => (n.value / n.den, point - count)
  | fuel + 1, count =>
    let t := point - count
    match (n.inUnits t).integer? with
    | some c => if c = Nat.pow 10 count then (1, t + count) else (c, t)
    | none => search n point fuel (count + 1)

end Neighbourhood

/-- The digits and the power of ten of the shortest decimal for a positive `m · 2 ^ e`. -/
def shortest (m : Nat) (e : Int) : Nat × Int :=
  let n := Neighbourhood.ofBinary m e
  n.search n.pointPosition 17 1

example : shortest 7205759403792794 (-56) = (1, -1) := by decide +kernel

example : shortest 1 (-1074) = (5, -324) := by decide +kernel

example : shortest 9007199254740991 971 = (17976931348623157, 292) := by decide +kernel

end ChartDocs.Decimal
