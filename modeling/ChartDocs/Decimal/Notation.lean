import ChartDocs.Decimal.Shortest

/-!
# Writing binary numbers in decimal

A finite value is written with the shortest digits that read back. The position of the decimal
point decides the layout: within a window the number is positional and always shows a fraction,
outside it the number has one digit before the point and an exponent. Two formats use the same
window and differ in the sign of a positive exponent.
-/

namespace ChartDocs.Decimal

/-- The decisions of a decimal format. -/
structure Layout where
  /-- The least position of the decimal point that is written positionally. -/
  leastPoint : Int
  /-- The largest position of the decimal point that is written positionally. -/
  largestPoint : Int
  /-- What stands before a positive exponent. -/
  positiveExponent : List Char

/-- Numbers in YAML show no sign before a positive exponent. -/
def Layout.yaml : Layout := ⟨-4, 16, []⟩

/-- Numbers in JSON show a plus before a positive exponent. -/
def Layout.json : Layout := ⟨-4, 16, ['+']⟩

/-- The decimal digits of a natural number. -/
def digits (n : Nat) : List Char :=
  Nat.toDigits 10 n

/-- The decimal digits of an integer after its sign. -/
def intText : Int → List Char
  | .ofNat n => digits n
  | .negSucc n => '-' :: digits (n + 1)

/-- A digit string whose decimal point is at a position, without exponent. -/
def positional (ds : List Char) (point : Int) : List Char :=
  if point ≤ 0 then '0' :: '.' :: (List.replicate (-point).toNat '0' ++ ds)
  else if (ds.length : Int) ≤ point then
    ds ++ List.replicate (point.toNat - ds.length) '0' ++ ['.', '0']
  else ds.take point.toNat ++ '.' :: ds.drop point.toNat

/-- A digit string with one digit before the point and an exponent. -/
def Layout.scientific (layout : Layout) (ds : List Char) (point : Int) : List Char :=
  let exponent := point - 1
  let sign := if exponent < 0 then [] else layout.positiveExponent
  let fraction := if ds.length ≤ 1 then [] else '.' :: ds.drop 1
  ds.take 1 ++ fraction ++ 'e' :: (sign ++ intText exponent)

/-- The magnitude of a finite value in a format. -/
def Layout.magnitude (layout : Layout) (m : Nat) (e : Int) : List Char :=
  if m = 0 then ['0', '.', '0']
  else
    let (d, t) := shortest m e
    let ds := digits d
    let point := (ds.length : Int) + t
    if layout.leastPoint ≤ point ∧ point ≤ layout.largestPoint then positional ds point
    else layout.scientific ds point

/-- A finite value in a format. -/
def Layout.finite (layout : Layout) (negative : Bool) (m : Nat) (e : Int) : List Char :=
  (if negative then ['-'] else []) ++ layout.magnitude m e

/-- A value as YAML writes it. -/
def yamlText : Binary64 → List Char
  | .nan => ['.', 'n', 'a', 'n']
  | .infinite false => ['.', 'i', 'n', 'f']
  | .infinite true => ['-', '.', 'i', 'n', 'f']
  | .finite negative m e => Layout.yaml.finite negative m e

/-- A finite value as JSON writes it. -/
def jsonText? : Binary64 → Option (List Char)
  | .finite negative m e => some (Layout.json.finite negative m e)
  | _ => none

example : yamlText (.ofDecimal false 1 16) = "1e16".toList := by decide +kernel

example : yamlText (.ofDecimal false 1 15) = "1000000000000000.0".toList := by decide +kernel

example : yamlText (.ofDecimal false 1 (-5)) = "0.00001".toList := by decide +kernel

example : yamlText (.ofDecimal false 1 (-7)) = "1e-7".toList := by decide +kernel

example : yamlText (.zero true) = "-0.0".toList := by decide +kernel

example : jsonText? (.ofDecimal false 12345678901234568 1) =
    some "1.2345678901234568e+17".toList := by decide +kernel

end ChartDocs.Decimal
