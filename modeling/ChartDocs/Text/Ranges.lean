/-!
# Sets of characters given by ranges

A Unicode property is a table of inclusive ranges of code points in increasing order. Membership
walks the table and stops at the first range that lies above the character, so the common
characters, which come first, are decided in a few steps.
-/

namespace ChartDocs.Text

/-- Inclusive ranges of code points, in increasing order. -/
abbrev Ranges := List (Nat × Nat)

/-- Whether a code point lies in one of the ranges. -/
def Ranges.has : Ranges → Nat → Bool
  | [], _ => false
  | (low, high) :: rest, n => low ≤ n && (n ≤ high || Ranges.has rest n)

/-- Whether a character lies in one of the ranges. -/
def Ranges.contains (ranges : Ranges) (c : Char) : Bool :=
  ranges.has c.toNat

end ChartDocs.Text
