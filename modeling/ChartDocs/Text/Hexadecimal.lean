/-!
# Hexadecimal digits

Digits are read in upper and lower case and written in the case that a format asks for. What is
written with enough digits is read back as the same number.
-/

namespace ChartDocs.Text

/-- The value of a hexadecimal digit. -/
def hexValue? (c : Char) : Option Nat :=
  if c.isDigit then some (c.toNat - '0'.toNat)
  else if 'a' ≤ c ∧ c ≤ 'f' then some (c.toNat - 'a'.toNat + 10)
  else if 'A' ≤ c ∧ c ≤ 'F' then some (c.toNat - 'A'.toNat + 10)
  else none

/-- The number that further digits make of a number read so far. -/
def hexNumber? : (before : Nat) → List Char → Option Nat
  | before, [] => some before
  | before, c :: rest => do hexNumber? (16 * before + (← hexValue? c)) rest

/-- The hexadecimal digit of a value. -/
def hexDigit (upper : Bool) (value : Nat) : Char :=
  if value < 10 then Char.ofNat ('0'.toNat + value)
  else Char.ofNat ((if upper then 'A' else 'a').toNat + (value - 10))

/-- The last hexadecimal digits of a number, so many of them. -/
def hexDigits (upper : Bool) : (count : Nat) → Nat → List Char
  | 0, _ => []
  | count + 1, n => hexDigits upper count (n / 16) ++ [hexDigit upper (n % 16)]

/-- A digit is read as the value that it was written for. -/
theorem hexValue?_hexDigit (upper : Bool) {value : Nat} (h : value < 16) :
    hexValue? (hexDigit upper value) = some value := by
  have all : ∀ upper : Bool, ∀ value : Fin 16,
      hexValue? (hexDigit upper value) = some value.val := by decide
  exact all upper ⟨value, h⟩

/-- Digits are read one after the other, the later ones with the number of the earlier ones before
them. -/
theorem hexNumber?_append (before : Nat) (first rest : List Char) :
    hexNumber? before (first ++ rest) =
      (hexNumber? before first).bind fun n => hexNumber? n rest := by
  induction first generalizing before with
  | nil => rfl
  | cons c first ih =>
    cases h : hexValue? c with
    | none => simp [hexNumber?, h]
    | some value => simp [hexNumber?, h, ih]

/-- A number that needs no further digits is read back from its digits. -/
theorem hexNumber?_hexDigits (upper : Bool) {count n : Nat} (h : n < Nat.pow 16 count) :
    hexNumber? 0 (hexDigits upper count n) = some n := by
  induction count generalizing n with
  | zero =>
    have zero : n = 0 := by simpa using h
    simp [hexDigits, hexNumber?, zero]
  | succ count ih =>
    have fits : n / 16 < Nat.pow 16 count := by
      rw [Nat.div_lt_iff_lt_mul (by decide)]
      simpa [Nat.pow_succ] using h
    have digit := hexValue?_hexDigit upper (Nat.mod_lt n (by decide : 16 > 0))
    simp [hexDigits, hexNumber?_append, ih fits, hexNumber?, digit, Nat.div_add_mod]

end ChartDocs.Text
