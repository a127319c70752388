import ChartDocs.Json.Numeral
import ChartDocs.Json.Reading

/-!
# Numerals of integers

The text of an integer is read as a numeral up to its end, provided that nothing follows that could
belong to a numeral, and the numeral denotes the integer if it fits into 64 bits.
-/

namespace ChartDocs.Json

open Decimal

/-- A text that does not go on a numeral: no digit, point or exponent is at its start. -/
def EndsNumeral (rest : List Char) : Prop :=
  ∀ c ∈ rest.head?, c.isDigit = false ∧ c ≠ '.' ∧ c ≠ 'e' ∧ c ≠ 'E'

/-- A numeral ends at the end of the text. -/
theorem endsNumeral_nil : EndsNumeral [] := fun _ h => absurd h (by simp)

/-- A numeral ends before a character that is no part of numerals. -/
theorem endsNumeral_cons {c : Char} {rest : List Char} (hdigit : c.isDigit = false)
    (hpoint : c ≠ '.') (hlower : c ≠ 'e') (hupper : c ≠ 'E') : EndsNumeral (c :: rest) := by
  intro d hd
  obtain rfl : c = d := by simpa using hd
  exact ⟨hdigit, hpoint, hlower, hupper⟩

/-- A text that starts as a numeral does and is read as a numeral to its end. -/
structure IsNumeral (numeral : List Char) : Prop where
  head : ∃ c rest, numeral = c :: rest ∧ (c = '-' ∨ c.isDigit = true)
  read : ∀ rest, EndsNumeral rest → readNumeral (numeral ++ rest) = some (numeral, rest)

/-- The digits of a number are digits. -/
theorem isDigit_of_mem_digits {n : Nat} {c : Char} (h : c ∈ digits n) : c.isDigit = true :=
  Nat.isDigit_of_mem_toDigits (by decide) (by decide) h

/-- A number has at least one digit. -/
theorem exists_digits_eq_cons (n : Nat) :
    ∃ c rest, digits n = c :: rest ∧ c.isDigit = true := by
  obtain ⟨c, rest, h⟩ := List.exists_cons_of_ne_nil (Nat.toDigits_ne_nil (b := 10) (n := n))
  exact ⟨c, rest, h, isDigit_of_mem_digits (h ▸ List.mem_cons_self)⟩

/-- A digit is none of the characters that are no digits. -/
theorem ne_of_isDigit {c d : Char} (hc : c.isDigit = true) (hd : d.isDigit = false) : c ≠ d := by
  rintro rfl
  exact Bool.noConfusion (hc.symm.trans hd)

/-- Only zero is written with a leading zero. -/
theorem head?_digits_ne {n : Nat} (h : n ≠ 0) : (digits n).head? ≠ some '0' := by
  induction n using Nat.strongRecOn with
  | ind n ih =>
    by_cases hsmall : n < 10
    · rw [digits, Nat.toDigits_of_lt_base hsmall]
      simpa using h
    · have hle : 10 ≤ n := Nat.le_of_not_lt hsmall
      have hdiv : n / 10 ≠ 0 := by omega
      have hhead := ih (n / 10) (Nat.div_lt_self (by omega) (by decide)) hdiv
      obtain ⟨c, rest, hdigits, -⟩ := exists_digits_eq_cons (n / 10)
      rw [hdigits] at hhead
      rw [digits] at hdigits
      rwa [digits, Nat.toDigits_of_base_le (by decide) hle, hdigits]

/-- The digits of a number are taken up to what is no digit. -/
theorem takeDigits_append {n : Nat} {rest : List Char}
    (h : ∀ c ∈ rest.head?, c.isDigit = false) :
    takeDigits (digits n ++ rest) = (digits n, rest) := by
  have hall : ∀ c ∈ digits n, c.isDigit = true := fun _ => isDigit_of_mem_digits
  rw [takeDigits, List.takeWhile_append_of_pos hall, List.dropWhile_append_of_pos hall]
  cases rest with
  | nil => simp
  | cons c rest =>
    have hc : c.isDigit = false := h c rfl
    simp [hc]

/-- The digits of a number are read as a whole part. -/
theorem readWhole_digits (n : Nat) {rest : List Char} (h : EndsNumeral rest) :
    readWhole (digits n ++ rest) = some (digits n, rest) := by
  have htake := takeDigits_append (n := n) fun c hc => (h c hc).1
  by_cases hn : n = 0
  · subst hn; rfl
  · obtain ⟨c, ds, hdigits, -⟩ := exists_digits_eq_cons n
    have hc : c ≠ '0' := by
      rintro rfl
      exact head?_digits_ne hn (by rw [hdigits]; rfl)
    rw [hdigits, List.cons_append] at htake ⊢
    rw [readWhole, htake]
    · simp
    · exact fun _ hcons => hc (List.head_eq_of_cons_eq hcons)

/-- Where a numeral ends there is no fraction. -/
theorem readFraction_of_endsNumeral {rest : List Char} (h : EndsNumeral rest) :
    readFraction rest = some ([], rest) := by
  cases rest with
  | nil => rfl
  | cons c rest =>
    rw [readFraction]
    exact fun _ hcons => (h c rfl).2.1 (List.head_eq_of_cons_eq hcons)

/-- Where a numeral ends there is no exponent. -/
theorem readExponent_of_endsNumeral {rest : List Char} (h : EndsNumeral rest) :
    readExponent rest = some ([], rest) := by
  cases rest with
  | nil => rfl
  | cons c rest =>
    obtain ⟨-, -, hlower, hupper⟩ := h c rfl
    rw [readExponent, if_neg (not_or.mpr ⟨hlower, hupper⟩)]

/-- The digits of a number are read as a numeral. -/
theorem readUnsigned_digits (n : Nat) {rest : List Char} (h : EndsNumeral rest) :
    readUnsigned (digits n ++ rest) = some (digits n, rest) := by
  rw [readUnsigned, readWhole_digits n h]
  simp [readFraction_of_endsNumeral h, readExponent_of_endsNumeral h]

/-- The text of an integer is a numeral. -/
theorem isNumeral_intText (n : Int) : IsNumeral (intText n) := by
  cases n with
  | ofNat n =>
    obtain ⟨c, ds, hdigits, hc⟩ := exists_digits_eq_cons n
    refine ⟨⟨c, ds, hdigits, Or.inr hc⟩, fun rest h => ?_⟩
    have hread := readUnsigned_digits n h
    rw [intText]
    rw [hdigits, List.cons_append] at hread ⊢
    rw [readNumeral, hread]
    exact fun _ hcons => ne_of_isDigit hc (by decide) (List.head_eq_of_cons_eq hcons)
  | negSucc n =>
    refine ⟨⟨'-', digits (n + 1), rfl, Or.inl rfl⟩, fun rest h => ?_⟩
    rw [intText, List.cons_append, readNumeral, readUnsigned_digits (n + 1) h]
    rfl

/-- The digits of a number have no sign. -/
theorem takeSign_digits (n : Nat) : takeSign (digits n) = (false, digits n) := by
  obtain ⟨c, ds, hdigits, hc⟩ := exists_digits_eq_cons n
  rw [hdigits, takeSign]
  · exact fun _ hcons => ne_of_isDigit hc (by decide) (List.head_eq_of_cons_eq hcons)
  · exact fun _ hcons => ne_of_isDigit hc (by decide) (List.head_eq_of_cons_eq hcons)

/-- The digits of a number are all taken. -/
theorem takeDigits_digits (n : Nat) : takeDigits (digits n) = (digits n, []) := by
  have htake : takeDigits (digits n ++ []) = (digits n, []) :=
    takeDigits_append fun c hc => absurd hc (by simp)
  rwa [List.append_nil] at htake

/-- The digits of a number denote the number. -/
theorem ofDigits_digits (n : Nat) : ofDigits (digits n) = n :=
  Nat.ofDigitChars_toDigits (by decide) (by decide)

/-- Two integers are written alike only if they are equal. -/
theorem intText_injective : Function.Injective intText := by
  have hdigits {m n : Nat} (h : digits m = digits n) : m = n := by
    rw [← ofDigits_digits m, h, ofDigits_digits]
  have hminus (m n : Nat) : digits m ≠ '-' :: digits n := by
    intro h
    have hdigit : ('-').isDigit = true := isDigit_of_mem_digits (h ▸ List.mem_cons_self)
    exact absurd hdigit (by decide)
  intro m n h
  match m, n, h with
  | .ofNat m, .ofNat n, h => exact congrArg Int.ofNat (hdigits h)
  | .ofNat m, .negSucc n, h => exact absurd h (hminus m (n + 1))
  | .negSucc m, .ofNat n, h => exact absurd h.symm (hminus n (m + 1))
  | .negSucc m, .negSucc n, h =>
    exact congrArg Int.negSucc (Nat.succ.inj (hdigits (List.cons.inj h).2))

/-- The numeral of an integer that a values file can hold denotes this integer. -/
theorem number?_intText {n : Int} (hleast : Number.leastInt ≤ n)
    (hlargest : n ≤ Number.largestInt) : number? (intText n) = some (.int n) := by
  cases n with
  | ofNat n =>
    have hbound : n < significandBound := by
      have hn : (n : Int) ≤ 18446744073709551615 := hlargest
      have hpow : significandBound = 18446744073709551616 := by decide
      omega
    simp [number?, intText, takeSign_digits, takeDigits_digits, ofDigits_digits, hbound]
  | negSucc n =>
    have hbound : n + 1 ≤ Nat.pow 2 63 := by
      have hn : -9223372036854775808 ≤ Int.negSucc n := hleast
      have hpow : Nat.pow 2 63 = 9223372036854775808 := by decide
      omega
    have hsign : takeSign ('-' :: digits (n + 1)) = (true, digits (n + 1)) := rfl
    simp [number?, intText, hsign, takeDigits_digits, ofDigits_digits, hbound]
    omega

end ChartDocs.Json
