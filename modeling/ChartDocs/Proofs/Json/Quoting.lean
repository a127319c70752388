import ChartDocs.Json.Reading
import ChartDocs.Json.Writing

/-!
# Strings between quotes

What is written between the quotes of a string is read as the characters of the string, each as one
code unit, and code units that are characters denote them. So every string is read back, whatever
follows its closing quote.
-/

namespace ChartDocs.Json

open Text

/-- The three ways in which a character stands between quotes. -/
inductive Quoted (c : Char) : List Char → Prop where
  | letter (letter : Char) (hletter : letter ≠ 'u') (hescape : escape? letter = some c) :
    Quoted c ['\\', letter]
  | number (hfits : c.toNat < Nat.pow 16 4) : Quoted c ('\\' :: 'u' :: hexDigits false 4 c.toNat)
  | plain (hquote : c ≠ '"') (hback : c ≠ '\\') (hcontrol : ¬c.toNat < 0x20) : Quoted c [c]

/-- A character is quoted in one of the three ways. -/
theorem quoted_quotedChar (c : Char) : Quoted c (quotedChar c) := by
  have hletter {d letter : Char} (h : c = d) (hu : letter ≠ 'u') (hd : escape? letter = some d) :
      Quoted c ['\\', letter] := .letter letter hu (h ▸ hd)
  unfold quotedChar
  split
  · next h => exact hletter h (by decide) rfl
  split
  · next h => exact hletter h (by decide) rfl
  split
  · next h => exact hletter h (by decide) rfl
  split
  · next h => exact hletter h (by decide) rfl
  split
  · next h => exact hletter h (by decide) rfl
  split
  · next h => exact hletter h (by decide) rfl
  split
  · next h => exact hletter h (by decide) rfl
  split
  · next hcontrol => exact .number (Nat.lt_trans hcontrol (by decide))
  · next hquote hback _ _ _ _ _ hcontrol => exact .plain hquote hback hcontrol

/-- A character is read from what stands for it between quotes. -/
theorem readUnits_quotedChar (c : Char) (rest : List Char) :
    readUnits (quotedChar c ++ rest) =
      (readUnits rest).map fun found => (c.toNat :: found.1, found.2) := by
  have hquoted := quoted_quotedChar c
  generalize quotedChar c = text at hquoted ⊢
  cases hquoted with
  | letter letter hletter hescape =>
    rw [List.cons_append, List.singleton_append, readUnits, hescape]
    · cases readUnits rest <;> rfl
    · exact fun _ _ _ _ _ h => absurd h hletter
  | number hfits =>
    have hnumber := hexNumber?_hexDigits false hfits
    simp only [hexDigits, List.nil_append, List.cons_append] at hnumber ⊢
    rw [readUnits, hnumber]
    cases readUnits rest <;> rfl
  | plain hquote hback hcontrol =>
    rw [List.singleton_append, readUnits, if_neg hcontrol]
    · cases readUnits rest <;> rfl
    · exact hquote
    · exact fun _ _ _ _ _ h => absurd h hback
    · exact fun _ _ h => absurd h hback

/-- Up to the closing quote, the numbers of the characters are read. -/
theorem readUnits_quoted (text rest : List Char) :
    readUnits (text.flatMap quotedChar ++ '"' :: rest) = some (text.map Char.toNat, rest) := by
  induction text with
  | nil => rfl
  | cons c text ih => rw [List.flatMap_cons, List.append_assoc, readUnits_quotedChar, ih]; rfl

/-- No character is half of a surrogate pair. -/
theorem not_surrogate (c : Char) : isTrailing c.toNat = false ∧ isLeading c.toNat = false := by
  have hvalid : c.toNat < 0xD800 ∨ 0xDFFF < c.toNat ∧ c.toNat < 0x110000 := c.valid
  simp only [isTrailing, isLeading, Bool.and_eq_false_iff, decide_eq_false_iff_not]
  omega

/-- Code units that are characters denote these characters. -/
theorem ofUnits?_map_toNat (text : List Char) : ofUnits? (text.map Char.toNat) = some text := by
  induction text with
  | nil => rfl
  | cons c text ih =>
    obtain ⟨htrailing, hleading⟩ := not_surrogate c
    rw [List.map_cons, ofUnits?.eq_def]
    simp [htrailing, hleading, ih, Char.ofNat_toNat]

/-- A string is read back from what stands between its quotes. -/
theorem readString_quoted (s : String) (rest : List Char) :
    readString (s.toList.flatMap quotedChar ++ '"' :: rest) = some (some s, rest) := by
  rw [readString, readUnits_quoted]
  simp [ofUnits?_map_toNat, String.ofList_toList]

end ChartDocs.Json
