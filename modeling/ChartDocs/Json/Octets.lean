import ChartDocs.Json.Reading
import ChartDocs.Text.Octets

/-!
# JSON in octets

A JSON text that comes as octets may hold octets that belong to no character. Inside a string such
an octet makes the string denote nothing, as half of a surrogate pair does; everywhere else there
may be none. Main statement: octets that are characters are read as the text of these characters.
-/

namespace ChartDocs.Json

/-- An escape that denotes nothing, whatever stands before and after it. -/
def voidEscape : List Char :=
  ['\\', 'u', 'd', '8', '0', '0', ' ']

/-- A text with such an escape in the place of each octet inside a string that belongs to no
character. -/
def withVoids? : (inString : Bool) → List (Option Char) → Option (List Char)
  | _, [] => some []
  | true, some '\\' :: some c :: rest => (withVoids? true rest).map ('\\' :: c :: ·)
  | true, some '\\' :: none :: _ => none
  | true, none :: rest => (withVoids? true rest).map (voidEscape ++ ·)
  | false, none :: _ => none
  | inString, some c :: rest => (withVoids? (inString != (c = '"')) rest).map (c :: ·)

/-- The tree that a text in octets holds. -/
def readOctets (octets : List UInt8) : Option Json :=
  (withVoids? false (Text.decode octets)).bind read

/-- A text of characters only stays as it is. -/
theorem withVoids?_map_some (inString : Bool) (text : List Char) :
    withVoids? inString (text.map some) = some text := by
  induction h : text.length using Nat.strongRecOn generalizing inString text with
  | ind n ih =>
    cases text with
    | nil => simp [withVoids?]
    | cons c rest =>
      subst h
      cases inString with
      | false => simp [withVoids?, ih rest.length (by simp) _ rest rfl]
      | true =>
        by_cases escape : c = '\\'
        · subst escape
          cases rest with
          | nil => simp [withVoids?]
          | cons d rest =>
            simp [withVoids?, ih rest.length (by simp only [List.length_cons]; omega) _ rest rfl]
        · simp [withVoids?, escape, ih rest.length (by simp) _ rest rfl]

/-- The octets of a text are read as the text. -/
theorem readOctets_encode (text : List Char) : readOctets (Text.encode text) = read text := by
  rw [readOctets, Text.decode_encode, withVoids?_map_some]
  rfl

example : (readOctets [0x22, 0xFF, 0x22]).isSome ∧ (readOctets [0x22, 0x5C, 0xFF, 0x22]).isNone ∧
    (readOctets [0x31, 0xFF]).isNone := by
  decide +kernel

end ChartDocs.Json
