/-!
# Characters in octets

UTF-8 writes a character as one to four octets. Octets that come from elsewhere need not all belong
to characters: `decode` gives the characters in their order, and nothing for each octet that belongs
to none. Main statement: what was written as characters is read back as the same characters.
-/

namespace ChartDocs.Text

/-- The number of octets that characters take. -/
def octetLength : List Char → Nat
  | [] => 0
  | c :: rest => c.utf8Size + octetLength rest

/-- The octets of characters. -/
def encode (text : List Char) : List UInt8 :=
  text.flatMap String.utf8EncodeChar

/-- The character that stands at the start of some octets. -/
def charAt? (octets : List UInt8) : Option Char :=
  (octets.take 4).toByteArray.utf8DecodeChar? 0

/-- The characters in some octets, and nothing for each octet that belongs to no character. -/
def decode : List UInt8 → List (Option Char)
  | [] => []
  | octet :: rest =>
    match charAt? (octet :: rest) with
    | some c => some c :: decode (rest.drop (c.utf8Size - 1))
    | none => none :: decode rest
termination_by octets => octets.length
decreasing_by all_goals (simp only [List.length_drop, List.length_cons]; omega)

/-- A text is written in as many octets as its length in octets says. -/
theorem length_encode (text : List Char) : (encode text).length = octetLength text := by
  induction text with
  | nil => rfl
  | cons c rest ih =>
    simpa [encode, octetLength, String.length_utf8EncodeChar] using ih

/-- The octets of a character start with that character, whatever follows. -/
theorem charAt?_encodeChar_append (c : Char) (rest : List UInt8) :
    charAt? (String.utf8EncodeChar c ++ rest) = some c := by
  have fits : (String.utf8EncodeChar c).length ≤ 4 := by
    rw [String.length_utf8EncodeChar]
    exact Char.utf8Size_le_four c
  rw [charAt?, List.take_append, List.take_of_length_le fits, List.toByteArray_append]
  exact ByteArray.utf8DecodeChar?_utf8EncodeChar_append

/-- The octets of a character are read as the character, and then what follows is read. -/
theorem decode_encodeChar_append (c : Char) (rest : List UInt8) :
    decode (String.utf8EncodeChar c ++ rest) = some c :: decode rest := by
  have size : (String.utf8EncodeChar c).length = c.utf8Size := String.length_utf8EncodeChar c
  have found := charAt?_encodeChar_append c rest
  cases octets : String.utf8EncodeChar c with
  | nil => have := Char.utf8Size_pos c; simp [octets] at size; omega
  | cons first later =>
    rw [octets] at size found
    have dropped : (later ++ rest).drop (c.utf8Size - 1) = rest := by
      rw [← size]
      simp
    rw [List.cons_append, decode]
    rw [List.cons_append] at found
    simp [found, dropped]

/-- Octets that were written as characters hold just these. -/
theorem decode_encode (text : List Char) : decode (encode text) = text.map some := by
  induction text with
  | nil => simp [encode, decode]
  | cons c rest ih =>
    have split : encode (c :: rest) = String.utf8EncodeChar c ++ encode rest := by simp [encode]
    rw [split, decode_encodeChar_append, ih, List.map_cons]

example : decode [0x61, 0xC3, 0xA9, 0xFF, 0xED, 0xA0, 0x80] =
    [some 'a', some 'é', none, none, none, none] := by decide +kernel

end ChartDocs.Text
