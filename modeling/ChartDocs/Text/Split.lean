/-!
# Cutting texts into pieces

`splitAt` cuts a text at every occurrence of a separator and `join` puts pieces together again;
joining what was cut gives the text back. `dropLeading?` removes a known beginning.
-/

namespace ChartDocs.Text

/-- Put a character in front of the first piece. -/
def consFirst (c : Char) : List (List Char) → List (List Char)
  | [] => [[c]]
  | piece :: rest => (c :: piece) :: rest

/-- The pieces of a text between the occurrences of a separator; there is always one piece. -/
def splitAt (separator : Char) : List Char → List (List Char)
  | [] => [[]]
  | c :: rest =>
    if c = separator then [] :: splitAt separator rest
    else consFirst c (splitAt separator rest)

/-- The pieces one after the other, with the separator between neighbours. -/
def join (separator : List Char) : List (List Char) → List Char
  | [] => []
  | [piece] => piece
  | piece :: rest => piece ++ separator ++ join separator rest

/-- The rest of a text after a given beginning. -/
def dropLeading? : (beginning text : List Char) → Option (List Char)
  | [], text => some text
  | _ :: _, [] => none
  | c :: beginning, d :: text => if c = d then dropLeading? beginning text else none

/-- Whether a text has a given beginning. -/
def startsWith (beginning text : List Char) : Bool :=
  (dropLeading? beginning text).isSome

/-- Replace every occurrence of a character by a text. -/
def replace (old : Char) (new : List Char) (text : List Char) : List Char :=
  text.flatMap fun c => if c = old then new else [c]

/-- The strings one after the other, with the separator between neighbours. -/
def joinStrings (separator : String) (pieces : List String) : String :=
  String.ofList (join separator.toList (pieces.map String.toList))

/-- A text has a beginning exactly if it is the beginning followed by the rest. -/
theorem dropLeading?_eq_some_iff {beginning text rest : List Char} :
    dropLeading? beginning text = some rest ↔ text = beginning ++ rest := by
  induction beginning generalizing text with
  | nil => simp [dropLeading?]
  | cons c beginning ih =>
    cases text with
    | nil => simp [dropLeading?]
    | cons d text =>
      by_cases h : c = d
      · simp [dropLeading?, h, ih]
      · simp [dropLeading?, h, Ne.symm h]

/-- A beginning can be dropped from what it was put before. -/
@[simp] theorem dropLeading?_append (beginning rest : List Char) :
    dropLeading? beginning (beginning ++ rest) = some rest :=
  dropLeading?_eq_some_iff.2 rfl

/-- A text always has at least one piece. -/
theorem splitAt_ne_nil (separator : Char) (text : List Char) : splitAt separator text ≠ [] := by
  cases text with
  | nil => simp [splitAt]
  | cons c rest =>
    simp only [splitAt]
    split
    · simp
    · cases splitAt separator rest <;> simp [consFirst]

/-- A character before the first piece comes before the joined text. -/
theorem join_consFirst (separator : List Char) (c : Char) {pieces : List (List Char)}
    (h : pieces ≠ []) : join separator (consFirst c pieces) = c :: join separator pieces := by
  match pieces, h with
  | [piece], _ => rfl
  | piece :: next :: rest, _ => simp [consFirst, join]

/-- Joining the pieces with the separator gives the text back. -/
theorem join_splitAt (separator : Char) (text : List Char) :
    join [separator] (splitAt separator text) = text := by
  induction text with
  | nil => rfl
  | cons c rest ih =>
    simp only [splitAt]
    split
    · next h =>
      obtain ⟨piece, pieces, e⟩ := List.exists_cons_of_ne_nil (splitAt_ne_nil separator rest)
      rw [e] at ih ⊢
      simp [join, ih, h]
    · rw [join_consFirst _ _ (splitAt_ne_nil separator rest), ih]

end ChartDocs.Text
