import ChartDocs.Proofs.Json.Numerals
import ChartDocs.Proofs.Json.Quoting

/-!
# Trees and their texts

A tree is read back from its text in either layout, if its numerals are numerals and its strings
denote something. The text of a part may be followed by anything that does not go on a numeral, and
it is read with as much fuel as it has characters.
-/

namespace ChartDocs.Json

/-- A tree that can be read from what is written for it. -/
inductive Legible : Json → Prop where
  | null : Legible null
  | bool (b : Bool) : Legible (bool b)
  | number {numeral : List Char} (hnumeral : IsNumeral numeral) : Legible (number numeral)
  | string (text : String) : Legible (string text)
  | array {items : List Json} (hitems : ∀ item ∈ items, Legible item) : Legible (array items)
  | object {fields : List (String × Json)} (hfields : ∀ field ∈ fields, Legible field.2) :
    Legible (object fields)

/-- The text of items up to the closing bracket. -/
def itemsText (level : Level) : List Json → List Char
  | [] => []
  | item :: rest => write level item ++ writeItems level rest

/-- The text of fields up to the closing brace. -/
def fieldsText (level : Level) : List (String × Json) → List Char
  | [] => []
  | (name, value) :: rest =>
    quote name ++ level.colon ++ write level value ++ writeFields level rest

/-- A text that may stand between tokens. -/
def IsBlank (text : List Char) : Prop :=
  ∀ c ∈ text, isSpace c = true

variable {blank text rest : List Char} {json : Json}

/-- What starts a line may stand between tokens. -/
theorem isBlank_lineStart (level : Level) : IsBlank level.lineStart := by
  cases level with
  | none => exact fun c hc => absurd hc List.not_mem_nil
  | some depth =>
    intro c hc
    rcases List.mem_cons.mp hc with rfl | hc
    · decide
    · rw [List.eq_of_mem_replicate hc]
      decide

/-- A colon is followed by a blank at most. -/
theorem exists_colon_eq (level : Level) : ∃ blank, level.colon = ':' :: blank ∧ IsBlank blank := by
  cases level with
  | none => exact ⟨[], rfl, fun c hc => absurd hc List.not_mem_nil⟩
  | some depth =>
    refine ⟨[' '], rfl, fun c hc => ?_⟩
    rw [List.mem_singleton.mp hc]
    decide

/-- Inner levels write the same colon. -/
@[simp] theorem colon_inner (level : Level) : level.inner.colon = level.colon := by
  cases level <;> rfl

/-- What may stand between tokens is skipped. -/
theorem skipSpace_append (h : IsBlank blank) (text : List Char) :
    skipSpace (blank ++ text) = skipSpace text :=
  List.dropWhile_append_of_pos h

/-- Nothing is skipped before a character that is no space. -/
theorem skipSpace_cons {c : Char} (h : isSpace c = false) (rest : List Char) :
    skipSpace (c :: rest) = c :: rest :=
  List.dropWhile_cons_of_neg (by simp [h])

/-- A tree is read behind what may stand between tokens. -/
theorem readTree_append (h : IsBlank blank) (fuel : Nat) (text : List Char) :
    readTree fuel (blank ++ text) = readTree fuel text := by
  cases fuel with
  | zero => rfl
  | succ fuel => rw [readTree, skipSpace_append h, readTree]

/-- Items are read behind what may stand between tokens. -/
theorem readItems_append (h : IsBlank blank) (fuel : Nat) (text : List Char) :
    readItems fuel (blank ++ text) = readItems fuel text := by
  cases fuel with
  | zero => rfl
  | succ fuel => rw [readItems, readTree_append h, readItems]

/-- Fields are read behind what may stand between tokens. -/
theorem readFields_append (h : IsBlank blank) (fuel : Nat) (text : List Char) :
    readFields fuel (blank ++ text) = readFields fuel text := by
  cases fuel with
  | zero => rfl
  | succ fuel => rw [readFields, skipSpace_append h, readFields]

/-- A digit is no space. -/
theorem isSpace_of_isDigit {c : Char} (h : c.isDigit = true) : isSpace c = false := by
  simp [isSpace, ne_of_isDigit h (d := ' ') (by decide), ne_of_isDigit h (d := '\n') (by decide),
    ne_of_isDigit h (d := '\t') (by decide), ne_of_isDigit h (d := '\r') (by decide)]

/-- The text of a tree starts neither with a blank nor with a closing bracket. -/
theorem exists_write_eq_cons (level : Level) (h : json.Legible) :
    ∃ c rest, write level json = c :: rest ∧ isSpace c = false ∧ c ≠ ']' := by
  cases h with
  | null => exact ⟨_, _, rfl, by decide, by decide⟩
  | bool b => cases b <;> exact ⟨_, _, rfl, by decide, by decide⟩
  | number hnumeral =>
    obtain ⟨c, rest, rfl, rfl | hdigit⟩ := hnumeral.head
    · exact ⟨_, _, rfl, by decide, by decide⟩
    · exact ⟨_, _, rfl, isSpace_of_isDigit hdigit, ne_of_isDigit hdigit (by decide)⟩
  | string text => exact ⟨_, _, rfl, by decide, by decide⟩
  | @array items _ => cases items <;> exact ⟨_, _, rfl, by decide, by decide⟩
  | @object fields _ => cases fields <;> exact ⟨_, _, rfl, by decide, by decide⟩

/-- A numeral ends before what may stand between tokens. -/
theorem endsNumeral_append (h : IsBlank blank) (hrest : EndsNumeral rest) :
    EndsNumeral (blank ++ rest) := by
  cases blank with
  | nil => exact hrest
  | cons c blank =>
    have hc : isSpace c = true := h c List.mem_cons_self
    have hcases : ((c = ' ' ∨ c = '\n') ∨ c = '\t') ∨ c = '\r' := by simpa [isSpace] using hc
    rcases hcases with ((rfl | rfl) | rfl) | rfl <;>
      exact endsNumeral_cons (by decide) (by decide) (by decide) (by decide)

/-- A numeral ends before further items. -/
theorem endsNumeral_writeItems (level : Level) (items : List Json) (h : EndsNumeral rest) :
    EndsNumeral (writeItems level items ++ rest) := by
  cases items with
  | nil => exact h
  | cons item items => exact endsNumeral_cons (by decide) (by decide) (by decide) (by decide)

/-- A numeral ends before further fields. -/
theorem endsNumeral_writeFields (level : Level) (fields : List (String × Json))
    (h : EndsNumeral rest) : EndsNumeral (writeFields level fields ++ rest) := by
  cases fields with
  | nil => exact h
  | cons field fields => exact endsNumeral_cons (by decide) (by decide) (by decide) (by decide)

/-- What follows the last item or field: blanks and a closing bracket. -/
theorem endsNumeral_close (h : IsBlank blank) {close : Char}
    (hclose : close = ']' ∨ close = '\x7d') : EndsNumeral (blank ++ close :: rest) := by
  refine endsNumeral_append h ?_
  rcases hclose with rfl | rfl <;>
    exact endsNumeral_cons (by decide) (by decide) (by decide) (by decide)

/-- A numeral is no other tree. -/
theorem readTree_numeral {numeral : List Char} (h : IsNumeral numeral) (hrest : EndsNumeral rest)
    (fuel : Nat) : readTree (fuel + 1) (numeral ++ rest) = some (number numeral, rest) := by
  have hread := h.read rest hrest
  obtain ⟨c, ds, rfl, hc⟩ := h.head
  have hne {d : Char} (hminus : d ≠ '-') (hdigit : d.isDigit = false) : c ≠ d := by
    rcases hc with rfl | hc
    · exact hminus.symm
    · exact ne_of_isDigit hc hdigit
  have hspace : isSpace c = false := by
    rcases hc with rfl | hc
    · decide
    · exact isSpace_of_isDigit hc
  rw [List.cons_append] at hread ⊢
  rw [readTree, skipSpace_cons hspace]
  split
  · next hcons => exact absurd (List.head_eq_of_cons_eq hcons) (hne (by decide) (by decide))
  · next hcons => exact absurd (List.head_eq_of_cons_eq hcons) (hne (by decide) (by decide))
  · next hcons => exact absurd (List.head_eq_of_cons_eq hcons) (hne (by decide) (by decide))
  · next hcons => exact absurd (List.head_eq_of_cons_eq hcons) (hne (by decide) (by decide))
  · next hcons => exact absurd (List.head_eq_of_cons_eq hcons) (hne (by decide) (by decide))
  · next hcons => exact absurd (List.head_eq_of_cons_eq hcons) (hne (by decide) (by decide))
  · rw [hread]; rfl

/-- An array that is not closed at once holds items. -/
theorem readTree_bracket {c : Char} (hblank : IsBlank blank) (hspace : isSpace c = false)
    (hc : c ≠ ']') (fuel : Nat) (rest : List Char) :
    readTree (fuel + 1) ('[' :: (blank ++ c :: rest)) =
      (readItems fuel (c :: rest)).map fun found => (array found.1, found.2) := by
  have hbracket : isSpace '[' = false := by decide
  rw [readTree, skipSpace_cons hbracket]
  simp only [skipSpace_append hblank, skipSpace_cons hspace]
  split
  · next hcons => exact absurd (List.head_eq_of_cons_eq hcons) hc
  · rfl

/-- An object that is not closed at once holds fields. -/
theorem readTree_brace (hblank : IsBlank blank) (fuel : Nat) (rest : List Char) :
    readTree (fuel + 1) ('\x7b' :: (blank ++ '"' :: rest)) =
      (readFields fuel ('"' :: rest)).map fun found => (ofFields found.1, found.2) := by
  have hbrace : isSpace '\x7b' = false := by decide
  have hquote : isSpace '"' = false := by decide
  rw [readTree, skipSpace_cons hbrace]
  simp only [skipSpace_append hblank, skipSpace_cons hquote]
  rfl

/-- Names that denote something make an object. -/
theorem ofFields_map_some (fields : List (String × Json)) :
    ofFields (fields.map fun field => (some field.1, field.2)) = object fields := by
  have hall (read : Option String × Json → Option (String × Json))
      (hread : ∀ field : String × Json, read (some field.1, field.2) = some field) :
      (fields.map fun field => (some field.1, field.2)).mapM read = some fields := by
    induction fields with
    | nil => rfl
    | cons field fields ih => simp [hread, ih]
  rw [ofFields, hall _ fun _ => rfl]

/-- A quoted text is its quoted characters between two quotes. -/
theorem quote_append (name : String) (rest : List Char) :
    quote name ++ rest = '"' :: (name.toList.flatMap quotedChar ++ '"' :: rest) := by
  simp [quote]

mutual

/-- A tree is read back from its text. -/
theorem readTree_write (level : Level) : (json : Json) → json.Legible → (fuel : Nat) →
    (write level json).length ≤ fuel → (rest : List Char) → EndsNumeral rest →
    readTree fuel (write level json ++ rest) = some (json, rest)
  | null, _, fuel + 1, _, rest, _ => rfl
  | bool true, _, fuel + 1, _, rest, _ => rfl
  | bool false, _, fuel + 1, _, rest, _ => rfl
  | number numeral, h, fuel, hfuel, rest, hrest => by
    cases h with
    | number hnumeral =>
      cases fuel with
      | zero =>
        obtain ⟨c, ds, rfl, -⟩ := hnumeral.head
        exact absurd hfuel (Nat.not_succ_le_zero _)
      | succ fuel => exact readTree_numeral hnumeral hrest fuel
  | string text, _, fuel + 1, _, rest, _ => by
    have hquote : isSpace '"' = false := by decide
    rw [write, quote_append, readTree, skipSpace_cons hquote]
    simp only [readString_quoted, Option.map_some, ofText, Option.elim_some]
  | array [], _, fuel + 1, _, rest, _ => rfl
  | array (item :: items), h, fuel + 1, hfuel, rest, _ => by
    cases h with
    | array hitems =>
      obtain ⟨c, more, hwrite, hspace, hc⟩ :=
        exists_write_eq_cons level.inner (hitems item List.mem_cons_self)
      have hread := readItems_itemsText level.inner (item :: items) (List.cons_ne_nil _ _) hitems
        fuel (by simp [write, itemsText] at hfuel ⊢; omega) level.lineStart
        (isBlank_lineStart level) rest
      have htext : write level (array (item :: items)) ++ rest = '[' :: (level.inner.lineStart ++
          (itemsText level.inner (item :: items) ++ (level.lineStart ++ ']' :: rest))) := by
        simp [write, itemsText]
      rw [itemsText, hwrite, List.cons_append, List.cons_append] at hread
      rw [htext, itemsText, hwrite, List.cons_append, List.cons_append,
        readTree_bracket (isBlank_lineStart _) hspace hc, hread]
      rfl
  | object [], _, fuel + 1, _, rest, _ => rfl
  | object ((name, value) :: fields), h, fuel + 1, hfuel, rest, _ => by
    cases h with
    | object hfields =>
      have hread := readFields_fieldsText level.inner ((name, value) :: fields)
        (List.cons_ne_nil _ _) hfields fuel (by simp [write, fieldsText] at hfuel ⊢; omega)
        level.lineStart (isBlank_lineStart level) rest
      have htext : write level (object ((name, value) :: fields)) ++ rest =
          '\x7b' :: (level.inner.lineStart ++
            (fieldsText level.inner ((name, value) :: fields) ++
              (level.lineStart ++ '\x7d' :: rest))) := by
        simp [write, fieldsText]
      obtain ⟨more, hmore⟩ : ∃ more, fieldsText level.inner ((name, value) :: fields) =
          '"' :: more := ⟨_, rfl⟩
      rw [hmore, List.cons_append] at hread
      rw [htext, hmore, List.cons_append, readTree_brace (isBlank_lineStart _), hread,
        Option.map_some, ofFields_map_some]

/-- The items of an array are read back up to its bracket. -/
theorem readItems_itemsText (level : Level) : (items : List Json) → items ≠ [] →
    (∀ item ∈ items, item.Legible) → (fuel : Nat) → (itemsText level items).length < fuel →
    (blank : List Char) → IsBlank blank → (rest : List Char) →
    readItems fuel (itemsText level items ++ (blank ++ ']' :: rest)) = some (items, rest)
  | item :: items, _, h, fuel + 1, hfuel, blank, hblank, rest => by
    obtain ⟨hitem, hitems⟩ := List.forall_mem_cons.mp h
    rw [itemsText, List.length_append] at hfuel
    have hread := readTree_write level item hitem fuel (by omega)
      (writeItems level items ++ (blank ++ ']' :: rest))
      (endsNumeral_writeItems level items (endsNumeral_close hblank (Or.inl rfl)))
    rw [itemsText, List.append_assoc, readItems, hread]
    cases items with
    | nil =>
      have hclose : isSpace ']' = false := by decide
      simp [writeItems, skipSpace_append hblank, skipSpace_cons hclose]
    | cons next items =>
      have hnext := readItems_itemsText level (next :: items) (List.cons_ne_nil _ _) hitems fuel
        (by simp [writeItems, itemsText] at hfuel ⊢; omega) blank hblank rest
      have htext : writeItems level (next :: items) ++ (blank ++ ']' :: rest) = ',' ::
          (level.lineStart ++ (itemsText level (next :: items) ++ (blank ++ ']' :: rest))) := by
        simp [writeItems, itemsText]
      have hcomma : isSpace ',' = false := by decide
      rw [htext]
      simp only [skipSpace_cons hcomma, readItems_append (isBlank_lineStart level), hnext,
        Option.bind_eq_bind, Option.bind_some]

/-- The fields of an object are read back up to its brace. -/
theorem readFields_fieldsText (level : Level) : (fields : List (String × Json)) → fields ≠ [] →
    (∀ field ∈ fields, field.2.Legible) → (fuel : Nat) →
    (fieldsText level fields).length < fuel → (blank : List Char) → IsBlank blank →
    (rest : List Char) →
    readFields fuel (fieldsText level fields ++ (blank ++ '\x7d' :: rest)) =
      some (fields.map fun field => (some field.1, field.2), rest)
  | (name, value) :: fields, _, h, fuel + 1, hfuel, blank, hblank, rest => by
    obtain ⟨hvalue, hfields⟩ := List.forall_mem_cons.mp h
    obtain ⟨between, hcolon, hbetween⟩ := exists_colon_eq level
    rw [fieldsText, List.length_append, List.length_append, List.length_append] at hfuel
    have hread := readTree_write level value hvalue fuel (by omega)
      (writeFields level fields ++ (blank ++ '\x7d' :: rest))
      (endsNumeral_writeFields level fields (endsNumeral_close hblank (Or.inr rfl)))
    have htext : fieldsText level ((name, value) :: fields) ++ (blank ++ '\x7d' :: rest) =
        '"' :: (name.toList.flatMap quotedChar ++ '"' :: ':' :: (between ++
          (write level value ++ (writeFields level fields ++ (blank ++ '\x7d' :: rest))))) := by
      simp [fieldsText, quote, hcolon]
    have hquote : isSpace '"' = false := by decide
    have hmark : isSpace ':' = false := by decide
    rw [htext, readFields, skipSpace_cons hquote]
    simp only [readString_quoted, skipSpace_cons hmark, readTree_append hbetween, hread,
      Option.bind_eq_bind, Option.bind_some]
    cases fields with
    | nil =>
      have hclose : isSpace '\x7d' = false := by decide
      simp [writeFields, skipSpace_append hblank, skipSpace_cons hclose]
    | cons next fields =>
      obtain ⟨nextName, nextValue⟩ := next
      have hnext := readFields_fieldsText level ((nextName, nextValue) :: fields)
        (List.cons_ne_nil _ _) hfields fuel
        (by simp [writeFields, fieldsText] at hfuel ⊢; omega) blank hblank rest
      have hrest : writeFields level ((nextName, nextValue) :: fields) ++
          (blank ++ '\x7d' :: rest) = ',' :: (level.lineStart ++
            (fieldsText level ((nextName, nextValue) :: fields) ++
              (blank ++ '\x7d' :: rest))) := by
        simp [writeFields, fieldsText]
      have hcomma : isSpace ',' = false := by decide
      rw [hrest]
      simp only [skipSpace_cons hcomma, readFields_append (isBlank_lineStart level), hnext,
        Option.bind_some, List.map_cons]

end

/-- Every legible tree is what its text is read as, on one line or over several. -/
theorem read_write (level : Level) (h : json.Legible) : read (write level json) = some json := by
  have hread := readTree_write level json h (2 * (write level json).length + 2) (by omega) []
    endsNumeral_nil
  rw [List.append_nil] at hread
  rw [read, hread]
  rfl

end ChartDocs.Json
