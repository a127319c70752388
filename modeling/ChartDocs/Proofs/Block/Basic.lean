import ChartDocs.Path
import ChartDocs.Proofs.Text.Pieces
import ChartDocs.Text.Blank
import Mathlib.Data.List.TakeWhile
import ChartDocs.Value.Basic

/-!
# Documented values in block style

A block is the entries of a mapping as they are written in block style. An entry is a scalar on the
line of its key, a list of strings on the lines below its key, or a mapping whose entries are
indented below its key. Directly above the key of a scalar or a list stands a tag without a path.

An entry comes with the entries after it, so a block is read from the front. The units of a block
are its scalars and its lists, in the order of the lines, with the keys that lead to them.
-/

namespace ChartDocs

open Text ChartDocs.Path

/-- Whether a value is a scalar without a tag. -/
def Value.isScalar : Value → Bool
  | null => true
  | bool _ => true
  | number _ => true
  | string _ => true
  | _ => false

/-- The entries of a mapping. -/
inductive Block where
  /-- No more entries. -/
  | done
  /-- A scalar, with the label of its tag and its text on the line of the key. -/
  | scalar (key label text : List Char) (value : Value) (rest : Block)
  /-- A list of strings, with the label of its tag; every item has its text on a line. -/
  | list (key label : List Char) (items : List (List Char × String)) (rest : Block)
  /-- A mapping. -/
  | mapping (key : List Char) (inner rest : Block)

namespace Block

/-- The key as a step of a path. -/
def step (key : List Char) : Segment :=
  .key (String.ofList key)

/-- The sequence of the strings of a list. -/
def sequenceOf (items : List (List Char × String)) : Value :=
  .sequence (items.map fun item => .string item.2)

/-- The entries as values. -/
def entries : Block → List (Value × Value)
  | done => []
  | scalar key _ _ value rest => (.string (String.ofList key), value) :: rest.entries
  | list key _ items rest => (.string (String.ofList key), sequenceOf items) :: rest.entries
  | mapping key inner rest =>
    (.string (String.ofList key), .mapping inner.entries) :: rest.entries

/-- The mapping that the block writes. -/
def toValue (b : Block) : Value :=
  .mapping b.entries

/-- The keys of the entries. -/
def keys : Block → List (List Char)
  | done => []
  | scalar key _ _ _ rest => key :: rest.keys
  | list key _ _ rest => key :: rest.keys
  | mapping key _ rest => key :: rest.keys

/-- The scalars and the lists below some steps, with the steps to them. -/
def units : Block → List Segment → List (List Segment × Value)
  | done, _ => []
  | scalar key _ _ value rest, above => (above ++ [step key], value) :: rest.units above
  | list key _ items rest, above => (above ++ [step key], sequenceOf items) :: rest.units above
  | mapping key inner rest, above => inner.units (above ++ [step key]) ++ rest.units above

/-- The name of a unit. -/
def unitName (u : List Segment × Value) : String :=
  String.ofList (render u.1)

/-- Two blanks for every level. -/
def indent (depth : Nat) : List Char :=
  List.replicate (2 * depth) ' '

/-- A tag with a label. -/
def tagText (depth : Nat) (label : List Char) : List Char :=
  indent depth ++ ("## ".toList ++ ("@param".toList ++ ' ' :: label))

/-- A key with what follows its colon. -/
def keyText (depth : Nat) (key after : List Char) : List Char :=
  indent depth ++ (key ++ ':' :: after)

/-- An item of a list. -/
def itemText (depth : Nat) (text : List Char) : List Char :=
  indent depth ++ '-' :: ' ' :: text

/-- The lines of a block at a level. -/
def lines : Block → Nat → List (List Char)
  | done, _ => []
  | scalar key label text _ rest, depth =>
    tagText depth label :: keyText depth key (' ' :: text) :: rest.lines depth
  | list key label items rest, depth =>
    tagText depth label :: keyText depth key [] ::
      (items.map (fun item => itemText (depth + 1) item.1) ++ rest.lines depth)
  | mapping key inner rest, depth =>
    keyText depth key [] :: (inner.lines (depth + 1) ++ rest.lines depth)

/-- The text of a block. -/
def text (b : Block) : String :=
  String.ofList (unlines (b.lines 0))

example :
    (mapping "web".toList
      (list "hosts".toList "x".toList [("a.b".toList, "a.b")] done) done).text =
      "web:\n  ## @param x\n  hosts:\n    - a.b\n" := by
  decide +kernel

/-- Whether a character can stand in a key. -/
def isKeyChar (c : Char) : Bool :=
  c.isAlphanum || c = '_' || c = '-'

/-- A key without quotes: letters, digits, underscores and hyphens, and no hyphen in front. -/
structure IsKey (key : List Char) : Prop where
  ne_nil : key ≠ []
  head : key.head? ≠ some '-'
  chars : ∀ c ∈ key, isKeyChar c = true

/-- A label that opens no parenthesis in front. -/
structure IsLabel (label : List Char) : Prop where
  onLine : OnLine label
  head : (trimStart label).head? ≠ some '('

instance (key : List Char) : Decidable (IsKey key) :=
  decidable_of_iff (key ≠ [] ∧ key.head? ≠ some '-' ∧ key.all isKeyChar = true)
    ⟨fun ⟨h₁, h₂, h₃⟩ => ⟨h₁, h₂, List.all_eq_true.mp h₃⟩,
      fun ⟨h₁, h₂, h₃⟩ => ⟨h₁, h₂, List.all_eq_true.mpr h₃⟩⟩

instance (label : List Char) : Decidable (IsLabel label) :=
  decidable_of_iff (OnLine label ∧ (trimStart label).head? ≠ some '(')
    ⟨fun ⟨h₁, h₂⟩ => ⟨h₁, h₂⟩, fun ⟨h₁, h₂⟩ => ⟨h₁, h₂⟩⟩

/-- Whether keys are plain and differ from those after them, texts stay on their lines, and no list
and no inner mapping is empty. -/
def Printable : Block → Prop
  | done => True
  | scalar key label text value rest =>
    (IsKey key ∧ key ∉ rest.keys) ∧ IsLabel label ∧ OnLine text ∧ value.isScalar = true ∧
      rest.Printable
  | list key label items rest =>
    (IsKey key ∧ key ∉ rest.keys) ∧ IsLabel label ∧ items ≠ [] ∧
      (∀ item ∈ items, OnLine item.1) ∧ rest.Printable
  | mapping key inner rest =>
    (IsKey key ∧ key ∉ rest.keys) ∧ inner.keys ≠ [] ∧ inner.Printable ∧ rest.Printable

instance decidablePrintable : (b : Block) → Decidable b.Printable
  | done => inferInstanceAs (Decidable True)
  | scalar key label text value rest =>
    have := decidablePrintable rest
    inferInstanceAs (Decidable ((IsKey key ∧ key ∉ rest.keys) ∧ IsLabel label ∧ OnLine text ∧
      value.isScalar = true ∧ rest.Printable))
  | list key label items rest =>
    have := decidablePrintable rest
    inferInstanceAs (Decidable ((IsKey key ∧ key ∉ rest.keys) ∧ IsLabel label ∧ items ≠ [] ∧
      (∀ item ∈ items, OnLine item.1) ∧ rest.Printable))
  | mapping key inner rest =>
    have := decidablePrintable inner
    have := decidablePrintable rest
    inferInstanceAs (Decidable ((IsKey key ∧ key ∉ rest.keys) ∧ inner.keys ≠ [] ∧
      inner.Printable ∧ rest.Printable))

/-- The characters of a key are none of the marks of a values file. -/
theorem isKeyChar_eq_false_of_mem {c : Char} (h : c ∈ ":#\"'[. \n\r".toList) :
    isKeyChar c = false := by
  have hall : (":#\"'[. \n\r".toList.all fun c => !isKeyChar c) = true := by decide
  simpa using List.all_eq_true.mp hall c h

/-- The code points of the characters of keys. -/
theorem toNat_of_isKeyChar {c : Char} (h : isKeyChar c = true) :
    c.toNat = 45 ∨ 48 ≤ c.toNat ∧ c.toNat ≤ 57 ∨ 65 ≤ c.toNat ∧ c.toNat ≤ 90 ∨ c.toNat = 95 ∨
      97 ≤ c.toNat ∧ c.toNat ≤ 122 := by
  have halpha : c.isAlpha = (c.isUpper || c.isLower) := rfl
  have hupper : c.isUpper = decide (c.val ≥ 'A'.val ∧ c.val ≤ 'Z'.val) := rfl
  have hlower : c.isLower = (decide (c.val ≥ 'a'.val) && decide (c.val ≤ 'z'.val)) := rfl
  simp only [isKeyChar, Char.isAlphanum, halpha, hupper, hlower, Char.isDigit,
    Bool.or_eq_true, Bool.and_eq_true, decide_eq_true_eq, UInt32.le_iff_toNat_le] at h
  rcases h with (((h | h) | h) | rfl) | rfl
  · exact Or.inr (Or.inr (Or.inl h))
  · exact Or.inr (Or.inr (Or.inr (Or.inr h)))
  · exact Or.inr (Or.inl h)
  · decide
  · decide

/-- The characters of a key are no blanks. -/
theorem isBlank_of_isKeyChar {c : Char} (h : isKeyChar c = true) : isBlank c = false := by
  have hrange := toNat_of_isKeyChar h
  simp only [isBlank, Ranges.contains, blankRanges, Ranges.has]
  simp
  omega

namespace IsKey

variable {key : List Char}

/-- Marks, dots and blanks that would end a key do not occur in one. -/
theorem not_mem (h : IsKey key) {c : Char} (hc : c ∈ ":#\"'[. \n\r".toList) : c ∉ key := by
  intro hmem
  have hchar := h.chars c hmem
  rw [isKeyChar_eq_false_of_mem hc] at hchar
  exact Bool.noConfusion hchar

/-- A key is on one line. -/
theorem onLine (h : IsKey key) : OnLine key :=
  ⟨h.not_mem (by decide), h.not_mem (by decide)⟩

/-- A key starts with a character that is neither a blank nor a mark. -/
theorem exists_eq_cons (h : IsKey key) :
    ∃ c rest, key = c :: rest ∧ isKeyChar c = true ∧ c ≠ '-' := by
  cases key with
  | nil => exact absurd rfl h.ne_nil
  | cons c rest =>
    refine ⟨c, rest, rfl, h.chars c (by simp), ?_⟩
    rintro rfl
    exact h.head rfl

/-- A key ends with no blank. -/
theorem trimEnd_eq_self (h : IsKey key) : trimEnd key = key := by
  have hsame : key.reverse.dropWhile isBlank = key.reverse := by
    refine List.dropWhile_eq_self_iff.mpr fun hlength hblank => ?_
    have hmem : key.reverse[0] ∈ key := List.mem_reverse.mp (List.getElem_mem hlength)
    rw [isBlank_of_isKeyChar (h.chars _ hmem)] at hblank
    exact Bool.noConfusion hblank
  rw [trimEnd, dropEndWhile, hsame, List.reverse_reverse]

end IsKey

/-- An indentation is on one line. -/
theorem onLine_indent (depth : Nat) : OnLine (indent depth) := by
  constructor
  · intro hmem
    exact absurd (List.eq_of_mem_replicate hmem) (by decide)
  · intro hmem
    exact absurd (List.eq_of_mem_replicate hmem) (by decide)

/-- The tag of a unit is on one line. -/
theorem onLine_tagText {label : List Char} (h : IsLabel label) (depth : Nat) :
    OnLine (tagText depth label) := by
  have hword : OnLine "## @param ".toList := by decide
  have htext : tagText depth label = indent depth ++ ("## @param ".toList ++ label) := rfl
  rw [htext]
  exact onLine_append.mpr ⟨onLine_indent depth, onLine_append.mpr ⟨hword, h.onLine⟩⟩

/-- A key with what follows it is on one line if what follows is. -/
theorem onLine_keyText {key after : List Char} (hkey : IsKey key) (hafter : OnLine after)
    (depth : Nat) : OnLine (keyText depth key after) := by
  have hcolon : OnLine [':'] := by decide
  have hrest : OnLine ([':'] ++ after) := onLine_append.mpr ⟨hcolon, hafter⟩
  exact onLine_append.mpr ⟨onLine_indent depth, onLine_append.mpr ⟨hkey.onLine, hrest⟩⟩

/-- An item is on one line if its text is. -/
theorem onLine_itemText {text : List Char} (h : OnLine text) (depth : Nat) :
    OnLine (itemText depth text) := by
  have hmark : OnLine "- ".toList := by decide
  exact onLine_append.mpr ⟨onLine_indent depth, onLine_append.mpr ⟨hmark, h⟩⟩

/-- The lines of a block hold no line ends. -/
theorem onLine_of_mem_lines {b : Block} (h : b.Printable) (depth : Nat) :
    ∀ line ∈ b.lines depth, OnLine line := by
  induction b generalizing depth with
  | done => exact fun line hline => absurd hline List.not_mem_nil
  | scalar key label text value rest ih =>
    obtain ⟨⟨hkey, -⟩, hlabel, htext, -, hrest⟩ := h
    have hblank : OnLine ([' '] ++ text) := onLine_append.mpr ⟨by decide, htext⟩
    intro line hline
    rcases List.mem_cons.mp hline with rfl | hline
    · exact onLine_tagText hlabel depth
    · rcases List.mem_cons.mp hline with rfl | hline
      · exact onLine_keyText hkey hblank depth
      · exact ih hrest depth line hline
  | list key label items rest ih =>
    obtain ⟨⟨hkey, -⟩, hlabel, -, hitems, hrest⟩ := h
    intro line hline
    rcases List.mem_cons.mp hline with rfl | hline
    · exact onLine_tagText hlabel depth
    · rcases List.mem_cons.mp hline with rfl | hline
      · exact onLine_keyText hkey onLine_nil depth
      · rcases List.mem_append.mp hline with hline | hline
        · obtain ⟨item, hitem, rfl⟩ := List.mem_map.mp hline
          exact onLine_itemText (hitems item hitem) (depth + 1)
        · exact ih hrest depth line hline
  | mapping key inner rest ihinner ihrest =>
    obtain ⟨⟨hkey, -⟩, -, hinner, hrest⟩ := h
    intro line hline
    rcases List.mem_cons.mp hline with rfl | hline
    · exact onLine_keyText hkey onLine_nil depth
    · rcases List.mem_append.mp hline with hline | hline
      · exact ihinner hinner (depth + 1) line hline
      · exact ihrest hrest depth line hline

/-- The lines of the text of a block are its lines. -/
theorem lines_text {b : Block} (h : b.Printable) : Text.lines b.text.toList = b.lines 0 := by
  rw [text, String.toList_ofList, lines_unlines_of_onLine (onLine_of_mem_lines h 0)]

end Block

end ChartDocs
