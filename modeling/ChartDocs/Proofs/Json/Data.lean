import Mathlib.Data.List.Forall2
import ChartDocs.Proofs.Json.Records

/-!
# Data and its trees

Data is what other formats can hold as well: no tags, no fractions, and keys that are texts. It
always has a tree, and the tree can be read back from its text. Nothing is lost on the way: keys
become names as they are, and integers are told apart by their numerals. So the tree determines the
data.
-/

namespace ChartDocs

open Decimal Json

namespace Value

/-- A value without tags and fractions whose keys are texts. -/
inductive IsData : Value → Prop where
  | null : IsData null
  | bool (b : Bool) : IsData (bool b)
  | int (n : Int) : IsData (number (.int n))
  | string (text : String) : IsData (string text)
  | sequence {items : List Value} (hitems : ∀ item ∈ items, IsData item) : IsData (sequence items)
  | mapping {entries : List (Value × Value)} (hkeys : ∀ entry ∈ entries, entry.1.isString = true)
    (hvalues : ∀ entry ∈ entries, IsData entry.2) : IsData (mapping entries)

variable {v w : Value} {items : List Value} {entries : List (Value × Value)} {json : Json}

/-- An item is written as a tree. -/
def ItemWritten (item : Value) (json : Json) : Prop :=
  item.toJson = .ok json

/-- An entry is written as a field. -/
def EntryWritten (entry : Value × Value) (field : String × Json) : Prop :=
  fieldName entry.1 = .ok field.1 ∧ entry.2.toJson = .ok field.2

/-- Two steps succeed if the first one does and the second one does with its result. -/
theorem bind_eq_ok_iff {ε α β : Type} {x : Except ε α} {f : α → Except ε β} {b : β} :
    x >>= f = .ok b ↔ ∃ a, x = .ok a ∧ f a = .ok b := by
  cases x with
  | error fault => simp [bind, Except.bind]
  | ok a => simp [bind, Except.bind]

/-- Items are written if and only if each of them is. -/
theorem itemsToJson_eq_ok_iff {jsons : List Json} :
    itemsToJson items = .ok jsons ↔ List.Forall₂ ItemWritten items jsons := by
  induction items generalizing jsons with
  | nil => simp [itemsToJson, eq_comm]
  | cons item items ih =>
    simp only [itemsToJson, bind_eq_ok_iff, ih, List.forall₂_cons_left_iff, ItemWritten]
    constructor
    · rintro ⟨json, hjson, rest, hrest, ⟨⟩⟩
      exact ⟨json, rest, hjson, hrest, rfl⟩
    · rintro ⟨json, rest, hjson, hrest, rfl⟩
      exact ⟨json, hjson, rest, hrest, rfl⟩

/-- Entries are written if and only if each of them is. -/
theorem entriesToJson_eq_ok_iff {fields : List (String × Json)} :
    entriesToJson entries = .ok fields ↔ List.Forall₂ EntryWritten entries fields := by
  induction entries generalizing fields with
  | nil => simp [entriesToJson, eq_comm]
  | cons entry entries ih =>
    simp only [entriesToJson, bind_eq_ok_iff, ih, List.forall₂_cons_left_iff, EntryWritten]
    constructor
    · rintro ⟨name, hname, json, hjson, rest, hrest, ⟨⟩⟩
      exact ⟨(name, json), rest, ⟨hname, hjson⟩, hrest, rfl⟩
    · rintro ⟨⟨name, json⟩, rest, ⟨hname, hjson⟩, hrest, rfl⟩
      exact ⟨name, hname, json, hjson, rest, hrest, rfl⟩

/-- A sequence is written as the array of its items. -/
theorem toJson_sequence_eq_ok_iff :
    (sequence items).toJson = .ok json ↔
      ∃ jsons, json = .array jsons ∧ List.Forall₂ ItemWritten items jsons := by
  simp only [toJson, bind_eq_ok_iff, itemsToJson_eq_ok_iff]
  constructor
  · rintro ⟨jsons, hjsons, ⟨⟩⟩
    exact ⟨jsons, rfl, hjsons⟩
  · rintro ⟨jsons, rfl, hjsons⟩
    exact ⟨jsons, hjsons, rfl⟩

/-- A mapping is written as the object of its entries. -/
theorem toJson_mapping_eq_ok_iff :
    (mapping entries).toJson = .ok json ↔
      ∃ fields, json = .object fields ∧ List.Forall₂ EntryWritten entries fields := by
  simp only [toJson, bind_eq_ok_iff, entriesToJson_eq_ok_iff]
  constructor
  · rintro ⟨fields, hfields, ⟨⟩⟩
    exact ⟨fields, rfl, hfields⟩
  · rintro ⟨fields, rfl, hfields⟩
    exact ⟨fields, hfields, rfl⟩

/-- Lists that are related to one list are equal if their members are. -/
theorem eq_of_forall₂ {α β : Type} {r : α → β → Prop} {as bs : List α} {cs : List β}
    (has : List.Forall₂ r as cs) (hbs : List.Forall₂ r bs cs)
    (h : ∀ a ∈ as, ∀ b ∈ bs, ∀ c, r a c → r b c → a = b) : as = bs := by
  induction has generalizing bs with
  | nil => exact (List.forall₂_nil_right_iff.mp hbs).symm
  | cons hac _ ih =>
    cases hbs with
    | cons hbc hbs =>
      have hhead := h _ List.mem_cons_self _ List.mem_cons_self _ hac hbc
      have htail := ih hbs fun a ha b hb =>
        h a (List.mem_cons_of_mem _ ha) b (List.mem_cons_of_mem _ hb)
      rw [hhead, htail]

/-- If each member is related to something with a property, the list is related to such a list. -/
theorem exists_forall₂ {α β : Type} {r : α → β → Prop} {p : β → Prop} {as : List α}
    (h : ∀ a ∈ as, ∃ b, r a b ∧ p b) : ∃ bs, List.Forall₂ r as bs ∧ ∀ b ∈ bs, p b := by
  induction as with
  | nil => exact ⟨[], .nil, fun _ hb => absurd hb List.not_mem_nil⟩
  | cons a as ih =>
    obtain ⟨⟨b, hab, hb⟩, has⟩ := List.forall_mem_cons.mp h
    obtain ⟨bs, hbs, hall⟩ := ih has
    exact ⟨b :: bs, .cons hab hbs, List.forall_mem_cons.mpr ⟨hb, hall⟩⟩

/-- What a value looks like that is written as a tree. -/
def HasForm (v : Value) : Json → Prop
  | .null => v = null
  | .bool b => v = bool b
  | .number numeral => ∃ n, v = number (.int n) ∧ intText n = numeral
  | .string text => v = string text
  | .array jsons => ∃ items, v = sequence items ∧ (∀ item ∈ items, item.IsData) ∧
      List.Forall₂ ItemWritten items jsons
  | .object fields => ∃ entries, v = mapping entries ∧
      (∀ entry ∈ entries, entry.1.isString = true ∧ entry.2.IsData) ∧
      List.Forall₂ EntryWritten entries fields
  | .unpaired => False

/-- Data looks like the tree that is written for it. -/
theorem hasForm_of_toJson (hv : v.IsData) (hjson : v.toJson = .ok json) : v.HasForm json := by
  cases hv with
  | sequence hitems =>
    obtain ⟨jsons, rfl, hwritten⟩ := toJson_sequence_eq_ok_iff.mp hjson
    exact ⟨_, rfl, hitems, hwritten⟩
  | mapping hkeys hvalues =>
    obtain ⟨fields, rfl, hwritten⟩ := toJson_mapping_eq_ok_iff.mp hjson
    exact ⟨_, rfl, fun entry hentry => ⟨hkeys entry hentry, hvalues entry hentry⟩, hwritten⟩
  | int n =>
    cases hjson
    exact ⟨n, rfl, rfl⟩
  | null => cases hjson; rfl
  | bool b => cases hjson; rfl
  | string text => cases hjson; rfl

/-- A key that is a text is the name of its field. -/
theorem fieldName_eq_ok_iff {key : Value} {name : String} (hkey : key.isString = true) :
    fieldName key = .ok name ↔ key = string name := by
  cases key <;> simp_all [isString, fieldName]

/-- A key that is a text is the value of some text. -/
theorem exists_eq_string {key : Value} (hkey : key.isString = true) :
    ∃ name, key = string name := by
  cases key <;> simp_all [isString]

/-- Data that is written as the same tree is equal. -/
theorem eq_of_toJson_eq (hv : v.IsData) (hw : w.IsData) (hvjson : v.toJson = .ok json)
    (hwjson : w.toJson = .ok json) : v = w := by
  induction hv generalizing w json with
  | null =>
    cases hvjson
    exact (hasForm_of_toJson hw hwjson).symm
  | bool b =>
    cases hvjson
    exact (hasForm_of_toJson hw hwjson).symm
  | string text =>
    cases hvjson
    exact (hasForm_of_toJson hw hwjson).symm
  | int n =>
    cases hvjson
    obtain ⟨m, rfl, htext⟩ := hasForm_of_toJson hw hwjson
    rw [intText_injective htext]
  | sequence hitems ih =>
    obtain ⟨jsons, rfl, hvwritten⟩ := toJson_sequence_eq_ok_iff.mp hvjson
    obtain ⟨items, rfl, hdata, hwwritten⟩ := hasForm_of_toJson hw hwjson
    refine congrArg sequence (eq_of_forall₂ hvwritten hwwritten ?_)
    intro a ha b hb json hajson hbjson
    exact ih a ha (hdata b hb) hajson hbjson
  | mapping hkeys hvalues ih =>
    obtain ⟨fields, rfl, hvwritten⟩ := toJson_mapping_eq_ok_iff.mp hvjson
    obtain ⟨entries, rfl, hdata, hwwritten⟩ := hasForm_of_toJson hw hwjson
    refine congrArg mapping (eq_of_forall₂ hvwritten hwwritten ?_)
    intro a ha b hb field ⟨haname, hajson⟩ ⟨hbname, hbjson⟩
    obtain ⟨hbkey, hbvalue⟩ := hdata b hb
    have hkey : a.1 = b.1 := by
      rw [(fieldName_eq_ok_iff (hkeys a ha)).mp haname, (fieldName_eq_ok_iff hbkey).mp hbname]
    exact Prod.ext hkey (ih a ha hbvalue hajson hbjson)

/-- Data has a tree, and it can be read back. -/
theorem isLegible_of_isData (hv : v.IsData) : v.IsLegible := by
  induction hv with
  | null => exact ⟨_, rfl, .null⟩
  | bool b => exact (restores_bool b).isLegible
  | int n => exact ⟨_, rfl, .number (isNumeral_intText n)⟩
  | string text => exact (restores_text text).isLegible
  | sequence hitems ih =>
    obtain ⟨jsons, hwritten, hlegible⟩ := exists_forall₂ ih
    exact ⟨_, toJson_sequence_eq_ok_iff.mpr ⟨jsons, rfl, hwritten⟩, .array hlegible⟩
  | @mapping entries hkeys _ ih =>
    have hfields : ∀ entry ∈ entries, ∃ field, EntryWritten entry field ∧ field.2.Legible := by
      intro entry hentry
      obtain ⟨json, hjson, hlegible⟩ := ih entry hentry
      obtain ⟨name, hname⟩ := exists_eq_string (hkeys entry hentry)
      have hfield := (fieldName_eq_ok_iff (hkeys entry hentry)).mpr hname
      exact ⟨(name, json), ⟨hfield, hjson⟩, hlegible⟩
    obtain ⟨fields, hwritten, hlegible⟩ := exists_forall₂ hfields
    exact ⟨_, toJson_mapping_eq_ok_iff.mpr ⟨fields, rfl, hwritten⟩, .object hlegible⟩

end Value

end ChartDocs
