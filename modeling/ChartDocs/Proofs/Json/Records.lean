import ChartDocs.Dump.Record
import ChartDocs.Proofs.Json.Trees

/-!
# Records that are read back

A value restores something if its JSON tree is legible and the thing can be read from the tree.
Texts, truth values, numbers, lists and choices restore what they were made of, and a record
restores its fields one by one. A field that is left out restores the default of its reader.
-/

namespace ChartDocs

open Json

namespace Value

variable {α : Type} {ofJson : Json → Option α} {a : α} {v : Value}

/-- A value is written as a legible tree. -/
def IsLegible (v : Value) : Prop :=
  ∃ json, v.toJson = .ok json ∧ json.Legible

/-- A value is written as a legible tree other than null, from which a thing is read. -/
def Restores (v : Value) (ofJson : Json → Option α) (a : α) : Prop :=
  ∃ json, v.toJson = .ok json ∧ json.Legible ∧ json ≠ .null ∧ ofJson json = some a

/-- What is restored is legible. -/
theorem Restores.isLegible (h : v.Restores ofJson a) : v.IsLegible := by
  obtain ⟨json, hjson, hlegible, -⟩ := h
  exact ⟨json, hjson, hlegible⟩

/-- A text is read back. -/
theorem restores_text (text : String) : (string text).Restores toText? text :=
  ⟨_, rfl, .string text, by simp, rfl⟩

/-- A truth value is read back. -/
theorem restores_bool (b : Bool) : (bool b).Restores toBool? b :=
  ⟨_, rfl, .bool b, by simp, rfl⟩

/-- Natural numbers of 64 bits are read back. -/
theorem restores_ofNat {n : Nat} (h : n < Path.indexBound) : (ofNat n).Restores toNat? n := by
  have hbound : Path.indexBound = 18446744073709551616 := by decide
  have hleast : Number.leastInt ≤ n := by
    simp only [Number.leastInt]
    omega
  have hlargest : (n : Int) ≤ Number.largestInt := by
    simp only [Number.largestInt]
    omega
  have hnumber := number?_intText hleast hlargest
  refine ⟨_, rfl, .number (isNumeral_intText n), by simp [numberToJson], ?_⟩
  rw [numberToJson, toNat?, hnumber]

/-- A name restores the choice that it names. -/
theorem restores_choice {name : String} {ofName? : String → Option α} (h : ofName? name = some a) :
    (string name).Restores (toChoice? ofName?) a :=
  ⟨_, rfl, .string name, by simp, h⟩

/-- Where null stands for nothing, a thing is read back as something. -/
theorem Restores.toOption (h : v.Restores ofJson a) : v.Restores (toOption? ofJson) (some a) := by
  obtain ⟨json, hjson, hlegible, hnull, hread⟩ := h
  refine ⟨json, hjson, hlegible, hnull, ?_⟩
  rw [toOption?, hread]
  · rfl
  · exact hnull

/-- A sequence of values that each restore something restores the list of these things. -/
theorem restores_list {write : α → Value} {as : List α}
    (h : ∀ a ∈ as, (write a).Restores ofJson a) :
    (sequence (as.map write)).Restores (toList? ofJson) as := by
  have hitems : ∃ items, itemsToJson (as.map write) = .ok items ∧
      (∀ item ∈ items, item.Legible) ∧ items.mapM ofJson = some as := by
    induction as with
    | nil => exact ⟨[], rfl, fun _ hitem => absurd hitem List.not_mem_nil, rfl⟩
    | cons a as ih =>
      obtain ⟨ha, has⟩ := List.forall_mem_cons.mp h
      obtain ⟨json, hjson, hlegible, -, hread⟩ := ha
      obtain ⟨items, hitems, hall, hmap⟩ := ih has
      refine ⟨json :: items, ?_, List.forall_mem_cons.mpr ⟨hlegible, hall⟩, ?_⟩
      · rw [List.map_cons, itemsToJson, hjson, hitems]
        rfl
      · rw [List.mapM_cons, hread, hmap]
        rfl
  obtain ⟨items, hitems, hall, hmap⟩ := hitems
  refine ⟨.array items, ?_, .array hall, by simp, hmap⟩
  rw [toJson, hitems]
  rfl

/-- The fields of a record that are present, out of all that it could have. -/
def present (slots : List (String × Option Value)) : List (String × Value) :=
  slots.flatMap fun slot => field? slot.1 slot.2

end Value

namespace Json

open Value

variable {α : Type} {slots : List (String × Option Value)} {fields : List (String × Json)}
  {name : String} {ofJson : Json → Option α} {a : α}

/-- The fields of an object that was written for a record, one for each field that is present. -/
structure Written (fields : List (String × Json)) (slots : List (String × Option Value)) :
    Prop where
  names : (fields.map (·.1)).Sublist (slots.map (·.1))
  lookup : ∀ name, fields.lookup name =
    (slots.lookup name).join.bind fun value => value.toJson.toOption

/-- A field that is always there is read back. -/
theorem Written.field? (h : Written fields slots) (name : String) {value : Value}
    (hslot : slots.lookup name = some (some value)) (hvalue : value.Restores ofJson a) :
    field? fields name ofJson = some a := by
  obtain ⟨json, hjson, -, -, hread⟩ := hvalue
  rw [Json.field?, h.lookup, hslot, Option.join_some, Option.bind_some, hjson]
  exact hread

/-- A field that may be left out is read back if what it leaves out is the default. -/
theorem Written.fieldOr? (h : Written fields slots) (name : String) {slot : Option Value}
    {default : α} (hslot : slots.lookup name = some slot) (hnone : slot = none → a = default)
    (hsome : ∀ value, slot = some value → value.Restores ofJson a) :
    fieldOr? fields name default ofJson = some a := by
  rw [Json.fieldOr?, h.lookup, hslot, Option.join_some]
  cases slot with
  | none => rw [hnone rfl]; rfl
  | some value =>
    obtain ⟨json, hjson, -, -, hread⟩ := hsome value rfl
    rw [Option.bind_some, hjson]
    exact hread

/-- A field that is always there is read back, whatever the default. -/
theorem Written.present? (h : Written fields slots) (name : String) {value : Value} (default : α)
    (hslot : slots.lookup name = some (some value)) (hvalue : value.Restores ofJson a) :
    Json.fieldOr? fields name default ofJson = some a :=
  h.fieldOr? name hslot (fun hnone => absurd hnone (by simp)) fun _ hsome =>
    Option.some.inj hsome ▸ hvalue

/-- An optional thing is read back from a field that is left out without it. -/
theorem Written.option? (h : Written fields slots) (name : String) {write : α → Value}
    {thing : Option α} (hslot : slots.lookup name = some (thing.map write))
    (hthing : ∀ a, thing = some a → (write a).Restores ofJson a) :
    Json.fieldOr? fields name none (toOption? ofJson) = some thing := by
  refine h.fieldOr? name hslot (fun hnone => Option.map_eq_none_iff.mp hnone) fun value hsome => ?_
  obtain ⟨a, rfl, rfl⟩ := Option.map_eq_some_iff.mp hsome
  exact (hthing a rfl).toOption

/-- The fields are a record with the names that it could have. -/
theorem Written.record? (h : Written fields slots) (hnames : (slots.map (·.1)).Nodup) :
    Json.record? (slots.map (·.1)) (object fields) = some fields := by
  have hknown : fields.filter (fun field => (slots.map (·.1)).contains field.1) = fields := by
    refine List.filter_eq_self.mpr fun field hfield => ?_
    exact List.contains_iff_mem.mpr (h.names.subset (List.mem_map_of_mem hfield))
  simp only [Json.record?, hknown, if_pos (hnames.sublist h.names)]

/-- An object without fields is written for a record without fields. -/
theorem Written.nil : Written [] [] :=
  ⟨List.Sublist.slnil, fun _ => rfl⟩

/-- A field that is absent adds nothing to the object. -/
theorem Written.cons_none (h : Written fields slots) (hname : name ∉ slots.map (·.1)) :
    Written fields ((name, none) :: slots) where
  names := h.names.cons name
  lookup other := by
    rw [h.lookup, List.lookup_cons]
    split
    · next heq =>
      -- The name does not occur again, so the field is missing.
      obtain rfl : other = name := by simpa using heq
      have hmissing : slots.lookup other = none := by
        refine List.lookup_eq_none_iff.mpr fun slot hslot => ?_
        have hne : other ≠ slot.1 := fun heq => hname (heq ▸ List.mem_map_of_mem hslot)
        simpa using hne
      rw [hmissing]
      rfl
    · rfl

/-- A field that is present adds its tree to the object. -/
theorem Written.cons_some (h : Written fields slots) {value : Value} {json : Json}
    (hjson : value.toJson = .ok json) :
    Written ((name, json) :: fields) ((name, some value) :: slots) where
  names := h.names.cons_cons name
  lookup other := by
    rw [List.lookup_cons, List.lookup_cons]
    split
    · rw [Option.join_some, Option.bind_some, hjson]
      rfl
    · exact h.lookup other

/-- A record is written as an object with the fields that are present. -/
theorem exists_written (hnames : (slots.map (·.1)).Nodup)
    (h : ∀ slot ∈ slots, ∀ value, slot.2 = some value → value.IsLegible) :
    ∃ fields, (record (present slots)).toJson = .ok (.object fields) ∧
      (object fields).Legible ∧ Written fields slots := by
  have hfields : ∃ fields,
      entriesToJson ((present slots).map fun field => (Value.string field.1, field.2)) =
        .ok fields ∧ (∀ field ∈ fields, field.2.Legible) ∧ Written fields slots := by
    induction slots with
    | nil => exact ⟨[], rfl, fun _ hfield => absurd hfield List.not_mem_nil, .nil⟩
    | cons slot slots ih =>
      obtain ⟨name, slot⟩ := slot
      obtain ⟨hname, hnames⟩ := List.nodup_cons.mp hnames
      obtain ⟨hslot, hslots⟩ := List.forall_mem_cons.mp h
      obtain ⟨fields, hjson, hall, hwritten⟩ := ih hnames hslots
      rw [present] at hjson ⊢
      cases slot with
      | none => exact ⟨fields, hjson, hall, hwritten.cons_none hname⟩
      | some value =>
        obtain ⟨json, hvalue, hlegible⟩ := hslot value rfl
        refine ⟨(name, json) :: fields, ?_, List.forall_mem_cons.mpr ⟨hlegible, hall⟩,
          hwritten.cons_some hvalue⟩
        rw [List.flatMap_cons, Value.field?, List.singleton_append, List.map_cons, entriesToJson,
          hvalue, hjson]
        rfl
  obtain ⟨fields, hjson, hall, hwritten⟩ := hfields
  refine ⟨fields, ?_, .object hall, hwritten⟩
  rw [record, toJson, hjson]
  rfl

end Json

/-- A record restores a thing if the thing can be read from its fields. -/
theorem Value.restores_record {α : Type} {slots : List (String × Option Value)}
    {ofJson : Json → Option α} {a : α} (hnames : (slots.map (·.1)).Nodup)
    (hlegible : ∀ slot ∈ slots, ∀ value, slot.2 = some value → value.IsLegible)
    (hread : ∀ fields, record? (slots.map (·.1)) (.object fields) = some fields →
      Written fields slots → ofJson (.object fields) = some a) :
    (record (present slots)).Restores ofJson a := by
  obtain ⟨fields, hjson, hobject, hwritten⟩ := exists_written hnames hlegible
  exact ⟨.object fields, hjson, hobject, by simp, hread fields (hwritten.record? hnames) hwritten⟩

end ChartDocs
