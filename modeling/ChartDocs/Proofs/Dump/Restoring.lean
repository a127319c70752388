import ChartDocs.Dump.Format
import ChartDocs.Proofs.Json.Records

/-!
# Dumps in JSON are read back

A dump leaves out what a parameter does not have, and a reader fills in the default of every field
that is missing. Both agree: the catalog, the observed parameters and the report that were dumped
are read back, if numbers fit into 64 bits and values are of those kinds that JSON keeps.
-/

namespace ChartDocs

open Json Value

namespace Value

/-- A value that is the same in JSON: a text, a truth value, an integer that a values file can hold,
an empty mapping, or a sequence of texts, which may be empty. -/
inductive IsPortable : Value → Prop where
  | string (text : String) : IsPortable (string text)
  | bool (b : Bool) : IsPortable (bool b)
  | int {n : Int} (hleast : Number.leastInt ≤ n) (hlargest : n ≤ Number.largestInt) :
    IsPortable (number (.int n))
  | empty : IsPortable (mapping [])
  | texts (texts : List String) : IsPortable (ofTexts texts)

/-- A list of texts is read back text by text. -/
theorem restores_texts (texts : List String) :
    (ofTexts texts).Restores (toList? toText?) texts :=
  restores_list fun text _ => restores_text text

/-- The items of a sequence of texts need no room of their own. -/
theorem itemsOfJson?_map_string (room : Nat) (texts : List String) :
    itemsOfJson? room (texts.map .string) = some (texts.map string) := by
  induction texts with
  | nil => rfl
  | cons text texts ih =>
    rw [List.map_cons, itemsOfJson?, ih]
    rfl

/-- Texts are written as texts. -/
theorem itemsToJson_map_string (texts : List String) :
    itemsToJson (texts.map string) = .ok (texts.map .string) := by
  induction texts with
  | nil => rfl
  | cons text texts ih =>
    rw [List.map_cons, itemsToJson, ih]
    rfl

/-- A portable value is read back wherever there is any room. -/
theorem IsPortable.restores {v : Value} (h : v.IsPortable) {room : Nat} (hroom : room ≠ 0) :
    v.Restores (ofJson? room) v := by
  obtain ⟨room, rfl⟩ := Nat.exists_eq_succ_of_ne_zero hroom
  cases h with
  | string text => exact ⟨_, rfl, .string text, by simp, rfl⟩
  | bool b => exact ⟨_, rfl, .bool b, by simp, rfl⟩
  | @int n hleast hlargest =>
    refine ⟨_, rfl, .number (isNumeral_intText n), by simp [numberToJson], ?_⟩
    rw [numberToJson, ofJson?, number?_intText hleast hlargest]
    rfl
  | empty => exact ⟨_, rfl, .object fun _ hfield => absurd hfield List.not_mem_nil, by simp, rfl⟩
  | texts texts =>
    have hall : ∀ item ∈ texts.map Json.string, item.Legible := by
      intro item hitem
      obtain ⟨text, -, rfl⟩ := List.mem_map.mp hitem
      exact .string text
    refine ⟨.array (texts.map .string), ?_, .array hall, by simp, ?_⟩
    · rw [ofTexts, toJson, itemsToJson_map_string]
      rfl
    · rw [ofJson?, itemsOfJson?_map_string]
      rfl

/-- A text is legible. -/
@[simp] theorem isLegible_string (text : String) : (string text).IsLegible :=
  (restores_text text).isLegible

/-- A truth value is legible. -/
@[simp] theorem isLegible_bool (b : Bool) : (bool b).IsLegible :=
  (restores_bool b).isLegible

/-- A natural number is legible. -/
@[simp] theorem isLegible_ofNat (n : Nat) : (ofNat n).IsLegible :=
  ⟨_, rfl, .number (isNumeral_intText n)⟩

/-- A list of texts is legible. -/
@[simp] theorem isLegible_ofTexts (texts : List String) : (ofTexts texts).IsLegible :=
  (restores_texts texts).isLegible

end Value

namespace Parameter

/-- The fields that the record of a parameter could have. -/
def slots (p : Parameter) : List (String × Option Value) := [
  ("name", some (.string p.name)),
  ("description", some (.string p.description)),
  ("modifiers", if p.modifiers = [] then none else some (.ofTexts p.modifiers)),
  ("section", p.sectionName.map .string),
  ("skip", some (.bool p.skip)),
  ("extra", some (.bool p.extra)),
  ("type", p.kind.map fun kind => .string kind.name),
  ("value", p.value.map id),
  ("schema", some (.bool p.inSchema)),
  ("nullable", some (.bool p.nullable))]

/-- The record of a parameter has the fields that are present. -/
theorem fields_eq_present (p : Parameter) : p.fields = present p.slots := by
  simp [fields, slots, present, Value.field?]

/-- A parameter whose value is portable is read back where there is room for its value. -/
theorem restores_toValue {p : Parameter} (h : ∀ value, p.value = some value → value.IsPortable)
    {room : Nat} (hroom : 2 ≤ room) : p.toValue.Restores (Parameter.ofJson? room) p := by
  have hvalue : ∀ value, p.value = some value →
      (id value).Restores (Value.ofJson? (room - 1)) value :=
    fun value hsome => (h value hsome).restores (by omega)
  rw [toValue, fields_eq_present]
  refine restores_record (by simp [slots]) ?_ fun fields hrecord hwritten => ?_
  · simp [slots]
    exact fun value hsome => (hvalue value hsome).isLegible
  · have hname := hwritten.field? "name" rfl (restores_text p.name)
    have hdescription := hwritten.present? "description" "" rfl
      (restores_text p.description)
    have hmodifiers : fieldOr? fields "modifiers" [] (toList? toText?) = some p.modifiers := by
      refine hwritten.fieldOr? "modifiers" rfl ?_ ?_
      · simp
      · simpa using fun _ => restores_texts p.modifiers
    have hsection := hwritten.option? "section" rfl fun s _ => restores_text s
    have hskip := hwritten.present? "skip" false rfl (restores_bool p.skip)
    have hextra := hwritten.present? "extra" false rfl (restores_bool p.extra)
    have hkind := hwritten.option? "type" rfl fun kind _ =>
      restores_choice (Kind.ofName?_name kind)
    have hgiven := hwritten.option? "value" rfl hvalue
    have hschema := hwritten.present? "schema" true rfl (restores_bool p.inSchema)
    have hnullable := hwritten.present? "nullable" false rfl (restores_bool p.nullable)
    have hfields : record? fieldNames (.object fields) = some fields := hrecord
    simp [Parameter.ofJson?, hfields, hname, hdescription, hmodifiers, hsection, hskip, hextra,
      hkind, hgiven, hschema, hnullable]

/-- A list of parameters is read back item by item. -/
theorem restores_listToValue {parameters : List Parameter}
    (h : ∀ p ∈ parameters, ∀ value, p.value = some value → value.IsPortable) {room : Nat}
    (hroom : 3 ≤ room) :
    (listToValue parameters).Restores (Parameter.listOfJson? room) parameters :=
  restores_list fun p hp => restores_toValue (h p hp) (by omega)

end Parameter

namespace Section

/-- The fields of the record of a section. -/
def slots (s : Section) : List (String × Option Value) := [
  ("name", some (.string s.name)),
  ("description", some (.ofTexts s.description)),
  ("parameters", some (.sequence (s.members.map .ofNat)))]

/-- A section whose positions have 64 bits is read back. -/
theorem restores_toValue {s : Section} (h : ∀ i ∈ s.members, i < Path.indexBound) :
    s.toValue.Restores Section.ofJson? s := by
  have hmembersValue := restores_list fun i hi => restores_ofNat (h i hi)
  have hrecordValue : s.toValue = record (present s.slots) := rfl
  rw [hrecordValue]
  refine restores_record (by simp [slots]) ?_ fun fields hrecord hwritten => ?_
  · simp [slots, hmembersValue.isLegible]
  · have hname := hwritten.field? "name" rfl (restores_text s.name)
    have hdescription := hwritten.present? "description" [] rfl
      (restores_texts s.description)
    have hmembers := hwritten.present? "parameters" [] rfl hmembersValue
    have hfields : record? ["name", "description", "parameters"] (.object fields) = some fields :=
      hrecord
    simp [Section.ofJson?, hfields, hname, hdescription, hmembers]

end Section

namespace Catalog

/-- A catalog with positions of 64 bits and portable values. -/
structure IsPortable (c : Catalog) : Prop where
  members : ∀ s ∈ c.sections, ∀ i ∈ s.members, i < Path.indexBound
  values : ∀ p ∈ c.parameters, ∀ value, p.value = some value → value.IsPortable

/-- The fields of the record of a catalog. -/
def slots (c : Catalog) : List (String × Option Value) := [
  ("sections", some (.sequence (c.sections.map Section.toValue))),
  ("parameters", some (Parameter.listToValue c.parameters))]

/-- A portable catalog is read back. -/
theorem IsPortable.restores {c : Catalog} (h : c.IsPortable) :
    c.toValue.Restores Catalog.ofJson? c := by
  have hsectionsValue := restores_list fun s hs => Section.restores_toValue (h.members s hs)
  have hroom : 3 ≤ nestingLimit - 1 := by decide
  have hparametersValue := Parameter.restores_listToValue h.values hroom
  have hrecordValue : c.toValue = record (present c.slots) := rfl
  rw [hrecordValue]
  refine restores_record (by simp [slots]) ?_ fun fields hrecord hwritten => ?_
  · simp [slots, hsectionsValue.isLegible, hparametersValue.isLegible]
  · have hsections := hwritten.field? "sections" rfl hsectionsValue
    have hparameters := hwritten.field? "parameters" rfl hparametersValue
    have hfields : record? ["sections", "parameters"] (.object fields) = some fields := hrecord
    simp [Catalog.ofJson?, hfields, hsections, hparameters]

end Catalog

namespace Finding

/-- The fields of the record of a finding. -/
def slots (finding : Finding) : List (String × Option Value) := [
  ("code", some (.string finding.code.name)),
  ("path", some (.string finding.path))]

/-- A finding is read back. -/
theorem restores_toValue (finding : Finding) :
    finding.toValue.Restores Finding.ofJson? finding := by
  have hrecordValue : finding.toValue = record (present finding.slots) := rfl
  rw [hrecordValue]
  refine restores_record (by simp [slots]) ?_ fun fields hrecord hwritten => ?_
  · simp [slots]
  · have hcode := hwritten.field? "code" rfl
      (restores_choice (FindingCode.ofName?_name finding.code))
    have hpath := hwritten.field? "path" rfl (restores_text finding.path)
    have hfields : record? ["code", "path"] (.object fields) = some fields := hrecord
    simp [Finding.ofJson?, hfields, hcode, hpath]

end Finding

namespace Report

/-- A report with counts of 64 bits. -/
structure IsPortable (report : Report) : Prop where
  sections : report.sections < Path.indexBound
  documented : report.documented < Path.indexBound
  observed : report.observed < Path.indexBound
  skipped : report.skipped < Path.indexBound
  extras : report.extras < Path.indexBound

/-- The fields of the record of a report. -/
def slots (report : Report) : List (String × Option Value) := [
  ("values_file", some (.string report.source)),
  ("success", some (.bool report.success)),
  ("sections", some (.ofNat report.sections)),
  ("documented", some (.ofNat report.documented)),
  ("observed", some (.ofNat report.observed)),
  ("skipped", some (.ofNat report.skipped)),
  ("extras", some (.ofNat report.extras)),
  ("not_schema_renderable", some (.ofTexts report.outsideSchema)),
  ("findings", some (.sequence (report.findings.map Finding.toValue)))]

/-- A portable report is read back. -/
theorem IsPortable.restores {report : Report} (h : report.IsPortable) :
    report.toValue.Restores Report.ofJson? report := by
  have hfindingsValue : (Value.sequence (report.findings.map Finding.toValue)).Restores
      (toList? Finding.ofJson?) report.findings :=
    restores_list fun finding _ => finding.restores_toValue
  have hrecordValue : report.toValue = record (present report.slots) := rfl
  rw [hrecordValue]
  refine restores_record (by simp [slots]) ?_ fun fields hrecord hwritten => ?_
  · simp [slots, hfindingsValue.isLegible]
  · have hsource := hwritten.field? "values_file" rfl (restores_text report.source)
    have hsuccess := hwritten.field? "success" rfl (restores_bool report.success)
    have hsections := hwritten.field? "sections" rfl (restores_ofNat h.sections)
    have hdocumented := hwritten.field? "documented" rfl (restores_ofNat h.documented)
    have hobserved := hwritten.field? "observed" rfl (restores_ofNat h.observed)
    have hskipped := hwritten.field? "skipped" rfl (restores_ofNat h.skipped)
    have hextras := hwritten.field? "extras" rfl (restores_ofNat h.extras)
    have houtside := hwritten.field? "not_schema_renderable" rfl
      (restores_texts report.outsideSchema)
    have hfindings := hwritten.field? "findings" rfl hfindingsValue
    have hfields : record? fieldNames (.object fields) = some fields := hrecord
    simp [Report.ofJson?, hfields, hsource, hsuccess, hsections, hdocumented, hobserved, hskipped,
      hextras, houtside, hfindings]

end Report

namespace Dump

/-- What a record restores is read from its text. -/
theorem exists_jsonText {α : Type} {record : Value} {ofJson : Json → Option α} {a : α}
    (h : record.Restores ofJson a) :
    ∃ text, jsonText record = .ok text ∧ (Json.read text).bind ofJson = some a := by
  obtain ⟨json, hjson, hlegible, -, hread⟩ := h
  refine ⟨json.pretty, ?_, ?_⟩
  · rw [jsonText, hjson]
  · rw [pretty, read_write (some 0) hlegible, Option.bind_some, hread]

/-- A JSON dump succeeds, and what was dumped is read from it: a catalog, a list of parameters, or a
report. -/
theorem dump_json_read_back :
    (∀ c : Catalog, c.IsPortable →
      ∃ text, c.dump .json = .ok text ∧ (Json.read text).bind Catalog.ofJson? = some c) ∧
    (∀ parameters : List Parameter,
      (∀ p ∈ parameters, ∀ value, p.value = some value → value.IsPortable) →
      ∃ text, Parameter.dumpList parameters .json = .ok text ∧
        (Json.read text).bind (Parameter.listOfJson? nestingLimit) = some parameters) ∧
    ∀ report : Report, report.IsPortable →
      ∃ text, report.dump .json = .ok text ∧
        (Json.read text).bind Report.ofJson? = some report :=
  ⟨fun _ h => exists_jsonText h.restores,
    fun _ h => exists_jsonText (Parameter.restores_listToValue h (by decide)),
    fun _ h => exists_jsonText h.restores⟩

/-- Parameters with a value of every portable kind, and one without a value. -/
def portableParameters : List Parameter := [
  { name := "image.tag", description := "The \"tag\" \\ \u0001",
    modifiers := ["string", "nullable"], sectionName := some "Image", kind := some .string,
    value := some (.string "é\n\t😀") },
  { name := "a[0]", skip := true, kind := some .boolean, value := some (.bool false) },
  { name := "least", inSchema := false, value := some (.number (.int Number.leastInt)) },
  { name := "largest", nullable := true, value := some (.number (.int Number.largestInt)) },
  { name := "labels", kind := some .object, value := some (.mapping []) },
  { name := "args", kind := some .array, value := some (.ofTexts ["", "-v"]) },
  { name := "", extra := true }]

/-- A catalog whose sections have members, repeated ones and such that are no parameters. -/
def portableCatalog : Catalog where
  sections := [
    { name := "Image", description := ["", "Where from"],
      members := [0, 6, 0, 18446744073709551615] },
    { name := "" }]
  parameters := portableParameters

/-- A report with a finding of either code. -/
def portableReport : Report where
  source := "values.yaml"
  success := false
  sections := 2
  documented := 7
  observed := 0
  skipped := 1
  extras := 18446744073709551615
  outsideSchema := ["least"]
  findings := [⟨.missingMetadata, "port"⟩, ⟨.missingValue, "args"⟩]

/-- The catalog, the parameters and the report are read back from their dumps. -/
theorem dump_json_read_back_portable :
    (∃ text, portableCatalog.dump .json = .ok text ∧
      (Json.read text).bind Catalog.ofJson? = some portableCatalog) ∧
    (∃ text, Parameter.dumpList portableParameters .json = .ok text ∧
      (Json.read text).bind (Parameter.listOfJson? nestingLimit) = some portableParameters) ∧
    ∃ text, portableReport.dump .json = .ok text ∧
      (Json.read text).bind Report.ofJson? = some portableReport := by
  have hvalues : ∀ p ∈ portableParameters, ∀ value, p.value = some value → value.IsPortable := by
    simp only [portableParameters, List.forall_mem_cons, Option.some.injEq]
    refine ⟨?_, ?_, ?_, ?_, ?_, ?_, ?_, List.forall_mem_nil _⟩
    · rintro _ rfl; exact .string _
    · rintro _ rfl; exact .bool _
    · rintro _ rfl; exact .int (by decide) (by decide)
    · rintro _ rfl; exact .int (by decide) (by decide)
    · rintro _ rfl; exact .empty
    · rintro _ rfl; exact .texts _
    · rintro _ hnone; cases hnone
  have hmembers : ∀ s ∈ portableCatalog.sections, ∀ i ∈ s.members, i < Path.indexBound := by
    decide
  refine ⟨dump_json_read_back.1 _ ⟨hmembers, hvalues⟩, dump_json_read_back.2.1 _ hvalues,
    dump_json_read_back.2.2 _ ⟨?_, ?_, ?_, ?_, ?_⟩⟩ <;> decide

end Dump

end ChartDocs
