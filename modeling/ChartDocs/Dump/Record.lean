import ChartDocs.Catalog.Finding
import ChartDocs.Json.Record
import ChartDocs.Value.Json

/-!
# Records of catalogs and reports

Parameters, sections, catalogs, findings and reports are written as records with named fields, and
records in JSON can be read back. A parameter leaves out modifiers, section, type and value where
it has none; in what is read, most fields of a parameter and of a section may be missing.
-/

namespace ChartDocs

open Json (record? field? fieldOr? toBool? toText? toNat? toList? toOption? toChoice?)

namespace Value

/-- A natural number as a value. -/
def ofNat (n : Nat) : Value :=
  number (.int n)

/-- A list of texts as a value. -/
def ofTexts (texts : List String) : Value :=
  sequence (texts.map string)

/-- A field of a record that is left out without a value. -/
def field? (name : String) (value : Option Value) : List (String × Value) :=
  match value with
  | some value => [(name, value)]
  | none => []

end Value

namespace Parameter

/-- The fields of a parameter. -/
def fields (p : Parameter) : List (String × Value) :=
  [("name", .string p.name), ("description", .string p.description)] ++
    Value.field? "modifiers" (if p.modifiers = [] then none else some (.ofTexts p.modifiers)) ++
    Value.field? "section" (p.sectionName.map .string) ++
    [("skip", .bool p.skip), ("extra", .bool p.extra)] ++
    Value.field? "type" (p.kind.map fun kind => .string kind.name) ++
    Value.field? "value" p.value ++
    [("schema", .bool p.inSchema), ("nullable", .bool p.nullable)]

/-- The names of the fields of a parameter in their order. -/
def fieldNames : List String :=
  ["name", "description", "modifiers", "section", "skip", "extra", "type", "value", "schema",
    "nullable"]

/-- A parameter as a record. -/
def toValue (p : Parameter) : Value :=
  .record p.fields

/-- The parameter of a JSON record, with room for so many nested arrays and objects. -/
def ofJson? (room : Nat) (json : Json) : Option Parameter := do
  let fields ← record? fieldNames json
  return {
    name := ← field? fields "name" toText?
    description := ← fieldOr? fields "description" "" toText?
    modifiers := ← fieldOr? fields "modifiers" [] (toList? toText?)
    sectionName := ← fieldOr? fields "section" none (toOption? toText?)
    skip := ← fieldOr? fields "skip" false toBool?
    extra := ← fieldOr? fields "extra" false toBool?
    kind := ← fieldOr? fields "type" none (toOption? (toChoice? Kind.ofName?))
    value := ← fieldOr? fields "value" none (toOption? (Value.ofJson? (room - 1)))
    inSchema := ← fieldOr? fields "schema" true toBool?
    nullable := ← fieldOr? fields "nullable" false toBool? }

end Parameter

namespace Section

/-- A section as a record. -/
def toValue (s : Section) : Value :=
  .record [("name", .string s.name), ("description", .ofTexts s.description),
    ("parameters", .sequence (s.members.map .ofNat))]

/-- The section of a JSON record. -/
def ofJson? (json : Json) : Option Section := do
  let fields ← record? ["name", "description", "parameters"] json
  return {
    name := ← field? fields "name" toText?
    description := ← fieldOr? fields "description" [] (toList? toText?)
    members := ← fieldOr? fields "parameters" [] (toList? toNat?) }

end Section

/-- A list of parameters as a sequence of records. -/
def Parameter.listToValue (parameters : List Parameter) : Value :=
  .sequence (parameters.map Parameter.toValue)

/-- The parameters of a JSON array, with room for so many nested arrays and objects. -/
def Parameter.listOfJson? (room : Nat) (json : Json) : Option (List Parameter) :=
  toList? (Parameter.ofJson? (room - 1)) json

namespace Catalog

/-- A catalog as a record. -/
def toValue (c : Catalog) : Value :=
  .record [("sections", .sequence (c.sections.map Section.toValue)),
    ("parameters", Parameter.listToValue c.parameters)]

/-- The catalog of a JSON record. -/
def ofJson? (json : Json) : Option Catalog := do
  let fields ← record? ["sections", "parameters"] json
  return {
    sections := ← field? fields "sections" (toList? Section.ofJson?)
    parameters := ← field? fields "parameters" (Parameter.listOfJson? (Value.nestingLimit - 1)) }

end Catalog

namespace Finding

/-- A finding as a record. -/
def toValue (finding : Finding) : Value :=
  .record [("code", .string finding.code.name), ("path", .string finding.path)]

/-- The finding of a JSON record. -/
def ofJson? (json : Json) : Option Finding := do
  let fields ← record? ["code", "path"] json
  return {
    code := ← field? fields "code" (toChoice? FindingCode.ofName?)
    path := ← field? fields "path" toText? }

end Finding

namespace Report

/-- The names of the fields of a report in their order. -/
def fieldNames : List String :=
  ["values_file", "success", "sections", "documented", "observed", "skipped", "extras",
    "not_schema_renderable", "findings"]

/-- A report as a record. -/
def toValue (report : Report) : Value :=
  .record [("values_file", .string report.source), ("success", .bool report.success),
    ("sections", .ofNat report.sections), ("documented", .ofNat report.documented),
    ("observed", .ofNat report.observed), ("skipped", .ofNat report.skipped),
    ("extras", .ofNat report.extras),
    ("not_schema_renderable", .ofTexts report.outsideSchema),
    ("findings", .sequence (report.findings.map Finding.toValue))]

/-- The report of a JSON record. -/
def ofJson? (json : Json) : Option Report := do
  let fields ← record? fieldNames json
  return {
    source := ← field? fields "values_file" toText?
    success := ← field? fields "success" toBool?
    sections := ← field? fields "sections" toNat?
    documented := ← field? fields "documented" toNat?
    observed := ← field? fields "observed" toNat?
    skipped := ← field? fields "skipped" toNat?
    extras := ← field? fields "extras" toNat?
    outsideSchema := ← field? fields "not_schema_renderable" (toList? toText?)
    findings := ← field? fields "findings" (toList? Finding.ofJson?) }

end Report

end ChartDocs
