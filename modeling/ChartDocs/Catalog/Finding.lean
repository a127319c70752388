import ChartDocs.Catalog.Basic

/-!
# Where documentation and values disagree

An observed key must be documented or lie below a skipped parameter, and a documented key must be
observed unless it is skipped or extra. Findings list the observed keys first, in their order, and
then the documented ones.
-/

namespace ChartDocs

/-- The two ways in which documentation and values disagree. -/
inductive FindingCode where
  /-- A key of the values has no documentation. -/
  | missingMetadata
  /-- A documented key has no value. -/
  | missingValue
deriving DecidableEq, Repr, Inhabited

namespace FindingCode

/-- The written name of a code. -/
def name : FindingCode → String
  | missingMetadata => "missing_metadata"
  | missingValue => "missing_value"

/-- All codes. -/
def all : List FindingCode := [missingMetadata, missingValue]

/-- The code with a written name. -/
def ofName? (text : String) : Option FindingCode :=
  all.find? fun code => code.name = text

/-- A code is read back from its name. -/
@[simp] theorem ofName?_name (code : FindingCode) : ofName? code.name = some code := by
  cases code <;> decide

end FindingCode

/-- One disagreement. -/
structure Finding where
  code : FindingCode
  path : String
deriving DecidableEq, Repr, Inhabited

namespace Finding

/-- The wording of a finding. -/
def message (finding : Finding) : String :=
  match finding.code with
  | .missingMetadata => "missing metadata for key: " ++ finding.path
  | .missingValue => "documented key has no value: " ++ finding.path

end Finding

namespace Catalog

/-- Whether a key is documented or lies below a skipped parameter. -/
def accountsFor (c : Catalog) (name : String) : Bool :=
  c.parameters.any (·.name = name) || c.parameters.any fun p => p.skip && p.covers name

/-- Whether a documented parameter must be among the observed ones. -/
def requiresValue (p : Parameter) : Bool :=
  !p.skip && !p.extra

/-- The disagreements between a catalog and observed parameters. -/
def findings (c : Catalog) (observed : List Parameter) : List Finding :=
  (observed.filter fun seen => !c.accountsFor seen.name).map (⟨.missingMetadata, ·.name⟩) ++
    (c.parameters.filter fun p => requiresValue p && !observed.any (·.name = p.name)).map
      (⟨.missingValue, ·.name⟩)

end Catalog

/-- The outcome of a check, with counts. -/
structure Report where
  /-- The name of the values file. -/
  source : String
  success : Bool
  sections : Nat
  documented : Nat
  observed : Nat
  skipped : Nat
  extras : Nat
  /-- The observed keys that a schema cannot show. -/
  outsideSchema : List String
  findings : List Finding
deriving DecidableEq, Repr, Inhabited

namespace Report

/-- The report on a catalog and observed parameters. -/
def of (source : String) (c : Catalog) (observed : List Parameter) : Report :=
  let findings := c.findings observed
  { source
    success := findings.isEmpty
    sections := c.sections.length
    documented := c.parameters.length
    observed := observed.length
    skipped := c.parameters.countP (·.skip)
    extras := c.parameters.countP (·.extra)
    outsideSchema := (observed.filter (!·.inSchema)).map (·.name)
    findings }

/-- The paths of the findings with a code. -/
def paths (report : Report) (code : FindingCode) : List String :=
  (report.findings.filter (·.code = code)).map (·.path)

end Report

end ChartDocs
