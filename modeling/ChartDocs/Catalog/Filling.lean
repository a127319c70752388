import ChartDocs.Catalog.Basic

/-!
# Filling a catalog with observed values

A documented parameter takes its kind from the first observed parameter of its name, and its value
too unless it has one already or is marked as extra. Documentation is never changed.
-/

namespace ChartDocs

/-- The parameter with what was observed at its key. -/
def Parameter.fill (p : Parameter) (seen : Parameter) : Parameter :=
  { p with
    value := if p.hasValue || p.extra then p.value else seen.value
    kind := seen.kind
    inSchema := seen.inSchema }

/-- The parameter with what was first observed under its name, if anything was. -/
def Parameter.fillFrom (observed : List Parameter) (p : Parameter) : Parameter :=
  match observed.find? (·.name = p.name) with
  | some seen => p.fill seen
  | none => p

/-- The catalog with observed values. -/
def Catalog.fill (c : Catalog) (observed : List Parameter) : Catalog :=
  { c with parameters := c.parameters.map (Parameter.fillFrom observed) }

/-- Filling changes no sections. -/
@[simp] theorem Catalog.sections_fill (c : Catalog) (observed : List Parameter) :
    (c.fill observed).sections = c.sections := rfl

end ChartDocs
