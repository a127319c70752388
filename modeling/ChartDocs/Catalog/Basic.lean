import ChartDocs.Parameter

/-!
# The catalog of a values file

A catalog lists the documented parameters in the order in which they were attached. Sections refer
to their parameters by position in that list, so a parameter that belongs to no section is still
part of the catalog.
-/

namespace ChartDocs

/-- A named group of parameters with a description of its own. -/
structure Section where
  name : String
  /-- The lines of the description. -/
  description : List String := []
  /-- The positions of the parameters of the section. -/
  members : List Nat := []
deriving DecidableEq, Repr, Inhabited

/-- Sections and parameters in document order. -/
structure Catalog where
  sections : List Section := []
  parameters : List Parameter := []
deriving DecidableEq, Repr, Inhabited

namespace Section

/-- The section with one more line of description. -/
def addLine (s : Section) (line : String) : Section :=
  { s with description := s.description ++ [line] }

/-- The section with one more parameter. -/
def addMember (s : Section) (position : Nat) : Section :=
  { s with members := s.members ++ [position] }

end Section

namespace Catalog

/-- The catalog with one more section at the end. -/
def addSection (c : Catalog) (s : Section) : Catalog :=
  { c with sections := c.sections ++ [s] }

/-- The catalog with one more line of description for a section, if the section exists. -/
def addLine (c : Catalog) (owner : Nat) (line : String) : Catalog :=
  { c with sections := c.sections.modify owner (·.addLine line) }

/-- The catalog with one more parameter. A section that exists takes the parameter and gives it its
name; otherwise the parameter belongs to none. -/
def attach (c : Catalog) (p : Parameter) (owner : Option Nat) : Catalog :=
  match owner with
  | none => { c with parameters := c.parameters ++ [p] }
  | some i =>
    match c.sections[i]? with
    | none => { c with parameters := c.parameters ++ [p] }
    | some s =>
      { sections := c.sections.set i (s.addMember c.parameters.length)
        parameters := c.parameters ++ [{ p with sectionName := some s.name }] }

/-- The parameters of a section; positions outside the catalog are passed over. -/
def members (c : Catalog) (s : Section) : List Parameter :=
  s.members.filterMap (c.parameters[·]?)

/-- The first parameter with a name. -/
def find? (c : Catalog) (name : String) : Option Parameter :=
  c.parameters.find? (·.name = name)

/-- A new section brings no parameters. -/
@[simp] theorem parameters_addSection (c : Catalog) (s : Section) :
    (c.addSection s).parameters = c.parameters := rfl

/-- A line of description changes no parameters. -/
@[simp] theorem parameters_addLine (c : Catalog) (owner : Nat) (line : String) :
    (c.addLine owner line).parameters = c.parameters := rfl

/-- Attaching adds exactly one parameter, at the end. -/
theorem length_parameters_attach (c : Catalog) (p : Parameter) (owner : Option Nat) :
    (c.attach p owner).parameters.length = c.parameters.length + 1 := by
  cases owner with
  | none => simp [attach]
  | some i => cases h : c.sections[i]? <;> simp [attach, h]

/-- Attaching adds no section. -/
theorem length_sections_attach (c : Catalog) (p : Parameter) (owner : Option Nat) :
    (c.attach p owner).sections.length = c.sections.length := by
  cases owner with
  | none => simp [attach]
  | some i => cases h : c.sections[i]? <;> simp [attach, h]

end Catalog

end ChartDocs
