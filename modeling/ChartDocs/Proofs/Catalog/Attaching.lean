import ChartDocs.Catalog.Basic
import Mathlib.Data.List.Basic

/-!
# Attaching parameters to sections

A parameter that is attached to a section becomes the last parameter of the catalog and the last
member of the section, and it gets the name of the section. Names and descriptions of sections stay
as they are. Hence parameters and description lines can be added in any order.
-/

namespace ChartDocs

namespace Section

/-- What a section is apart from its description. -/
def outline (s : Section) : String × List Nat :=
  (s.name, s.members)

/-- A section keeps its name when it gets a member. -/
@[simp] theorem name_addMember (s : Section) (position : Nat) :
    (s.addMember position).name = s.name := rfl

/-- A section keeps its name when it gets a line of description. -/
@[simp] theorem name_addLine (s : Section) (text : String) : (s.addLine text).name = s.name := rfl

end Section

namespace Catalog

/-- The sections apart from their descriptions. -/
def outlines (c : Catalog) : List (String × List Nat) :=
  c.sections.map Section.outline

/-- The name of a section, if the section exists. -/
def ownerName? (c : Catalog) (owner : Option Nat) : Option String :=
  (owner.bind (c.sections[·]?)).map (·.name)

/-- Modifying the last element. -/
theorem modify_concat {α : Type} (before : List α) (a : α) (change : α → α) :
    (before ++ [a]).modify before.length change = before ++ [change a] := by
  induction before with
  | nil => rfl
  | cons b before ih => rw [List.cons_append, List.length_cons, List.modify_succ_cons, ih]; rfl

/-- Attaching adds a member to a section and changes nothing else about sections. -/
theorem sections_attach_some (c : Catalog) (p : Parameter) (owner : Nat) :
    (c.attach p (some owner)).sections =
      c.sections.modify owner (·.addMember c.parameters.length) := by
  cases h : c.sections[owner]? with
  | none =>
    have hout : c.sections.length ≤ owner := List.getElem?_eq_none_iff.mp h
    rw [List.modify_eq_self hout]
    simp [attach, h]
  | some s => simp [attach, h, List.modify_eq_set]

/-- Attaching adds the parameter at the end, with the name of its section. -/
theorem parameters_attach (c : Catalog) {p : Parameter} (hp : p.sectionName = none)
    (owner : Option Nat) :
    (c.attach p owner).parameters =
      c.parameters ++ [{ p with sectionName := c.ownerName? owner }] := by
  have hsame : { p with sectionName := none } = p := by rw [← hp]
  cases owner with
  | none => simp [attach, ownerName?, hsame]
  | some i => cases h : c.sections[i]? <;> simp [attach, ownerName?, h, hsame]

/-- Modifying an element and reading all elements can be done in the other order. -/
theorem map_modify_of_comm {α β : Type} {read : α → β} {change : α → α} {change' : β → β}
    (h : ∀ a, read (change a) = change' (read a)) (l : List α) (i : Nat) :
    (l.modify i change).map read = (l.map read).modify i change' := by
  refine List.ext_getElem? fun k => ?_
  rw [List.getElem?_map, List.getElem?_modify, List.getElem?_modify, List.getElem?_map]
  cases l[k]? with
  | none => rfl
  | some a => by_cases hk : i = k <;> simp [hk, h]

/-- Descriptions are no part of outlines. -/
theorem outlines_addLine (c : Catalog) (owner : Nat) (text : String) :
    (c.addLine owner text).outlines = c.outlines := by
  have hid : ∀ s : Section, (s.addLine text).outline = id s.outline := fun _ => rfl
  rw [outlines, addLine, map_modify_of_comm hid, List.modify_id, outlines]

/-- A new section adds its outline at the end. -/
theorem outlines_addSection (c : Catalog) (s : Section) :
    (c.addSection s).outlines = c.outlines ++ [s.outline] := by
  rw [outlines, addSection, List.map_append, List.map_singleton, outlines]

/-- Attaching adds the position of the parameter to the outline of its section. -/
theorem outlines_attach_some (c : Catalog) (p : Parameter) (owner : Nat) :
    (c.attach p (some owner)).outlines =
      c.outlines.modify owner fun o => (o.1, o.2 ++ [c.parameters.length]) := by
  let addPosition (o : String × List Nat) : String × List Nat :=
    (o.1, o.2 ++ [c.parameters.length])
  have hcomm : ∀ s : Section,
      (s.addMember c.parameters.length).outline = addPosition s.outline := fun _ => rfl
  rw [outlines, sections_attach_some, map_modify_of_comm hcomm, outlines]

/-- A line of description and a new member of a section do not interfere. -/
theorem addLine_attach (c : Catalog) (p : Parameter) (owner : Nat) (text : String) :
    (c.attach p (some owner)).addLine owner text =
      (c.addLine owner text).attach p (some owner) := by
  have hsections : ((c.attach p (some owner)).addLine owner text).sections =
      ((c.addLine owner text).attach p (some owner)).sections := by
    rw [sections_attach_some, addLine, sections_attach_some, addLine, List.modify_modify_eq,
      List.modify_modify_eq]
    rfl
  have hparameters : ((c.attach p (some owner)).addLine owner text).parameters =
      ((c.addLine owner text).attach p (some owner)).parameters := by
    rw [parameters_addLine]
    cases h : c.sections[owner]? <;> simp [attach, addLine, h]
  exact congrArg₂ Catalog.mk hsections hparameters

end Catalog

end ChartDocs
