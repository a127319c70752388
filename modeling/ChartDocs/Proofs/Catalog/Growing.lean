import ChartDocs.Proofs.Catalog.Attaching
import Mathlib.Data.List.Forall2

/-!
# Catalogs that only grow

Sections and parameters are added at the end of a catalog, and lines and members at the end of a
section. So a catalog that has grown begins with what it was: it extends the earlier catalog. If
only parameters were added, the later catalog enriches the earlier one; the same sections and lines
added to both do not change that.
-/

namespace ChartDocs

namespace Section

/-- A section that has got at most new lines and members, after those of another one. -/
structure Extends (later earlier : Section) : Prop where
  name : later.name = earlier.name
  description : earlier.description <+: later.description
  members : earlier.members <+: later.members

/-- A section that has got at most new members, after those of another one. -/
structure Enriches (later earlier : Section) : Prop where
  name : later.name = earlier.name
  description : later.description = earlier.description
  members : earlier.members <+: later.members

/-- A section extends itself. -/
theorem Extends.refl (s : Section) : s.Extends s :=
  ⟨rfl, List.prefix_rfl, List.prefix_rfl⟩

/-- A section extends what an extended section extends. -/
theorem Extends.trans {s t u : Section} (h : s.Extends t) (h' : t.Extends u) : s.Extends u :=
  ⟨h.name.trans h'.name, h'.description.trans h.description, h'.members.trans h.members⟩

/-- A section that has got only members extends the earlier one. -/
theorem Enriches.extends {s t : Section} (h : s.Enriches t) : s.Extends t :=
  ⟨h.name, h.description ▸ List.prefix_rfl, h.members⟩

/-- A section enriches itself. -/
theorem Enriches.refl (s : Section) : s.Enriches s :=
  ⟨rfl, rfl, List.prefix_rfl⟩

/-- A section is extended by a line of description. -/
theorem extends_addLine (s : Section) (line : String) : (s.addLine line).Extends s :=
  ⟨rfl, List.prefix_append _ _, List.prefix_rfl⟩

/-- A member is added to the richer section. -/
theorem Enriches.addMember {s t : Section} (h : s.Enriches t) (position : Nat) :
    (s.addMember position).Enriches t :=
  ⟨h.name, h.description, h.members.trans (List.prefix_append _ _)⟩

/-- The same line is added to both sections. -/
theorem Enriches.addLine {s t : Section} (h : s.Enriches t) (line : String) :
    (s.addLine line).Enriches (t.addLine line) :=
  ⟨h.name, congrArg (· ++ [line]) h.description, h.members⟩

end Section

/-- Lists stay related when related elements at one position are changed. -/
theorem forall₂_modify {α β : Type} {R : α → β → Prop} {as : List α} {bs : List β}
    {change : α → α} {change' : β → β} (h : List.Forall₂ R as bs)
    (hchange : ∀ a b, R a b → R (change a) (change' b)) (i : Nat) :
    List.Forall₂ R (as.modify i change) (bs.modify i change') := by
  induction h generalizing i with
  | nil => simp
  | cons hab htail ih =>
    cases i with
    | zero => exact .cons (hchange _ _ hab) htail
    | succ i => exact .cons hab (ih i)

/-- Every element of the second list has its counterpart at its position in the first one. -/
theorem exists_getElem?_of_forall₂ {α β : Type} {R : α → β → Prop} {as : List α} {bs : List β}
    (h : List.Forall₂ R as bs) {i : Nat} {b : β} (hb : bs[i]? = some b) :
    ∃ a, as[i]? = some a ∧ R a b := by
  induction h generalizing i with
  | nil => simp at hb
  | cons hab _ ih =>
    cases i with
    | zero => exact ⟨_, rfl, Option.some.inj hb ▸ hab⟩
    | succ i => exact ih hb

namespace Catalog

/-- A catalog that begins with another one: the parameters and the sections of the other one come
first and in order, and each of these sections has kept what it had. -/
structure Extends (later earlier : Catalog) : Prop where
  parameters : earlier.parameters <+: later.parameters
  sections : ∀ (i : Nat) (s : Section), earlier.sections[i]? = some s →
    ∃ t : Section, later.sections[i]? = some t ∧ t.Extends s

/-- A catalog that has got at most new parameters, after those of another one. -/
structure Enriches (later earlier : Catalog) : Prop where
  parameters : earlier.parameters <+: later.parameters
  sections : List.Forall₂ Section.Enriches later.sections earlier.sections

variable {c d e : Catalog}

/-- A catalog extends itself. -/
theorem Extends.refl (c : Catalog) : c.Extends c :=
  ⟨List.prefix_rfl, fun _ s hs => ⟨s, hs, .refl s⟩⟩

/-- A catalog extends what an extended catalog extends. -/
theorem Extends.trans (h : c.Extends d) (h' : d.Extends e) : c.Extends e := by
  refine ⟨h'.parameters.trans h.parameters, fun i s hs => ?_⟩
  obtain ⟨t, ht, hts⟩ := h'.sections i s hs
  obtain ⟨u, hu, hut⟩ := h.sections i t ht
  exact ⟨u, hu, hut.trans hts⟩

/-- A catalog that has got only parameters extends the earlier one. -/
theorem Enriches.extends (h : c.Enriches d) : c.Extends d := by
  refine ⟨h.parameters, fun i s hs => ?_⟩
  obtain ⟨t, ht, hts⟩ := exists_getElem?_of_forall₂ h.sections hs
  exact ⟨t, ht, hts.extends⟩

/-- A catalog enriches itself. -/
theorem enriches_refl (c : Catalog) : c.Enriches c :=
  ⟨List.prefix_rfl, List.forall₂_same.mpr fun s _ => .refl s⟩

/-- A parameter is added at the end, and so is its position to its section. -/
theorem enriches_attach (c : Catalog) (p : Parameter) (owner : Option Nat) :
    (c.attach p owner).Enriches c := by
  constructor
  · unfold attach
    split
    · exact List.prefix_append _ _
    · split <;> exact List.prefix_append _ _
  · cases owner with
    | none => exact (enriches_refl c).sections
    | some i =>
      have hsections : List.Forall₂ Section.Enriches
          (c.sections.modify i (·.addMember c.parameters.length)) (c.sections.modify i id) :=
        forall₂_modify (enriches_refl c).sections (fun _ _ hst => hst.addMember _) i
      rwa [List.modify_id, ← sections_attach_some] at hsections

/-- A catalog is extended by a section at the end. -/
theorem extends_addSection (c : Catalog) (g : Section) : (c.addSection g).Extends c := by
  refine ⟨List.prefix_rfl, fun i s hs => ⟨s, ?_, .refl s⟩⟩
  have hi : i < c.sections.length := (List.getElem?_eq_some_iff.mp hs).1
  rw [addSection, List.getElem?_append_left hi, hs]

/-- A catalog is extended by a line of description in one of its sections. -/
theorem extends_addLine (c : Catalog) (owner : Nat) (line : String) :
    (c.addLine owner line).Extends c := by
  refine ⟨List.prefix_rfl, fun i s hs => ?_⟩
  rw [addLine, List.getElem?_modify, hs]
  refine ⟨_, rfl, ?_⟩
  by_cases howner : owner = i
  · simpa [howner] using s.extends_addLine line
  · simpa [howner] using Section.Extends.refl s

/-- The same section is added to both catalogs. -/
theorem Enriches.addSection (h : c.Enriches d) (g : Section) :
    (c.addSection g).Enriches (d.addSection g) :=
  ⟨h.parameters, List.rel_append h.sections (.cons (.refl g) .nil)⟩

/-- The same line is added to both catalogs. -/
theorem Enriches.addLine (h : c.Enriches d) (owner : Nat) (line : String) :
    (c.addLine owner line).Enriches (d.addLine owner line) :=
  ⟨h.parameters, forall₂_modify h.sections (fun _ _ hst => hst.addLine line) owner⟩

end Catalog

end ChartDocs
