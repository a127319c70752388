import ChartDocs.Proofs.Catalog.Attaching
import ChartDocs.Proofs.Catalog.Preparing
import ChartDocs.Proofs.Tables.Lines
import Mathlib.Data.List.Forall2
import Mathlib.Data.List.Perm.Basic

/-!
# Rows and attachments

A catalog grows from the empty one by new sections and parameters, and at any time it can be filled
with observed values and its modifiers can be obeyed. A ledger of these changes notes what was
attached where. The catalog follows the ledger: whatever happens in between, a section lists the
positions of what was attached to it, so the rows of its table are the attached parameters that are
not skipped, each once and in order, and nothing else has a row.
-/

namespace ChartDocs

open Tables Text

/-- One change of a catalog. -/
inductive Change where
  /-- A section is added at the end; it has no members yet. -/
  | addSection (name : String) (description : List String)
  /-- A parameter is added at the end, for the section at a position, for a position at which there
  is no section, or for none. -/
  | attach (p : Parameter) (owner : Option Nat)
  /-- The parameters take what was observed under their names. -/
  | fill (observed : List Parameter)
  /-- The modifiers of one parameter are obeyed. -/
  | modify (words : ModifierWords) (position : Nat)

namespace Change

/-- The catalog after a change. A modifier can be unknown; no other change fails. -/
def apply (change : Change) (c : Catalog) : Except UnknownModifier Catalog :=
  match change with
  | addSection name description => .ok (c.addSection { name, description })
  | attach p owner => .ok (c.attach p owner)
  | fill observed => .ok (c.fill observed)
  | modify words position =>
    match c.parameters[position]? with
    | none => .ok c
    | some p =>
      match p.modify words with
      | .error unknown => .error unknown
      | .ok q => .ok { c with parameters := c.parameters.set position q }

/-- The catalog after changes one after the other. -/
def applyAll : List Change → Catalog → Except UnknownModifier Catalog
  | [], c => .ok c
  | change :: rest, c =>
    match change.apply c with
    | .error unknown => .error unknown
    | .ok d => applyAll rest d

end Change

/-- A parameter as it was added, and the position of the section that it was attached to. -/
structure Attachment where
  parameter : Parameter
  home : Option Nat

/-- What changes add: the names and descriptions of sections, and parameters with their homes. -/
structure Ledger where
  titles : List (String × List String) := []
  attached : List Attachment := []

namespace Ledger

/-- The ledger after a change. A parameter has a home if a section exists at the position that it is
added for. -/
def note (l : Ledger) : Change → Ledger
  | .addSection name description => { l with titles := l.titles ++ [(name, description)] }
  | .attach p owner =>
    { l with attached := l.attached ++ [⟨p, owner.filter (· < l.titles.length)⟩] }
  | .fill _ => l
  | .modify _ _ => l

/-- The ledger of changes. -/
def of (changes : List Change) : Ledger :=
  changes.foldl note {}

/-- The positions of the parameters with a home. -/
def positions (l : Ledger) (home : Nat) : List Nat :=
  l.attached.findIdxs (·.home = some home)

/-- The attachments that are not skipped, with the parameters that a catalog has for them. -/
def shown (l : Ledger) (c : Catalog) : List (Attachment × Parameter) :=
  (l.attached.zip c.parameters).filter (!·.1.parameter.skip)

/-- The parameters that were attached to a section and are not skipped, in order of attachment. -/
def rowsAt (l : Ledger) (c : Catalog) (home : Nat) : List Parameter :=
  ((l.shown c).filter (·.1.home = some home)).map (·.2)

end Ledger

namespace Section

/-- The name and the description of a section. -/
def title (s : Section) : String × List String :=
  (s.name, s.description)

end Section

/-- A parameter with the same documentation as another one: its kind, its value, its section and the
marks for schema and nullable may be different. -/
structure Parameter.SameDocumentation (p q : Parameter) : Prop where
  name : p.name = q.name
  description : p.description = q.description
  modifiers : p.modifiers = q.modifiers
  skip : p.skip = q.skip
  extra : p.extra = q.extra

/-- A catalog that has the sections and the parameters of a ledger, and whose sections list the
positions of what was attached to them. -/
structure Ledger.Describes (l : Ledger) (c : Catalog) : Prop where
  titles : c.sections.map Section.title = l.titles
  parameters : List.Forall₂ (fun a p => p.SameDocumentation a.parameter) l.attached c.parameters
  homes : ∀ a ∈ l.attached, ∀ home, a.home = some home → home < l.titles.length
  members : ∀ home s, c.sections[home]? = some s → s.members = l.positions home

namespace Parameter.SameDocumentation

variable {p q r : Parameter}

/-- A parameter has its own documentation. -/
theorem refl (p : Parameter) : p.SameDocumentation p :=
  ⟨rfl, rfl, rfl, rfl, rfl⟩

/-- Having the same documentation carries over a third parameter. -/
theorem trans (h : p.SameDocumentation q) (h' : q.SameDocumentation r) : p.SameDocumentation r :=
  ⟨h.name.trans h'.name, h.description.trans h'.description, h.modifiers.trans h'.modifiers,
    h.skip.trans h'.skip, h.extra.trans h'.extra⟩

/-- Filling does not change the documentation of a parameter. -/
theorem fillFrom (observed : List Parameter) (p : Parameter) :
    (p.fillFrom observed).SameDocumentation p := by
  obtain ⟨_, _, _, heq⟩ := p.exists_fillFrom_eq observed
  rw [heq]
  exact ⟨rfl, rfl, rfl, rfl, rfl⟩

/-- Obeying modifiers does not change the documentation of a parameter. -/
theorem of_modify {words : ModifierWords} (h : p.modify words = .ok q) : q.SameDocumentation p := by
  obtain ⟨_, _, _, rfl⟩ := (Parameter.modify_eq_ok_iff.mp h).exists_eq
  exact ⟨rfl, rfl, rfl, rfl, rfl⟩

end Parameter.SameDocumentation

namespace Catalog

/-- Attaching adds the parameter at the end; at most the name of its section changes. -/
theorem exists_parameters_attach (c : Catalog) (p : Parameter) (owner : Option Nat) :
    ∃ q, (c.attach p owner).parameters = c.parameters ++ [q] ∧ q.SameDocumentation p := by
  unfold attach
  split
  · exact ⟨p, rfl, .refl p⟩
  · split
    · exact ⟨p, rfl, .refl p⟩
    · exact ⟨_, rfl, ⟨rfl, rfl, rfl, rfl, rfl⟩⟩

/-- Attaching adds the position of the parameter to the members of its home, and no other. -/
theorem getElem?_sections_attach (c : Catalog) (p : Parameter) (owner : Option Nat) (i : Nat) :
    (c.attach p owner).sections[i]? =
      (c.sections[i]?).map fun s =>
        if owner.filter (· < c.sections.length) = some i then s.addMember c.parameters.length
        else s := by
  cases owner with
  | none => simp [attach]
  | some j =>
    rw [sections_attach_some, List.getElem?_modify]
    cases hi : c.sections[i]? with
    | none => rfl
    | some s =>
      have hlt : i < c.sections.length := (List.getElem?_eq_some_iff.mp hi).1
      by_cases hj : j = i
      · simp [hj, hlt]
      · simp [hj]

end Catalog

/-- Related lists stay related when an element is replaced by one with the same relations. -/
theorem forall₂_set {α β : Type} {R : α → β → Prop} {as : List α} {bs : List β}
    (h : List.Forall₂ R as bs) {i : Nat} {b b' : β} (hb : bs[i]? = some b)
    (himp : ∀ a, R a b → R a b') : List.Forall₂ R as (bs.set i b') := by
  induction h generalizing i with
  | nil => exact .nil
  | cons hab htail ih =>
    cases i with
    | zero =>
      obtain rfl := Option.some.inj hb
      exact .cons (himp _ hab) htail
    | succ i => exact .cons hab (ih hb)

/-- The elements of one list at the positions where another list has a property. -/
theorem filterMap_getElem?_findIdxs {α β : Type} {as : List α} {bs : List β} (test : α → Bool)
    (h : as.length = bs.length) :
    (as.findIdxs test).filterMap (bs[·]?) = ((as.zip bs).filter (test ·.1)).map (·.2) := by
  induction as generalizing bs with
  | nil => rfl
  | cons a as ih =>
    cases bs with
    | nil => cases h
    | cons b bs =>
      have htail : (as.findIdxs test (0 + 1)).filterMap ((b :: bs)[·]?) =
          ((as.zip bs).filter (test ·.1)).map (·.2) := by
        rw [List.findIdxs_start, List.filterMap_map, ← ih (Nat.succ.inj h)]
        rfl
      rw [List.findIdxs_cons, List.zip_cons_cons, List.filter_cons]
      split
      · rw [List.filterMap_cons, htail]
        rfl
      · exact htail

namespace Ledger

variable {l : Ledger} {c d : Catalog}

/-- One more attachment adds its position to the positions of its home. -/
theorem positions_concat (l : Ledger) (a : Attachment) (home : Nat) :
    ({ l with attached := l.attached ++ [a] } : Ledger).positions home =
      l.positions home ++ if a.home = some home then [l.attached.length] else [] := by
  rw [positions, List.findIdxs_append, List.findIdxs_singleton, Nat.zero_add, positions]
  simp only [decide_eq_true_eq]

namespace Describes

/-- The empty ledger describes the empty catalog. -/
theorem empty : Describes {} {} where
  titles := rfl
  parameters := .nil
  homes _ ha := absurd ha List.not_mem_nil
  members _ _ hs := absurd hs (by simp)

/-- A catalog has as many sections as its ledger has titles. -/
theorem length_sections (h : l.Describes c) : c.sections.length = l.titles.length := by
  rw [← h.titles, List.length_map]

/-- A catalog has as many parameters as its ledger has attachments. -/
theorem length_parameters (h : l.Describes c) : l.attached.length = c.parameters.length :=
  h.parameters.length_eq

/-- A section that is added is noted with no members. -/
theorem addSection (h : l.Describes c) (name : String) (description : List String) :
    (l.note (.addSection name description)).Describes (c.addSection { name, description }) where
  titles := by
    rw [Catalog.addSection, List.map_append, h.titles]
    rfl
  parameters := h.parameters
  homes a ha home hhome := by
    rw [note, List.length_append]
    exact Nat.lt_add_right _ (h.homes a ha home hhome)
  members home s hs := by
    rw [Catalog.addSection, List.getElem?_append] at hs
    split at hs
    · exact h.members home s hs
    · next hnew =>
      -- Nothing can have been attached to a section that did not exist.
      have hnone : l.positions home = [] := by
        rw [positions, List.findIdxs_eq_nil_iff]
        intro a ha
        rw [decide_eq_false_iff_not]
        exact fun hhome => hnew (h.length_sections ▸ h.homes a ha home hhome)
      obtain rfl := List.mem_singleton.mp (List.mem_of_getElem? hs)
      exact hnone.symm

/-- A parameter that is attached is noted at the end of its home, if it has one. -/
theorem attach (h : l.Describes c) (p : Parameter) (owner : Option Nat) :
    (l.note (.attach p owner)).Describes (c.attach p owner) where
  titles := by
    have hsame : ∀ i : Nat, ((c.attach p owner).sections[i]?).map Section.title =
        (c.sections[i]?).map Section.title := by
      intro i
      rw [Catalog.getElem?_sections_attach, Option.map_map]
      cases c.sections[i]? with
      | none => rfl
      | some s => simp only [Option.map_some, Function.comp_apply]; split <;> rfl
    rw [note, ← h.titles]
    exact List.ext_getElem? fun i => by rw [List.getElem?_map, List.getElem?_map, hsame]
  parameters := by
    obtain ⟨q, hq, hsame⟩ := c.exists_parameters_attach p owner
    rw [hq]
    exact List.rel_append h.parameters (.cons hsame .nil)
  homes a ha home hhome := by
    rcases List.mem_append.mp ha with ha | ha
    · exact h.homes a ha home hhome
    · obtain rfl := List.mem_singleton.mp ha
      have hlt := (Option.filter_eq_some_iff.mp hhome).2
      exact of_decide_eq_true hlt
  members home s hs := by
    rw [Catalog.getElem?_sections_attach, h.length_sections] at hs
    obtain ⟨s', hs', rfl⟩ := Option.map_eq_some_iff.mp hs
    rw [note, positions_concat, ← h.members home s' hs', h.length_parameters]
    split
    · rfl
    · rw [List.append_nil]

/-- Filling a catalog needs no note. -/
theorem fill (h : l.Describes c) (observed : List Parameter) : l.Describes (c.fill observed) where
  titles := h.titles
  parameters := List.forall₂_map_right_iff.mpr
    (h.parameters.imp fun _ p hp => (Parameter.SameDocumentation.fillFrom observed p).trans hp)
  homes := h.homes
  members := h.members

/-- Changing a parameter by its modifiers needs no note. -/
theorem modify (h : l.Describes c) {words : ModifierWords} {i : Nat} {p q : Parameter}
    (hp : c.parameters[i]? = some p) (hq : p.modify words = .ok q) :
    l.Describes { c with parameters := c.parameters.set i q } where
  titles := h.titles
  parameters := forall₂_set h.parameters hp fun _ hsame =>
    (Parameter.SameDocumentation.of_modify hq).trans hsame
  homes := h.homes
  members := h.members

/-- A catalog that follows its ledger still does so after any change. -/
theorem apply (h : l.Describes c) {change : Change} (hd : change.apply c = .ok d) :
    (l.note change).Describes d := by
  cases change with
  | addSection name description => exact Except.ok.inj hd ▸ h.addSection name description
  | attach p owner => exact Except.ok.inj hd ▸ h.attach p owner
  | fill observed => exact Except.ok.inj hd ▸ h.fill observed
  | modify words position =>
    unfold Change.apply at hd
    dsimp only at hd
    split at hd
    · exact Except.ok.inj hd ▸ h
    · next p hp =>
      split at hd
      · cases hd
      · next q hq => exact Except.ok.inj hd ▸ h.modify hp hq

/-- The ledger of a run of changes describes the catalog that they lead to. -/
theorem applyAll (h : l.Describes c) {changes : List Change}
    (hd : Change.applyAll changes c = .ok d) : (changes.foldl note l).Describes d := by
  induction changes generalizing l c with
  | nil => exact Except.ok.inj hd ▸ h
  | cons change rest ih =>
    unfold Change.applyAll at hd
    split at hd
    · cases hd
    · next next hnext => exact ih (h.apply hnext) hd

/-- A parameter is skipped exactly if it was when it was attached. -/
theorem skip_eq (h : l.Describes c) {a : Attachment} {p : Parameter}
    (hmem : (a, p) ∈ l.attached.zip c.parameters) : p.skip = a.parameter.skip :=
  ((List.forall₂_iff_zip.mp h.parameters).2 hmem).skip

/-- A section shows what was attached to it and is not skipped. -/
theorem rows_eq (h : l.Describes c) {home : Nat} {s : Section} (hs : c.sections[home]? = some s) :
    c.rows s = l.rowsAt c home := by
  have hskip : ∀ pair ∈ l.attached.zip c.parameters,
      (!pair.2.skip && decide (pair.1.home = some home)) =
        (decide (pair.1.home = some home) && !pair.1.parameter.skip) := by
    intro pair hpair
    rw [h.skip_eq hpair, Bool.and_comm]
  rw [Catalog.rows, Catalog.members, h.members home s hs, positions,
    filterMap_getElem?_findIdxs _ h.length_parameters, List.filter_map, List.filter_filter, rowsAt,
    shown, List.filter_filter]
  exact congrArg _ (List.filter_congr hskip)

/-- In the text of the tables every section shows what was attached to it. -/
theorem tables_eq (h : l.Describes c) :
    c.tables = unlines ([[]].intercalate
      (c.sections.zipIdx.map fun (s, home) => sectionLines s (l.rowsAt c home))) := by
  have hsections : c.sections.map (fun s => sectionLines s (c.rows s)) =
      c.sections.zipIdx.map fun (s, home) => sectionLines s (l.rowsAt c home) := by
    refine List.ext_getElem (by simp) fun home hhome _ => ?_
    rw [List.getElem_map, List.getElem_map, List.getElem_zipIdx, Nat.zero_add]
    exact congrArg _ (h.rows_eq (List.getElem?_eq_getElem (by simpa using hhome)))
  rw [Catalog.tables_eq, Catalog.tableLines, hsections]

end Describes

end Ledger

namespace Catalog

end Catalog

end ChartDocs
