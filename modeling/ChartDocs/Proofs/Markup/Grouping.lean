import ChartDocs.Proofs.Catalog.Grouping
import ChartDocs.Proofs.Markup.Change
import ChartDocs.Proofs.Markup.Entry

/-!
# The scan keeps sections and parameters together

Whatever the tag words and whatever the lines are: after every line the current section is the last
one, a description is open only in a section, and the sections divide the parameters. A parameter
that waits for its name belongs to no section yet, so it may be attached to the section in which it
gets its name.
-/

namespace ChartDocs.Markup

open Text

/-- A tag makes a parameter that belongs to no section. -/
theorem TagKind.sectionName_build (kind : TagKind) (tag : TagLine) :
    (kind.build tag).sectionName = none := by
  rw [build_eq]

namespace State

/-- The current section is the last one, only in a section is a description open, the sections
divide the parameters, and the waiting parameter belongs to no section. -/
structure Grouped (s : State) : Prop where
  current : s.current = lastPosition? s.catalog.sections.length
  capturing : s.capturing = true → s.current.isSome
  catalog : ∃ start, s.catalog.Grouped start
  pending : ∀ p, s.pending = some p → p.sectionName = none

/-- The states after each of some lines. -/
def states (settings : Settings) : List (List Char) → State → List State
  | [], _ => []
  | line :: rest, s =>
    s.step settings line rest.head? :: states settings rest (s.step settings line rest.head?)

/-- A run ends in the last of its states. -/
theorem run_eq_getLast (settings : Settings) (ls : List (List Char)) (s : State) :
    run settings ls s = ((states settings ls s).getLast?).getD s := by
  induction ls generalizing s with
  | nil => rfl
  | cons line rest ih =>
    rw [run, ih, states, List.getLast?_cons]
    rfl

namespace Grouped

variable {s : State}

/-- At the beginning the sections divide the parameters. -/
theorem empty : Grouped {} where
  current := rfl
  capturing h := absurd h (by decide)
  catalog := ⟨0, .empty⟩
  pending _ h := absurd h (by simp)

/-- The sections are empty, or the last of them is the current one. -/
theorem current_cases (h : s.Grouped) :
    s.current = none ∧ s.catalog.sections = [] ∨
      ∃ before g, s.current = some before.length ∧ s.catalog.sections = before ++ [g] := by
  rcases List.eq_nil_or_concat s.catalog.sections with hnil | ⟨before, g, hlast⟩
  · exact Or.inl ⟨by rw [h.current, hnil]; rfl, hnil⟩
  · rw [List.concat_eq_append] at hlast
    have hlength : s.catalog.sections.length = before.length + 1 := by
      rw [hlast, List.length_append, List.length_singleton]
    exact Or.inr ⟨before, g, by rw [h.current, hlength]; rfl, hlast⟩

/-- A line of an open description is added to the last section. -/
theorem describe_of_capturing (h : s.Grouped) (hcapturing : s.capturing = true)
    (text : List Char) :
    ∃ before g, s.catalog.sections = before ++ [g] ∧
      (s.describe text).catalog.sections = before ++ [g.addLine (String.ofList text)] := by
  rcases h.current_cases with ⟨hnone, -⟩ | ⟨before, g, hcurrent, hlast⟩
  · have hsome := h.capturing hcapturing
    rw [hnone] at hsome
    exact absurd hsome (by decide)
  · refine ⟨before, g, hlast, ?_⟩
    rw [describe, hcurrent]
    dsimp only [Catalog.addLine]
    rw [hlast, Catalog.modify_concat]

/-- A parameter goes to the last section. -/
theorem attach (h : s.Grouped) {p : Parameter} (hp : p.sectionName = none) :
    (s.attach p).Grouped := by
  obtain ⟨start, hcatalog⟩ := h.catalog
  refine ⟨?_, h.capturing, ?_, h.pending⟩
  · have hlength := Catalog.length_sections_attach s.catalog p s.current
    rw [State.attach]
    dsimp only
    rw [hlength, h.current]
  · rw [State.attach]
    dsimp only
    rcases h.current_cases with ⟨hnone, hnil⟩ | ⟨before, g, hcurrent, hlast⟩
    · rw [hnone]
      exact ⟨_, hcatalog.attach_none hnil hp⟩
    · rw [hcurrent]
      exact ⟨start, hcatalog.attach_last hlast hp⟩

/-- The waiting parameter may be replaced by any that belongs to no section. -/
theorem wait (h : s.Grouped) {pending : Option Parameter}
    (hpending : ∀ p, pending = some p → p.sectionName = none) :
    Grouped { s with pending } :=
  ⟨h.current, h.capturing, h.catalog, hpending⟩

/-- A waiting parameter goes to the last section when it gets its name. -/
theorem resolve (h : s.Grouped) (path : List Char) : (s.resolve path).Grouped := by
  rw [State.resolve]
  split
  · next p hp =>
    have hwait : Grouped { s with pending := none } := h.wait fun _ hnone => absurd hnone (by simp)
    exact hwait.attach (h.pending p hp)
  · exact h

/-- A new section becomes the last one and the current one. -/
theorem takeGroup (h : s.Grouped) (name : List Char) : (s.takeGroup name).Grouped := by
  obtain ⟨start, hcatalog⟩ := h.catalog
  have hlength : (s.catalog.addSection { name := String.ofList name }).sections.length =
      s.catalog.sections.length + 1 := List.length_append
  refine ⟨?_, fun _ => rfl, ⟨start, hcatalog.addSection _⟩, h.pending⟩
  rw [State.takeGroup]
  dsimp only
  rw [hlength]
  rfl

/-- A line of description leaves the parameters where they are. -/
theorem describe (h : s.Grouped) (text : List Char) : (s.describe text).Grouped := by
  obtain ⟨start, hcatalog⟩ := h.catalog
  rw [State.describe]
  split
  · next owner hcurrent =>
    have hlength : (s.catalog.addLine owner (String.ofList text)).sections.length =
        s.catalog.sections.length := List.length_modify _ _ _
    have houtlines := Catalog.outlines_addLine s.catalog owner (String.ofList text)
    refine ⟨?_, h.capturing, ⟨start, hcatalog.of_outlines houtlines rfl⟩, h.pending⟩
    dsimp only
    rw [hlength, h.current]
  · exact h

/-- What a line changes keeps sections and parameters together. -/
theorem of_change {settings : Settings} {line : List Char} {t : State}
    (hchange : Change settings line s t) (h : s.Grouped) : t.Grouped := by
  cases hchange with
  | trail => exact ⟨h.current, h.capturing, h.catalog, h.pending⟩
  | resolve path => exact h.resolve path
  | attach => exact h.attach (TagKind.sectionName_build _ _)
  | wait => exact h.wait fun p hsome => Option.some.inj hsome ▸ TagKind.sectionName_build _ _
  | group => exact h.takeGroup _
  | closing =>
    exact ⟨h.current, fun hclosed => absurd hclosed Bool.false_ne_true, h.catalog, h.pending⟩
  | opening hcurrent => exact ⟨h.current, fun _ => hcurrent, h.catalog, h.pending⟩
  | describe => exact h.describe _

/-- Every line keeps sections and parameters together. -/
theorem step (h : s.Grouped) (settings : Settings) (line : List Char)
    (next : Option (List Char)) : (s.step settings line next).Grouped :=
  step_of_change (fun _ _ hchange => of_change hchange) h next

/-- After each of some lines sections and parameters are together. -/
theorem of_mem_states (h : s.Grouped) {settings : Settings} {ls : List (List Char)} {t : State}
    (ht : t ∈ states settings ls s) : t.Grouped := by
  induction ls generalizing s with
  | nil => exact absurd ht List.not_mem_nil
  | cons line rest ih =>
    rcases List.mem_cons.mp ht with rfl | ht
    · exact h.step settings line rest.head?
    · exact ih (h.step settings line rest.head?) ht

end Grouped

end State

/-- After every line of a text, under any settings, the current section is the last one, a
description is open only in a section, where it takes every line, and the sections divide the
parameters. So the sections of the catalog, one after the other, show all its parameters but those
that come before the first of them. -/
theorem grouped_states (settings : Settings) (text : String) :
    (∀ s ∈ State.states settings (lines text.toList) {}, s.Grouped ∧
      (s.capturing = true → ∀ line, ∃ before g, s.catalog.sections = before ++ [g] ∧
        (s.describe line).catalog.sections = before ++ [g.addLine (String.ofList line)])) ∧
    ∃ start, (Catalog.ofText settings text).Grouped start ∧
      List.range start ++ (Catalog.ofText settings text).sections.flatMap (·.members) =
        List.range (Catalog.ofText settings text).parameters.length ∧
      (Catalog.ofText settings text).sections.flatMap (Catalog.ofText settings text).members =
        (Catalog.ofText settings text).parameters.drop start := by
  have hall : ∀ s ∈ State.states settings (lines text.toList) {}, s.Grouped :=
    fun s hs => State.Grouped.empty.of_mem_states hs
  refine ⟨fun s hs => ⟨hall s hs, (hall s hs).describe_of_capturing⟩, ?_⟩
  have hlast : (State.run settings (lines text.toList) {}).Grouped := by
    rw [State.run_eq_getLast]
    cases hget : (State.states settings (lines text.toList) {}).getLast? with
    | none => exact State.Grouped.empty
    | some s => exact hall s (List.mem_of_getLast? hget)
  obtain ⟨start, hgrouped⟩ := hlast.catalog
  exact ⟨start, hgrouped, hgrouped.range_append_members, hgrouped.flatMap_members⟩

end ChartDocs.Markup
