import ChartDocs.Proofs.Catalog.Attaching

/-!
# Sections divide the parameters

A catalog that grows by attaching parameters to its last section is divided by its sections: up to
some position parameters belong to no section, and from there on the sections list all positions in
order. So no parameter is lost, none is listed twice, and every member of a section knows its name.
-/

namespace ChartDocs.Catalog

/-- The sections list the positions from some position on, and the parameters before it belong to
none. -/
structure Grouped (c : Catalog) (start : Nat) : Prop where
  start_le : start ≤ c.parameters.length
  loose : ∀ p ∈ c.parameters.take start, p.sectionName = none
  members : c.sections.flatMap (·.members) = List.range' start (c.parameters.length - start)
  names : ∀ s ∈ c.sections, ∀ i ∈ s.members,
    (c.parameters[i]?).map (·.sectionName) = some (some s.name)

/-- The elements at consecutive positions. -/
theorem filterMap_getElem?_range' {α : Type} (l : List α) (start count : Nat) :
    (List.range' start count).filterMap (l[·]?) = (l.drop start).take count := by
  induction count generalizing start with
  | zero => simp
  | succ count ih =>
    rw [List.range'_succ, List.filterMap_cons, ih]
    by_cases h : start < l.length
    · rw [List.getElem?_eq_getElem h, List.drop_eq_getElem_cons h, List.take_succ_cons]
    · have hout : l.length ≤ start := Nat.le_of_not_lt h
      rw [List.getElem?_eq_none hout, List.drop_eq_nil_of_le hout,
        List.drop_eq_nil_of_le (Nat.le_succ_of_le hout), List.take_nil, List.take_nil]

namespace Grouped

variable {c d : Catalog} {start : Nat}

/-- The empty catalog is grouped. -/
theorem empty : Grouped {} 0 where
  start_le := Nat.le_refl 0
  loose _ hp := absurd hp List.not_mem_nil
  members := rfl
  names _ hs := absurd hs List.not_mem_nil

/-- A member of a section is the position of a parameter. -/
theorem lt_of_mem (h : c.Grouped start) {s : Section} (hs : s ∈ c.sections) {i : Nat}
    (hi : i ∈ s.members) : i < c.parameters.length := by
  have hmem : i ∈ c.sections.flatMap (·.members) := List.mem_flatMap.mpr ⟨s, hs, hi⟩
  rw [h.members, List.mem_range'_1] at hmem
  have hle := h.start_le
  omega

/-- The positions outside sections and those that the sections list are all positions, each
once. -/
theorem range_append_members (h : c.Grouped start) :
    List.range start ++ c.sections.flatMap (·.members) = List.range c.parameters.length := by
  have hsplit := @List.range'_append_1 0 start (c.parameters.length - start)
  rw [Nat.zero_add, Nat.add_sub_of_le h.start_le] at hsplit
  rw [h.members, List.range_eq_range', hsplit, List.range_eq_range']

/-- The sections, one after the other, show all parameters from some position on. -/
theorem flatMap_members (h : c.Grouped start) :
    c.sections.flatMap c.members = c.parameters.drop start := by
  have hmembers : c.sections.flatMap c.members =
      (c.sections.flatMap (·.members)).filterMap (c.parameters[·]?) := by
    rw [List.filterMap_flatMap]
    rfl
  rw [hmembers, h.members, filterMap_getElem?_range', ← List.length_drop, List.take_length]

/-- Descriptions do not matter. -/
theorem of_outlines (h : c.Grouped start) (houtlines : d.outlines = c.outlines)
    (hparameters : d.parameters = c.parameters) : d.Grouped start where
  start_le := by rw [hparameters]; exact h.start_le
  loose := by rw [hparameters]; exact h.loose
  members := by
    have hread (c : Catalog) : c.sections.flatMap (·.members) = c.outlines.flatMap Prod.snd := by
      rw [outlines, List.flatMap_map]
      rfl
    rw [hread, houtlines, ← hread, h.members, hparameters]
  names s hs i hi := by
    have hmem : s.outline ∈ c.outlines := by
      rw [← houtlines]
      exact List.mem_map_of_mem hs
    obtain ⟨s', hs', hsame⟩ := List.mem_map.mp hmem
    obtain ⟨hname, hmembers⟩ := Prod.mk.inj hsame
    rw [hparameters, ← hname]
    exact h.names s' hs' i (hmembers ▸ hi)

/-- A new section has no members yet. -/
theorem addSection (h : c.Grouped start) (name : String) :
    (c.addSection { name }).Grouped start where
  start_le := h.start_le
  loose := h.loose
  members := by
    rw [Catalog.addSection, List.flatMap_append, h.members]
    exact List.append_nil _
  names s hs i hi := by
    rcases List.mem_append.mp hs with hs | hs
    · exact h.names s hs i hi
    · obtain rfl := List.mem_singleton.mp hs
      exact absurd hi List.not_mem_nil

/-- Without sections all parameters are outside sections. -/
theorem start_eq_length (h : c.Grouped start) (hnone : c.sections = []) :
    start = c.parameters.length := by
  have hlength := congrArg List.length h.members
  rw [hnone, List.flatMap_nil, List.length_nil, List.length_range'] at hlength
  have hle := h.start_le
  omega

/-- A parameter that is attached to no section stands after others that belong to none. -/
theorem attach_none (h : c.Grouped start) (hnone : c.sections = []) {p : Parameter}
    (hp : p.sectionName = none) : (c.attach p none).Grouped (c.parameters.length + 1) where
  start_le := Nat.le_of_eq (length_parameters_attach c p none).symm
  loose q hq := by
    have hall := h.loose
    rw [h.start_eq_length hnone, List.take_length] at hall
    rcases List.mem_append.mp (List.mem_of_mem_take hq) with hq | hq
    · exact hall q hq
    · rw [List.mem_singleton.mp hq, hp]
  members := by
    rw [length_parameters_attach, Nat.sub_self]
    exact congrArg (List.flatMap (·.members)) hnone
  names s hs := by
    have hs : s ∈ c.sections := hs
    rw [hnone] at hs
    exact absurd hs List.not_mem_nil

/-- A parameter that is attached to the last section is its next member. -/
theorem attach_last (h : c.Grouped start) {before : List Section} {g : Section}
    (hlast : c.sections = before ++ [g]) {p : Parameter} (hp : p.sectionName = none) :
    (c.attach p (some before.length)).Grouped start := by
  have hsections : (c.attach p (some before.length)).sections =
      before ++ [g.addMember c.parameters.length] := by
    rw [sections_attach_some, hlast, modify_concat]
  have hparameters : (c.attach p (some before.length)).parameters =
      c.parameters ++ [{ p with sectionName := some g.name }] := by
    rw [parameters_attach c hp, ownerName?, Option.bind_some, hlast, List.getElem?_concat_length]
    rfl
  have hle := h.start_le
  have hmembers := h.members
  rw [hlast, List.flatMap_append] at hmembers
  refine ⟨?_, ?_, ?_, ?_⟩
  · rw [length_parameters_attach]
    exact Nat.le_succ_of_le hle
  · rw [hparameters, List.take_append_of_le_length hle]
    exact h.loose
  · have hcount : c.parameters.length + 1 - start = c.parameters.length - start + 1 := by omega
    have hnext : start + (c.parameters.length - start) = c.parameters.length := by omega
    rw [length_parameters_attach, hcount, List.range'_1_concat, ← hmembers, hsections, hnext]
    simp [Section.addMember]
  · intro s hs i hi
    rw [hsections] at hs
    have hold : ∀ s ∈ c.sections, ∀ i ∈ s.members,
        ((c.attach p (some before.length)).parameters[i]?).map (·.sectionName) =
          some (some s.name) := by
      intro s hs i hi
      rw [hparameters, List.getElem?_append_left (h.lt_of_mem hs hi)]
      exact h.names s hs i hi
    rw [hlast] at hold
    rcases List.mem_append.mp hs with hs | hs
    · exact hold s (List.mem_append_left _ hs) i hi
    · obtain rfl := List.mem_singleton.mp hs
      rcases List.mem_append.mp hi with hi | hi
      · exact hold g (by simp) i hi
      · rw [List.mem_singleton.mp hi, hparameters, List.getElem?_concat_length]
        rfl

end Grouped

end ChartDocs.Catalog
