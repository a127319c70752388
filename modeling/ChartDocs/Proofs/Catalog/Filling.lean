import ChartDocs.Catalog.Filling
import Mathlib.Data.List.Forall2
import Mathlib.Logic.Function.Basic

/-!
# Filling from the first observations

Several observed parameters may have one name. A documented parameter takes kind, place in the
schema and perhaps its value from the first of them, so nothing else about the list of observations
matters: neither the order of different names nor what is repeated later. The first of a name is the
one that remains if the observations are put into a table from the last to the first.
-/

namespace ChartDocs

namespace Parameter

variable {p seen : Parameter} {observed other : List Parameter} {name : String}

/-- A parameter of the list whose name no earlier one has. -/
def IsFirst (observed : List Parameter) (seen : Parameter) : Prop :=
  ∃ before after, observed = before ++ seen :: after ∧ ∀ q ∈ before, q.name ≠ seen.name

/-- What a search by name finds is the first parameter of the list with that name. -/
theorem find?_eq_some_iff_isFirst :
    observed.find? (·.name = name) = some seen ↔ IsFirst observed seen ∧ seen.name = name := by
  rw [List.find?_eq_some_iff_append, decide_eq_true_eq, IsFirst]
  constructor
  · rintro ⟨rfl, before, after, heq, hbefore⟩
    exact ⟨⟨before, after, heq, fun q hq => by simpa using hbefore q hq⟩, rfl⟩
  · rintro ⟨⟨before, after, heq, hbefore⟩, rfl⟩
    exact ⟨rfl, before, after, heq, fun q hq => by simpa using hbefore q hq⟩

/-- Lists with the same first parameters are searched with the same result. -/
theorem find?_eq_of_isFirst_iff (h : ∀ seen, IsFirst other seen ↔ IsFirst observed seen)
    (name : String) : other.find? (·.name = name) = observed.find? (·.name = name) := by
  refine Option.ext fun seen => ?_
  rw [find?_eq_some_iff_isFirst, find?_eq_some_iff_isFirst, h]

/-- Under different names every parameter is the first of its name. -/
theorem isFirst_iff_mem (h : (observed.map (·.name)).Nodup) :
    IsFirst observed seen ↔ seen ∈ observed := by
  constructor
  · rintro ⟨before, after, rfl, -⟩
    exact List.mem_append_right before List.mem_cons_self
  · intro hmem
    obtain ⟨before, after, rfl⟩ := List.append_of_mem hmem
    refine ⟨before, after, rfl, fun q hq => ?_⟩
    rw [List.map_append, List.map_cons, List.nodup_append] at h
    exact h.2.2 q.name (List.mem_map_of_mem hq) seen.name List.mem_cons_self

/-- Different names may be reordered. -/
theorem isFirst_iff_of_perm (h : (observed.map (·.name)).Nodup) (hperm : other.Perm observed) :
    IsFirst other seen ↔ IsFirst observed seen := by
  have hother : (other.map (·.name)).Nodup := (hperm.map _).nodup_iff.mpr h
  rw [isFirst_iff_mem h, isFirst_iff_mem hother, hperm.mem_iff]

/-- What repeats names comes too late. -/
theorem isFirst_append_iff {later : List Parameter}
    (h : ∀ q ∈ later, q.name ∈ observed.map (·.name)) :
    IsFirst (observed ++ later) seen ↔ IsFirst observed seen := by
  constructor
  · rintro ⟨before, after, heq, hbefore⟩
    rcases List.append_eq_append_iff.mp heq with ⟨more, rfl, hlater⟩ | ⟨more, rfl, hmore⟩
    · -- Then the name of the parameter is new, but it stands in the later part.
      have hmem : seen ∈ later := by
        rw [hlater]
        exact List.mem_append_right more List.mem_cons_self
      obtain ⟨q, hq, hname⟩ := List.mem_map.mp (h seen hmem)
      exact absurd hname (hbefore q (List.mem_append_left more hq))
    · cases more with
      | nil =>
        have hmem : seen ∈ later := by
          rw [List.nil_append] at hmore
          exact hmore ▸ List.mem_cons_self
        obtain ⟨q, hq, hname⟩ := List.mem_map.mp (h seen hmem)
        exact absurd hname (hbefore q (by simpa using hq))
      | cons first more =>
        obtain ⟨rfl, -⟩ := List.cons.inj hmore
        exact ⟨before, more, rfl, hbefore⟩
  · rintro ⟨before, after, rfl, hbefore⟩
    exact ⟨before, after ++ later, by simp, hbefore⟩

/-- The table of parameters by name. They are put in one after the other, and each replaces what is
there under its name. -/
def byName (entries : List Parameter) : String → Option Parameter :=
  entries.foldl (fun table p => Function.update table p.name (some p)) fun _ => none

/-- Put in from the last to the first, the first of every name remains. -/
theorem byName_reverse (observed : List Parameter) (name : String) :
    byName observed.reverse name = observed.find? (·.name = name) := by
  rw [byName, List.foldl_reverse]
  induction observed with
  | nil => rfl
  | cons seen rest ih =>
    rw [List.foldr_cons, Function.update_apply, List.find?_cons, ih]
    by_cases hname : name = seen.name
    · simp [hname]
    · simp [hname, Ne.symm hname]

/-- There is no value, or it is null or the empty string. -/
def IsUnset (p : Parameter) : Prop :=
  p.value = none ∨ p.value = some .null ∨ p.value = some (.string "")

instance (p : Parameter) : Decidable p.IsUnset :=
  inferInstanceAs (Decidable (_ ∨ _ ∨ _))

/-- A parameter has no value of its own exactly if its value is unset. -/
theorem hasValue_eq_false_iff : p.hasValue = false ↔ p.IsUnset := by
  unfold hasValue IsUnset
  cases p.value with
  | none => simp
  | some value => cases value <;> simp

/-- What a documented parameter becomes when it is filled. -/
inductive Filled (observed : List Parameter) (p : Parameter) : Parameter → Prop where
  | unobserved (hnone : ∀ seen ∈ observed, seen.name ≠ p.name) : Filled observed p p
  | observed {seen : Parameter} (hfirst : IsFirst observed seen) (hname : seen.name = p.name) :
    Filled observed p
      { p with
        kind := seen.kind
        inSchema := seen.inSchema
        value := if p.extra = false ∧ p.IsUnset then seen.value else p.value }

/-- The value is taken over where there is none and the parameter is not extra. -/
theorem fill_eq (p seen : Parameter) :
    p.fill seen =
      { p with
        kind := seen.kind
        inSchema := seen.inSchema
        value := if p.extra = false ∧ p.IsUnset then seen.value else p.value } := by
  rw [fill]
  congr 1
  simp only [← hasValue_eq_false_iff]
  cases p.hasValue <;> cases p.extra <;> simp

/-- Filling from observations does what is said about filled parameters. -/
theorem filled_fillFrom (observed : List Parameter) (p : Parameter) :
    Filled observed p (p.fillFrom observed) := by
  unfold fillFrom
  cases hfind : observed.find? (·.name = p.name) with
  | none => exact .unobserved (by simpa using hfind)
  | some seen =>
    obtain ⟨hfirst, hname⟩ := find?_eq_some_iff_isFirst.mp hfind
    dsimp only
    rw [fill_eq]
    exact .observed hfirst hname

end Parameter

namespace Catalog

/-- The catalog filled from a table. -/
def fillBy (table : String → Option Parameter) (c : Catalog) : Catalog :=
  { c with parameters := c.parameters.map fun p => (table p.name).elim p p.fill }

/-- Filling uses the table into which the observations are put from the last to the first. -/
theorem fill_eq_fillBy (c : Catalog) (observed : List Parameter) :
    c.fill observed = c.fillBy (Parameter.byName observed.reverse) := by
  rw [fill, fillBy]
  congr 1
  refine List.map_congr_left fun p _ => ?_
  rw [Parameter.byName_reverse, Parameter.fillFrom]
  cases observed.find? (·.name = p.name) <;> rfl

/-- Filling looks at first observations only. -/
theorem fill_eq_of_isFirst_iff (c : Catalog) {observed other : List Parameter}
    (h : ∀ seen, Parameter.IsFirst other seen ↔ Parameter.IsFirst observed seen) :
    c.fill other = c.fill observed := by
  rw [fill, fill]
  congr 1
  refine List.map_congr_left fun p _ => ?_
  rw [Parameter.fillFrom, Parameter.fillFrom, Parameter.find?_eq_of_isFirst_iff h]

/-- Two lists with the same first parameter of every name fill a catalog in the same way; such are
a list of different names in any order, and a list to which parameters with its names are appended.
Sections and the order of parameters stay; each parameter stays as it is or takes kind and place in
the schema from the first observation of its name, and the value too if it has none and is not
extra. -/
theorem fill_by_firsts (c : Catalog) (observed : List Parameter) :
    (∀ other, (∀ seen, Parameter.IsFirst other seen ↔ Parameter.IsFirst observed seen) →
        c.fill other = c.fill observed) ∧
      ((observed.map (·.name)).Nodup → ∀ other, other.Perm observed →
        c.fill other = c.fill observed) ∧
      (∀ later, (∀ q ∈ later, q.name ∈ observed.map (·.name)) →
        c.fill (observed ++ later) = c.fill observed) ∧
      (c.fill observed).sections = c.sections ∧
      List.Forall₂ (Parameter.Filled observed) c.parameters (c.fill observed).parameters ∧
      c.fill observed = c.fillBy (Parameter.byName observed.reverse) := by
  refine ⟨fun other h => c.fill_eq_of_isFirst_iff h, fun hnodup other hperm => ?_,
    fun later hlater => ?_, rfl, ?_, c.fill_eq_fillBy observed⟩
  · exact c.fill_eq_of_isFirst_iff fun _ => Parameter.isFirst_iff_of_perm hnodup hperm
  · exact c.fill_eq_of_isFirst_iff fun _ => Parameter.isFirst_append_iff hlater
  · rw [fill, List.forall₂_map_right_iff, List.forall₂_same]
    exact fun p _ => Parameter.filled_fillFrom observed p

/-- Names that are documented twice, with and without a value, and an extra one. -/
def repeatedPorts : Catalog where
  sections := [{ name := "Ports", members := [1, 0] }]
  parameters := [{ name := "port", value := some (.string "") },
    { name := "port", value := some (.bool false) }, { name := "node", value := some .null },
    { name := "note", extra := true }]

/-- Observations under different names. -/
def firstPorts : List Parameter :=
  [{ name := "port", kind := some .number, value := some (.number (.int 80)) },
    { name := "note", kind := some .string, value := some (.string "x") },
    { name := "node", kind := some .nil, value := some (.string "nil"), inSchema := false }]

/-- Observations that come too late. -/
def latePorts : List Parameter :=
  [{ name := "node", kind := some .array, value := some (.sequence []) }, { name := "port" }]

/-- The observations in another order and with others behind them fill in the same. -/
theorem fill_by_firsts_repeatedPorts :
    (firstPorts.map (·.name)).Nodup ∧ firstPorts.reverse.Perm firstPorts ∧
      (∀ q ∈ latePorts, q.name ∈ firstPorts.reverse.map (·.name)) ∧
      (repeatedPorts.fill firstPorts).parameters.map (fun p => (p.kind, p.value, p.inSchema)) =
        [(some .number, some (.number (.int 80)), true),
          (some .number, some (.bool false), true), (some .nil, some (.string "nil"), false),
          (some .string, none, true)] ∧
      repeatedPorts.fill firstPorts.reverse = repeatedPorts.fill firstPorts ∧
      repeatedPorts.fill (firstPorts.reverse ++ latePorts) =
        repeatedPorts.fill firstPorts.reverse ∧
      repeatedPorts.fill (firstPorts.reverse ++ latePorts) = repeatedPorts.fill firstPorts := by
  have hnodup : (firstPorts.map (·.name)).Nodup := by decide
  have hperm : firstPorts.reverse.Perm firstPorts := List.reverse_perm firstPorts
  have hlate : ∀ q ∈ latePorts, q.name ∈ firstPorts.reverse.map (·.name) := by decide
  obtain ⟨hsame, hreorder, -⟩ := fill_by_firsts repeatedPorts firstPorts
  obtain ⟨-, -, hrepeat, -⟩ := fill_by_firsts repeatedPorts firstPorts.reverse
  refine ⟨hnodup, hperm, hlate, by decide, hreorder hnodup _ hperm, hrepeat _ hlate,
    hsame _ fun seen => ?_⟩
  rw [Parameter.isFirst_append_iff hlate, Parameter.isFirst_iff_of_perm hnodup hperm]

end Catalog

end ChartDocs
