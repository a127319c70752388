import ChartDocs.Proofs.Catalog.Accounting
import ChartDocs.Proofs.Path.Ancestry
import Mathlib.Data.List.Basic

/-!
# What a check finds

A check compares names as texts. Where every name is the path text of plain segments, it sees the
same as a comparison of segments: a skipped parameter silences a key exactly if its segments are the
first ones of the key, so `extraDeploy` silences `extraDeploy[0].kind` and not `extraDeployments`.
The findings are then the observed keys that are neither documented nor silenced, followed by the
documented ones that had to be observed and were not.
-/

namespace ChartDocs

open ChartDocs.Path

namespace Path

/-- A name is the path text of plain segments, of at least one. -/
structure Canonical (name : String) (steps : List Segment) : Prop where
  nonempty : steps ≠ []
  plain : ∀ s ∈ steps, s.IsPlain
  text : name.toList = render steps

instance (name : String) (steps : List Segment) : Decidable (Canonical name steps) :=
  decidable_of_iff (steps ≠ [] ∧ (∀ s ∈ steps, s.IsPlain) ∧ name.toList = render steps)
    ⟨fun ⟨nonempty, plain, text⟩ => ⟨nonempty, plain, text⟩, fun h => ⟨h.1, h.2, h.3⟩⟩

end Path

/-- A parameter covers the keys whose segments start with its own. -/
theorem Parameter.covers_iff_of_canonical {p : Parameter} {path : String}
    {above below : List Segment} (hp : Canonical p.name above) (hpath : Canonical path below) :
    p.covers path = true ↔ above <+: below := by
  rw [← String.ofList_toList (s := path), covers_ofList_iff, hp.text, hpath.text]
  exact exists_render_eq_append_iff hp.nonempty hp.plain hpath.plain

namespace Catalog

variable {c : Catalog} {observed : List Parameter} {steps : String → List Segment}

/-- A key that no parameter documents and no skipped one silences, where `steps` reads names. -/
def Undocumented (c : Catalog) (steps : String → List Segment) (name : String) : Prop :=
  (∀ p ∈ c.parameters, p.name ≠ name) ∧
    ∀ p ∈ c.parameters, p.skip = true → ¬steps p.name <+: steps name

instance (c : Catalog) (steps : String → List Segment) (name : String) :
    Decidable (c.Undocumented steps name) :=
  inferInstanceAs (Decidable (_ ∧ _))

/-- A documented parameter, neither skipped nor extra, whose name was not observed. -/
def Unobserved (observed : List Parameter) (p : Parameter) : Prop :=
  p.skip = false ∧ p.extra = false ∧ ∀ seen ∈ observed, seen.name ≠ p.name

instance (observed : List Parameter) (p : Parameter) : Decidable (Unobserved observed p) :=
  inferInstanceAs (Decidable (_ ∧ _))

/-- A key is accounted for unless it is undocumented. -/
theorem not_accountsFor_iff {name : String}
    (hdocumented : ∀ p ∈ c.parameters, Canonical p.name (steps p.name))
    (hname : Canonical name (steps name)) :
    (!c.accountsFor name) = true ↔ c.Undocumented steps name := by
  rw [Bool.not_eq_true', ← Bool.not_eq_true, accountsFor_iff]
  constructor
  · intro h
    refine ⟨fun p hp hsame => h ⟨p, hp, Or.inl hsame⟩, fun p hp hskip hfirst => ?_⟩
    have hcovers := (Parameter.covers_iff_of_canonical (hdocumented p hp) hname).mpr hfirst
    exact h ⟨p, hp, Or.inr ⟨hskip, hcovers⟩⟩
  · rintro ⟨hnew, hloud⟩ ⟨p, hp, hsame | ⟨hskip, hcovers⟩⟩
    · exact hnew p hp hsame
    · have hfirst := (Parameter.covers_iff_of_canonical (hdocumented p hp) hname).mp hcovers
      exact hloud p hp hskip hfirst

/-- What must be observed and is not is unobserved. -/
theorem requiresValue_and_iff {p : Parameter} :
    (requiresValue p && !observed.any (·.name = p.name)) = true ↔ Unobserved observed p := by
  simp [requiresValue, Unobserved, and_assoc]

/-- The findings are those of a comparison of segments. -/
theorem findings_eq_of_canonical
    (hdocumented : ∀ p ∈ c.parameters, Canonical p.name (steps p.name))
    (hobserved : ∀ seen ∈ observed, Canonical seen.name (steps seen.name)) :
    c.findings observed =
      (observed.filter (c.Undocumented steps ·.name)).map (⟨.missingMetadata, ·.name⟩) ++
        (c.parameters.filter (Unobserved observed ·)).map (⟨.missingValue, ·.name⟩) := by
  rw [findings]
  congr 2
  · refine List.filter_congr fun seen hseen => ?_
    rw [Bool.eq_iff_iff, decide_eq_true_eq]
    exact not_accountsFor_iff hdocumented (hobserved seen hseen)
  · refine List.filter_congr fun p _ => ?_
    rw [Bool.eq_iff_iff, decide_eq_true_eq]
    exact requiresValue_and_iff

end Catalog

/-- The paths of a report are those of its findings, the undocumented keys first. -/
theorem Report.paths_append_paths (source : String) (c : Catalog) (observed : List Parameter) :
    (Report.of source c observed).paths .missingMetadata ++
        (Report.of source c observed).paths .missingValue =
      (Report.of source c observed).findings.map (·.path) := by
  simp [Report.paths, Report.of, Catalog.findings, List.filter_map, Function.comp_def,
    List.filter_false]

namespace Catalog

/-- Where names are canonical, a check finds exactly the observed keys that are undocumented, in
their order and as often as they were observed, and then the documented parameters that were not
observed, in their order. The report on it succeeds exactly if there are none, and its paths of
either kind are the paths of these findings. -/
theorem findings_are_mismatches (c : Catalog) (observed : List Parameter)
    (steps : String → List Segment)
    (hdocumented : ∀ p ∈ c.parameters, Canonical p.name (steps p.name))
    (hobserved : ∀ seen ∈ observed, Canonical seen.name (steps seen.name)) (source : String) :
    c.findings observed =
        (observed.filter (c.Undocumented steps ·.name)).map (⟨.missingMetadata, ·.name⟩) ++
          (c.parameters.filter (Unobserved observed ·)).map (⟨.missingValue, ·.name⟩) ∧
      (Report.of source c observed).findings = c.findings observed ∧
      ((Report.of source c observed).success = true ↔
        (∀ seen ∈ observed, ¬c.Undocumented steps seen.name) ∧
          ∀ p ∈ c.parameters, ¬Unobserved observed p) ∧
      (Report.of source c observed).paths .missingMetadata ++
          (Report.of source c observed).paths .missingValue =
        (Report.of source c observed).findings.map (·.path) := by
  have hfindings := findings_eq_of_canonical hdocumented hobserved
  refine ⟨hfindings, rfl, ?_, Report.paths_append_paths source c observed⟩
  rw [Report.of, List.isEmpty_iff, hfindings, List.append_eq_nil_iff, List.map_eq_nil_iff,
    List.map_eq_nil_iff, List.filter_eq_nil_iff, List.filter_eq_nil_iff]
  simp only [decide_eq_true_eq]

/-- A documentation with a skipped key, an extra one, one that is documented twice and one that does
not exist. -/
def partlySkipped : Catalog where
  parameters := [{ name := "extraDeploy", skip := true }, { name := "image.tag" },
    { name := "note", extra := true }, { name := "ghost" }, { name := "ghost" },
    { name := "hosts[1]", skip := true }]

/-- Keys that start with the text of a skipped one, above it, below it and beside it. -/
def loudKeys : List Parameter :=
  [{ name := "extraDeploy[0].kind" }, { name := "extraDeployments" }, { name := "hosts" },
    { name := "hosts[1][0]" }, { name := "hosts[10]" }, { name := "image.tag" },
    { name := "extraDeployments" }]

/-- Only keys below a skipped one are silenced. -/
theorem findings_partlySkipped :
    (∀ p ∈ partlySkipped.parameters, Canonical p.name (segments p.name.toList)) ∧
      (∀ seen ∈ loudKeys, Canonical seen.name (segments seen.name.toList)) ∧
      partlySkipped.findings loudKeys =
        [⟨.missingMetadata, "extraDeployments"⟩, ⟨.missingMetadata, "hosts"⟩,
          ⟨.missingMetadata, "hosts[10]"⟩, ⟨.missingMetadata, "extraDeployments"⟩,
          ⟨.missingValue, "ghost"⟩, ⟨.missingValue, "ghost"⟩] ∧
      (Report.of "values.yaml" partlySkipped loudKeys).success = false := by
  have hdocumented :
      ∀ p ∈ partlySkipped.parameters, Canonical p.name (segments p.name.toList) := by
    decide +kernel
  have hobserved : ∀ seen ∈ loudKeys, Canonical seen.name (segments seen.name.toList) := by
    decide +kernel
  obtain ⟨hfindings, -, hsuccess, -⟩ := findings_are_mismatches partlySkipped loudKeys
    (fun name => segments name.toList) hdocumented hobserved "values.yaml"
  refine ⟨hdocumented, hobserved, hfindings.trans (by decide +kernel), ?_⟩
  rw [← Bool.not_eq_true, hsuccess]
  decide +kernel

end Catalog

end ChartDocs
