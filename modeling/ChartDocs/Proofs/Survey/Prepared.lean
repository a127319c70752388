import ChartDocs.Survey
import ChartDocs.Proofs.Catalog.Accounting
import ChartDocs.Proofs.Catalog.Preparing
import ChartDocs.Proofs.Markup.Tagged

/-!
# The prepared catalog of a text

In a survey both sides come from one text: the parameters are documentation only, and what they are
filled with was seen in the values. Hence kind and value of a prepared parameter are known as far as
the comments do not tell a value, and after a check that finds nothing neither is missing.
-/

namespace ChartDocs.Survey

variable {settings : Settings} {source text : String} {survey : Survey} {prepared : Catalog}

/-- Everything observed in a survey is a sighting. -/
theorem sighting_of_mem_observed (h : ofText settings source text = .ok survey) :
    ∀ seen ∈ survey.observed, Sighting seen.kind seen.value := by
  obtain ⟨root, -, rfl⟩ := exists_of_ofText h
  exact fun seen hseen => Value.sighting_of_mem_observed hseen

/-- A prepared parameter that is not skipped comes from one that is documentation only. -/
theorem exists_of_mem_prepare (h : ofText settings source text = .ok survey)
    (hprepare : survey.prepare settings = .ok prepared) {q : Parameter}
    (hq : q ∈ prepared.parameters) (hskip : q.skip = false) :
    ∃ p ∈ survey.catalog.parameters, p.skip = false ∧ p.IsDocumentation ∧
      (p.fillFrom survey.observed).Obeys settings.modifiers q := by
  obtain ⟨p, hp, hunskipped, hobeys⟩ := Catalog.exists_of_mem_prepare hprepare hq hskip
  refine ⟨p, hp, hunskipped, ?_, hobeys⟩
  obtain ⟨root, -, rfl⟩ := exists_of_ofText h
  exact (Markup.fromTag_of_mem_ofText settings text p hp).isDocumentation

/-- Kind and value of a prepared parameter were seen together or are both missing, unless the
comments tell the value alone. -/
theorem sighting_of_mem_prepare (h : ofText settings source text = .ok survey)
    (hprepare : survey.prepare settings = .ok prepared) {q : Parameter}
    (hq : q ∈ prepared.parameters) (hskip : q.skip = false) :
    Sighting q.kind q.value ∨ q.kind = none ∧ q.value = none ∨
      q.TellsValue settings.modifiers := by
  obtain ⟨p, -, -, hdocumentation, hobeys⟩ := exists_of_mem_prepare h hprepare hq hskip
  exact hdocumentation.sighting_of_obeys (sighting_of_mem_observed h) hobeys

/-- If the check of a text finds nothing, then every parameter that is not skipped has a value when
it is prepared, and also a kind unless it is extra. -/
theorem isSome_of_success (h : ofText settings source text = .ok survey)
    (hsuccess : survey.report.success = true)
    (hprepare : survey.prepare settings = .ok prepared) :
    ∀ q ∈ prepared.parameters, q.skip = false →
      q.value.isSome = true ∧ (q.extra = false → q.kind.isSome = true) := by
  intro q hq hskip
  obtain ⟨p, hp, hunskipped, hdocumentation, hobeys⟩ := exists_of_mem_prepare h hprepare hq hskip
  have hfindings : survey.catalog.findings survey.observed = [] := by
    obtain ⟨root, -, rfl⟩ := exists_of_ofText h
    exact List.isEmpty_iff.mp hsuccess
  apply hdocumentation.isSome_of_obeys (sighting_of_mem_observed h) hobeys
  intro hextra
  apply (Catalog.findings_eq_nil_iff.mp hfindings).2 p hp
  unfold Catalog.requiresValue
  rw [hunskipped, hextra]
  rfl

/-- A decidable fact about the survey and the prepared catalog of a text. -/
theorem exists_of_any_prepare (settings : Settings) (source text : String)
    (test : Survey → Catalog → Bool) (h : ((ofText settings source text).toOption.any fun survey =>
      (survey.prepare settings).toOption.any (test survey)) = true) :
    ∃ survey prepared, ofText settings source text = .ok survey ∧
      survey.prepare settings = .ok prepared ∧ test survey prepared = true := by
  cases hsurvey : ofText settings source text with
  | error fault => simp [hsurvey, Except.toOption] at h
  | ok survey =>
    rw [hsurvey, Except.toOption, Option.any_some] at h
    cases hprepare : survey.prepare settings with
    | error unknown => simp [hprepare, Except.toOption] at h
    | ok prepared =>
      rw [hprepare, Except.toOption, Option.any_some] at h
      exact ⟨survey, prepared, rfl, hprepare, h⟩

/-- A text that documents a null key with a default value, a skipped key and an extra parameter. -/
def cacheText : String :=
  "## @param size [default: 64] Entries\nsize:\n## @skip (labels)\nlabels:\n  a: 1\n" ++
    "## @extra (host) Host\n"

/-- The check of this text finds nothing, and after preparing nothing is missing. -/
theorem isSome_cacheText :
    ∃ survey prepared, ofText {} "values.yaml" cacheText = .ok survey ∧
      survey.report.success = true ∧ survey.prepare {} = .ok prepared ∧
      prepared.parameters.map (·.name) = ["size", "labels", "host"] ∧
      ∀ q ∈ prepared.parameters, q.skip = false →
        q.value.isSome = true ∧ (q.extra = false → q.kind.isSome = true) := by
  obtain ⟨survey, prepared, hsurvey, hprepare, htest⟩ :=
    exists_of_any_prepare {} "values.yaml" cacheText
      (fun survey prepared => survey.report.success &&
        decide (prepared.parameters.map (·.name) = ["size", "labels", "host"]))
      (by decide +kernel)
  obtain ⟨hsuccess, hnames⟩ := Bool.and_eq_true_iff.mp htest
  exact ⟨survey, prepared, hsurvey, hsuccess, hprepare, of_decide_eq_true hnames,
    isSome_of_success hsurvey hsuccess hprepare⟩

end ChartDocs.Survey
