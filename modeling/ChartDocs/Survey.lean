import ChartDocs.Markup.Scan
import ChartDocs.Catalog.Finding
import ChartDocs.Catalog.Modifier
import ChartDocs.Observation

/-!
# The survey of a values file

A survey reads one text twice: for its annotations, which give the catalog, and for its values,
which give the observed parameters. The report compares the two.
-/

namespace ChartDocs

/-- The parameters observed in the values of a text. -/
def observedIn (text : String) : Except Yaml.Fault (List Parameter) :=
  match Yaml.read text.toList with
  | .ok root => .ok root.observed
  | .error fault => .error fault

/-- The documentation and the values of one text. -/
structure Survey where
  catalog : Catalog
  observed : List Parameter
  report : Report
deriving DecidableEq, Repr, Inhabited

namespace Survey

/-- The survey of a text under the name of its file. -/
def ofText (settings : Settings) (source text : String) : Except Yaml.Fault Survey :=
  match observedIn text with
  | .error fault => .error fault
  | .ok observed =>
    let catalog := Catalog.ofText settings text
    .ok { catalog, observed, report := .of source catalog observed }

/-- A survey reads comments and values of the text and compares them. -/
theorem exists_of_ofText {settings : Settings} {source text : String} {survey : Survey}
    (h : ofText settings source text = .ok survey) :
    ∃ root, Yaml.read text.toList = .ok root ∧
      survey =
        { catalog := Catalog.ofText settings text
          observed := root.observed
          report := .of source (Catalog.ofText settings text) root.observed } := by
  unfold ofText observedIn at h
  cases hread : Yaml.read text.toList with
  | error fault => simp [hread] at h
  | ok root =>
    rw [hread] at h
    exact ⟨root, rfl, (Except.ok.inj h).symm⟩

/-- The catalog as it is shown: filled with the observed values, with its modifiers obeyed. -/
def prepare (settings : Settings) (survey : Survey) : Except UnknownModifier Catalog :=
  survey.catalog.prepare settings.modifiers survey.observed

end Survey

end ChartDocs
