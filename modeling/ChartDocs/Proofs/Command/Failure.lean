import ChartDocs.Command.Run
import ChartDocs.Proofs.Files.Writing

/-!
# What a failed command leaves behind

A plan that fails writes nothing. Files are written in order and the first that cannot be written
ends the run, so a failed run leaves behind exactly the files before that one. Generating writes the
README first and the schema second; it leaves something behind only if the README was written and
the schema could not be.
-/

namespace ChartDocs

namespace Files

/-- A run of writes that fails has done all writes before the first that fails. -/
theorem exists_fault_of_writeAll {files after : Files} {directories : Directories}
    {writes : List (String × String)} {failure : Failure}
    (h : files.writeAll writes directories = (after, some failure)) :
    ∃ done path text rest fault, writes = done ++ (path, text) :: rest ∧
      files.writeAll done directories = (after, none) ∧
      after.write path text directories = .error fault ∧ failure = .write path fault := by
  induction writes generalizing files with
  | nil => simp [writeAll] at h
  | cons first rest ih =>
    obtain ⟨path, text⟩ := first
    rw [writeAll] at h
    cases hwrite : files.write path text directories with
    | ok next =>
      rw [hwrite] at h
      obtain ⟨done, path', text', rest', fault, rfl, hdone, hfault, hfailure⟩ := ih h
      refine ⟨(path, text) :: done, path', text', rest', fault, rfl, ?_, hfault, hfailure⟩
      rw [writeAll, hwrite]
      exact hdone
    | error fault =>
      rw [hwrite] at h
      obtain ⟨rfl, hfailure⟩ := Prod.mk.inj h
      exact ⟨[], path, text, rest, fault, rfl, rfl, hwrite, (Option.some.inj hfailure).symm⟩

end Files

namespace Command

/-- Showing a dump writes nothing. -/
theorem writes_showDump (dumped : Dump.Dumped) (failure : Option Failure) :
    (Plan.showDump dumped failure).writes = [] := by
  cases dumped <;> rfl

/-- Checking writes nothing. -/
theorem writes_planCheck (read : Reader) (file : String) (settings : Option String)
    (format : Dump.Format) : (planCheck read file settings format).writes = [] := by
  unfold planCheck
  split
  · rfl
  · split
    · rfl
    · exact writes_showDump _ _

/-- Showing the catalog writes nothing. -/
theorem writes_planMetadata (read : Reader) (file : String) (settings : Option String)
    (format : Dump.Format) : (planMetadata read file settings format).writes = [] := by
  unfold planMetadata
  split
  · rfl
  · split
    · rfl
    · exact writes_showDump _ _

/-- Showing the observed values writes nothing. -/
theorem writes_planValues (read : Reader) (file : String) (format : Dump.Format) :
    (planValues read file format).writes = [] := by
  unfold planValues
  split
  · rfl
  · split
    · exact writes_showDump _ _
    · rfl

/-- What is written for a prepared catalog: the README before the schema, or nothing. -/
theorem writes_planOutputs (read : Reader) (settings : Settings) (catalog : Catalog)
    (readme schema : Option String) :
    let plan := planOutputs read settings catalog readme schema
    plan.writes = [] ∨ plan.failure = none ∧ (plan.writes = schemaWrites catalog schema ∨
      ∃ path text, readme = some path ∧ newReadme read settings catalog path = .ok text ∧
        plan.writes = (path, text) :: schemaWrites catalog schema) := by
  intro plan
  cases readme with
  | none =>
    cases schema with
    | none => exact Or.inl rfl
    | some path => exact Or.inr ⟨rfl, Or.inl rfl⟩
  | some path =>
    cases hnew : newReadme read settings catalog path with
    | error failure =>
      have hplan : plan = .fail failure := by simp only [plan, planOutputs, hnew]
      exact Or.inl (by rw [hplan]; rfl)
    | ok text =>
      have hplan : plan = { writes := (path, text) :: schemaWrites catalog schema } := by
        simp only [plan, planOutputs, hnew]
      rw [hplan]
      exact Or.inr ⟨rfl, Or.inr ⟨path, text, rfl, hnew, rfl⟩⟩

/-- What generating writes, it writes for a catalog that was prepared under loaded settings. -/
theorem writes_planGenerate (read : Reader) (file : String)
    (readme schema settings : Option String) :
    let plan := planGenerate read file readme schema settings
    plan.writes = [] ∨ plan.failure = none ∧ ∃ loaded catalog,
      readSettings read settings = .ok loaded ∧ readPrepared read loaded file = .ok catalog ∧
        (plan.writes = schemaWrites catalog schema ∨
          ∃ path text, readme = some path ∧ newReadme read loaded catalog path = .ok text ∧
            plan.writes = (path, text) :: schemaWrites catalog schema) := by
  intro plan
  cases hsettings : readSettings read settings with
  | error failure =>
    have hplan : plan = .fail failure := by simp only [plan, planGenerate, hsettings]
    exact Or.inl (by rw [hplan]; rfl)
  | ok loaded =>
    cases hprepared : readPrepared read loaded file with
    | error failure =>
      have hplan : plan = .fail failure := by simp only [plan, planGenerate, hsettings, hprepared]
      exact Or.inl (by rw [hplan]; rfl)
    | ok catalog =>
      have hplan : plan = planOutputs read loaded catalog readme schema := by
        simp only [plan, planGenerate, hsettings, hprepared]
      rw [hplan]
      rcases writes_planOutputs read loaded catalog readme schema with hnone | ⟨hok, hwrites⟩
      · exact Or.inl hnone
      · exact Or.inr ⟨hok, loaded, catalog, rfl, hprepared, hwrites⟩

/-- A plan that fails writes nothing. -/
theorem writes_eq_nil_of_failure (read : Reader) (command : Command)
    (h : (plan read command).failure.isSome) : (plan read command).writes = [] := by
  cases command with
  | generate file readme schema settings =>
    rcases writes_planGenerate read file readme schema settings with hnone | ⟨hok, -⟩
    · exact hnone
    · have hplan : plan read (.generate file readme schema settings) =
          planGenerate read file readme schema settings := rfl
      rw [hplan, hok] at h
      exact absurd h (by simp)
  | check file settings format => exact writes_planCheck read file settings format
  | metadata file settings format => exact writes_planMetadata read file settings format
  | values file format => exact writes_planValues read file format
  | version => rfl
  | help topic => rfl

/-- A README is only brought up to date if it can be read. -/
theorem exists_content_of_newReadme {read : Reader} {settings : Settings} {catalog : Catalog}
    {path text : String} (h : newReadme read settings catalog path = .ok text) :
    ∃ content, read path = .ok content := by
  rw [newReadme] at h
  cases hread : read path with
  | error fault => simp [hread] at h
  | ok content => exact ⟨content, rfl⟩

/-- A run fails because its plan does, and then it writes nothing, or because of a write. -/
theorem failure_run (command : Command) (files : Files) (directories : Directories)
    (h : (command.run files directories).exitCode = 1) :
    let plan := command.plan (files.read · directories)
    let outcome := command.run files directories
    outcome.files = files ∨
      ∃ failure, files.writeAll plan.writes directories = (outcome.files, some failure) ∧
        outcome.failure = some failure := by
  intro plan outcome
  have hfiles : outcome.files = (files.writeAll plan.writes directories).1 := rfl
  have hfailure : outcome.failure =
      (plan.failure <|> (files.writeAll plan.writes directories).2) := rfl
  -- A plan that fails writes nothing, so a run that wrote something failed in a write.
  cases hplan : plan.failure with
  | some failure =>
    have hnone : plan.writes = [] := writes_eq_nil_of_failure _ command (by rw [hplan]; rfl)
    exact Or.inl (by rw [hfiles, hnone, Files.writeAll])
  | none =>
    rw [hplan] at hfailure
    cases hwrites : (files.writeAll plan.writes directories).2 with
    | none =>
      have hsome : outcome.failure.isSome = true := by
        by_contra hnot
        rw [Outcome.exitCode, if_neg hnot] at h
        exact absurd h (by decide)
      rw [hfailure, hwrites] at hsome
      exact absurd hsome (by decide)
    | some failure =>
      exact Or.inr ⟨failure, by rw [hfiles, ← hwrites], hfailure.trans hwrites⟩

/-- The only write for a schema is its own. -/
theorem of_schemaWrites_eq_append {catalog : Catalog} {schema : Option String}
    {done rest : List (String × String)} {path text : String}
    (h : schemaWrites catalog schema = done ++ (path, text) :: rest) :
    done = [] ∧ schema = some path ∧ text = schemaText catalog := by
  cases schema with
  | none => simp [schemaWrites] at h
  | some schemaPath =>
    cases done with
    | nil =>
      obtain ⟨hfirst, -⟩ := List.cons_eq_cons.mp h
      obtain ⟨rfl, rfl⟩ := Prod.mk.inj hfirst
      exact ⟨rfl, rfl, rfl⟩
    | cons first done => simp [schemaWrites] at h

/-- A run of generating that fails leaves all files as they are, or it has put the new text into the
README and could not write the schema. -/
theorem files_run_generate_of_failure (files : Files) (directories : Directories) (file : String)
    (readme schema settings : Option String)
    (h : ((Command.generate file readme schema settings).run files directories).exitCode = 1) :
    let read := fun path => files.read path directories
    let outcome := (Command.generate file readme schema settings).run files directories
    outcome.files = files ∨
      ∃ readmePath schemaPath fault loaded catalog text,
        readme = some readmePath ∧ schema = some schemaPath ∧
        outcome.failure = some (.write schemaPath fault) ∧
        outcome.files.write schemaPath (schemaText catalog) directories = .error fault ∧
        readSettings read settings = .ok loaded ∧
        readPrepared read loaded file = .ok catalog ∧
        newReadme read loaded catalog readmePath = .ok text ∧
        files.Replaced directories readmePath text outcome.files := by
  intro read outcome
  rcases failure_run _ files directories h with hsame | ⟨failure, hwrites, hfailure⟩
  · exact Or.inl hsame
  · obtain ⟨done, path, text, rest, fault, hsplit, hdone, hfault, rfl⟩ :=
      Files.exists_fault_of_writeAll hwrites
    have hunwritten (hnil : done = []) : outcome.files = files := by
      rw [hnil, Files.writeAll] at hdone
      exact (congrArg Prod.fst hdone).symm
    rcases writes_planGenerate read file readme schema settings with
      hnone | ⟨-, loaded, catalog, hsettings, hprepared, hschema | ⟨readmePath, new, hreadme,
        hnew, hboth⟩⟩
    · exact absurd (hsplit.symm.trans hnone) (by simp)
    · exact Or.inl (hunwritten (of_schemaWrites_eq_append (hschema.symm.trans hsplit)).1)
    · -- With both outputs, either the README itself could not be written or it was written before.
      cases done with
      | nil => exact Or.inl (hunwritten rfl)
      | cons first done =>
        obtain ⟨rfl, htail⟩ := List.cons_eq_cons.mp (hboth.symm.trans hsplit)
        obtain ⟨rfl, hschemaPath, rfl⟩ := of_schemaWrites_eq_append htail
        rw [Files.writeAll] at hdone
        cases hwrite : files.write readmePath new directories with
        | error other => simp [hwrite] at hdone
        | ok next =>
          rw [hwrite] at hdone
          obtain rfl : next = outcome.files := congrArg Prod.fst hdone
          obtain ⟨content, hread⟩ := exists_content_of_newReadme hnew
          exact Or.inr ⟨readmePath, path, fault, loaded, catalog, new, hreadme, hschemaPath,
            hfailure, hfault, hsettings, hprepared, hnew, Files.replaced_of_write hread hwrite⟩

/-- A documented values file and, in another directory, a README with a heading for its tables. -/
def chart : Files where
  entries := [
    (["charts", "web", "values.yaml"],
      .text "## @section Common\n## @param a The a\na: 1\n"),
    (["docs", "README.md"], .text "# Chart\n\n## Parameters\n")]

/-- Generate both outputs from the directory of the values file. The README has an absolute path,
and the schema one out of the working directory into a directory that does not exist. -/
def halfWritten : Outcome :=
  (Command.generate "values.yaml" (some "/docs/README.md") (some "../out/schema.json") none).run
    chart { working := ["charts", "web"] }

/-- The run without a directory for the schema fails. -/
theorem exitCode_halfWritten : halfWritten.exitCode = 1 := by
  decide +kernel

/-- The run without a directory for the schema changes a file. -/
theorem files_halfWritten_ne : halfWritten.files ≠ chart := by
  decide +kernel

/-- The run without a directory for the schema leaves a new README behind. -/
theorem replaced_halfWritten : halfWritten.exitCode = 1 ∧
    ∃ fault text, halfWritten.failure = some (.write "../out/schema.json" fault) ∧
      chart.Replaced { working := ["charts", "web"] } "/docs/README.md" text
        halfWritten.files := by
  rcases files_run_generate_of_failure chart { working := ["charts", "web"] } "values.yaml"
      (some "/docs/README.md") (some "../out/schema.json") none exitCode_halfWritten with
    hsame | ⟨_, _, fault, _, _, text, hreadme, hschema, hfailure, _, _, _, _, hreplaced⟩
  · exact absurd hsame files_halfWritten_ne
  · obtain rfl := Option.some.inj hreadme
    obtain rfl := Option.some.inj hschema
    exact ⟨exitCode_halfWritten, fault, text, hfailure, hreplaced⟩

/-- A failed run of generating can leave a file behind that it has changed. -/
theorem exists_failure_with_changed_files : ¬∀ (files : Files) (directories : Directories)
    (file : String) (readme schema settings : Option String),
    ((Command.generate file readme schema settings).run files directories).exitCode = 1 →
      ((Command.generate file readme schema settings).run files directories).files = files :=
  fun h => files_halfWritten_ne
    (h chart { working := ["charts", "web"] } "values.yaml" (some "/docs/README.md")
      (some "../out/schema.json") none exitCode_halfWritten)

end Command

end ChartDocs
