import ChartDocs.Proofs.Catalog.Growing
import ChartDocs.Proofs.Markup.Change
import ChartDocs.Proofs.Text.LineEnds

/-!
# Later text never changes earlier documentation

No line takes anything out of the catalog, so the catalog only grows. Text that is appended has one
more effect: the last line before it now has a line after it, which may name its tag at once. That
adds a parameter early, and the rest of the line adds the same as before. So the catalog of a text
extends the catalog of the lines with which it begins.
-/

namespace ChartDocs.Markup

open Text

namespace State

variable {settings : Settings} {line : List Char}

/-- What is known after a change extends what was known before. -/
theorem extends_of_change {s t : State} (h : Change settings line s t) :
    t.catalog.Extends s.catalog := by
  cases h with
  | trail => exact .refl _
  | resolve path =>
    rw [resolve]
    split
    · exact (Catalog.enriches_attach _ _ _).extends
    · exact .refl _
  | attach => exact (Catalog.enriches_attach _ _ _).extends
  | wait => exact .refl _
  | group => exact Catalog.extends_addSection _ _
  | closing => exact .refl _
  | opening => exact .refl _
  | describe =>
    rw [describe]
    split
    · exact Catalog.extends_addLine _ _ _
    · exact .refl _

/-- What is known after some lines extends what was known before. -/
theorem extends_run (settings : Settings) (ls : List (List Char)) (s : State) :
    (run settings ls s).catalog.Extends s.catalog :=
  run_of_change (P := fun t => t.catalog.Extends s.catalog)
    (fun _ _ _ _ hchange h => (extends_of_change hchange).trans h) (.refl _)

/-- A state that has at most attached more parameters than another one. -/
structure Enriches (s behind : State) : Prop where
  current : s.current = behind.current
  capturing : s.capturing = behind.capturing
  catalog : s.catalog.Enriches behind.catalog

/-- A waiting parameter that gets its name adds at most a parameter. -/
theorem enriches_resolve (s : State) (path : List Char) : (s.resolve path).Enriches s := by
  rw [resolve]
  split
  · exact ⟨rfl, rfl, Catalog.enriches_attach _ _ _⟩
  · exact ⟨rfl, rfl, Catalog.enriches_refl _⟩

/-- A look at the next line attaches at most one more parameter. -/
theorem enriches_onTag (settings : Settings) (kind : TagKind) (line : List Char)
    (next : Option (List Char)) (s : State) :
    (s.onTag settings kind line next).Enriches (s.onTag settings kind line none) := by
  rcases ahead_onTag settings kind line next s with heq | ⟨key, -, heq⟩
  · rw [heq]
    exact ⟨rfl, rfl, Catalog.enriches_refl _⟩
  · rw [heq]
    exact enriches_resolve _ _

namespace Enriches

variable {s behind : State}

/-- A section line is taken in by both states. -/
theorem onSection (h : s.Enriches behind) (settings : Settings) (line : List Char) :
    (s.onSection settings line).Enriches (behind.onSection settings line) := by
  unfold State.onSection
  split
  · exact ⟨congrArg some h.catalog.sections.length_eq, rfl, h.catalog.addSection _⟩
  · exact h

/-- A line of description is taken in by both states. -/
theorem describe (h : s.Enriches behind) (text : List Char) :
    (s.describe text).Enriches (behind.describe text) := by
  unfold State.describe
  rw [h.current]
  split
  · exact ⟨rfl, h.capturing, h.catalog.addLine _ _⟩
  · exact h

/-- The line does the same to both descriptions. -/
theorem describing (h : s.Enriches behind) (settings : Settings) (line : List Char) :
    (s.describing settings line).Enriches (behind.describing settings line) :=
  describing_related (fun _ _ h => h.current) (fun _ _ h => h.capturing)
    (fun _ _ _ h => ⟨h.current, rfl, h.catalog⟩) (fun _ _ _ h => h.describe _) h settings line

end Enriches

/-- A line that holds tags of one kind at most does the same whatever follows it, but for one
parameter that may be attached early. -/
theorem enriches_step (h : SingleTagged settings line) (next : Option (List Char)) (s : State) :
    (s.step settings line next).Enriches (s.step settings line none) := by
  rw [step_eq, step_eq]
  cases hparam : tagFor? settings .param line with
  | some tag =>
    have hnone (kind : TagKind) (hne : .param ≠ kind) : tagFor? settings kind line = none :=
      (h .param kind hne).resolve_left (by simp [hparam])
    have hskip := hnone .skip (by decide)
    have hextra := hnone .extra (by decide)
    rw [onTag_of_none hskip, onTag_of_none hskip, onTag_of_none hextra, onTag_of_none hextra]
    exact ((enriches_onTag settings .param line next _).onSection settings line).describing
      settings line
  | none =>
    rw [onTag_of_none hparam, onTag_of_none hparam]
    rcases h .skip .extra (by decide) with hskip | hextra
    · rw [onTag_of_none hskip, onTag_of_none hskip]
      exact enriches_onTag settings .extra line next _
    · rw [onTag_of_none hextra, onTag_of_none hextra]
      exact enriches_onTag settings .skip line next _

/-- What is known after lines extends what is known after those with which they begin. -/
theorem extends_run_append {ls : List (List Char)} (h : ∀ line ∈ ls, SingleTagged settings line)
    (rest : List (List Char)) (s : State) :
    (run settings (ls ++ rest) s).catalog.Extends (run settings ls s).catalog := by
  induction ls generalizing s with
  | nil => exact extends_run settings rest s
  | cons line ls ih =>
    cases ls with
    | nil =>
      -- Only the last line sees a difference.
      have hline : SingleTagged settings line := h line List.mem_cons_self
      exact (extends_run settings rest _).trans
        (enriches_step hline rest.head? s).catalog.extends
    | cons following ls =>
      exact ih (fun l hl => h l (List.mem_cons_of_mem line hl)) _

end State

/-- Text that is appended to finished lines, none of which holds tags of two kinds, leaves what they
document: the parameters come first and in the same order, and the sections come first, with the
same names and with their lines and members in front of what is added to them. -/
theorem extends_ofText_append {settings : Settings} {text : String}
    (hfinished : Finished text.toList)
    (h : ∀ line ∈ lines text.toList, State.SingleTagged settings line) (more : String) :
    (Catalog.ofText settings (text ++ more)).Extends (Catalog.ofText settings text) := by
  rw [Catalog.ofText, Catalog.ofText, String.toList_append, lines_append_of_finished hfinished]
  exact State.extends_run_append h _ _

/-- Settings under which parameter tags start sections. -/
def headedSettings : Settings :=
  { tags := { group := "@param" } }

/-- A text whose last tag waits, and starts a section that has no description yet. -/
def unsettledText : String :=
  "## @param One\n## @descriptionStart First\n## @param Two\n"

/-- A key for the last tag and a description for the last section. -/
def settlingText : String :=
  "a: 1\n## @descriptionStart Second\n"

/-- The key that is appended names the last tag, for the section above it, and the last section gets
a description. -/
theorem extends_ofText_append_unsettledText :
    Finished unsettledText.toList ∧
      (∀ line ∈ lines unsettledText.toList, State.SingleTagged headedSettings line) ∧
      (Catalog.ofText headedSettings (unsettledText ++ settlingText)).Extends
        (Catalog.ofText headedSettings unsettledText) ∧
      Catalog.ofText headedSettings unsettledText =
        { sections := [{ name := "One", description := ["First"] }, { name := "Two" }] } ∧
      Catalog.ofText headedSettings (unsettledText ++ settlingText) =
        { sections := [{ name := "One", description := ["First"], members := [0] },
            { name := "Two", description := ["Second"] }]
          parameters := [{ name := "a", sectionName := some "One" }] } := by
  have hfinished : Finished unsettledText.toList := by decide +kernel
  have hlines : ∀ line ∈ lines unsettledText.toList,
      State.SingleTagged headedSettings line := by
    decide +kernel
  exact ⟨hfinished, hlines, extends_ofText_append hfinished hlines settlingText,
    by decide +kernel, by decide +kernel⟩

/-- A line with two tags can break this: one of them has a path and is attached at once, but below
the line there may be a key that names the other one first. -/
example :
    (Catalog.ofText { tags := { skip := "@param x" } } "## @param x (b)\n").parameters.map
        (·.name) = ["b"] ∧
      (Catalog.ofText { tags := { skip := "@param x" } } "## @param x (b)\na: 1\n").parameters.map
        (·.name) = ["a", "b"] := by
  decide +kernel

end ChartDocs.Markup
