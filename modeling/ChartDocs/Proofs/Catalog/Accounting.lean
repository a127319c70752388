import ChartDocs.Catalog.Finding
import ChartDocs.Proofs.Value.Sighting

/-!
# What a check that finds nothing says

A check sees the names of observations, not the leaves of the values. Several leaves may share one
observation: the items of a sequence of strings are seen under the path of the sequence. A check
that finds nothing still accounts for every leaf, since whatever a skipped parameter covers it also
covers further down.
-/

namespace ChartDocs

open Text ChartDocs.Path

namespace Path

/-- A text with something before the last occurrence of a character goes on after it. -/
theorem exists_eq_append_of_beforeLast? {c : Char} {text above : List Char}
    (h : beforeLast? c text = some above) : ∃ rest, text = above ++ c :: rest := by
  induction text generalizing above with
  | nil => simp [beforeLast?] at h
  | cons d text ih =>
    rw [beforeLast?] at h
    split at h
    · next kept hkept =>
      obtain ⟨rest, rfl⟩ := ih hkept
      exact ⟨rest, by rw [← Option.some.inj h, List.cons_append]⟩
    · split at h
      · next hd => exact ⟨text, by rw [← Option.some.inj h, hd, List.nil_append]⟩
      · exact absurd h (by simp)

/-- What ends a name still ends it with a bracket and more behind. -/
theorem endsName_append {text : List Char} (h : endsName text = true) (rest : List Char) :
    endsName (text ++ '[' :: rest) = true := by
  cases text with
  | nil => rfl
  | cons c text => exact h

end Path

namespace Parameter

/-- A parameter covers the paths that go on after its whole name. -/
theorem covers_ofList_iff {p : Parameter} {path : List Char} :
    p.covers (String.ofList path) = true ↔
      ∃ rest, path = p.name.toList ++ rest ∧ endsName rest = true := by
  rw [covers, String.toList_ofList, Option.any_eq_true]
  simp only [dropLeading?_eq_some_iff]

/-- What covers the path of a sequence covers the paths of its items. -/
theorem covers_of_covers_above {p : Parameter} {path above : List Char}
    (habove : beforeLast? '[' path = some above) (h : p.covers (String.ofList above) = true) :
    p.covers (String.ofList path) = true := by
  obtain ⟨rest, hname, hends⟩ := covers_ofList_iff.mp h
  obtain ⟨more, rfl⟩ := exists_eq_append_of_beforeLast? habove
  apply covers_ofList_iff.mpr
  refine ⟨rest ++ '[' :: more, ?_, endsName_append hends more⟩
  rw [hname, List.append_assoc]

end Parameter

namespace Catalog

variable {c : Catalog} {observed : List Parameter}

/-- A name is accounted for if it is documented or a skipped parameter covers it. -/
theorem accountsFor_iff {name : String} :
    c.accountsFor name = true ↔
      ∃ p ∈ c.parameters, p.name = name ∨ p.skip = true ∧ p.covers name = true := by
  simp only [accountsFor, Bool.or_eq_true, List.any_eq_true, decide_eq_true_eq,
    Bool.and_eq_true, ← exists_or, ← and_or_left]

/-- Nothing is found exactly if every observation is accounted for and everything that must be
observed is. -/
theorem findings_eq_nil_iff :
    c.findings observed = [] ↔
      (∀ seen ∈ observed, c.accountsFor seen.name = true) ∧
        ∀ p ∈ c.parameters, requiresValue p = true → ∃ seen ∈ observed, seen.name = p.name := by
  unfold findings
  rw [List.append_eq_nil_iff, List.map_eq_nil_iff, List.map_eq_nil_iff, List.filter_eq_nil_iff,
    List.filter_eq_nil_iff]
  apply and_congr
  · simp
  · simp

/-- If nothing is found, every leaf is documented under its path or the part of it before the last
bracket, or a skipped parameter covers it. -/
theorem leaf_documented_of_findings_eq_nil (c : Catalog) (root : Value)
    (h : c.findings root.observed = []) :
    ∀ leaf ∈ root.leaves,
      (∃ p ∈ c.parameters, p.name = String.ofList leaf.1) ∨
        (∃ p ∈ c.parameters, beforeLast? '[' leaf.1 = some p.name.toList) ∨
        ∃ p ∈ c.parameters, p.skip = true ∧ p.covers (String.ofList leaf.1) = true := by
  intro leaf hleaf
  -- The check speaks of the observation; its name is the path of the leaf or of its sequence.
  obtain ⟨seen, hseen, hname⟩ := Value.exists_observed_of_mem_leaves hleaf
  obtain ⟨p, hp, hdocuments⟩ := accountsFor_iff.mp ((findings_eq_nil_iff.mp h).1 seen hseen)
  rcases hdocuments with hsame | ⟨hskip, hcovers⟩
  · rw [← hsame] at hname
    rcases hname with hpath | habove
    · exact Or.inl ⟨p, hp, by rw [← hpath, String.ofList_toList]⟩
    · exact Or.inr (Or.inl ⟨p, hp, habove⟩)
  · refine Or.inr (Or.inr ⟨p, hp, hskip, ?_⟩)
    rw [← String.ofList_toList (s := seen.name)] at hcovers
    rcases hname with hpath | habove
    · rwa [hpath] at hcovers
    · exact Parameter.covers_of_covers_above habove hcovers

/-- Values with a sequence of strings, a null key and a sequence of strings under a key with a
dot. -/
def labelledValues : Value :=
  .mapping
    [(.string "args", .sequence [.string "-a", .string "-b"]), (.null, .bool true),
      (.string "labels", .mapping [(.string "app.io/x", .sequence [.string "y"])])]

/-- A documentation of these values that skips the labels. -/
def skippedLabels : Catalog where
  parameters := [{ name := "args" }, { name := "null" }, { name := "labels", skip := true }]

/-- All four leaves of the values are documented or skipped. -/
theorem leaf_documented_labelledValues :
    skippedLabels.findings labelledValues.observed = [] ∧
      labelledValues.leaves.map (·.1) = ["args[0]".toList, "args[1]".toList, "null".toList,
        "labels.app.io/x[0]".toList] ∧
      ∀ leaf ∈ labelledValues.leaves,
        (∃ p ∈ skippedLabels.parameters, p.name = String.ofList leaf.1) ∨
          (∃ p ∈ skippedLabels.parameters, beforeLast? '[' leaf.1 = some p.name.toList) ∨
          ∃ p ∈ skippedLabels.parameters, p.skip = true ∧ p.covers (String.ofList leaf.1) = true :=
  have hfindings : skippedLabels.findings labelledValues.observed = [] := by decide +kernel
  ⟨hfindings, by decide +kernel,
    leaf_documented_of_findings_eq_nil skippedLabels labelledValues hfindings⟩

end Catalog

end ChartDocs
