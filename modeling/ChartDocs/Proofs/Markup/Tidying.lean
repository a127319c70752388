import ChartDocs.Proofs.Catalog.Attaching
import ChartDocs.Proofs.Markup.Change
import ChartDocs.Proofs.Tables.Lines
import ChartDocs.Proofs.Text.Trimming
import ChartDocs.Survey

/-!
# The scan is tidy

What a section takes from a line is a trimmed part of that line. So the catalog of a text has names
and descriptions that fit on lines. Values and modifiers do not change that, so the tables that are
generated have the lines that one expects.
-/

namespace ChartDocs

open Text

namespace Section

variable {s : Section}

/-- A member does not make a section untidy. -/
theorem Tidy.addMember (h : s.Tidy) (position : Nat) : (s.addMember position).Tidy :=
  ⟨h.name, h.description⟩

/-- A line that is tidy itself does not make a section untidy. -/
theorem Tidy.addLine (h : s.Tidy) {line : String}
    (hline : '\n' ∉ line.toList ∧ trimEnd line.toList = line.toList) : (s.addLine line).Tidy := by
  refine ⟨h.name, fun other hother => ?_⟩
  rcases List.mem_append.mp hother with hold | hnew
  · exact h.description other hold
  · exact List.mem_singleton.mp hnew ▸ hline

end Section

namespace Catalog

variable {c : Catalog}

/-- What holds of all elements and is kept by a change holds after the change. -/
theorem forall_mem_modify {α : Type} {P : α → Prop} {change : α → α}
    (hchange : ∀ a, P a → P (change a)) {l : List α} (h : ∀ a ∈ l, P a) (i : Nat) :
    ∀ a ∈ l.modify i change, P a := by
  induction l generalizing i with
  | nil => simp
  | cons first rest ih =>
    obtain ⟨hfirst, hrest⟩ := List.forall_mem_cons.mp h
    cases i with
    | zero => exact List.forall_mem_cons.mpr ⟨hchange first hfirst, hrest⟩
    | succ i => exact List.forall_mem_cons.mpr ⟨hfirst, ih hrest i⟩

/-- A parameter does not make a catalog untidy. -/
theorem Tidy.attach (h : c.Tidy) (p : Parameter) (owner : Option Nat) :
    (c.attach p owner).Tidy := by
  cases owner with
  | none => exact h
  | some i =>
    rw [Tidy, sections_attach_some]
    exact forall_mem_modify (fun s hs => hs.addMember _) h i

/-- A tidy section does not make a catalog untidy. -/
theorem Tidy.addSection (h : c.Tidy) {s : Section} (hs : s.Tidy) : (c.addSection s).Tidy :=
  List.forall_mem_append.mpr ⟨h, List.forall_mem_singleton.mpr hs⟩

/-- A line that is tidy itself does not make a catalog untidy. -/
theorem Tidy.addLine (h : c.Tidy) (owner : Nat) {line : String}
    (hline : '\n' ∉ line.toList ∧ trimEnd line.toList = line.toList) :
    (c.addLine owner line).Tidy :=
  forall_mem_modify (fun _ hs => hs.addLine hline) h owner

end Catalog

namespace Markup

/-- What is left after blanks in front ends the text. -/
theorem suffix_of_mem_blankTails {text tail : List Char} (h : tail ∈ blankTails text) :
    tail <:+ text := by
  induction text with
  | nil => exact List.mem_singleton.mp h ▸ List.suffix_rfl
  | cons c rest ih =>
    rw [blankTails] at h
    split at h
    · rcases List.mem_append.mp h with h | h
      · exact (ih h).trans (List.suffix_cons c rest)
      · exact List.mem_singleton.mp h ▸ List.suffix_rfl
    · exact List.mem_singleton.mp h ▸ List.suffix_rfl

/-- What is found after a word ends the text. -/
theorem suffix_of_afterWord? {word text found : List Char} {accept : List Char → Option (List Char)}
    (haccept : ∀ rest found, accept rest = some found → found <:+ rest)
    (h : afterWord? word accept text = some found) : found <:+ text := by
  obtain ⟨rest, hrest, haccepted⟩ := exists_of_afterWord? h
  have hword : rest <:+ word ++ rest := List.suffix_append word rest
  exact ((haccept rest found haccepted).trans hword).trans (suffix_of_mem_blankTails hrest)

/-- What is found after the start of a comment ends the line. -/
theorem suffix_of_afterComment? {comment line found : List Char}
    (h : afterComment? comment line = some found) : found <:+ line :=
  suffix_of_afterWord? (fun _ _ hsome => Option.some.inj hsome ▸ List.suffix_rfl) h

/-- What is found after a tag word ends the line. -/
theorem suffix_of_afterTag? {comment word line found : List Char}
    (h : afterTag? comment word line = some found) : found <:+ line := by
  refine suffix_of_afterWord? (fun rest found hfound => ?_) h
  refine suffix_of_afterWord? (fun rest found hfound => ?_) hfound
  split at hfound
  · exact Option.some.inj hfound ▸ List.suffix_rfl
  · exact absurd hfound (by simp)

/-- A trimmed part of a line is on one line and has no blanks at its end. -/
theorem tidy_trim {line found : List Char} (hline : '\n' ∉ line) (h : found <:+ line) :
    '\n' ∉ trim found ∧ trimEnd (trim found) = trim found := by
  have hstart : trimStart found <:+ found := List.dropWhile_suffix _
  have hend : trim found <+: trimStart found := trimEnd_prefix_self _
  refine ⟨fun hfeed => hline ?_, trimEnd_trimEnd _⟩
  exact h.subset (hstart.subset (hend.subset hfeed))

namespace State

variable {s : State} {line : List Char}

/-- What a line adds to a description is a trimmed part of it. -/
theorem exists_trim_eq {settings : Settings} {text : List Char}
    (h : descriptionLine? settings line = some text ∨
      descriptionStart? settings line = some text) :
    ∃ found, found <:+ line ∧ trim found = text := by
  rcases h with h | h
  · obtain ⟨found, hfound, htrim⟩ := Option.map_eq_some_iff.mp h
    exact ⟨found, suffix_of_afterComment? hfound, htrim⟩
  · obtain ⟨found, hfound, htrim⟩ := Option.map_eq_some_iff.mp h
    exact ⟨found, suffix_of_afterTag? hfound, htrim⟩

/-- What a line changes keeps the catalog tidy. -/
theorem tidy_of_change {settings : Settings} {t : State} (hline : '\n' ∉ line)
    (hchange : Change settings line s t) (h : s.catalog.Tidy) : t.catalog.Tidy := by
  cases hchange with
  | trail => exact h
  | resolve path =>
    rw [State.resolve]
    split
    · exact h.attach _ _
    · exact h
  | attach => exact h.attach _ _
  | wait => exact h
  | group hname =>
    obtain ⟨found, hfound, rfl⟩ := Option.map_eq_some_iff.mp hname
    refine h.addSection ⟨?_, fun _ hmem => absurd hmem List.not_mem_nil⟩
    rw [String.toList_ofList]
    exact (tidy_trim hline (suffix_of_afterTag? hfound)).1
  | closing => exact h
  | opening => exact h
  | describe htext =>
    obtain ⟨found, hfound, rfl⟩ := exists_trim_eq htext
    rw [State.describe]
    split
    · refine h.addLine _ ?_
      rw [String.toList_ofList]
      exact tidy_trim hline hfound
    · exact h

/-- A run over lines without line feeds keeps a tidy catalog tidy. -/
theorem tidy_run (settings : Settings) {ls : List (List Char)} (h : s.catalog.Tidy)
    (hls : ∀ line ∈ ls, '\n' ∉ line) : (run settings ls s).catalog.Tidy :=
  run_of_change (P := (·.catalog.Tidy))
    (fun line hline _ _ hchange => tidy_of_change (hls line hline) hchange) h

end State

/-- Every catalog that is read from a text is tidy. -/
theorem tidy_ofText (settings : Settings) (text : String) :
    (Catalog.ofText settings text).Tidy := by
  have hempty : Catalog.Tidy {} := fun _ hs => absurd hs List.not_mem_nil
  exact State.tidy_run settings hempty fun _ => feed_not_mem_of_mem_lines

end Markup

/-- Preparing changes no sections. -/
theorem Catalog.sections_of_prepare {c prepared : Catalog} {words : ModifierWords}
    {observed : List Parameter} (h : c.prepare words observed = .ok prepared) :
    prepared.sections = c.sections := by
  rw [prepare] at h
  split at h
  · exact absurd h (by simp)
  · exact Except.ok.inj h ▸ rfl

/-- The catalog that is shown for a text is tidy. -/
theorem Survey.tidy_of_prepare {settings : Settings} {source text : String} {survey : Survey}
    {prepared : Catalog} (hsurvey : ofText settings source text = .ok survey)
    (h : survey.prepare settings = .ok prepared) : prepared.Tidy := by
  obtain ⟨root, -, rfl⟩ := exists_of_ofText hsurvey
  rw [Catalog.Tidy, Catalog.sections_of_prepare h]
  exact Markup.tidy_ofText settings text

end ChartDocs
