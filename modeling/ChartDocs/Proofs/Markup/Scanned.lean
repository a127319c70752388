import ChartDocs.Proofs.Markup.Tagged
import ChartDocs.Proofs.Markup.Tidying

/-!
# What a scanned parameter holds

Whatever the settings and the text are, a parameter of the scan holds what comments can say and
nothing else: there is no kind, no mark for nullable and no value but the empty one of an extra
parameter. Its modifiers are those of its tag without blanks around them, without empty ones and
without repetitions, and its description is a trimmed part of the line of its tag.
-/

namespace ChartDocs

open Text ChartDocs.Path

namespace Parameter

/-- Modifiers without blanks around them, of which none is empty or repeated. -/
structure CleanModifiers (kept : List String) : Prop where
  trimmed : ∀ m ∈ kept, trimString m = m
  ne_empty : ∀ m ∈ kept, m ≠ ""
  nodup : kept.Nodup

/-- A text without blanks around it has none to take away. -/
theorem trimString_trimString (s : String) : trimString (trimString s) = trimString s := by
  rw [trimString, trimString, String.toList_ofList, trim_trim]

/-- Adding a modifier keeps modifiers clean. -/
theorem CleanModifiers.addModifier {kept : List String} (h : CleanModifiers kept)
    (modifier : String) : CleanModifiers (Parameter.addModifier kept modifier) := by
  unfold Parameter.addModifier
  dsimp only
  split
  · exact h
  · next hnew =>
    obtain ⟨hne, habsent⟩ := not_or.mp hnew
    refine ⟨?_, ?_, ?_⟩
    · exact List.forall_mem_append.mpr
        ⟨h.trimmed, List.forall_mem_singleton.mpr (trimString_trimString modifier)⟩
    · exact List.forall_mem_append.mpr ⟨h.ne_empty, List.forall_mem_singleton.mpr hne⟩
    · refine List.nodup_append.mpr ⟨h.nodup, List.pairwise_singleton _ _, ?_⟩
      rintro other hother _ hmem rfl
      exact habsent (List.mem_singleton.mp hmem ▸ hother)

/-- Adding modifiers one after the other keeps them clean. -/
theorem CleanModifiers.foldl_addModifier {kept : List String} (h : CleanModifiers kept)
    (modifiers : List String) : CleanModifiers (modifiers.foldl Parameter.addModifier kept) := by
  induction modifiers generalizing kept with
  | nil => exact h
  | cons modifier modifiers ih => exact ih (h.addModifier modifier)

/-- No modifiers are clean modifiers. -/
theorem CleanModifiers.nil : CleanModifiers [] where
  trimmed _ h := absurd h List.not_mem_nil
  ne_empty _ h := absurd h List.not_mem_nil
  nodup := List.nodup_nil

/-- A parameter that holds what the comments of a line say and nothing else. -/
structure IsScanned (p : Parameter) : Prop extends p.IsDocumentation where
  inSchema : p.inSchema = true
  nullable : p.nullable = false
  not_skip_and_extra : ¬(p.skip = true ∧ p.extra = true)
  modifiers_of_skip : p.skip = true → p.modifiers = []
  modifiers : CleanModifiers p.modifiers
  description_trimmed : trimString p.description = p.description
  feed_not_mem_description : '\n' ∉ p.description.toList

end Parameter

namespace Markup

/-- What is left after a cut ends the text. -/
theorem suffix_of_cutAt? {c : Char} {text : List Char} {cut : List Char × List Char}
    (h : cutAt? c text = some cut) : cut.2 <:+ text := by
  induction text generalizing cut with
  | nil => simp [cutAt?] at h
  | cons d rest ih =>
    rw [cutAt?] at h
    split at h
    · obtain rfl := Option.some.inj h
      exact List.suffix_cons d rest
    · obtain ⟨below, hbelow, rfl⟩ := Option.map_eq_some_iff.mp h
      exact (ih hbelow).trans (List.suffix_cons d rest)

/-- What is left after the blanks in front ends the text. -/
theorem suffix_trimStart (text : List Char) : trimStart text <:+ text :=
  List.dropWhile_suffix _

/-- What is left after parentheses ends the text. -/
theorem suffix_of_takeParentheses? {text : List Char} {cut : List Char × List Char}
    (h : takeParentheses? text = some cut) : cut.2 <:+ text := by
  unfold takeParentheses? at h
  split at h
  · next rest hrest =>
    have htext : '(' :: rest <:+ text := hrest ▸ suffix_trimStart text
    exact ((suffix_of_cutAt? h).trans (List.suffix_cons _ rest)).trans htext
  · exact absurd h (by simp)

/-- What is left after a label ends the text. -/
theorem suffix_dropLabel (text : List Char) : dropLabel text <:+ text := by
  cases text with
  | nil => exact List.suffix_rfl
  | cons c rest =>
    rw [dropLabel]
    split
    · have hlabel := List.dropWhile_suffix (l := trimStart rest) isLabelChar
      exact (hlabel.trans (suffix_trimStart rest)).trans (List.suffix_cons c rest)
    · exact List.suffix_rfl

/-- What is left after modifiers ends the text. -/
theorem suffix_takeModifiers (text : List Char) : (takeModifiers text).2 <:+ text := by
  unfold takeModifiers
  split
  · next rest hrest =>
    have htext : '[' :: rest <:+ text := hrest ▸ suffix_trimStart text
    split
    · next hcut => exact ((suffix_of_cutAt? hcut).trans (List.suffix_cons _ rest)).trans htext
    · exact htext
  · exact suffix_trimStart text

/-- The description of a tag is a trimmed part of what follows its word. -/
theorem exists_description_ofRest (rest : List Char) :
    ∃ found, found <:+ rest ∧ (TagLine.ofRest rest).description = trim found := by
  rw [TagLine.ofRest]
  cases hcut : takeParentheses? rest with
  | some cut =>
    exact ⟨_, (suffix_takeModifiers cut.2).trans (suffix_of_takeParentheses? hcut), rfl⟩
  | none => exact ⟨_, (suffix_takeModifiers _).trans (suffix_dropLabel rest), rfl⟩

/-- What a tag on a line makes is an annotation. -/
theorem FromTag.isScanned {settings : Settings} {ls : List (List Char)} {p : Parameter}
    (hls : ∀ line ∈ ls, '\n' ∉ line) (h : FromTag settings ls p) : p.IsScanned := by
  obtain ⟨line, hline, kind, tag, htag, name, sectionName, rfl⟩ := h
  obtain ⟨rest, hrest, rfl⟩ := Option.map_eq_some_iff.mp htag
  obtain ⟨found, hfound, hdescription⟩ := exists_description_ofRest rest
  have honLine := (tidy_trim (hls line hline) (hfound.trans (suffix_of_afterTag? hrest))).1
  have htrim : trimString (String.ofList (trim found)) = String.ofList (trim found) := by
    rw [trimString, String.toList_ofList, trim_trim]
  have hclean (modifiers : List String) :
      Parameter.CleanModifiers (Parameter.cleanModifiers modifiers) :=
    Parameter.CleanModifiers.nil.foldl_addModifier modifiers
  rw [TagKind.build_eq, hdescription]
  refine ⟨⟨rfl, ?_⟩, rfl, rfl, ?_, ?_, ?_, htrim, ?_⟩
  · cases kind <;> rfl
  · cases kind <;> simp
  · cases kind <;> simp
  · cases kind with
    | param => exact hclean _
    | skip => exact Parameter.CleanModifiers.nil
    | extra => exact hclean _
  · rwa [String.toList_ofList]

/-- Every parameter of the catalog of a text is an annotation: it has no kind, is not nullable and
may be shown in a schema; it is not skipped and extra at once; it has the empty value if it is extra
and otherwise none; it has no modifiers if it is skipped, and in any case its modifiers have no
blanks around them and are neither empty nor repeated; and its description is a trimmed text on one
line. -/
theorem isScanned_of_mem_ofText (settings : Settings) (text : String) :
    ∀ p ∈ (Catalog.ofText settings text).parameters, p.IsScanned :=
  fun p hp =>
    (fromTag_of_mem_ofText settings text p hp).isScanned fun _ => feed_not_mem_of_mem_lines

/-- Settings in which two kinds of tags have the same word. -/
def sharedTagWords : Settings :=
  { comment := "//", tags := { param := "+doc", skip := "+doc", extra := "note:" } }

/-- A line that is read as two tags, which the key below it names, and an extra tag with a path. -/
def annotatedText : String :=
  "// +doc [array, ,array, x] The  args \nargs: 1\n// note: (b.c) [ y ]\n"

/-- The first of the two parameters that the first line makes. -/
def annotatedArgs : Parameter :=
  { name := "args", description := "The  args", modifiers := ["array", "x"] }

/-- The extra parameter. -/
def annotatedNote : Parameter :=
  { name := "b.c", modifiers := ["y"], extra := true, value := some (.string "") }

/-- Both parameters are there, and both are annotations. -/
theorem isScanned_annotatedText :
    annotatedArgs ∈ (Catalog.ofText sharedTagWords annotatedText).parameters ∧
      annotatedNote ∈ (Catalog.ofText sharedTagWords annotatedText).parameters ∧
      annotatedArgs.IsScanned ∧ annotatedNote.IsScanned := by
  have hargs : annotatedArgs ∈ (Catalog.ofText sharedTagWords annotatedText).parameters := by
    decide +kernel
  have hnote : annotatedNote ∈ (Catalog.ofText sharedTagWords annotatedText).parameters := by
    decide +kernel
  exact ⟨hargs, hnote, isScanned_of_mem_ofText _ _ _ hargs, isScanned_of_mem_ofText _ _ _ hnote⟩

end Markup

end ChartDocs
