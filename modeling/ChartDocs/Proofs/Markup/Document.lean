import ChartDocs.Proofs.Markup.Printing

/-!
# Scanning undoes printing

The scan of a printed document goes from one open section to the next. Within a section it adds what
the lines say to the section that was started last, so after a section the catalog has grown by
exactly that section and its parameters.
-/

namespace ChartDocs.Markup

open Text

namespace State

/-- The state in which the last section takes parameters. -/
def opened (before : List Section) (g : Section) (ps : List Parameter) : State where
  catalog := { sections := before ++ [g], parameters := ps }
  current := some before.length

/-- The state in which lines of description go to the last section. -/
def captured (before : List Section) (g : Section) (ps : List Parameter) : State :=
  { opened before g ps with capturing := true }

/-- A state in which nothing is left to be done. -/
structure Idle (s : State) : Prop where
  capturing : s.capturing = false
  trail : s.trail = []
  pending : s.pending = none

/-- Between entries nothing is left to be done. -/
theorem idle_opened (before : List Section) (g : Section) (ps : List Parameter) :
    Idle (opened before g ps) :=
  ⟨rfl, rfl, rfl⟩

/-- A parameter goes to the open section. -/
theorem attach_opened (before : List Section) (g : Section) (ps : List Parameter) {p : Parameter}
    (hp : p.sectionName = none) :
    (opened before g ps).attach p =
      opened before (g.addMember ps.length) (ps ++ [{ p with sectionName := some g.name }]) := by
  have hsections := Catalog.sections_attach_some ⟨before ++ [g], ps⟩ p before.length
  have hparameters := Catalog.parameters_attach ⟨before ++ [g], ps⟩ hp (some before.length)
  rw [Catalog.modify_concat] at hsections
  have hcatalog : Catalog.attach ⟨before ++ [g], ps⟩ p (some before.length) =
      ⟨before ++ [g.addMember ps.length], ps ++ [{ p with sectionName := some g.name }]⟩ := by
    refine congrArg₂ Catalog.mk hsections (hparameters.trans ?_)
    simp [Catalog.ownerName?]
  rw [attach, opened, hcatalog, opened]

/-- A line of description goes to the open section. -/
theorem describe_captured (before : List Section) (g : Section) (ps : List Parameter)
    (text : List Char) :
    (captured before g ps).describe text = captured before (g.addLine (String.ofList text)) ps := by
  have hsections := Catalog.modify_concat before g (·.addLine (String.ofList text))
  rw [describe]
  simp only [captured, opened, Catalog.addLine, hsections]

end State

/-- A printed tag is attached at once. -/
theorem DocumentTag.take_line {t : DocumentTag} (h : t.Printable) {s : State}
    (hs : s.capturing = false) :
    (s.takeLine t.line).describing {} t.line = s.attach (t.parameter none) := by
  have hword := word_mem_tagWords t.kind
  have hrest : dropWord? (t.kind.word {}).toList ((t.kind.word {}).toList ++ t.rest) =
      some t.rest := dropWord?_append hword (Or.inr ⟨_, rfl⟩)
  have hstart : descriptionStart? {} t.line = none := by
    have hne : (t.kind.word {}).toList ≠ "@descriptionStart".toList := by
      cases t.kind <;> decide
    rw [descriptionStart?_eq_map, line, commentText?_word hword, Option.bind_some,
      dropWord?_other hword (by decide) hne hrest]
    rfl
  have htake : s.takeLine t.line = s.attach (t.parameter none) := by
    rw [State.takeLine, tagLine?_line h, line, keyLine?_comment]
    dsimp only
    rw [State.takeTag, build_toTagLine h, if_pos (by rfl)]
  rw [htake]
  exact State.describing_of_not_capturing hs (Or.inr hstart)

/-- A comment without a tag is taken in by descriptions only. -/
theorem takeLine_comment {line text : List Char} (hcomment : commentText? line = some text)
    (htag : ∀ kind : TagKind, dropWord? (kind.word {}).toList text = none)
    (hgroup : dropWord? "@section".toList text = none) (s : State) : s.takeLine line = s := by
  have hkey : keyLine? line = none := by
    cases h : keyLine? line with
    | none => rfl
    | some key =>
      rw [commentText?_of_keyLine? h] at hcomment
      simp at hcomment
  have hnotag : tagLine? line = none := by
    refine tagLine?_eq_none_iff.mpr fun kind => ?_
    rw [tagOf?_eq_map, hcomment, Option.bind_some, htag]
    rfl
  have hnogroup : groupName? line = none := by
    rw [groupName?_eq_map, hcomment, Option.bind_some, hgroup]
    rfl
  rw [State.takeLine, hkey, hnotag, hnogroup]

namespace DocumentGroup

variable {g : DocumentGroup}

/-- The heading starts the section. -/
theorem take_heading (h : g.Printable) {s : State} (hs : s.Idle) :
    (s.takeLine g.heading).describing {} g.heading =
      .opened s.catalog.sections { name := String.ofList g.name } s.catalog.parameters := by
  have hword : "@section".toList ∈ tagWords := by decide
  have hcomment : commentText? g.heading = some ("@section".toList ++ ' ' :: g.name) :=
    commentText?_word hword _
  have hrest : dropWord? "@section".toList ("@section".toList ++ ' ' :: g.name) =
      some (' ' :: g.name) := dropWord?_append hword (Or.inr ⟨_, rfl⟩)
  have hkey : keyLine? g.heading = none := keyLine?_comment _
  have htag : tagLine? g.heading = none := by
    refine tagLine?_eq_none_iff.mpr fun kind => ?_
    rw [tagOf?_eq_map, hcomment, Option.bind_some,
      dropWord?_other hword (word_mem_tagWords kind) (by cases kind <;> decide) hrest]
    rfl
  have hname : groupName? g.heading = some g.name := by
    rw [groupName?_eq_map, hcomment, Option.bind_some, hrest, Option.map_some, trim_blank,
      h.name.trimmed]
  have hstart : descriptionStart? {} g.heading = none := by
    rw [descriptionStart?_eq_map, hcomment, Option.bind_some,
      dropWord?_other hword (by decide) (by decide) hrest]
    rfl
  have htake : s.takeLine g.heading =
      .opened s.catalog.sections { name := String.ofList g.name } s.catalog.parameters := by
    rw [State.takeLine, hkey, htag, hname]
    dsimp only
    rw [State.takeGroup, hs.trail, hs.pending]
    rfl
  rw [htake]
  exact State.describing_of_not_capturing rfl (Or.inr hstart)

/-- The opening line opens the description of the open section. -/
theorem take_opening (before : List Section) (sec : Section) (ps : List Parameter) :
    ((State.opened before sec ps).takeLine opening).describing {} opening =
      .captured before sec ps := by
  have hword : "@descriptionStart".toList ∈ tagWords := by decide
  have hcomment : commentText? opening = some ("@descriptionStart".toList ++ []) :=
    commentText?_word hword []
  have hrest := dropWord?_append hword (Or.inl (Eq.refl ([] : List Char)))
  have htake := takeLine_comment hcomment
    (fun kind => dropWord?_other hword (word_mem_tagWords kind) (by cases kind <;> decide) hrest)
    (dropWord?_other hword (by decide) (by decide) hrest) (.opened before sec ps)
  have hstart : descriptionStart? {} opening = some [] := by
    rw [descriptionStart?_eq_map, hcomment, Option.bind_some, hrest]
    rfl
  rw [htake, State.describing, State.onDescriptionStart, hstart]
  rfl

/-- The closing line closes the description. -/
theorem take_closing (before : List Section) (sec : Section) (ps : List Parameter) :
    ((State.captured before sec ps).takeLine closing).describing {} closing =
      .opened before sec ps := by
  have hword : "@descriptionEnd".toList ∈ tagWords := by decide
  have hcomment : commentText? closing = some ("@descriptionEnd".toList ++ []) :=
    commentText?_word hword []
  have hrest := dropWord?_append hword (Or.inl (Eq.refl ([] : List Char)))
  have htake := takeLine_comment hcomment
    (fun kind => dropWord?_other hword (word_mem_tagWords kind) (by cases kind <;> decide) hrest)
    (dropWord?_other hword (by decide) (by decide) hrest) (.captured before sec ps)
  have hend : endsDescription {} closing = true := by
    rw [endsDescription_eq_isSome, hcomment, Option.bind_some, hrest]
    rfl
  have hstart : descriptionStart? {} closing = none := by
    rw [descriptionStart?_eq_map, hcomment, Option.bind_some,
      dropWord?_other hword (by decide) (by decide) hrest]
    rfl
  rw [htake, State.describing, State.onDescriptionEnd, hend, State.onDescriptionStart, hstart]
  rfl

/-- A line of description is added to the open section. -/
theorem take_remark (before : List Section) (sec : Section) (ps : List Parameter)
    {text : List Char} (hfits : FitsLine text) (hhead : text.head? ≠ some '@') :
    ((State.captured before sec ps).takeLine (remark text)).describing {} (remark text) =
      .captured before (sec.addLine (String.ofList text)) ps := by
  have hcomment : commentText? (remark text) = some text := by
    rw [remark, commentText?_comment, trimStart_eq_self hfits.trimmed]
  have hnone : ∀ word ∈ tagWords, dropWord? word text = none :=
    fun word hword => dropWord?_eq_none_of_head hword hhead
  have htake := takeLine_comment hcomment (fun kind => hnone _ (word_mem_tagWords kind))
    (hnone _ (by decide)) (.captured before sec ps)
  have hend : endsDescription {} (remark text) = false := by
    rw [endsDescription_eq_isSome, hcomment, Option.bind_some, hnone _ (by decide)]
    rfl
  have hline : descriptionLine? {} (remark text) = some text := by
    rw [descriptionLine?_eq_map, hcomment, Option.map_some, hfits.trimmed]
  rw [htake, State.describing, State.onDescriptionEnd, hend, State.onDescriptionLine, hline,
    ← State.describe_captured]
  rfl

/-- Lines of description are added one after the other. -/
theorem takeLines_remark (before : List Section) (ps : List Parameter) {texts : List (List Char)}
    (hfits : ∀ text ∈ texts, FitsLine text) (hhead : ∀ text ∈ texts, text.head? ≠ some '@')
    (sec : Section) :
    State.takeLines (texts.map remark) (.captured before sec ps) =
      .captured before
        { sec with description := sec.description ++ texts.map String.ofList } ps := by
  induction texts generalizing sec with
  | nil => simp
  | cons text texts ih =>
    rw [List.map_cons, State.takeLines_cons,
      take_remark before sec ps (hfits text (by simp)) (hhead text (by simp)),
      ih (fun l hl => hfits l (List.mem_cons_of_mem _ hl))
        fun l hl => hhead l (List.mem_cons_of_mem _ hl)]
    simp [Section.addLine]

/-- The printed description is added to the open section. -/
theorem takeLines_remarks (h : g.Printable) (before : List Section) (sec : Section)
    (ps : List Parameter) :
    State.takeLines g.remarks (.opened before sec ps) =
      .opened before
        { sec with description := sec.description ++ g.description.map String.ofList } ps := by
  rw [remarks]
  split
  · next hempty => simp [hempty]
  · rw [State.takeLines_cons, take_opening, State.takeLines_append,
      takeLines_remark before ps h.description h.description_head, State.takeLines_cons,
      take_closing, State.takeLines_nil]

/-- The printed tags of a section are its members. -/
theorem takeLines_tags (before : List Section) {name : List Char} {tags : List DocumentTag}
    (h : ∀ t ∈ tags, t.Printable) {sec : Section} (hname : sec.name = String.ofList name)
    (ps : List Parameter) :
    State.takeLines (tags.map DocumentTag.line) (.opened before sec ps) =
      .opened before { sec with members := sec.members ++ List.range' ps.length tags.length }
        (ps ++ tags.map (·.parameter (some name))) := by
  induction tags generalizing sec ps with
  | nil => simp
  | cons t tags ih =>
    have htags : ∀ t' ∈ tags, t'.Printable := fun t' ht' => h t' (List.mem_cons_of_mem _ ht')
    have hparameter : { t.parameter none with sectionName := some sec.name } =
        t.parameter (some name) := by
      rw [hname]
      rfl
    rw [List.map_cons, State.takeLines_cons, DocumentTag.take_line (h t (by simp)) rfl,
      State.attach_opened before sec ps rfl, hparameter,
      ih htags (by rw [Section.name_addMember, hname])]
    simp [Section.addMember, List.range'_succ]

/-- A printed section is added at the end of the catalog. -/
theorem takeLines_lines (h : g.Printable) {s : State} (hs : s.Idle) :
    State.takeLines g.lines s =
      .opened s.catalog.sections (g.toSection s.catalog.parameters.length)
        (s.catalog.parameters ++ g.parameters) := by
  rw [lines, State.takeLines_cons, take_heading h hs, State.takeLines_append, takeLines_remarks h,
    takeLines_tags _ h.tags rfl, parameters, toSection]
  simp

/-- Printed sections are added one after the other. -/
theorem takeLines_flatMap {groups : List DocumentGroup} (h : ∀ g ∈ groups, g.Printable)
    {s : State} (hs : s.Idle) :
    (State.takeLines (groups.flatMap lines) s).catalog =
      { sections := s.catalog.sections ++ toSections s.catalog.parameters.length groups
        parameters := s.catalog.parameters ++ groups.flatMap parameters } := by
  induction groups generalizing s with
  | nil => simp [toSections]
  | cons g groups ih =>
    have hgroups : ∀ g' ∈ groups, g'.Printable := fun g' hg' => h g' (List.mem_cons_of_mem _ hg')
    rw [List.flatMap_cons, State.takeLines_append, takeLines_lines (h g (by simp)) hs,
      ih hgroups (State.idle_opened _ _ _)]
    simp [State.opened, toSections, parameters]

end DocumentGroup

/-- Printed tags outside sections are parameters of the catalog. -/
theorem takeLines_loose {tags : List DocumentTag} (h : ∀ t ∈ tags, t.Printable)
    (ps : List Parameter) :
    State.takeLines (tags.map DocumentTag.line) { catalog := { parameters := ps } } =
      { catalog := { parameters := ps ++ tags.map (·.parameter none) } } := by
  induction tags generalizing ps with
  | nil => simp
  | cons t tags ih =>
    have htags : ∀ t' ∈ tags, t'.Printable := fun t' ht' => h t' (List.mem_cons_of_mem _ ht')
    have hattach : State.attach { catalog := { parameters := ps } } (t.parameter none) =
        { catalog := { parameters := ps ++ [t.parameter none] } } := rfl
    rw [List.map_cons, State.takeLines_cons, DocumentTag.take_line (h t (by simp)) rfl, hattach,
      ih htags]
    simp

/-- A printed tag stays on its line. -/
theorem DocumentTag.onLine_line {t : DocumentTag} (h : t.Printable) : OnLine t.line := by
  have hword : ∀ kind : TagKind, OnLine (kind.word {}).toList := by
    intro kind
    cases kind <;> decide
  have hbrackets : OnLine t.brackets := by
    have hinner : OnLine (join [','] t.modifiers) :=
      onLine_join (by decide) fun m hm => (h.modifiers m hm).onLine
    rw [brackets]
    split
    · exact onLine_nil
    · simp only [onLine_append]
      exact ⟨⟨by decide, hinner⟩, by decide⟩
  have hremark : OnLine t.remark := by
    rw [remark]
    split
    · exact onLine_nil
    · have hblank : OnLine [' '] := by decide
      exact onLine_append.mpr ⟨hblank, h.description.onLine⟩
  have hline : t.line = "## ".toList ++ ((t.kind.word {}).toList ++
      (" (".toList ++ t.path ++ ([')'] ++ (t.brackets ++ t.remark)))) := rfl
  rw [hline]
  simp only [onLine_append]
  exact ⟨by decide, hword t.kind, ⟨by decide, h.path.onLine⟩, by decide, hbrackets, hremark⟩

namespace DocumentGroup

variable {g : DocumentGroup}

/-- The printed description stays on its lines. -/
theorem onLine_of_mem_remarks (h : g.Printable) : ∀ line ∈ g.remarks, OnLine line := by
  intro line hline
  rw [remarks] at hline
  split at hline
  · exact absurd hline List.not_mem_nil
  · rcases List.mem_cons.mp hline with rfl | hline
    · decide
    · rcases List.mem_append.mp hline with hline | hline
      · obtain ⟨text, htext, rfl⟩ := List.mem_map.mp hline
        rw [remark]
        exact onLine_append.mpr ⟨by decide, (h.description text htext).onLine⟩
      · obtain rfl := List.mem_singleton.mp hline
        decide

/-- A printed section stays on its lines. -/
theorem onLine_of_mem_lines (h : g.Printable) : ∀ line ∈ g.lines, OnLine line := by
  intro line hline
  rcases List.mem_cons.mp hline with rfl | hline
  · have hheading : g.heading = "## @section ".toList ++ g.name := rfl
    rw [hheading]
    exact onLine_append.mpr ⟨by decide, h.name.onLine⟩
  · rcases List.mem_append.mp hline with hline | hline
    · exact onLine_of_mem_remarks h line hline
    · obtain ⟨t, ht, rfl⟩ := List.mem_map.mp hline
      exact DocumentTag.onLine_line (h.tags t ht)

end DocumentGroup

namespace Document

variable {d : Document}

/-- A printed document stays on its lines. -/
theorem onLine_of_mem_lines (h : d.Printable) : ∀ line ∈ d.lines, OnLine line := by
  intro line hline
  rcases List.mem_append.mp hline with hline | hline
  · obtain ⟨t, ht, rfl⟩ := List.mem_map.mp hline
    exact DocumentTag.onLine_line (h.tags t ht)
  · obtain ⟨g, hg, hmem⟩ := List.mem_flatMap.mp hline
    exact DocumentGroup.onLine_of_mem_lines (h.groups g hg) line hmem

/-- The lines of the printed text are the printed lines. -/
theorem lines_print (h : d.Printable) : Text.lines d.print.toList = d.lines := by
  rw [print, String.toList_ofList, lines_unlines_of_onLine (onLine_of_mem_lines h)]

/-- Scanning a printed document finds the document again. -/
theorem ofText_print (d : Document) (h : d.Printable) : Catalog.ofText {} d.print = d.catalog := by
  have hloose : State.takeLines (d.tags.map DocumentTag.line) {} =
      { catalog := { parameters := d.tags.map (·.parameter none) } } := takeLines_loose h.tags []
  rw [ofText_eq_takeLines, lines_print h, lines, State.takeLines_append, hloose,
    DocumentGroup.takeLines_flatMap h.groups ⟨rfl, rfl, rfl⟩, catalog]
  simp

/-- A document with all kinds of tags and a description with an empty line. -/
def sample : Document where
  tags := [{ kind := .skip, path := "internal.token".toList }]
  groups := [
    { name := "Image".toList
      description := ["Where the image comes from.".toList, [], "See also: tags".toList]
      tags := [
        { kind := .param, path := "image.tag".toList
          modifiers := ["string".toList, "nullable".toList]
          description := "Tag (or none)".toList },
        { kind := .extra, path := "image.extra".toList, description := "More".toList }] }]

/-- The scan of the printed sample is the sample. -/
theorem ofText_print_sample :
    sample.Printable ∧ Catalog.ofText {} sample.print = sample.catalog := by
  have h : sample.Printable := by decide +kernel
  exact ⟨h, ofText_print sample h⟩

example : sample.groups.flatMap DocumentGroup.lines =
    ["## @section Image".toList, "## @descriptionStart".toList,
      "## Where the image comes from.".toList, "## ".toList, "## See also: tags".toList,
      "## @descriptionEnd".toList,
      "## @param (image.tag) [string,nullable] Tag (or none)".toList,
      "## @extra (image.extra) More".toList] := by decide

end Document

end ChartDocs.Markup
