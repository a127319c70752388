import ChartDocs.Proofs.Markup.Entry

/-!
# The scan finds the documented parameters

The scan keeps one tag that waits for a key line and otherwise attaches parameters as it goes. What
it knows after some lines is determined by those lines alone: the trail by their key lines, the
waiting parameter by the tag that waits below them, and the catalog by the entries that hold. Each
kind of line keeps it so.
-/

namespace ChartDocs.Markup

open Text

/-- The catalog lists the entries that hold in some lines, in the order in which they document. -/
structure Lists (ls : List (List Char)) (entries : List Entry) (c : Catalog) : Prop where
  holds : ∀ e, e ∈ entries ↔ e.Holds ls
  sorted : entries.Pairwise (·.documents < ·.documents)
  parameters : c.parameters = entries.map (·.parameter ls)
  outlines : c.outlines = outlines ls entries

namespace Lists

variable {ls : List (List Char)} {line : List Char} {entries : List Entry} {c : Catalog}

/-- The listed entries hold. -/
theorem holds_of_mem (h : Lists ls entries c) : ∀ e ∈ entries, e.Holds ls :=
  fun e => (h.holds e).mp

/-- There is one parameter for each entry. -/
theorem length_parameters (h : Lists ls entries c) : c.parameters.length = entries.length := by
  rw [h.parameters, List.length_map]

/-- A line at the end does not change the parameters of the listed entries. -/
theorem parameters_append (h : Lists ls entries c) (line : List Char) :
    c.parameters = entries.map (·.parameter (ls ++ [line])) := by
  rw [h.parameters]
  refine List.map_congr_left fun e he => ?_
  exact (Entry.parameter_append (h.holds_of_mem e he).lt line).symm

/-- The names of the sections are those of the section lines. -/
theorem names (h : Lists ls entries c) :
    c.sections.map (·.name) = (ls.filterMap groupName?).map String.ofList := by
  have hnames : c.sections.map (·.name) = c.outlines.map Prod.fst := by
    rw [Catalog.outlines, List.map_map]
    rfl
  rw [hnames, h.outlines, Markup.outlines]
  refine List.ext_getElem? fun k => ?_
  rw [List.getElem?_map, List.getElem?_mapIdx, List.getElem?_map, Option.map_map]
  rfl

/-- The last section is the current one, and its name is that of the last section line. -/
theorem ownerName? (h : Lists ls entries c) :
    c.ownerName? (lastPosition? (ls.filterMap groupName?).length) =
      (ls.filterMap groupName?).getLast?.map String.ofList := by
  have hnames := h.names
  rw [Catalog.ownerName?]
  cases hgroups : (ls.filterMap groupName?).length with
  | zero =>
    rw [List.eq_nil_of_length_eq_zero hgroups]
    rfl
  | succ n =>
    have hget : (c.sections[n]?).map (·.name) =
        ((ls.filterMap groupName?)[n]?).map String.ofList := by
      rw [← List.getElem?_map, hnames, List.getElem?_map]
    rw [List.getLast?_eq_getElem?, hgroups, lastPosition?, Option.bind_some, hget]
    rfl

/-- A line at which no entry arises adds no parameter. -/
theorem holds_append (h : Lists ls entries c) (hnone : ∀ e : Entry, ¬e.Arises ls line) :
    ∀ e, e ∈ entries ↔ e.Holds (ls ++ [line]) := by
  intro e
  rw [Entry.holds_append_iff, h.holds e, or_iff_left (hnone e)]

/-- A line that starts no section and at which no entry arises changes nothing that is listed. -/
theorem append (h : Lists ls entries c) (hgroup : groupName? line = none)
    (hnone : ∀ e : Entry, ¬e.Arises ls line) : Lists (ls ++ [line]) entries c where
  holds := h.holds_append hnone
  sorted := h.sorted
  parameters := h.parameters_append line
  outlines := by rw [outlines_append h.holds_of_mem hgroup, h.outlines]

/-- A section line adds a section. -/
theorem addSection (h : Lists ls entries c) {name : List Char}
    (hgroup : groupName? line = some name) (hnone : ∀ e : Entry, ¬e.Arises ls line) :
    Lists (ls ++ [line]) entries (c.addSection { name := String.ofList name }) where
  holds := h.holds_append hnone
  sorted := h.sorted
  parameters := h.parameters_append line
  outlines := by
    rw [outlines_append_group h.holds_of_mem hgroup, Catalog.outlines_addSection, h.outlines]
    rfl

/-- A line at which one entry arises adds its parameter. -/
theorem attach (h : Lists ls entries c) (hgroup : groupName? line = none) {e : Entry}
    (hone : ∀ e', e'.Arises ls line ↔ e' = e) {p : Parameter} (hp : p.sectionName = none)
    (heq : { p with sectionName := (ls.filterMap groupName?).getLast?.map String.ofList } =
      e.parameter (ls ++ [line])) :
    Lists (ls ++ [line]) (entries ++ [e])
      (c.attach p (lastPosition? (ls.filterMap groupName?).length)) where
  holds e' := by
    rw [Entry.holds_append_iff, hone e', ← h.holds e', List.mem_append, List.mem_singleton]
  sorted := by
    refine List.pairwise_append.mpr ⟨h.sorted, List.pairwise_singleton _ _, ?_⟩
    intro e' he' new hnew
    obtain rfl := List.mem_singleton.mp hnew
    rw [((hone new).mpr rfl).1]
    exact (h.holds_of_mem e' he').lt
  parameters := by
    rw [Catalog.parameters_attach c hp, h.ownerName?, heq, h.parameters_append line,
      List.map_append, List.map_singleton]
  outlines := by
    have howner := ((hone e).mpr rfl).owner?
    have hsame := outlines_append h.holds_of_mem hgroup
    cases hcurrent : lastPosition? (ls.filterMap groupName?).length with
    | none =>
      rw [hcurrent] at howner
      rw [outlines_concat_of_none howner, hsame, ← h.outlines]
      rfl
    | some owner =>
      rw [hcurrent] at howner
      rw [outlines_concat howner, hsame, ← h.outlines, Catalog.outlines_attach_some,
        h.length_parameters]

end Lists

/-- A state knows about some lines what there is to know. -/
structure Reflects (ls : List (List Char)) (entries : List Entry) (s : State) : Prop where
  lists : Lists ls entries s.catalog
  current : s.current = lastPosition? (ls.filterMap groupName?).length
  trail : s.trail = Trail.after (ls.filterMap keyLine?)
  pending : ∀ p, s.pending = some p ↔
    ∃ i kind tag, Waiting ls i kind tag ∧ kind.build tag = p

namespace Reflects

variable {ls : List (List Char)} {line : List Char} {entries : List Entry} {s : State}

/-- Descriptions do not matter. -/
theorem of_agrees {t : State} (h : Reflects ls entries s) (hagrees : t.Agrees s) :
    Reflects ls entries t where
  lists :=
    { holds := h.lists.holds
      sorted := h.lists.sorted
      parameters := by rw [hagrees.parameters, h.lists.parameters]
      outlines := by rw [hagrees.outlines, h.lists.outlines] }
  current := by rw [hagrees.current, h.current]
  trail := by rw [hagrees.trail, h.trail]
  pending p := by rw [hagrees.pending, h.pending]

/-- What waits below a line without a tag and without a key has waited above it. -/
theorem pending_append (h : Reflects ls entries s) (hkey : keyLine? line = none)
    (htag : ∀ kind tag, tagLine? line = some (kind, tag) → tag.path ≠ none) (p : Parameter) :
    s.pending = some p ↔ ∃ i kind tag, Waiting (ls ++ [line]) i kind tag ∧ kind.build tag = p := by
  rw [h.pending]
  refine exists_congr fun i => exists_congr fun kind => exists_congr fun tag =>
    and_congr_left fun _ => ?_
  rw [Waiting.append_iff]
  constructor
  · intro hwaiting
    exact Or.inr ⟨hwaiting, hkey, htag⟩
  · rintro (⟨hread, hpath, -⟩ | ⟨hwaiting, -, -⟩)
    · exact absurd hpath (htag kind tag hread)
    · exact hwaiting

/-- A line that starts no section leaves the last section the current one. -/
theorem current_append (h : Reflects ls entries s) (hgroup : groupName? line = none) :
    s.current = lastPosition? ((ls ++ [line]).filterMap groupName?).length := by
  rw [h.current, List.filterMap_append, List.filterMap_cons_none hgroup, List.filterMap_nil,
    List.append_nil]

/-- A line that is no key line leaves the open keys. -/
theorem trail_append (h : Reflects ls entries s) (hkey : keyLine? line = none) :
    s.trail = Trail.after ((ls ++ [line]).filterMap keyLine?) := by
  rw [h.trail, List.filterMap_append, List.filterMap_cons_none hkey, List.filterMap_nil,
    List.append_nil]

/-- The parameter of an entry that arises belongs to the current section. -/
theorem lists_attach (h : Reflects ls entries s) (hgroup : groupName? line = none) {e : Entry}
    (hone : ∀ e', e'.Arises ls line ↔ e' = e) {p : Parameter} (hp : p.sectionName = none)
    (heq : { p with sectionName := (ls.filterMap groupName?).getLast?.map String.ofList } =
      e.parameter (ls ++ [line])) :
    Lists (ls ++ [line]) (entries ++ [e]) (s.catalog.attach p s.current) := by
  rw [h.current]
  exact h.lists.attach hgroup hone hp heq

/-- After a key line nothing waits. -/
theorem not_waiting_append {key : KeyLine} (hkey : keyLine? line = some key) (i : Nat)
    (kind : TagKind) (tag : TagLine) : ¬Waiting (ls ++ [line]) i kind tag := by
  intro hwaiting
  rcases Waiting.append_iff.mp hwaiting with ⟨hread, -, -⟩ | ⟨-, hno, -⟩
  · rw [tagLine?_of_keyLine? hkey] at hread
    simp at hread
  · rw [hkey] at hno
    simp at hno

/-- A key line lets the waiting tag document. -/
theorem takeKey (h : Reflects ls entries s) {key : KeyLine} (hkey : keyLine? line = some key) :
    ∃ entries', Reflects (ls ++ [line]) entries' (s.takeKey key) := by
  have hgroup := groupName?_of_keyLine? hkey
  have htrail : s.trail.enter key = Trail.after ((ls ++ [line]).filterMap keyLine?) := by
    rw [List.filterMap_append, List.filterMap_cons_some hkey, List.filterMap_nil,
      Trail.after_append, h.trail]
  have hwaits : ∀ p, (s.takeKey key).pending = some p ↔
      ∃ i kind tag, Waiting (ls ++ [line]) i kind tag ∧ kind.build tag = p := by
    intro p
    rw [State.takeKey, State.pending_resolve]
    refine ⟨fun hno => absurd hno (by simp), ?_⟩
    rintro ⟨i, kind, tag, hwaiting, -⟩
    exact absurd hwaiting (not_waiting_append hkey i kind tag)
  cases hpending : s.pending with
  | none =>
    have hnone : ∀ e : Entry, ¬e.Arises ls line := by
      intro e harises
      have hwaiting := ((Entry.arises_iff_of_key hkey).mp harises).2
      have hp := (h.pending _).mpr ⟨e.stands, e.kind, e.tag, hwaiting, rfl⟩
      rw [hpending] at hp
      simp at hp
    have htake : s.takeKey key = { s with trail := s.trail.enter key, pending := none } := by
      rw [State.takeKey, State.resolve, hpending]
    rw [htake] at hwaits ⊢
    exact ⟨entries, h.lists.append hgroup hnone, h.current_append hgroup, htrail, hwaits⟩
  | some p =>
    obtain ⟨i, kind, tag, hwaiting, rfl⟩ := (h.pending p).mp hpending
    have hone : ∀ e : Entry, e.Arises ls line ↔ e = ⟨i, ls.length, kind, tag⟩ := by
      intro e
      rw [Entry.arises_iff_of_key hkey]
      constructor
      · rintro ⟨hlast, hother⟩
        obtain ⟨hi, hkind, hsame⟩ := hother.unique hwaiting
        cases e
        simp_all
      · rintro rfl
        exact ⟨rfl, hwaiting⟩
    have htake : s.takeKey key =
        { s with trail := s.trail.enter key, pending := none }.attach
          { kind.build tag with name := String.ofList (s.trail.enter key).path } := by
      rw [State.takeKey, State.resolve, hpending]
    have hpath : (s.trail.enter key).path = pathAt (ls ++ [line]) ls.length := by
      rw [pathAt_append_length hkey, h.trail, Trail.path_enter_after]
    have hbuilt : ({ kind.build tag with
        name := String.ofList (s.trail.enter key).path
        sectionName := (ls.filterMap groupName?).getLast?.map String.ofList } : Parameter) =
        Entry.parameter (ls ++ [line]) ⟨i, ls.length, kind, tag⟩ := by
      rw [TagKind.build_eq, Entry.parameter, groupsAbove_append_length, hwaiting.pathless, hpath]
      rfl
    refine ⟨entries ++ [⟨i, ls.length, kind, tag⟩], ?_⟩
    rw [htake] at hwaits ⊢
    refine ⟨h.lists_attach hgroup hone ?_ hbuilt, h.current_append hgroup, htrail, hwaits⟩
    rw [TagKind.build_eq]

/-- A tag with a path documents at once. -/
theorem takeTag_of_path (h : Reflects ls entries s) {kind : TagKind} {tag : TagLine}
    (hread : tagLine? line = some (kind, tag)) (hpath : tag.path.isSome) :
    ∃ entries', Reflects (ls ++ [line]) entries' (s.takeTag kind tag) := by
  have hkey := keyLine?_of_tagLine? hread
  have hgroup := groupName?_of_tagLine? hread
  have hone : ∀ e : Entry, e.Arises ls line ↔ e = ⟨ls.length, ls.length, kind, tag⟩ := by
    intro e
    constructor
    · rintro ⟨hlast, ⟨hother, -, hi⟩ | ⟨hno, -⟩⟩
      · obtain ⟨rfl, rfl⟩ := Prod.mk.inj (Option.some.inj (hread.symm.trans hother))
        cases e
        simp_all
      · rw [hkey] at hno
        simp at hno
    · rintro rfl
      exact ⟨rfl, Or.inl ⟨hread, hpath, rfl⟩⟩
  have hnotWaiting : ∀ kind' tag', tagLine? line = some (kind', tag') → tag'.path ≠ none := by
    intro kind' tag' hother hno
    obtain ⟨-, rfl⟩ := Prod.mk.inj (Option.some.inj (hread.symm.trans hother))
    rw [hno] at hpath
    simp at hpath
  have htake : s.takeTag kind tag = s.attach (kind.build tag) := by
    rw [State.takeTag, if_pos hpath]
  obtain ⟨path, hname⟩ := Option.isSome_iff_exists.mp hpath
  have hbuilt : ({ kind.build tag with
      sectionName := (ls.filterMap groupName?).getLast?.map String.ofList } : Parameter) =
      Entry.parameter (ls ++ [line]) ⟨ls.length, ls.length, kind, tag⟩ := by
    rw [TagKind.build_eq, Entry.parameter, groupsAbove_append_length, hname]
    rfl
  refine ⟨entries ++ [⟨ls.length, ls.length, kind, tag⟩], ?_⟩
  rw [htake]
  refine ⟨h.lists_attach hgroup hone ?_ hbuilt, h.current_append hgroup, h.trail_append hkey,
    h.pending_append hkey hnotWaiting⟩
  rw [TagKind.build_eq]

/-- A tag without a path waits. -/
theorem takeTag_of_pathless (h : Reflects ls entries s) {kind : TagKind} {tag : TagLine}
    (hread : tagLine? line = some (kind, tag)) (hpath : tag.path = none) :
    Reflects (ls ++ [line]) entries (s.takeTag kind tag) := by
  have hkey := keyLine?_of_tagLine? hread
  have hgroup := groupName?_of_tagLine? hread
  have hnone : ∀ e : Entry, ¬e.Arises ls line := by
    rintro e ⟨-, ⟨hother, hsome, -⟩ | ⟨hno, -⟩⟩
    · obtain ⟨-, heq⟩ := Prod.mk.inj (Option.some.inj (hread.symm.trans hother))
      rw [← heq, hpath] at hsome
      simp at hsome
    · rw [hkey] at hno
      simp at hno
  have hwaits : ∀ p, some (kind.build tag) = some p ↔
      ∃ i kind' tag', Waiting (ls ++ [line]) i kind' tag' ∧ kind'.build tag' = p := by
    intro p
    constructor
    · intro hp
      refine ⟨ls.length, kind, tag, ?_, Option.some.inj hp⟩
      exact Waiting.append_iff.mpr (Or.inl ⟨hread, hpath, rfl⟩)
    · rintro ⟨i, kind', tag', hwaiting, rfl⟩
      rcases Waiting.append_iff.mp hwaiting with ⟨hother, -, -⟩ | ⟨-, -, hno⟩
      · obtain ⟨rfl, rfl⟩ := Prod.mk.inj (Option.some.inj (hread.symm.trans hother))
        rfl
      · exact absurd hpath (hno kind tag hread)
  have htake : s.takeTag kind tag = { s with pending := some (kind.build tag) } := by
    rw [State.takeTag, hpath]
    rfl
  rw [htake]
  exact ⟨h.lists.append hgroup hnone, h.current_append hgroup, h.trail_append hkey, hwaits⟩

/-- A section line starts a section, and the waiting tag waits on. -/
theorem takeGroup (h : Reflects ls entries s) (hkey : keyLine? line = none)
    (htag : tagLine? line = none) {name : List Char} (hgroup : groupName? line = some name) :
    Reflects (ls ++ [line]) entries (s.takeGroup name) where
  lists := h.lists.addSection hgroup (Entry.not_arises hkey htag)
  current := by
    have hlength : s.catalog.sections.length = (ls.filterMap groupName?).length := by
      rw [← List.length_map (·.name), h.lists.names, List.length_map]
    rw [List.filterMap_append, List.filterMap_cons_some hgroup, List.filterMap_nil,
      List.length_append, List.length_singleton, ← hlength]
    rfl
  trail := h.trail_append hkey
  pending := h.pending_append hkey (by simp [htag])

/-- Other lines change nothing. -/
theorem append (h : Reflects ls entries s) (hkey : keyLine? line = none)
    (htag : tagLine? line = none) (hgroup : groupName? line = none) :
    Reflects (ls ++ [line]) entries s where
  lists := h.lists.append hgroup (Entry.not_arises hkey htag)
  current := h.current_append hgroup
  trail := h.trail_append hkey
  pending := h.pending_append hkey (by simp [htag])

/-- Every line keeps the state right. -/
theorem takeLine (h : Reflects ls entries s) (line : List Char) :
    ∃ entries', Reflects (ls ++ [line]) entries' (s.takeLine line) := by
  rw [State.takeLine]
  cases hkey : keyLine? line with
  | some key => exact h.takeKey hkey
  | none =>
    cases htag : tagLine? line with
    | some found =>
      obtain ⟨kind, tag⟩ := found
      cases hpath : tag.path with
      | some path => exact h.takeTag_of_path htag (by rw [hpath]; rfl)
      | none => exact ⟨entries, h.takeTag_of_pathless htag hpath⟩
    | none =>
      cases hgroup : groupName? line with
      | some name => exact ⟨entries, h.takeGroup hkey htag hgroup⟩
      | none => exact ⟨entries, h.append hkey htag hgroup⟩

end Reflects

/-- After any lines the state knows what there is to know. -/
theorem exists_reflects (ls : List (List Char)) :
    ∃ entries, Reflects ls entries (State.takeLines ls {}) := by
  induction ls using List.reverseRecOn with
  | nil =>
    refine ⟨[], ⟨⟨fun e => ⟨fun he => absurd he List.not_mem_nil, fun he => ?_⟩,
      List.Pairwise.nil, rfl, rfl⟩, rfl, rfl, fun p => ⟨fun hp => ?_, ?_⟩⟩⟩
    · exact absurd he.lt (Nat.not_lt_zero _)
    · exact absurd hp (by simp)
    · rintro ⟨i, kind, tag, hwaiting, -⟩
      exact absurd (lt_of_tagAt? hwaiting.stands) (Nat.not_lt_zero _)
  | append_singleton ls line ih =>
    obtain ⟨entries, h⟩ := ih
    obtain ⟨entries', h'⟩ := h.takeLine line
    rw [State.takeLines_append]
    exact ⟨entries', h'.of_agrees (State.agrees_describing {} line _)⟩

/-- A text documents exactly the parameters of its entries, in the order of the lines at which they
document, and every section lists the positions of its own. -/
theorem exists_entries_ofText (text : String) :
    ∃ entries : List Entry, (∀ e, e ∈ entries ↔ e.Holds (lines text.toList)) ∧
      entries.Pairwise (·.documents < ·.documents) ∧
      (Catalog.ofText {} text).parameters = entries.map (·.parameter (lines text.toList)) ∧
      (Catalog.ofText {} text).outlines = outlines (lines text.toList) entries := by
  obtain ⟨entries, h⟩ := exists_reflects (lines text.toList)
  rw [ofText_eq_takeLines]
  exact ⟨entries, h.lists.holds, h.lists.sorted, h.lists.parameters, h.lists.outlines⟩

/-- A skipped parameter has no modifiers, whatever stands between the brackets of its tag. -/
theorem modifiers_of_skip_tag_dropped :
    (tagOf? .skip "## @skip (a) [array]".toList).map (·.modifiers) = some ["array".toList] ∧
      (Catalog.ofText {} "## @skip (a) [array]\n").parameters.map (·.modifiers) = [[]] := by
  decide +kernel

end ChartDocs.Markup
