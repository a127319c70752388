import ChartDocs.Catalog.Finding
import ChartDocs.Proofs.Block.Scan
import ChartDocs.Proofs.Value.Finding
import ChartDocs.Proofs.Value.Listing
import ChartDocs.Proofs.Value.Observed

/-!
# Text and values of a block agree

The units of a block are also what is observed of its values: every leaf belongs to one unit and is
observed under the steps to that unit. Different units have different steps, since the keys of a
level differ, so no observation is passed over. Hence the parameters that the text documents and
those that the values show have the same names in the same order, and a check finds nothing.
-/

namespace ChartDocs

/-- Parameters with the same names on both sides leave nothing to find. -/
theorem Catalog.findings_eq_nil_of_names_eq {c : Catalog} {observed : List Parameter}
    (h : c.parameters.map (·.name) = observed.map (·.name)) : c.findings observed = [] := by
  have hmetadata : ∀ seen ∈ observed, c.accountsFor seen.name = true := by
    intro seen hseen
    have hmem : seen.name ∈ c.parameters.map (·.name) := h ▸ List.mem_map_of_mem hseen
    obtain ⟨p, hp, hname⟩ := List.mem_map.mp hmem
    have hdocumented : c.parameters.any (·.name = seen.name) = true :=
      List.any_eq_true.mpr ⟨p, hp, decide_eq_true hname⟩
    rw [accountsFor, hdocumented, Bool.true_or]
  have hvalue : ∀ p ∈ c.parameters, observed.any (·.name = p.name) = true := by
    intro p hp
    have hmem : p.name ∈ observed.map (·.name) := h ▸ List.mem_map_of_mem hp
    obtain ⟨seen, hseen, hname⟩ := List.mem_map.mp hmem
    exact List.any_eq_true.mpr ⟨seen, hseen, decide_eq_true hname⟩
  have hleft : observed.filter (fun seen => !c.accountsFor seen.name) = [] :=
    List.filter_eq_nil_iff.mpr fun seen hseen => by simp [hmetadata seen hseen]
  have hright : c.parameters.filter
      (fun p => requiresValue p && !observed.any (·.name = p.name)) = [] :=
    List.filter_eq_nil_iff.mpr fun p hp => by simp [hvalue p hp]
  rw [findings, hleft, hright]
  rfl

namespace Block

open Text Value ChartDocs.Path

/-- The entries of a block have the texts of its keys. -/
theorem keyTexts_entries (b : Block) : keyTexts b.entries = b.keys.map String.ofList := by
  induction b with
  | done => rfl
  | scalar key label text value rest ih => rw [entries, keyTexts_cons, ih]; rfl
  | list key label items rest ih => rw [entries, keyTexts_cons, ih]; rfl
  | mapping key inner rest ihinner ihrest => rw [entries, keyTexts_cons, ihrest]; rfl

/-- The keys of a printable block are different from each other. -/
theorem nodup_keys {b : Block} (h : b.Printable) : b.keys.Nodup := by
  induction b with
  | done => exact List.nodup_nil
  | scalar key label text value rest ih =>
    obtain ⟨⟨-, hnew⟩, -, -, -, hrest⟩ := h
    exact List.nodup_cons.mpr ⟨hnew, ih hrest⟩
  | list key label items rest ih =>
    obtain ⟨⟨-, hnew⟩, -, -, -, hrest⟩ := h
    exact List.nodup_cons.mpr ⟨hnew, ih hrest⟩
  | mapping key inner rest ihinner ihrest =>
    obtain ⟨⟨-, hnew⟩, -, -, hrest⟩ := h
    exact List.nodup_cons.mpr ⟨hnew, ihrest hrest⟩

/-- The keys of a written mapping have different texts. -/
theorem nodup_keyTexts {b : Block} (h : b.Printable) : (keyTexts b.entries).Nodup := by
  rw [keyTexts_entries]
  exact (nodup_keys h).map fun _ _ => String.ofList_injective

/-- A unit is a scalar, or a sequence of at least one string. -/
def IsUnit (v : Value) : Prop :=
  v.isScalar = true ∨ ∃ items, items ≠ [] ∧ v = sequenceOf items

/-- Units are reached by plain keys. -/
theorem isWay_of_mem_units {b : Block} (h : b.Printable) {above : List Segment}
    (hway : IsWay above) : ∀ u ∈ b.units above, IsWay u.1 ∧ IsUnit u.2 := by
  induction b generalizing above with
  | done => exact fun u hu => absurd hu List.not_mem_nil
  | scalar key label text value rest ih =>
    obtain ⟨⟨hkey, -⟩, -, -, hscalar, hrest⟩ := h
    intro u hu
    rcases List.mem_cons.mp hu with rfl | hu
    · exact ⟨isWay_concat hway hkey, Or.inl hscalar⟩
    · exact ih hrest hway u hu
  | list key label items rest ih =>
    obtain ⟨⟨hkey, -⟩, -, hne, -, hrest⟩ := h
    intro u hu
    rcases List.mem_cons.mp hu with rfl | hu
    · exact ⟨isWay_concat hway hkey, Or.inr ⟨items, hne, rfl⟩⟩
    · exact ih hrest hway u hu
  | mapping key inner rest ihinner ihrest =>
    obtain ⟨⟨hkey, -⟩, -, hinner, hrest⟩ := h
    intro u hu
    rcases List.mem_append.mp hu with hu | hu
    · exact ihinner hinner (isWay_concat hway hkey) u hu
    · exact ihrest hrest hway u hu

/-- The steps to a unit go by one of the keys of the block. -/
theorem exists_key_of_mem_units {b : Block} {above : List Segment} {u : List Segment × Value}
    (hu : u ∈ b.units above) : ∃ key ∈ b.keys, above ++ [step key] <+: u.1 := by
  induction b generalizing above with
  | done => exact absurd hu List.not_mem_nil
  | scalar key label text value rest ih =>
    rcases List.mem_cons.mp hu with rfl | hu
    · exact ⟨key, List.mem_cons_self, List.prefix_refl _⟩
    · obtain ⟨k, hk, hprefix⟩ := ih hu
      exact ⟨k, List.mem_cons_of_mem _ hk, hprefix⟩
  | list key label items rest ih =>
    rcases List.mem_cons.mp hu with rfl | hu
    · exact ⟨key, List.mem_cons_self, List.prefix_refl _⟩
    · obtain ⟨k, hk, hprefix⟩ := ih hu
      exact ⟨k, List.mem_cons_of_mem _ hk, hprefix⟩
  | mapping key inner rest ihinner ihrest =>
    rcases List.mem_append.mp hu with hu | hu
    · obtain ⟨k, -, hprefix⟩ := ihinner hu
      exact ⟨key, List.mem_cons_self, (List.prefix_append _ _).trans hprefix⟩
    · obtain ⟨k, hk, hprefix⟩ := ihrest hu
      exact ⟨k, List.mem_cons_of_mem _ hk, hprefix⟩

/-- Steps that go by different keys after the same steps are different. -/
theorem ne_of_prefix {above steps steps' : List Segment} {key key' : List Char} (hne : key ≠ key')
    (h : above ++ [step key] <+: steps) (h' : above ++ [step key'] <+: steps') :
    steps ≠ steps' := by
  rintro rfl
  have hlength : (above ++ [step key]).length = (above ++ [step key']).length := by simp
  have hsame : above ++ [step key] = above ++ [step key'] :=
    (List.prefix_of_prefix_length_le h h' (Nat.le_of_eq hlength)).eq_of_length hlength
  have hstep := Segment.key.inj (List.singleton_inj.mp (List.append_cancel_left hsame))
  exact hne (String.ofList_injective hstep)

/-- Steps by a key that no later entry has lead to no unit of the later entries. -/
theorem ne_of_mem_units {rest : Block} {above steps : List Segment} {key : List Char}
    (hnew : key ∉ rest.keys) (h : above ++ [step key] <+: steps) {u : List Segment × Value}
    (hu : u ∈ rest.units above) : steps ≠ u.1 := by
  obtain ⟨k, hk, hprefix⟩ := exists_key_of_mem_units hu
  have hne : key ≠ k := fun e => hnew (e ▸ hk)
  exact ne_of_prefix hne h hprefix

/-- Steps by a key that no later entry has are no steps to a unit of the later entries. -/
theorem not_mem_steps {rest : Block} {key : List Char} (hnew : key ∉ rest.keys)
    (above : List Segment) : above ++ [step key] ∉ (rest.units above).map Prod.fst := by
  intro hmem
  obtain ⟨u, hu, heq⟩ := List.mem_map.mp hmem
  exact ne_of_mem_units hnew (List.prefix_refl _) hu heq.symm

/-- Different units are reached by different steps. -/
theorem nodup_steps {b : Block} (h : b.Printable) (above : List Segment) :
    ((b.units above).map Prod.fst).Nodup := by
  induction b generalizing above with
  | done => exact List.nodup_nil
  | scalar key label text value rest ih =>
    obtain ⟨⟨-, hnew⟩, -, -, -, hrest⟩ := h
    exact List.nodup_cons.mpr ⟨not_mem_steps hnew above, ih hrest above⟩
  | list key label items rest ih =>
    obtain ⟨⟨-, hnew⟩, -, -, -, hrest⟩ := h
    exact List.nodup_cons.mpr ⟨not_mem_steps hnew above, ih hrest above⟩
  | mapping key inner rest ihinner ihrest =>
    obtain ⟨⟨-, hnew⟩, -, hinner, hrest⟩ := h
    rw [units, List.map_append]
    refine List.nodup_append.mpr ⟨ihinner hinner _, ihrest hrest above, ?_⟩
    intro steps hsteps steps' hsteps'
    obtain ⟨u, hu, rfl⟩ := List.mem_map.mp hsteps
    obtain ⟨u', hu', rfl⟩ := List.mem_map.mp hsteps'
    obtain ⟨k, -, hprefix⟩ := exists_key_of_mem_units hu
    exact ne_of_mem_units hnew ((List.prefix_append _ _).trans hprefix) hu'

/-- Steps by plain keys are plain segments. -/
theorem IsWay.isPlain {steps : List Segment} (h : IsWay steps) : ∀ s ∈ steps, s.IsPlain := by
  intro s hs
  obtain ⟨key, hkey, rfl⟩ := h s hs
  refine ⟨fun hempty => hkey.ne_nil (String.ofList_injective hempty), ?_, ?_⟩
  · rw [String.toList_ofList]
    exact hkey.not_mem (by decide)
  · rw [String.toList_ofList]
    exact hkey.not_mem (by decide)

/-- Steps by plain keys lead into no list. -/
theorem IsWay.not_index {steps : List Segment} (h : IsWay steps) (n : Nat) : .index n ∉ steps := by
  intro hmem
  obtain ⟨key, -, heq⟩ := h _ hmem
  simp [step] at heq

/-- Steps by plain keys can be read off their path text. -/
theorem IsWay.segments_render {steps : List Segment} (h : IsWay steps) :
    segments (render steps) = steps :=
  segments_of_render h.isPlain fun n hn => absurd hn (h.not_index n)

/-- Different units have different names. -/
theorem nodup_unitNames {b : Block} (h : b.Printable) : ((b.units []).map unitName).Nodup := by
  have hway : IsWay [] := fun s hs => absurd hs List.not_mem_nil
  have hsteps := nodup_steps h []
  have hinj : ∀ steps ∈ (b.units []).map Prod.fst, ∀ steps' ∈ (b.units []).map Prod.fst,
      String.ofList (render steps) = String.ofList (render steps') → steps = steps' := by
    intro steps hmem steps' hmem' heq
    obtain ⟨u, hu, rfl⟩ := List.mem_map.mp hmem
    obtain ⟨u', hu', rfl⟩ := List.mem_map.mp hmem'
    have hread := (isWay_of_mem_units h hway u hu).1.segments_render
    have hread' := (isWay_of_mem_units h hway u' hu').1.segments_render
    rw [← hread, ← hread', String.ofList_injective heq]
  have hnames := List.Nodup.map_on hinj hsteps
  rwa [List.map_map] at hnames

/-- A step by a key at the end extends the path by that key. -/
theorem render_concat (above : List Segment) (key : List Char) :
    render (above ++ [step key]) = extend (render above) (step key) := by
  rw [render, List.foldl_append]
  rfl

/-- A block with keys has entries. -/
theorem entries_ne_nil {b : Block} (h : b.keys ≠ []) : b.entries ≠ [] := by
  cases b with
  | done => exact absurd rfl h
  | scalar key label text value rest => simp [entries]
  | list key label items rest => simp [entries]
  | mapping key inner rest => simp [entries]

/-- The leaves of a block are those of its units, in order. -/
theorem entryLeaves_entries {b : Block} (h : b.Printable) (above : List Segment) :
    entryLeaves b.entries (render above) =
      (b.units above).flatMap fun u => leavesFrom u.2 (render u.1) := by
  induction b generalizing above with
  | done => rfl
  | scalar key label text value rest ih =>
    obtain ⟨-, -, -, -, hrest⟩ := h
    rw [entries, entryLeaves, ih hrest, units, List.flatMap_cons, render_concat]
    rfl
  | list key label items rest ih =>
    obtain ⟨-, -, -, -, hrest⟩ := h
    rw [entries, entryLeaves, ih hrest, units, List.flatMap_cons, render_concat]
    rfl
  | mapping key inner rest ihinner ihrest =>
    obtain ⟨-, hne, hinner, hrest⟩ := h
    have hbelow : leavesFrom (.mapping inner.entries) (extend (render above) (step key)) =
        entryLeaves inner.entries (render (above ++ [step key])) := by
      rw [leavesFrom, if_neg (by simpa using entries_ne_nil hne), render_concat]
    rw [entries, entryLeaves, ihrest hrest, units, List.flatMap_append, ← ihinner hinner, ← hbelow]
    rfl

/-- The leaves of the written mapping are those of the units. -/
theorem leaves_toValue {b : Block} (h : b.Printable) :
    leaves b.toValue = (b.units []).flatMap fun u => leavesFrom u.2 (render u.1) := by
  rw [leaves, toValue, leavesFrom, ← entryLeaves_entries h []]
  split
  · next hempty =>
    rw [List.isEmpty_iff.mp hempty]
    rfl
  · rfl

/-- One more key leads from a mapping to the value of the entry. -/
theorem at?_concat {root child : Value} {above : List Segment} {entries : List (Value × Value)}
    {name : String} (hat : at? root above = some (.mapping entries))
    (hentry : entry? name entries = some child) :
    at? root (above ++ [.key name]) = some child.untag := by
  induction above generalizing root with
  | nil =>
    have huntag : root.untag = .mapping entries := Option.some.inj hat
    rw [List.nil_append, at?, huntag]
    simp [hentry, at?]
  | cons s above ih =>
    cases s with
    | key k =>
      rw [at?] at hat
      rw [List.cons_append, at?]
      split at hat
      · split at hat
        · exact ih hat
        · simp at hat
      · simp at hat
    | index n =>
      rw [at?] at hat
      rw [List.cons_append, at?]
      split at hat
      · split at hat
        · exact ih hat
        · simp at hat
      · simp at hat

/-- A scalar has no tags. -/
theorem untag_of_isScalar {v : Value} (h : v.isScalar = true) : v.untag = v := by
  cases v <;> simp_all [isScalar, untag]

/-- The steps to a unit lead to its value. -/
theorem at?_of_mem_units {b : Block} (h : b.Printable) {root : Value} {above : List Segment}
    {all : List (Value × Value)} (hat : at? root above = some (.mapping all))
    (hnodup : (keyTexts all).Nodup) (hsub : ∀ entry ∈ b.entries, entry ∈ all) :
    ∀ u ∈ b.units above, at? root u.1 = some u.2 := by
  induction b generalizing above all with
  | done => exact fun u hu => absurd hu List.not_mem_nil
  | scalar key label text value rest ih =>
    obtain ⟨-, -, -, hscalar, hrest⟩ := h
    obtain ⟨hmem, hsub⟩ := List.forall_mem_cons.mp hsub
    have hhere := at?_concat hat (entry?_of_mem hnodup hmem rfl)
    rw [untag_of_isScalar hscalar] at hhere
    intro u hu
    rcases List.mem_cons.mp hu with rfl | hu
    · exact hhere
    · exact ih hrest hat hnodup hsub u hu
  | list key label items rest ih =>
    obtain ⟨-, -, -, -, hrest⟩ := h
    obtain ⟨hmem, hsub⟩ := List.forall_mem_cons.mp hsub
    have hhere := at?_concat hat (entry?_of_mem hnodup hmem rfl)
    intro u hu
    rcases List.mem_cons.mp hu with rfl | hu
    · exact hhere
    · exact ih hrest hat hnodup hsub u hu
  | mapping key inner rest ihinner ihrest =>
    obtain ⟨-, -, hinner, hrest⟩ := h
    obtain ⟨hmem, hsub⟩ := List.forall_mem_cons.mp hsub
    have hbelow := at?_concat hat (entry?_of_mem hnodup hmem rfl)
    intro u hu
    rcases List.mem_append.mp hu with hu | hu
    · exact ihinner hinner hbelow (nodup_keyTexts hinner) (fun _ hentry => hentry) u hu
    · exact ihrest hrest hat hnodup hsub u hu

/-- What is observed at the leaves of a unit. -/
def observations (root : Value) (u : List Segment × Value) : List Parameter :=
  (leavesFrom u.2 (render u.1)).map fun leaf => root.observeAt leaf.1 leaf.2

/-- A scalar is observed under its path. -/
theorem name_observeAt_of_isWay {steps : List Segment} (hway : IsWay steps) (root leaf : Value) :
    (root.observeAt (render steps) leaf).name = String.ofList (render steps) := by
  have hcut : beforeLast? '[' (render steps) = none :=
    beforeLast?_render_of_keys (fun s hs => isNeat_of_isPlain (hway.isPlain s hs)) hway.not_index
  rw [observeAt, stringsAround?, hcut]
  rfl

/-- An item of a list is observed under the path of the list. -/
theorem name_observeAt_item {root : Value} {steps : List Segment} (hway : IsWay steps)
    {items : List (List Char × String)} (hat : at? root steps = some (sequenceOf items)) (n : Nat)
    (leaf : Value) :
    (root.observeAt (extend (render steps) (.index n)) leaf).name =
      String.ofList (render steps) := by
  have hfind : root.find? (render steps) = some (sequenceOf items, true) := by
    rw [find?, lookup?, hway.segments_render, hat]
  have hstrings : (items.map fun item => Value.string item.2).all isString = true := by
    rw [List.all_map]
    exact List.all_eq_true.mpr fun _ _ => rfl
  rw [observeAt, stringsAround?_item hfind hstrings]
  rfl

/-- Something is observed of every unit, and all of it under the name of the unit. -/
theorem observations_of_mem_units {root : Value} {u : List Segment × Value} (hway : IsWay u.1)
    (hne : u.1 ≠ []) (hunit : IsUnit u.2) (hat : at? root u.1 = some u.2) :
    observations root u ≠ [] ∧ ∀ p ∈ observations root u, p.name = unitName u := by
  have hpath : render u.1 ≠ [] := render_ne_nil hne hway.ne_empty
  rcases hunit with hscalar | ⟨items, hitems, hvalue⟩
  · have hleaf : u.2.isLeaf = true := by
      cases hvalue : u.2 <;> simp_all [isScalar, isLeaf]
    rw [observations, leavesFrom_of_isLeaf hleaf hpath, List.map_singleton]
    refine ⟨by simp, fun p hp => ?_⟩
    rw [List.mem_singleton.mp hp]
    exact name_observeAt_of_isWay hway root u.2
  · have hstring : ∀ item ∈ items.map (fun item => Value.string item.2), item.isString = true := by
      intro item hitem
      obtain ⟨source, -, rfl⟩ := List.mem_map.mp hitem
      rfl
    have hleaves : leavesFrom u.2 (render u.1) =
        ((items.map fun item => Value.string item.2).zipIdx 0).map
          fun item => (extend (render u.1) (.index item.2), item.1) := by
      rw [hvalue, sequenceOf, leavesFrom, if_neg (by simpa using hitems),
        itemLeaves_of_isString hstring]
    rw [observations, hleaves, List.map_map]
    refine ⟨by simpa using hitems, fun p hp => ?_⟩
    obtain ⟨item, -, rfl⟩ := List.mem_map.mp hp
    exact name_observeAt_item hway (hvalue ▸ hat) item.2 item.1

/-- At least one step leads to a unit. -/
theorem ne_nil_of_mem_units {b : Block} {above : List Segment} {u : List Segment × Value}
    (hu : u ∈ b.units above) : u.1 ≠ [] := by
  obtain ⟨key, -, hprefix⟩ := exists_key_of_mem_units hu
  intro hempty
  rw [hempty, List.prefix_nil] at hprefix
  simp at hprefix

/-- Every unit of a block has a first observation, and all are made under the name of the unit. -/
theorem exists_observations {b : Block} (h : b.Printable) :
    ∀ u ∈ b.units [], ∃ first more, observations b.toValue u = first :: more ∧
      first.name = unitName u ∧ ∀ p ∈ more, p.name = unitName u := by
  have hway : IsWay [] := fun s hs => absurd hs List.not_mem_nil
  have hroot : at? b.toValue [] = some (.mapping b.entries) := rfl
  intro u hu
  obtain ⟨huway, hunit⟩ := isWay_of_mem_units h hway u hu
  have hat := at?_of_mem_units h hroot (nodup_keyTexts h) (fun _ hentry => hentry) u hu
  obtain ⟨hsome, hnames⟩ := observations_of_mem_units huway (ne_nil_of_mem_units hu) hunit hat
  obtain ⟨first, more, heq⟩ := List.exists_cons_of_ne_nil hsome
  rw [heq] at hnames
  exact ⟨first, more, heq, hnames first List.mem_cons_self,
    fun p hp => hnames p (List.mem_cons_of_mem _ hp)⟩

/-- The units of a block are observed, in order. -/
theorem names_observed {b : Block} (h : b.Printable) :
    b.toValue.observed.map (·.name) = (b.units []).map unitName := by
  choose! first more hblock hfirst hmore using exists_observations h
  have hnodup : ((b.units []).map fun u => (first u).name).Nodup := by
    rw [List.map_congr_left hfirst]
    exact nodup_unitNames h
  -- Only the first observation of a unit is kept, since the others repeat its name.
  have hblocks : ∀ u ∈ b.units [], ∃ more, observations b.toValue u = first u :: more ∧
      ∀ p ∈ more, p.name = (first u).name := by
    intro u hu
    refine ⟨more u, hblock u hu, fun p hp => ?_⟩
    rw [hfirst u hu, hmore u hu p hp]
  have hkept : b.toValue.observed = (b.units []).map first := by
    rw [observed, leaves_toValue h, List.map_flatMap]
    exact firstNames_flatMap hblocks (fun _ _ => List.not_mem_nil) hnodup
  rw [hkept, List.map_map]
  exact List.map_congr_left hfirst

/-- The text and the values of a block have the same parameters in the same order, and a check of
one against the other finds nothing.

The labels of the tags and the texts of scalars and items are any texts of one line; a label only
opens no parenthesis. -/
theorem names_agree {b : Block} (h : b.Printable) :
    (Catalog.ofText {} b.text).parameters.map (·.name) = b.toValue.observed.map (·.name) ∧
      (Catalog.ofText {} b.text).findings b.toValue.observed = [] := by
  have hnames : (Catalog.ofText {} b.text).parameters.map (·.name) =
      b.toValue.observed.map (·.name) := by
    rw [names_ofText h, names_observed h]
  exact ⟨hnames, Catalog.findings_eq_nil_of_names_eq hnames⟩

/-- Entries on three levels: two levels are left at once, and the list has one more key after it. -/
def service : Block :=
  .mapping "web".toList
    (.mapping "tls".toList
      (.list "hosts".toList "x".toList [("a.b".toList, "a.b"), ("\"c: d\"".toList, "c: d")]
        (.scalar "port".toList "x".toList "443".toList (.number (.int 443)) .done))
      .done)
    (.scalar "log-level".toList "x".toList "info".toList (.string "info") .done)

/-- The block of three levels can be printed, and its text and its values agree. -/
theorem names_agree_service :
    service.Printable ∧
      (Catalog.ofText {} service.text).parameters.map (·.name) =
        service.toValue.observed.map (·.name) ∧
      (Catalog.ofText {} service.text).findings service.toValue.observed = [] := by
  have h : service.Printable := by decide +kernel
  exact ⟨h, names_agree h⟩

end Block

end ChartDocs
