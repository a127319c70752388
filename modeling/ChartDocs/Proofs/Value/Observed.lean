import ChartDocs.Proofs.Value.Finding
import ChartDocs.Proofs.Value.Listing
import Mathlib.Data.List.Nodup

/-!
# What is observed of a tree

In a legible tree, a mapping whose places have different path texts, the observed parameters are
those of the listed places below the root: one for each sequence of strings and one for each other
leaf, in document order and under different names. Each carries the value of its place, and can be
shown in a schema exactly if no key on the way holds a dot. The root itself has no path, so an empty
mapping shows nothing.
-/

namespace ChartDocs

namespace Place

/-- Whether a place is listed and has a path. -/
def isObserved (p : Place) : Bool :=
  p.isListed && !p.steps.isEmpty

/-- The parameter that shows a place. -/
def parameter (p : Place) : Parameter :=
  { name := String.ofList p.path
    kind := some p.value.kind
    value := some (if p.value = .null then .string "nil" else p.value)
    inSchema := p.steps.all Segment.isDotless }

end Place

namespace Value

open Text ChartDocs.Path

/-- A mapping, perhaps under tags, whose places can be told apart by their path texts. -/
structure Legible (root : Value) : Prop where
  mapping_root : ∃ entries, root.untag = mapping entries
  /-- No key holds an opening bracket or has an empty piece between dots. -/
  neat : NeatKeys root
  /-- Every position is below the bound. -/
  size : ∀ p ∈ places root, ∀ items, p.value = sequence items → items.length < indexBound
  distinct : ((places root).map Place.path).Nodup

namespace Legible

variable {root : Value}

/-- In a legible tree every position is below the bound. -/
theorem isShort (h : Legible root) {p : Place} (hp : p ∈ places root) : p.IsShort :=
  isShort_of_mem_places h.size hp

/-- In a legible tree different places have different path texts. -/
theorem eq_of_path_eq (h : Legible root) {p q : Place} (hp : p ∈ places root)
    (hq : q ∈ places root) (hpath : p.path = q.path) : p = q :=
  List.inj_on_of_nodup_map h.distinct hp hq hpath

/-- Places with different texts have different keys in every mapping. -/
theorem distinctKeys (h : Legible root) : DistinctKeys root := by
  intro p hp entries hvalue
  have hpaths : ((places p.value).map fun q => render (p.steps ++ q.steps)).Nodup := by
    have hsublist := (sublist_places hp).map Place.path
    rw [List.map_map] at hsublist
    exact hsublist.nodup h.distinct
  rw [hvalue, places, List.map_cons, List.nodup_cons] at hpaths
  have hkeys := (sublist_keyTexts entries (mapping entries)).map
    fun steps => render (p.steps ++ steps)
  simp only [List.map_map] at hkeys
  exact (hkeys.nodup hpaths.2).of_map

/-- In a legible tree a path text is what its steps spell, without a dot in front. -/
theorem path_eq_dropDot (h : Legible root) {p : Place} (hp : p ∈ places root) :
    p.path = dropDot (continuation p.steps) :=
  render_eq_dropDot (h.neat.named p hp)

/-- In a legible tree a path text leads to its place, segment by segment if no key on the way
holds a dot. -/
theorem find?_path (h : Legible root) {p : Place} (hp : p ∈ places root) :
    root.find? p.path = some (p.value, p.steps.all Segment.isDotless) := by
  have hshort := h.isShort hp
  have hsegments : segments p.path = refine p.steps :=
    segments_render_of_isNeat (h.neat p hp) hshort
  rw [find?, lookup?, hsegments]
  cases hat : at? root (refine p.steps) with
  | some found =>
    -- The segments lead to a place with the same text, so they are the steps.
    obtain ⟨q, hq, hsteps, rfl⟩ := mem_places_of_at? hat
    have hpath : p.path = q.path := by
      rw [h.path_eq_dropDot hp, h.path_eq_dropDot hq, hsteps, continuation_refine]
    obtain rfl := h.eq_of_path_eq hp hq hpath
    have hdotless := List.all_eq_true.mpr (isDotless_of_refine_eq hsteps.symm)
    rw [hdotless]
  | none =>
    -- Whole keys spell the text, and only those of the place do.
    have hspelled := spelled?_isSome_of_mem_places h.neat.named hp hshort
    rw [← h.path_eq_dropDot hp] at hspelled
    obtain ⟨found, hfound⟩ := Option.isSome_iff_exists.mp hspelled
    have htext : p.path = dropDot (continuation (refine p.steps)) := by
      rw [continuation_refine, h.path_eq_dropDot hp]
    obtain ⟨q, hq, hsame, rfl⟩ := mem_places_of_spelled? h.neat
      (isPlain_of_mem_refine (h.neat p hp)) (fun n hn => hshort n (index_mem_of_mem_refine hn))
      (htext ▸ hfound)
    have hpath : p.path = q.path := by
      rw [h.path_eq_dropDot hq, hsame, htext]
    obtain rfl := h.eq_of_path_eq hp hq hpath
    have hdotted : p.steps.all Segment.isDotless = false := by
      by_contra hdotless
      rw [Bool.not_eq_false, List.all_eq_true] at hdotless
      rw [refine_of_isDotless hdotless, at?_of_mem_places h.distinctKeys hp] at hat
      simp at hat
    simp [hfound, hdotted]

/-- A leaf in no sequence of strings is not observed as part of one. -/
theorem stringsAround?_path (h : Legible root) {p : Place} (hp : p ∈ places root)
    (habove : ∀ v ∈ p.above, v.isPlainSequence = false) : root.stringsAround? p.path = none := by
  rcases exists_last_index p.steps with hkeys | ⟨front, n, back, hsteps, hback⟩
  · rw [stringsAround?, Place.path, beforeLast?_render_of_keys (h.neat p hp) hkeys]
  · obtain ⟨q, hq, items, hfront, hvalue, hn, hmem⟩ := exists_sequence_of_index hp hsteps
    have hneat : ∀ s ∈ back, s.IsNeat := fun s hs => h.neat p hp s (by simp [hsteps, hs])
    have hcut : beforeLast? '[' p.path = some q.path := by
      rw [Place.path, hsteps, beforeLast?_render_index front n hneat hback, ← hfront, Place.path]
    have hstrings : items.all isString = false := by
      have hplain := habove _ hmem
      cases items with
      | nil => simp at hn
      | cons item rest => simpa [isPlainSequence] using hplain
    rw [stringsAround?, hcut]
    simp only [h.find?_path hq, hvalue]
    rw [if_neg (by simp [hstrings])]

end Legible

/-- An item of a sequence of strings is observed as part of it. -/
theorem stringsAround?_item {root : Value} {above : List Segment} {items : List Value}
    {inSchema : Bool} (hfind : root.find? (render above) = some (sequence items, inSchema))
    (hstrings : items.all isString = true) (n : Nat) :
    root.stringsAround? (extend (render above) (.index n)) =
      some (render above, sequence items) := by
  have hcut : beforeLast? '[' (extend (render above) (.index n)) = some (render above) := by
    have h : beforeLast? '[' (render (above ++ [.index n])) = some (render above) :=
      beforeLast?_render_index above n (by simp) (by simp)
    rwa [render, List.foldl_append] at h
  rw [stringsAround?, hcut]
  simp [hfind, hstrings]

namespace Legible

variable {root : Value}

/-- A leaf in no sequence of strings is observed as itself. -/
theorem observeAt_leaf (h : Legible root) {p : Place} (hp : p ∈ places root)
    (habove : ∀ v ∈ p.above, v.isPlainSequence = false) (leaf : Value) :
    root.observeAt p.path leaf = p.parameter := by
  rw [observeAt, h.find?_path hp, h.stringsAround?_path hp habove]
  rfl

/-- Every item of a sequence of strings is observed as the sequence. -/
theorem observeAt_item (h : Legible root) {p : Place} (hp : p ∈ places root) {items : List Value}
    (hvalue : p.value = sequence items) (hstrings : items.all isString = true) {n : Nat}
    {item : Value} (hitem : items[n]? = some item) (leaf : Value) :
    root.observeAt (extend p.path (.index n)) leaf = p.parameter := by
  obtain ⟨below, hplaces⟩ := places_eq_cons item
  have hbelow : (⟨[.index n], [p.value], item.untag⟩ : Place) ∈ places p.value := by
    rw [hvalue]
    exact under_index_mem_places hitem (root_mem_places item)
  have hplace := onto_mem_places hp hbelow
  have hpath : (p.onto ⟨[.index n], [p.value], item.untag⟩).path = extend p.path (.index n) := by
    simp [Place.path, Place.onto, render]
  have hfind := h.find?_path hplace
  have hflag : (p.onto ⟨[.index n], [p.value], item.untag⟩).steps.all Segment.isDotless =
      p.steps.all Segment.isDotless := by
    simp [Place.onto, Segment.isDotless]
  rw [hpath, hflag] at hfind
  have hsequence := h.find?_path hp
  rw [hvalue] at hsequence
  rw [observeAt, hfind, Place.path, stringsAround?_item hsequence hstrings n, Place.parameter,
    hvalue]
  rfl

/-- The observations at the leaves of an observed place are all its parameter. -/
theorem observeAt_placeLeaves (h : Legible root) {p : Place} (hp : p ∈ places root)
    (hobserved : p.isObserved = true) :
    ∃ more, (placeLeaves [] p).map (fun leaf => root.observeAt leaf.1 leaf.2) =
      p.parameter :: more ∧ ∀ q ∈ more, q = p.parameter := by
  simp only [Place.isObserved, Place.isListed, Bool.and_eq_true, Bool.or_eq_true,
    Bool.not_eq_true', List.any_eq_false, Bool.not_eq_true] at hobserved
  obtain ⟨hplain | ⟨hleaf, habove⟩, hsteps⟩ := hobserved
  · -- A sequence of strings: one observation for each item.
    cases hvalue : p.value with
    | sequence items =>
      rw [hvalue] at hplain
      simp only [isPlainSequence, Bool.and_eq_true, Bool.not_eq_true'] at hplain
      obtain ⟨hnonempty, hstrings⟩ := hplain
      have hleaves : placeLeaves [] p =
          (items.zipIdx 0).map fun item => (extend p.path (.index item.2), item.1) := by
        rw [placeLeaves, hvalue, leavesFrom, hnonempty]
        exact itemLeaves_of_isString (List.all_eq_true.mp hstrings) _ 0
      have hall : ∀ q ∈ (placeLeaves [] p).map (fun leaf => root.observeAt leaf.1 leaf.2),
          q = p.parameter := by
        intro q hq
        rw [hleaves, List.map_map] at hq
        obtain ⟨⟨item, n⟩, hmem, rfl⟩ := List.mem_map.mp hq
        have hitem : items[n]? = some item := by
          simpa using List.mk_mem_zipIdx_iff_getElem?.mp hmem
        exact h.observeAt_item hp hvalue hstrings hitem item
      cases hcases : (placeLeaves [] p).map (fun leaf => root.observeAt leaf.1 leaf.2) with
      | nil =>
        rw [hleaves] at hcases
        cases items <;> simp_all
      | cons first more =>
        rw [hcases] at hall
        refine ⟨more, ?_, fun q hq => hall q (List.mem_cons_of_mem _ hq)⟩
        rw [hall first List.mem_cons_self]
    | _ => simp [hvalue, isPlainSequence] at hplain
  · -- A leaf: one observation.
    have hpath : p.path ≠ [] := render_ne_nil (by simpa using hsteps) (h.neat.named p hp)
    have hleaves : placeLeaves [] p = [(p.path, p.value)] := leavesFrom_of_isLeaf hleaf hpath
    refine ⟨[], ?_, by simp⟩
    rw [hleaves, List.map_singleton, h.observeAt_leaf hp habove]

/-- Only the root has no steps. -/
theorem value_eq_of_steps_eq_nil (h : Legible root) {p : Place} (hp : p ∈ places root)
    (hsteps : p.steps = []) : p.value = root.untag := by
  have hpath : p.path = (⟨[], [], root.untag⟩ : Place).path := by
    rw [Place.path, hsteps, Place.path]
  rw [h.eq_of_path_eq hp (root_mem_places root) hpath]

/-- The root shows no leaves of its own. -/
theorem leaves_eq_flatMap (h : Legible root) :
    leaves root = ((places root).filter Place.isObserved).flatMap (placeLeaves []) := by
  rw [leaves, leavesFrom_eq_listedLeaves, listedLeaves]
  have hfilter : (places root).filter Place.isObserved =
      ((places root).filter Place.isListed).filter fun p => !p.steps.isEmpty := by
    rw [List.filter_filter]
    refine List.filter_congr fun p _ => ?_
    rw [Place.isObserved, Bool.and_comm]
  have hroot : ∀ p ∈ (places root).filter Place.isListed, p.steps = [] → placeLeaves [] p = [] := by
    intro p hp hsteps
    obtain ⟨hp, hlisted⟩ := List.mem_filter.mp hp
    obtain ⟨entries, hentries⟩ := h.mapping_root
    have hvalue := h.value_eq_of_steps_eq_nil hp hsteps
    rw [hentries] at hvalue
    have hempty : entries = [] := by
      simp only [Place.isListed, hvalue, isPlainSequence, isLeaf, Bool.false_or,
        Bool.and_eq_true, List.isEmpty_iff] at hlisted
      exact hlisted.1
    simp [placeLeaves, hvalue, hsteps, hempty, leavesFrom, leafAt]
  rw [hfilter]
  exact flatMap_filter_of_eq_nil fun p hp hsteps => hroot p hp (by simpa using hsteps)

/-- The observed places have different names. -/
theorem nodup_names (h : Legible root) :
    (((places root).filter Place.isObserved).map fun p => p.parameter.name).Nodup := by
  have hpaths := ((List.filter_sublist (p := Place.isObserved)).map Place.path).nodup h.distinct
  have hstrings := hpaths.map (f := String.ofList) fun _ _ => String.ofList_injective
  rwa [List.map_map] at hstrings

/-- The observed parameters are those of the observed places. -/
theorem observed_eq_map (h : Legible root) :
    root.observed = ((places root).filter Place.isObserved).map Place.parameter := by
  rw [observed, h.leaves_eq_flatMap, List.map_flatMap]
  refine firstNames_flatMap (fun p hp => ?_) (fun _ _ => List.not_mem_nil) h.nodup_names
  obtain ⟨hp, hobserved⟩ := List.mem_filter.mp hp
  obtain ⟨more, hblock, hmore⟩ := h.observeAt_placeLeaves hp hobserved
  exact ⟨more, hblock, fun q hq => by rw [hmore q hq]⟩

end Legible

/-- Of a legible tree one parameter is observed for each sequence of strings, and one for each leaf
below the root that lies in no sequence of strings, in document order and without repetition. -/
theorem observed_of_legible {root : Value} (h : Legible root) :
    root.observed = ((places root).filter Place.isObserved).map Place.parameter ∧
      (root.observed.map (·.name)).Nodup := by
  refine ⟨h.observed_eq_map, ?_⟩
  rw [h.observed_eq_map, List.map_map]
  exact h.nodup_names

/-- A tree with tags, keys with dots, a hidden key, a sequence of strings and a mixed sequence. -/
def mixedTree : Value :=
  tagged "t" (mapping
    [(string "a.b", sequence [string "x", string "y"]),
      (string "c", sequence [string "z", tagged "u" (mapping [(bool true, null)])]),
      (sequence [], string "hidden"), (number (.int 1), mapping [])])

/-- Whether a value, if it is a sequence, has fewer items than a bound. -/
def hasFewItems (bound : Nat) : Value → Bool
  | sequence items => items.length < bound
  | _ => true

/-- Sequences with few items everywhere have fewer than the bound of positions. -/
theorem length_lt_of_hasFewItems {root : Value} (bound : Nat)
    (h : (places root).all (·.value.hasFewItems bound) = true) (hbound : bound ≤ indexBound) :
    ∀ p ∈ places root, ∀ items, p.value = sequence items → items.length < indexBound := by
  intro p hp items hitems
  have hlt := List.all_eq_true.mp h p hp
  rw [hitems, hasFewItems, decide_eq_true_eq] at hlt
  exact Nat.lt_of_lt_of_le hlt hbound

/-- The mixed tree is legible. -/
theorem legible_mixedTree : Legible mixedTree where
  mapping_root := ⟨_, rfl⟩
  neat := by
    unfold NeatKeys
    decide +kernel
  size := length_lt_of_hasFewItems 3 (by decide +kernel) (by decide)
  distinct := by decide +kernel

/-- The sequence under the key with a dot is one parameter outside the schema; the mixed sequence is
observed item by item. -/
theorem observed_mixedTree :
    Legible mixedTree ∧ mixedTree.observed =
      [{ name := "a.b", kind := some .array, value := some (sequence [string "x", string "y"]),
         inSchema := false },
        { name := "c[0]", kind := some .string, value := some (string "z") },
        { name := "c[1].true", kind := some .nil, value := some (string "nil") },
        { name := "1", kind := some .object, value := some (mapping []) }] :=
  ⟨legible_mixedTree, (observed_of_legible legible_mixedTree).1.trans (by decide +kernel)⟩

/-- The root counts as no leaf: an empty mapping is legible and listed, but it has no path, and
nothing is observed of it. -/
theorem observed_ne_listed_of_empty_root :
    ¬ ∀ root : Value, Legible root →
      root.observed = ((places root).filter Place.isListed).map Place.parameter ∧
        (root.observed.map (·.name)).Nodup := by
  intro h
  have hlegible : Legible (mapping []) :=
    { mapping_root := ⟨[], rfl⟩
      neat := by
        unfold NeatKeys
        decide
      size := by simp [places, entryPlaces]
      distinct := by decide }
  have heq := congrArg List.length (h (mapping []) hlegible).1
  exact absurd heq (by decide)

end Value

end ChartDocs
