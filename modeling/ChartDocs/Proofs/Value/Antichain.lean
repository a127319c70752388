import ChartDocs.Proofs.Catalog.Accounting
import ChartDocs.Proofs.Path.Ancestry
import ChartDocs.Proofs.Value.Lookups

/-!
# No observation lies below another

In a clean tree every place has steps of its own, and the path texts tell the places apart. A listed
place has no other listed place below it: nothing lies below a leaf, and the items of a sequence of
strings are observed as the sequence. So the steps to one observation never start with the steps to
another, and neither do their names.
-/

namespace ChartDocs

open ChartDocs.Path

namespace Place

/-- A place that is listed in the whole is listed in the part. -/
theorem isListed_of_onto {q p : Place} (h : (q.onto p).isListed = true) : p.isListed = true := by
  simp only [isListed, onto, List.any_append, Bool.or_eq_true, Bool.and_eq_true,
    Bool.not_eq_true', Bool.or_eq_false_iff] at h ⊢
  exact h.imp_right fun hleaf => ⟨hleaf.1, hleaf.2.2⟩

end Place

namespace Value

variable {root v : Value} {q p : Place}

/-- Places as places of the parent have one more step in front. -/
theorem map_steps_under (segment : Segment) (parent : Value) (ps : List Place) :
    (ps.map (Place.under segment parent)).map Place.steps =
      (ps.map Place.steps).map (segment :: ·) := by
  rw [List.map_map, List.map_map]
  rfl

/-- The first step to a place below the entries of a mapping is one of its keys. -/
theorem exists_key_of_mem_steps {entries : List (Value × Value)} {parent : Value}
    {steps : List Segment} (h : steps ∈ (entryPlaces entries parent).map Place.steps) :
    ∃ name ∈ keyTexts entries, ∃ below, steps = .key name :: below := by
  obtain ⟨p, hp, rfl⟩ := List.mem_map.mp h
  obtain ⟨key, child, name, q, hmem, hname, -, rfl⟩ := mem_entryPlaces.mp hp
  exact ⟨name, mem_keyTexts hmem hname, q.steps, rfl⟩

/-- The first step to a place below the items of a sequence is one of their positions. -/
theorem exists_index_of_mem_steps {items : List Value} {parent : Value} {start : Nat}
    {steps : List Segment} (h : steps ∈ (itemPlaces items parent start).map Place.steps) :
    ∃ n, start ≤ n ∧ ∃ below, steps = .index n :: below := by
  obtain ⟨p, hp, rfl⟩ := List.mem_map.mp h
  obtain ⟨n, child, q, -, -, rfl⟩ := mem_itemPlaces.mp hp
  exact ⟨start + n, Nat.le_add_right start n, q.steps, rfl⟩

/-- Different entries and different places in them are reached by different steps. -/
theorem nodup_steps_entryPlaces {entries : List (Value × Value)}
    (hkeys : (keyTexts entries).Nodup)
    (h : ∀ entry ∈ entries, ∀ name, entry.1.keyText? = some name →
      ((places entry.2).map Place.steps).Nodup) (parent : Value) :
    ((entryPlaces entries parent).map Place.steps).Nodup := by
  induction entries with
  | nil => exact List.nodup_nil
  | cons entry rest ih =>
    obtain ⟨key, child⟩ := entry
    rw [keyTexts_cons] at hkeys
    have hrest := ih (List.nodup_append.mp hkeys).2.1 fun e he => h e (List.mem_cons_of_mem _ he)
    rw [entryPlaces]
    cases hname : key.keyText? with
    | none => exact hrest
    | some name =>
      rw [hname] at hkeys
      have hnew : name ∉ keyTexts rest := (List.nodup_cons.mp hkeys).1
      have hchild := h (key, child) List.mem_cons_self name hname
      dsimp only
      rw [List.map_append, map_steps_under]
      refine List.nodup_append.mpr ⟨hchild.map List.cons_injective, hrest, ?_⟩
      rintro steps hsteps other hother rfl
      obtain ⟨below, -, rfl⟩ := List.mem_map.mp hsteps
      obtain ⟨later, hlater, _, heq⟩ := exists_key_of_mem_steps hother
      have hsame : name = later := Segment.key.inj (List.cons.inj heq).1
      exact hnew (hsame ▸ hlater)

/-- Different items and different places in them are reached by different steps. -/
theorem nodup_steps_itemPlaces {items : List Value}
    (h : ∀ item ∈ items, ((places item).map Place.steps).Nodup) (parent : Value) (start : Nat) :
    ((itemPlaces items parent start).map Place.steps).Nodup := by
  induction items generalizing start with
  | nil => exact List.nodup_nil
  | cons item rest ih =>
    have hrest := ih (fun e he => h e (List.mem_cons_of_mem _ he)) (start + 1)
    rw [itemPlaces, List.map_append, map_steps_under]
    refine List.nodup_append.mpr
      ⟨(h item List.mem_cons_self).map List.cons_injective, hrest, ?_⟩
    rintro steps hsteps other hother rfl
    obtain ⟨below, -, rfl⟩ := List.mem_map.mp hsteps
    obtain ⟨n, hn, _, heq⟩ := exists_index_of_mem_steps hother
    have hsame : start = n := Segment.index.inj (List.cons.inj heq).1
    omega

/-- Where the keys of every mapping differ, no two places have the same steps. -/
theorem nodup_steps_places (hdistinct : DistinctKeys v) : ((places v).map Place.steps).Nodup := by
  induction v using induct with
  | tagged tag content ih => exact ih hdistinct
  | mapping entries ih =>
    rw [places, List.map_cons, List.nodup_cons]
    refine ⟨fun hroot => ?_, nodup_steps_entryPlaces
      (hdistinct _ (root_mem_places _) entries rfl)
      (fun entry hentry name hname => ih entry hentry (hdistinct.of_entry hentry hname)) _⟩
    obtain ⟨_, -, _, heq⟩ := exists_key_of_mem_steps hroot
    exact List.cons_ne_nil _ _ heq.symm
  | sequence items ih =>
    rw [places, List.map_cons, List.nodup_cons]
    refine ⟨fun hroot => ?_, nodup_steps_itemPlaces (fun item hitem => ?_) _ 0⟩
    · obtain ⟨_, -, _, heq⟩ := exists_index_of_mem_steps hroot
      exact List.cons_ne_nil _ _ heq.symm
    · obtain ⟨n, hn⟩ := List.getElem?_of_mem hitem
      exact ih item hitem (hdistinct.of_item hn)
  | scalar v htag hmap hseq =>
    have hplaces : places v = [⟨[], [], v⟩] := by cases v <;> simp_all [places]
    rw [hplaces]
    exact List.nodup_singleton _

/-- A clean tree with a mapping at its root is legible. -/
theorem legible_of_plainKeys (hroot : ∃ entries, root.untag = mapping entries)
    (hplain : PlainKeys root) (hdistinct : DistinctKeys root)
    (hsize : ∀ p ∈ places root, ∀ items, p.value = sequence items → items.length < indexBound) :
    Legible root where
  mapping_root := hroot
  neat p hp s hs := isNeat_of_isPlain (hplain p hp s hs)
  size := hsize
  distinct := by
    have hsteps := nodup_steps_places hdistinct
    have hpath : (places root).map Place.path = ((places root).map Place.steps).map render := by
      rw [List.map_map]
      rfl
    rw [hpath]
    refine hsteps.map_on fun steps hsteps more hmore heq => ?_
    obtain ⟨q, hq, rfl⟩ := List.mem_map.mp hsteps
    obtain ⟨p, hp, rfl⟩ := List.mem_map.mp hmore
    exact eq_of_render_eq (hplain q hq) (hplain p hp) heq

/-- On the way to a place every beginning of the steps leads to a place, and the rest of the way is
a place of what is there. -/
theorem exists_onto_of_steps_eq_append (hp : p ∈ places v) {front back : List Segment}
    (hsteps : p.steps = front ++ back) :
    ∃ q ∈ places v, ∃ r ∈ places q.value, q.steps = front ∧ r.steps = back ∧ q.onto r = p := by
  induction v using induct generalizing p front with
  | tagged tag content ih => exact ih hp hsteps
  | mapping entries ih =>
    cases front with
    | nil => exact ⟨_, root_mem_places (mapping entries), p, hp, rfl, hsteps, by simp [untag]⟩
    | cons s front =>
      rcases mem_places_mapping.mp hp with rfl | ⟨key, child, name, below, hmem, hname, hbelow, rfl⟩
      · exact absurd hsteps (by simp)
      · obtain ⟨rfl, hrest⟩ := List.cons.inj hsteps
        obtain ⟨q, hq, r, hr, rfl, rfl, rfl⟩ := ih (key, child) hmem hbelow hrest
        exact ⟨_, under_key_mem_places hmem hname hq, r, hr, rfl, rfl, rfl⟩
  | sequence items ih =>
    cases front with
    | nil => exact ⟨_, root_mem_places (sequence items), p, hp, rfl, hsteps, by simp [untag]⟩
    | cons s front =>
      rcases mem_places_sequence.mp hp with rfl | ⟨n, child, below, hitem, hbelow, rfl⟩
      · exact absurd hsteps (by simp)
      · obtain ⟨rfl, hrest⟩ := List.cons.inj hsteps
        obtain ⟨q, hq, r, hr, rfl, rfl, rfl⟩ :=
          ih child (List.mem_of_getElem? hitem) hbelow hrest
        exact ⟨_, under_index_mem_places hitem hq, r, hr, rfl, rfl, rfl⟩
  | scalar v htag hmap hseq =>
    obtain rfl := (mem_places_scalar htag hmap hseq).mp hp
    obtain ⟨rfl, rfl⟩ := List.append_eq_nil_iff.mp hsteps.symm
    exact ⟨_, hp, _, hp, rfl, rfl, rfl⟩

/-- A leaf has nothing below it. -/
theorem steps_eq_nil_of_isLeaf (hleaf : v.isLeaf = true) (hp : p ∈ places v) : p.steps = [] := by
  cases v <;> simp_all [isLeaf, places, entryPlaces, itemPlaces]

/-- A sequence of strings is the only listed place of itself. -/
theorem steps_eq_nil_of_isPlainSequence (hplain : v.isPlainSequence = true) (hp : p ∈ places v)
    (hlisted : p.isListed = true) : p.steps = [] := by
  cases v with
  | sequence items =>
    have hstrings : ∀ item ∈ items, item.isString = true := by
      simp only [isPlainSequence, Bool.and_eq_true, List.all_eq_true] at hplain
      exact hplain.2
    rw [places, List.mem_cons] at hp
    rcases hp with rfl | hp
    · rfl
    · have hnone := filter_itemPlaces_of_isString hplain hstrings 0
      exact absurd hlisted (List.filter_eq_nil_iff.mp hnone p hp)
  | _ => simp [isPlainSequence] at hplain

/-- No listed place lies below another one. -/
theorem steps_eq_of_isListed (hdistinct : DistinctKeys root) (hq : q ∈ places root)
    (hp : p ∈ places root) (hqlisted : q.isListed = true) (hplisted : p.isListed = true)
    (h : q.steps <+: p.steps) : q.steps = p.steps := by
  obtain ⟨back, hback⟩ := h
  obtain ⟨q', hq', r, hr, hsteps, rfl, rfl⟩ := exists_onto_of_steps_eq_append hp hback.symm
  obtain rfl : q' = q := List.inj_on_of_nodup_map (nodup_steps_places hdistinct) hq' hq hsteps
  have hbelow : r.steps = [] := by
    have hlisted := Place.isListed_of_onto hplisted
    simp only [Place.isListed, Bool.or_eq_true, Bool.and_eq_true] at hqlisted
    rcases hqlisted with hplain | ⟨hleaf, -⟩
    · exact steps_eq_nil_of_isPlainSequence hplain hr hlisted
    · exact steps_eq_nil_of_isLeaf hleaf hr
  rw [← hback, hbelow, List.append_nil]

/-- In a clean tree with a mapping at its root no observed name covers another one, and none is
observed twice. -/
theorem observed_antichain (hroot : ∃ entries, root.untag = mapping entries)
    (hplain : PlainKeys root) (hdistinct : DistinctKeys root)
    (hsize : ∀ p ∈ places root, ∀ items, p.value = sequence items → items.length < indexBound) :
    root.observed.Pairwise (fun a b => a.covers b.name = false ∧ b.covers a.name = false) ∧
      (root.observed.map (·.name)).Nodup := by
  have hlegible := legible_of_plainKeys hroot hplain hdistinct hsize
  refine ⟨?_, (observed_of_legible hlegible).2⟩
  have hcovers : ∀ q ∈ (places root).filter Place.isObserved,
      ∀ p ∈ (places root).filter Place.isObserved, q ≠ p →
        q.parameter.covers p.parameter.name = false := by
    intro q hq p hp hne
    obtain ⟨hq, hqobserved⟩ := List.mem_filter.mp hq
    obtain ⟨hp, hpobserved⟩ := List.mem_filter.mp hp
    simp only [Place.isObserved, Bool.and_eq_true, Bool.not_eq_true', List.isEmpty_eq_false_iff]
      at hqobserved hpobserved
    rw [← Bool.not_eq_true]
    intro hcovers
    obtain ⟨rest, htext, hends⟩ := Parameter.covers_ofList_iff.mp hcovers
    rw [Place.parameter, String.toList_ofList] at htext
    have hprefix : q.steps <+: p.steps :=
      (exists_render_eq_append_iff hqobserved.2 (hplain q hq) (hplain p hp)).mp ⟨rest, htext, hends⟩
    have hsteps := steps_eq_of_isListed hdistinct hq hp hqobserved.1 hpobserved.1 hprefix
    exact hne (List.inj_on_of_nodup_map (nodup_steps_places hdistinct) hq hp hsteps)
  have hnodup : ((places root).filter Place.isObserved).Nodup :=
    (nodup_steps_places hdistinct).of_map.filter _
  rw [hlegible.observed_eq_map, List.pairwise_map]
  exact hnodup.pairwise_of_forall_ne fun q hq p hp hne =>
    ⟨hcovers q hq p hp hne, hcovers p hp q hq hne.symm⟩

/-- Keys that start like others, a sequence of strings, one with a tagged item and an empty mapping
under a tag. -/
def crossedTree : Value :=
  tagged "t" (mapping
    [(string "image", mapping [(string "tag", null), (string "tags", sequence [string "a"])]),
      (string "imagePullSecrets", sequence [string "x", string "y"]),
      (string "hosts", sequence [string "h", tagged "u" (string "i"),
        mapping [(number (.int 0), sequence [])]]),
      (sequence [], string "hidden"), (string "host", tagged "v" (mapping []))])

/-- Among the parameters of the crossed tree none covers another one. -/
theorem observed_antichain_crossedTree :
    (∃ entries, crossedTree.untag = mapping entries) ∧ PlainKeys crossedTree ∧
      DistinctKeys crossedTree ∧
      (∀ p ∈ places crossedTree, ∀ items, p.value = sequence items → items.length < indexBound) ∧
      crossedTree.observed.map (·.name) = ["image.tag", "image.tags", "imagePullSecrets",
        "hosts[0]", "hosts[1]", "hosts[2].0", "host"] ∧
      crossedTree.observed.Pairwise
        (fun a b => a.covers b.name = false ∧ b.covers a.name = false) := by
  have hroot : ∃ entries, crossedTree.untag = mapping entries := ⟨_, rfl⟩
  have hplain : PlainKeys crossedTree := by decide +kernel
  have hdistinct : DistinctKeys crossedTree := by decide +kernel
  have hsize : ∀ p ∈ places crossedTree, ∀ items, p.value = sequence items →
      items.length < indexBound := length_lt_of_hasFewItems 4 (by decide +kernel) (by decide)
  exact ⟨hroot, hplain, hdistinct, hsize, by decide +kernel,
    (observed_antichain hroot hplain hdistinct hsize).1⟩

end Value

end ChartDocs
