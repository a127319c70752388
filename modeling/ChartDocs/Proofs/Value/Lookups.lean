import ChartDocs.Proofs.Value.Observed
import ChartDocs.Proofs.Value.Sighting

/-!
# When the lookups find something, and when they agree

Matching whole keys finds something under the path of every leaf, also where keys hold dots and
brackets or spell each other, so an observation never has to fall back on the leaf itself. In a
clean tree, where keys are plain and the keys of one mapping differ, a text of plain segments can be
read in one way only. Both lookups then find the place with these steps, or nothing if there is no
such place or a position is not below the bound.
-/

namespace ChartDocs.Value

open ChartDocs.Path

variable {root found : Value} {steps : List Segment}

/-- Under the path of every leaf whole keys spell something, so what is observed there does not
depend on the leaf that was listed. -/
theorem resolved_of_mem_leaves (hnamed : NamedKeys root)
    (hsize : ∀ p ∈ places root, ∀ items, p.value = sequence items → items.length < indexBound)
    {leaf : List Char × Value} (h : leaf ∈ root.leaves) :
    (root.spelled? leaf.1).isSome = true ∧ (root.find? leaf.1).isSome = true ∧
      ∀ other, root.observeAt leaf.1 other = root.observeAt leaf.1 leaf.2 := by
  obtain ⟨p, hp, -, rfl⟩ := exists_place_of_mem_leaves h
  have hspelled : (root.spelled? p.path).isSome = true := by
    rw [Place.path, render_eq_dropDot (hnamed p hp)]
    exact spelled?_isSome_of_mem_places hnamed hp (isShort_of_mem_places hsize hp)
  have hfind : (root.find? p.path).isSome = true := by
    unfold find?
    split
    · rfl
    · rwa [Option.isSome_map]
  refine ⟨hspelled, hfind, fun other => ?_⟩
  obtain ⟨⟨value, inSchema⟩, hvalue⟩ := Option.isSome_iff_exists.mp hfind
  simp only [observeAt, hvalue, Option.getD_some]

/-- A tree whose keys start and end with dots, hold brackets and spell what lies below others. -/
def crowdedTree : Value :=
  mapping
    [(string ".a", sequence [mapping [(string ".b.", null)], bool true]),
      (string ".a[0]", mapping [(string "b.", mapping [])]),
      (string "[7]", tagged "t" (string "x")), (number (.int 1), bool false), (string "1", null)]

/-- The path `.a[0]..b.` starts with two keys; only the shorter one leads on to a leaf. -/
theorem resolved_crowdedTree :
    NamedKeys crowdedTree ∧
      (∀ p ∈ places crowdedTree, ∀ items, p.value = sequence items → items.length < indexBound) ∧
      (".a[0]..b.".toList, null) ∈ crowdedTree.leaves ∧
      (crowdedTree.spelled? ".a[0]..b.".toList).isSome = true := by
  have hnamed : NamedKeys crowdedTree := by
    unfold NamedKeys
    decide +kernel
  have hsize : ∀ p ∈ places crowdedTree, ∀ items, p.value = sequence items →
      items.length < indexBound := length_lt_of_hasFewItems 3 (by decide +kernel) (by decide)
  have hleaf : (".a[0]..b.".toList, null) ∈ crowdedTree.leaves := by decide +kernel
  exact ⟨hnamed, hsize, hleaf, (resolved_of_mem_leaves hnamed hsize hleaf).1⟩

/-- No key is empty or holds a dot or an opening bracket. -/
def PlainKeys (root : Value) : Prop :=
  ∀ p ∈ places root, ∀ s ∈ p.steps, s.IsPlain

instance (root : Value) : Decidable (PlainKeys root) :=
  inferInstanceAs (Decidable (∀ p ∈ places root, ∀ s ∈ p.steps, s.IsPlain))

/-- Plain keys are not empty. -/
theorem PlainKeys.named (h : PlainKeys root) : NamedKeys root :=
  fun p hp => ne_empty_of_isPlain (h p hp)

/-- A place that a text of plain segments can be read as has these steps, and its positions are
below the bound. -/
theorem PlainKeys.steps_eq (hplain : PlainKeys root) (hsteps : ∀ s ∈ steps, s.IsPlain) {p : Place}
    (hp : p ∈ places root) (h : Reads (render steps) p.steps) : p.IsShort ∧ p.steps = steps :=
  ⟨h.index_lt, Reads.eq_of_render hsteps h (hplain p hp)⟩

/-- The lookup of a path text finds what stands at the place of its steps. -/
theorem lookup?_render_eq_some_iff (hplain : PlainKeys root) (hdistinct : DistinctKeys root)
    (hsteps : ∀ s ∈ steps, s.IsPlain) :
    root.lookup? (render steps) = some found ↔
      ∃ p ∈ places root, p.IsShort ∧ p.steps = steps ∧ p.value = found := by
  constructor
  · intro h
    obtain ⟨p, hp, hreads, hvalue⟩ := exists_place_of_lookup? h
    obtain ⟨hshort, heq⟩ := hplain.steps_eq hsteps hp hreads
    exact ⟨p, hp, hshort, heq, hvalue⟩
  · rintro ⟨p, hp, hshort, rfl, rfl⟩
    rw [lookup?, segments_of_render hsteps hshort]
    exact at?_of_mem_places hdistinct hp

/-- The literal lookup of a path text finds what stands at the place of its steps. -/
theorem spelled?_render_eq_some_iff (hplain : PlainKeys root) (hdistinct : DistinctKeys root)
    (hsteps : ∀ s ∈ steps, s.IsPlain) :
    root.spelled? (render steps) = some found ↔
      ∃ p ∈ places root, p.IsShort ∧ p.steps = steps ∧ p.value = found := by
  constructor
  · intro h
    obtain ⟨p, hp, hreads, hvalue⟩ := exists_place_of_spelled? h
    obtain ⟨hshort, heq⟩ := hplain.steps_eq hsteps hp hreads
    exact ⟨p, hp, hshort, heq, hvalue⟩
  · rintro ⟨p, hp, hshort, rfl, rfl⟩
    have hspelled := spelled?_isSome_of_mem_places hplain.named hp hshort
    rw [← render_eq_dropDot (ne_empty_of_isPlain hsteps)] at hspelled
    obtain ⟨other, hother⟩ := Option.isSome_iff_exists.mp hspelled
    -- What is spelled is a place with the same steps, and following them leads to one place only.
    obtain ⟨q, hq, hreads, rfl⟩ := exists_place_of_spelled? hother
    obtain ⟨-, heq⟩ := hplain.steps_eq hsteps hq hreads
    have hvalue := at?_of_mem_places hdistinct hq
    rw [heq, at?_of_mem_places hdistinct hp] at hvalue
    rw [hother, hvalue]

/-- In a clean tree both lookups lead to the same value under every text of plain segments: to the
place with these steps, if there is one and its positions are below the bound. -/
theorem lookup?_eq_spelled? (hplain : PlainKeys root) (hdistinct : DistinctKeys root)
    (hsteps : ∀ s ∈ steps, s.IsPlain) :
    root.lookup? (render steps) = root.spelled? (render steps) ∧
      ∀ found, root.spelled? (render steps) = some found ↔
        ∃ p ∈ places root, p.IsShort ∧ p.steps = steps ∧ p.value = found := by
  refine ⟨Option.ext fun found => ?_, fun found => ?_⟩
  · rw [lookup?_render_eq_some_iff hplain hdistinct hsteps,
      spelled?_render_eq_some_iff hplain hdistinct hsteps]
  · exact spelled?_render_eq_some_iff hplain hdistinct hsteps

/-- A clean tree with tags, keys of several kinds and a closing bracket in a key. -/
def cleanTree : Value :=
  tagged "t" (mapping
    [(string "a]", sequence [tagged "u" (mapping [(bool true, number (.int 5))]), string "x"]),
      (number (.int 1), mapping [])])

/-- In the clean tree both lookups find the same number. -/
theorem lookup?_eq_spelled?_cleanTree :
    PlainKeys cleanTree ∧ DistinctKeys cleanTree ∧
      (∀ s ∈ [Segment.key "a]", .index 0, .key "true"], s.IsPlain) ∧
      cleanTree.lookup? "a][0].true".toList = cleanTree.spelled? "a][0].true".toList ∧
      cleanTree.spelled? "a][0].true".toList = some (number (.int 5)) := by
  have hplain : PlainKeys cleanTree := by decide +kernel
  have hdistinct : DistinctKeys cleanTree := by decide +kernel
  have hsteps : ∀ s ∈ [Segment.key "a]", .index 0, .key "true"], s.IsPlain := by decide +kernel
  exact ⟨hplain, hdistinct, hsteps, (lookup?_eq_spelled? hplain hdistinct hsteps).1,
    by decide +kernel⟩

end ChartDocs.Value
