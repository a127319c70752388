import ChartDocs.Proofs.Value.Lookups

/-!
# Paths that lead to something else

What is observed under the path of a leaf is looked up anew from the path text. In a clean tree it
is the leaf, or the sequence of strings around it. Where keys are empty, hold dots or brackets or
have the same text, the text of a leaf may also be read as the steps to a collection, and the lookup
may prefer the collection; this is the only way in which an observed value can be a collection that
has leaves of its own and is no sequence of strings.
-/

namespace ChartDocs.Value

open ChartDocs.Path

variable {root value : Value} {name : List Char}

/-- Whether a value is to be observed as a whole: a scalar, an empty collection or a sequence of
strings. -/
def isWhole (v : Value) : Bool :=
  v.isLeaf || v.isPlainSequence

/-- A leaf is shown as a whole. -/
theorem isWhole_of_isLeaf (h : value.isLeaf = true) : value.isWhole = true := by
  rw [isWhole, h, Bool.true_or]

/-- A sequence of strings is shown as a whole. -/
theorem isWhole_of_all_isString {items : List Value} (h : items.all isString = true) :
    (sequence items).isWhole = true := by
  cases items with
  | nil => rfl
  | cons item rest => simpa [isWhole, isLeaf, isPlainSequence] using h

/-- The path text of a leaf can also be read as the steps to a value. -/
def Collides (root : Value) (name : List Char) (value : Value) : Prop :=
  ∃ p ∈ places root, p.value.isLeaf = true ∧ p.path = name ∧
    ∃ q ∈ places root, Reads name q.steps ∧ q.value = value

/-- In a clean tree the path text of a leaf is read as the steps to this leaf only. -/
theorem Collides.isLeaf (h : Collides root name value) (hplain : PlainKeys root)
    (hdistinct : DistinctKeys root) : value.isLeaf = true := by
  obtain ⟨p, hp, hleaf, rfl, q, hq, hreads, rfl⟩ := h
  obtain ⟨-, hsteps⟩ := hplain.steps_eq (hplain p hp) hq hreads
  have hvalue := at?_of_mem_places hdistinct hq
  rw [hsteps, at?_of_mem_places hdistinct hp] at hvalue
  rwa [← Option.some.inj hvalue]

/-- A value that is observed under a name is a whole, or the name collides. -/
theorem exists_value_observedAs {seen : Parameter} (h : seen ∈ root.observed) :
    ∃ value, seen.value = some value ∧
      (value.isWhole = true ∨ Collides root seen.name.toList value) := by
  obtain ⟨leaf, hleaf, rfl⟩ := exists_leaf_of_mem_observed h
  obtain ⟨p, hp, hpleaf, rfl⟩ := exists_place_of_mem_leaves hleaf
  obtain ⟨q, hq, name, inSchema, heq, hname⟩ := exists_observedAs p.path ⟨p, hp, rfl⟩
  have hseen : (q.value.observedAs name inSchema).name.toList = name := String.toList_ofList
  simp only [heq, hseen]
  by_cases hnull : q.value = null
  · exact ⟨string "nil", by rw [observedAs, if_pos hnull], Or.inl rfl⟩
  · refine ⟨q.value, by rw [observedAs, if_neg hnull], ?_⟩
    rcases hname with ⟨rfl, hvalue | hreads⟩ | ⟨-, items, hitems, hall⟩
    · exact Or.inl (isWhole_of_isLeaf (hvalue ▸ hpleaf))
    · exact Or.inr ⟨p, hp, hpleaf, rfl, q, hq, hreads, rfl⟩
    · exact Or.inl (hitems ▸ isWhole_of_all_isString hall)

/-- An observed value is a scalar, an empty collection or a sequence of strings, unless the name is
the path of a leaf that can also be read as the steps to the value. In a clean tree there is no such
path. -/
theorem isWhole_of_mem_observed {seen : Parameter} (h : seen ∈ root.observed) :
    ∃ value, seen.value = some value ∧
      (value.isWhole = true ∨ Collides root seen.name.toList value) ∧
      (PlainKeys root → DistinctKeys root → value.isWhole = true) := by
  obtain ⟨value, hvalue, hcases⟩ := exists_value_observedAs h
  refine ⟨value, hvalue, hcases, fun hplain hdistinct => ?_⟩
  rcases hcases with hwhole | hcollides
  · exact hwhole
  · exact isWhole_of_isLeaf (hcollides.isLeaf hplain hdistinct)

/-- A key with a dot beside keys that spell the same path, but lead to a mapping. -/
def shadowedTree : Value :=
  mapping
    [(string "a.b", number (.int 1)),
      (string "a", mapping [(string "b", mapping [(string "c", number (.int 2))])])]

/-- The leaf under the key with the dot is observed as the mapping at the end of the other keys. -/
theorem observed_shadowedTree :
    shadowedTree.observed =
      [{ name := "a.b", kind := some .object,
         value := some (mapping [(string "c", number (.int 2))]) },
        { name := "a.b.c", kind := some .number, value := some (number (.int 2)) }] := by
  decide +kernel

/-- The name `a.b` collides with the steps to the mapping; in the clean tree a value is a whole. -/
theorem isWhole_of_mem_observed_trees :
    (∃ seen ∈ shadowedTree.observed, seen.value = some (mapping [(string "c", number (.int 2))]) ∧
      Collides shadowedTree seen.name.toList (mapping [(string "c", number (.int 2))])) ∧
    PlainKeys cleanTree ∧ DistinctKeys cleanTree ∧
    ∃ seen ∈ cleanTree.observed, seen.name = "a][0].true" ∧
      ∃ value, seen.value = some value ∧ value.isWhole = true := by
  have hshadowed :
      ({ name := "a.b", kind := some .object,
         value := some (mapping [(string "c", number (.int 2))]) } : Parameter) ∈
        shadowedTree.observed := by
    rw [observed_shadowedTree]
    exact List.mem_cons_self
  have hclean :
      ({ name := "a][0].true", kind := some .number,
         value := some (number (.int 5)) } : Parameter) ∈ cleanTree.observed := by
    decide +kernel
  have hplain : PlainKeys cleanTree := by decide +kernel
  have hdistinct : DistinctKeys cleanTree := by decide +kernel
  obtain ⟨value, hvalue, hcases, -⟩ := isWhole_of_mem_observed hshadowed
  obtain rfl := Option.some.inj hvalue
  obtain ⟨value, hvalue, -, hwhole⟩ := isWhole_of_mem_observed hclean
  exact ⟨⟨_, hshadowed, rfl, hcases.resolve_left (by decide)⟩, hplain, hdistinct, _, hclean, rfl,
    value, hvalue, hwhole hplain hdistinct⟩

/-- Not every observed value is a scalar, an empty collection or a sequence of strings. -/
theorem exists_observed_not_isWhole :
    ¬∀ root : Value, ∀ seen ∈ root.observed, ∀ value, seen.value = some value →
      value.isWhole = true := by
  intro h
  have hwhole := h shadowedTree
  rw [observed_shadowedTree] at hwhole
  exact absurd (hwhole _ List.mem_cons_self _ rfl) (by decide)

end ChartDocs.Value
