import ChartDocs.Proofs.Path.Reading
import ChartDocs.Proofs.Value.Finding
import ChartDocs.Proofs.Value.Listing

/-!
# What is observed of any tree

Keys may hold dots and brackets here, may have the same text or none. A path may then lead to
another place than the one it was made for, so little is known of the value that is observed under
it. It is still the value of some place of the tree, so it carries no tag, and it is observed with
its own kind. And no leaf is lost: its path, or the part of it before the last bracket, is the name
of an observation.
-/

namespace ChartDocs

open ChartDocs.Path

/-- What is seen at a key: null, shown as a text, or another value without a tag and its kind. -/
inductive Sighting : Option Kind → Option Value → Prop where
  | null : Sighting (some .nil) (some (.string "nil"))
  | value (v : Value) (untagged : ∀ tag content, v ≠ .tagged tag content)
    (kind_ne : v.kind ≠ .nil) : Sighting (some v.kind) (some v)

namespace Sighting

variable {kind : Option Kind} {value : Option Value}

/-- What is seen has a kind. -/
theorem isSome_kind (h : Sighting kind value) : kind.isSome = true := by
  cases h <;> rfl

/-- What is seen has a value. -/
theorem isSome_value (h : Sighting kind value) : value.isSome = true := by
  cases h <;> rfl

/-- Only null is seen with the kind of null. -/
theorem value_of_nil (h : Sighting (some .nil) value) : value = some (.string "nil") := by
  generalize hkind : some Kind.nil = kind at h
  cases h with
  | null => rfl
  | value v untagged kind_ne => exact absurd (Option.some.inj hkind).symm kind_ne

end Sighting

namespace Value

variable {root v found leaf : Value} {path : List Char}

/-- A leaf of entries is a leaf below one whose key has a text. -/
theorem mem_entryLeaves {entries : List (Value × Value)} {leaf : List Char × Value} :
    leaf ∈ entryLeaves entries path ↔
      ∃ key child name, (key, child) ∈ entries ∧ key.keyText? = some name ∧
        leaf ∈ leavesFrom child (extend path (.key name)) := by
  induction entries with
  | nil => simp [entryLeaves]
  | cons entry rest ih =>
    obtain ⟨first, value⟩ := entry
    rw [entryLeaves, List.mem_append, ih]
    constructor
    · rintro (h | ⟨key, child, name, hmem, hname, hleaf⟩)
      · cases hname : first.keyText? with
        | none => simp [hname] at h
        | some name =>
          rw [hname] at h
          exact ⟨first, value, name, List.mem_cons_self, hname, h⟩
      · exact ⟨key, child, name, List.mem_cons_of_mem _ hmem, hname, hleaf⟩
    · rintro ⟨key, child, name, hmem, hname, hleaf⟩
      rcases List.mem_cons.mp hmem with heq | hmem
      · obtain ⟨rfl, rfl⟩ := Prod.mk.inj heq
        left
        rwa [hname]
      · exact Or.inr ⟨key, child, name, hmem, hname, hleaf⟩

/-- A leaf of items is a leaf below one of them. -/
theorem exists_item_of_mem_itemLeaves {items : List Value} {start : Nat}
    {leaf : List Char × Value} (h : leaf ∈ itemLeaves items path start) :
    ∃ n child, items[n]? = some child ∧
      leaf ∈ leavesFrom child (extend path (.index (start + n))) := by
  induction items generalizing start with
  | nil => simp [itemLeaves] at h
  | cons item rest ih =>
    rw [itemLeaves, List.mem_append] at h
    rcases h with h | h
    · exact ⟨0, item, rfl, h⟩
    · obtain ⟨n, child, hitem, hleaf⟩ := ih h
      refine ⟨n + 1, child, by simpa using hitem, ?_⟩
      rwa [Nat.add_assoc, Nat.add_comm 1 n] at hleaf

/-- A leaf is a place without anything below it, under the path text of its steps. -/
theorem exists_place_of_mem_leavesFrom {leaf : List Char × Value}
    (h : leaf ∈ leavesFrom v path) :
    ∃ p ∈ places v, p.value.isLeaf = true ∧ leaf = (p.steps.foldl extend path, p.value) := by
  induction v using induct generalizing path with
  | tagged tag content ih =>
    rw [leavesFrom] at h
    exact ih h
  | mapping entries ih =>
    cases entries with
    | nil =>
      obtain ⟨-, rfl⟩ : path ≠ [] ∧ leaf = (path, mapping []) := by
        simpa [leavesFrom, leafAt] using h
      exact ⟨_, root_mem_places _, rfl, rfl⟩
    | cons entry rest =>
      obtain ⟨key, child, name, hmem, hname, hleaf⟩ := mem_entryLeaves.mp (by
        simpa [leavesFrom] using h)
      obtain ⟨p, hp, hvalue, hpath⟩ := ih (key, child) hmem hleaf
      exact ⟨_, under_key_mem_places hmem hname hp, hvalue, hpath⟩
  | sequence items ih =>
    cases items with
    | nil =>
      obtain ⟨-, rfl⟩ : path ≠ [] ∧ leaf = (path, sequence []) := by
        simpa [leavesFrom, leafAt] using h
      exact ⟨_, root_mem_places _, rfl, rfl⟩
    | cons item rest =>
      obtain ⟨n, child, hitem, hleaf⟩ := exists_item_of_mem_itemLeaves (by
        simpa [leavesFrom] using h)
      rw [Nat.zero_add] at hleaf
      obtain ⟨p, hp, hvalue, hpath⟩ := ih child (List.mem_of_getElem? hitem) hleaf
      exact ⟨_, under_index_mem_places hitem hp, hvalue, hpath⟩
  | scalar v htag hmap hseq =>
    have hleaf : v.isLeaf = true := by cases v <;> simp_all [isLeaf]
    refine ⟨⟨[], [], v⟩, (mem_places_scalar htag hmap hseq).mpr rfl, hleaf, ?_⟩
    obtain ⟨-, rfl⟩ : path ≠ [] ∧ leaf = (path, v) := by
      cases v <;> simp_all [leavesFrom, leafAt]
    rfl

/-- A leaf of a tree is a place without anything below it, under its path text. -/
theorem exists_place_of_mem_leaves {leaf : List Char × Value} (h : leaf ∈ root.leaves) :
    ∃ p ∈ places root, p.value.isLeaf = true ∧ leaf = (p.path, p.value) :=
  exists_place_of_mem_leavesFrom h

/-- What whole keys spell is the value of a place, whatever the keys are, and the text can be read
as the steps to it. -/
theorem exists_place_of_spelled? (h : spelled? root path = some found) :
    ∃ p ∈ places root, Reads path p.steps ∧ p.value = found := by
  induction root using induct generalizing path found with
  | tagged tag content ih =>
    rw [spelled?] at h
    exact ih h
  | mapping entries ih =>
    by_cases hpath : path = []
    · rw [hpath, spelled?_nil] at h
      exact ⟨_, root_mem_places _, hpath ▸ .nil, Option.some.inj h⟩
    · rw [spelled?_mapping hpath, Option.map_eq_some_iff] at h
      obtain ⟨find, hfind, rfl⟩ := h
      obtain ⟨key, child, below, hmem, hbelow, hchild⟩ :=
        mem_entryFinds.mp (mem_of_longest? hfind)
      obtain ⟨name, rest, hname, rfl, hends, -, rfl⟩ := belowKey?_eq_some_iff.mp hbelow
      obtain ⟨p, hp, hreads, hvalue⟩ := ih (key, child) hmem hchild
      exact ⟨_, under_key_mem_places hmem hname hp, .key name hends (reads_of_dropDot hreads),
        hvalue⟩
  | sequence items ih =>
    by_cases hpath : path = []
    · rw [hpath, spelled?_nil] at h
      exact ⟨_, root_mem_places _, hpath ▸ .nil, Option.some.inj h⟩
    · rw [spelled?_sequence hpath] at h
      obtain ⟨⟨n, rest⟩, htake, h⟩ := Option.bind_eq_some_iff.mp h
      obtain ⟨child, hitem, hchild⟩ := Option.bind_eq_some_iff.mp h
      obtain ⟨p, hp, hreads, hvalue⟩ := ih child (List.mem_of_getElem? hitem) hchild
      exact ⟨_, under_index_mem_places hitem hp, .index htake (reads_of_dropDot hreads), hvalue⟩
  | scalar v htag hmap hseq =>
    obtain ⟨rfl, rfl⟩ : path = [] ∧ v = found := by
      cases v <;> cases path <;> simp_all [spelled?]
    exact ⟨⟨[], [], v⟩, (mem_places_scalar htag hmap hseq).mpr rfl, .nil, rfl⟩

/-- What the segments of a text lead to is the value of a place, and the text can be read as the
steps to it. -/
theorem exists_place_of_lookup? (h : root.lookup? path = some found) :
    ∃ p ∈ places root, Reads path p.steps ∧ p.value = found := by
  obtain ⟨p, hp, hsteps, hvalue⟩ := mem_places_of_at? h
  exact ⟨p, hp, hsteps ▸ reads_segments path, hvalue⟩

/-- No place shows a tag. -/
theorem ne_tagged_of_mem_places {p : Place} (h : p ∈ places root) (tag : String)
    (content : Value) : p.value ≠ tagged tag content := by
  rw [← untag_of_mem_places h]
  generalize p.value = v
  induction v using induct with
  | tagged tag content ih => exact ih
  | mapping entries ih => simp [untag]
  | sequence items ih => simp [untag]
  | scalar v htag hmap hseq => cases v <;> simp_all [untag]

/-- A found value is the value of a place, and the text can be read as the steps to it. -/
theorem exists_place_of_find? {inSchema : Bool} (h : root.find? path = some (found, inSchema)) :
    ∃ p ∈ places root, Reads path p.steps ∧ p.value = found := by
  unfold find? at h
  split at h
  · next value hlookup =>
    obtain ⟨rfl, -⟩ := Prod.mk.inj (Option.some.inj h)
    exact exists_place_of_lookup? hlookup
  · obtain ⟨value, hspelled, heq⟩ := Option.map_eq_some_iff.mp h
    obtain ⟨rfl, -⟩ := Prod.mk.inj heq
    exact exists_place_of_spelled? hspelled

/-- Only null is of the kind of null. -/
theorem kind_eq_nil_iff (h : ∀ tag content, v ≠ tagged tag content) :
    v.kind = .nil ↔ v = null := by
  cases v <;> simp_all [kind]

/-- What is observed at a place is a sighting. -/
theorem sighting_observedAs (h : ∀ tag content, v ≠ tagged tag content) (name : List Char)
    (inSchema : Bool) :
    Sighting (v.observedAs name inSchema).kind (v.observedAs name inSchema).value := by
  unfold observedAs
  by_cases hnull : v = null
  · rw [hnull]
    exact .null
  · rw [if_neg hnull]
    exact .value v h fun hkind => hnull ((kind_eq_nil_iff h).mp hkind)

/-- The observation at a leaf is one of a place: of the leaf itself or of a place that its path can
be read as, under the path, or of a sequence of strings, under the part of the path before the last
bracket. -/
theorem exists_observedAs (path : List Char) (h : ∃ p ∈ places root, p.value = leaf) :
    ∃ p ∈ places root, ∃ name inSchema,
      root.observeAt path leaf = p.value.observedAs name inSchema ∧
        (name = path ∧ (p.value = leaf ∨ Reads path p.steps) ∨
          beforeLast? '[' path = some name ∧
            ∃ items, p.value = sequence items ∧ items.all isString = true) := by
  -- The text of a path may lead to another place than the leaf, so the place is found anew.
  unfold observeAt
  cases hstrings : root.stringsAround? path with
  | none =>
    obtain ⟨p, hp, hvalue, hreads⟩ : ∃ p ∈ places root,
        p.value = ((root.find? path).getD (leaf, false)).1 ∧
          (p.value = leaf ∨ Reads path p.steps) := by
      cases hfind : root.find? path with
      | none =>
        obtain ⟨p, hp, hvalue⟩ := h
        exact ⟨p, hp, hvalue, Or.inl hvalue⟩
      | some found =>
        obtain ⟨p, hp, hreads, hvalue⟩ := exists_place_of_find? hfind
        exact ⟨p, hp, hvalue, Or.inr hreads⟩
    exact ⟨p, hp, path, _, by rw [hvalue], Or.inl ⟨rfl, hreads⟩⟩
  | some around =>
    obtain ⟨above, value⟩ := around
    unfold stringsAround? at hstrings
    split at hstrings
    · exact absurd hstrings (by simp)
    · next name hname =>
      split at hstrings
      · next items inSchema hfind =>
        split at hstrings
        · next hall =>
          obtain ⟨rfl, rfl⟩ := Prod.mk.inj (Option.some.inj hstrings)
          obtain ⟨p, hp, -, hvalue⟩ := exists_place_of_find? hfind
          exact ⟨p, hp, name, _, by rw [hvalue], Or.inr ⟨hname, items, hvalue, hall⟩⟩
        · exact absurd hstrings (by simp)
      · exact absurd hstrings (by simp)

/-- The first parameters of their names are parameters of the list. -/
theorem mem_of_mem_firstNames {seen : List String} {ps : List Parameter} {p : Parameter}
    (h : p ∈ firstNames seen ps) : p ∈ ps := by
  induction ps generalizing seen with
  | nil => exact h
  | cons first rest ih =>
    unfold firstNames at h
    split at h
    · exact List.mem_cons_of_mem _ (ih h)
    · exact List.mem_cons.mpr ((List.mem_cons.mp h).imp_right ih)

/-- Of every name an observation is kept. -/
theorem exists_mem_firstNames {ps : List Parameter} {p : Parameter} (h : p ∈ ps)
    {seen : List String} (hseen : p.name ∉ seen) : ∃ q ∈ firstNames seen ps, q.name = p.name := by
  induction ps generalizing seen with
  | nil => exact absurd h List.not_mem_nil
  | cons first rest ih =>
    unfold firstNames
    split
    · next hfirst =>
      apply ih _ hseen
      exact (List.mem_cons.mp h).resolve_left fun heq => hseen (heq ▸ hfirst)
    · by_cases hname : p.name = first.name
      · exact ⟨first, List.mem_cons_self, hname.symm⟩
      · have hrest : p ∈ rest := (List.mem_cons.mp h).resolve_left fun heq => hname (heq ▸ rfl)
        have hnew : p.name ∉ first.name :: seen := fun hmem =>
          (List.mem_cons.mp hmem).elim hname hseen
        obtain ⟨q, hq, hsame⟩ := ih hrest hnew
        exact ⟨q, List.mem_cons_of_mem _ hq, hsame⟩

/-- An observed parameter is observed at a leaf. -/
theorem exists_leaf_of_mem_observed {seen : Parameter} (h : seen ∈ root.observed) :
    ∃ leaf ∈ root.leaves, root.observeAt leaf.1 leaf.2 = seen :=
  List.mem_map.mp (mem_of_mem_firstNames h)

/-- A leaf is the value of a place. -/
theorem exists_value_of_mem_leaves {leaf : List Char × Value} (h : leaf ∈ root.leaves) :
    ∃ p ∈ places root, p.value = leaf.2 := by
  obtain ⟨p, hp, -, rfl⟩ := exists_place_of_mem_leaves h
  exact ⟨p, hp, rfl⟩

/-- Every observed parameter is a sighting. -/
theorem sighting_of_mem_observed {seen : Parameter} (h : seen ∈ root.observed) :
    Sighting seen.kind seen.value := by
  obtain ⟨leaf, hleaf, rfl⟩ := exists_leaf_of_mem_observed h
  obtain ⟨p, hp, name, inSchema, heq, -⟩ :=
    exists_observedAs leaf.1 (exists_value_of_mem_leaves hleaf)
  rw [heq]
  exact sighting_observedAs (ne_tagged_of_mem_places hp) name inSchema

/-- Every leaf is observed, under its path or the part of it before the last bracket. -/
theorem exists_observed_of_mem_leaves {leaf : List Char × Value} (h : leaf ∈ root.leaves) :
    ∃ seen ∈ root.observed,
      seen.name.toList = leaf.1 ∨ beforeLast? '[' leaf.1 = some seen.name.toList := by
  obtain ⟨p, -, name, inSchema, heq, hname⟩ :=
    exists_observedAs leaf.1 (exists_value_of_mem_leaves h)
  have hobserved := List.mem_map_of_mem (f := fun leaf => root.observeAt leaf.1 leaf.2) h
  obtain ⟨seen, hseen, hsame⟩ := exists_mem_firstNames hobserved List.not_mem_nil
  have htext : seen.name.toList = name := by
    rw [hsame, heq]
    exact String.toList_ofList
  refine ⟨seen, hseen, ?_⟩
  rw [htext]
  exact hname.imp And.left And.left

end Value

end ChartDocs
