import ChartDocs.Proofs.Value.Place
import ChartDocs.Observation

/-!
# The places that are listed

The leaves of a tree fall into blocks in document order: one for each sequence of strings, whose
items lead to the same observation, and one for each other leaf. Keeping the first observation of
every name keeps the first of every block, as long as the blocks have different names.
-/

namespace ChartDocs

namespace Value

/-- Whether a value is a sequence of untagged strings with at least one item. -/
def isPlainSequence : Value → Bool
  | sequence items => !items.isEmpty && items.all isString
  | _ => false

/-- Whether a value is a scalar, an empty mapping or an empty sequence. -/
def isLeaf : Value → Bool
  | mapping entries => entries.isEmpty
  | sequence items => items.isEmpty
  | tagged _ _ => false
  | _ => true

end Value

namespace Place

/-- Whether a place is a sequence of strings, or a leaf that lies in no sequence of strings. -/
def isListed (p : Place) : Bool :=
  p.value.isPlainSequence || (p.value.isLeaf && !p.above.any Value.isPlainSequence)

/-- Below a parent that is no sequence of strings, the same places are listed. -/
theorem isListed_under (segment : Segment) {parent : Value}
    (h : parent.isPlainSequence = false) (p : Place) :
    (p.under segment parent).isListed = p.isListed := by
  simp [isListed, h]

end Place

namespace Value

open ChartDocs.Path

/-- The leaves of a place, below the path of the root. -/
def placeLeaves (path : List Char) (p : Place) : List (List Char × Value) :=
  leavesFrom p.value (p.steps.foldl extend path)

/-- The leaves of a place below a parent are those below the longer path. -/
theorem placeLeaves_under (path : List Char) (segment : Segment) (parent : Value) (p : Place) :
    placeLeaves path (p.under segment parent) = placeLeaves (extend path segment) p := rfl

/-- The leaves of listed places below a child are those of the child. -/
theorem flatMap_map_under {parent : Value} (hparent : parent.isPlainSequence = false)
    (segment : Segment) (path : List Char) (ps : List Place) :
    ((ps.map (Place.under segment parent)).filter Place.isListed).flatMap (placeLeaves path) =
      (ps.filter Place.isListed).flatMap (placeLeaves (extend path segment)) := by
  rw [List.filter_map, List.flatMap_map]
  have hlisted : Place.isListed ∘ Place.under segment parent = Place.isListed := by
    funext p
    exact Place.isListed_under segment hparent p
  rw [hlisted]
  simp only [placeLeaves_under]

/-- Below a sequence of strings no place is listed. -/
theorem filter_itemPlaces_of_isString {items : List Value} {parent : Value}
    (hparent : parent.isPlainSequence = true) (h : ∀ item ∈ items, item.isString = true)
    (start : Nat) : (itemPlaces items parent start).filter Place.isListed = [] := by
  rw [List.filter_eq_nil_iff]
  intro p hp
  obtain ⟨n, child, q, hitem, hq, rfl⟩ := mem_itemPlaces.mp hp
  have hchild := h child (List.mem_of_getElem? hitem)
  cases child with
  | string text =>
    obtain rfl : q = ⟨[], [], string text⟩ := by simpa [places] using hq
    have hstring : (string text).isPlainSequence = false := rfl
    simp [Place.isListed, hstring, hparent]
  | _ => simp [isString] at hchild

/-- The leaves of the listed places of a tree, in document order. -/
def listedLeaves (v : Value) (path : List Char) : List (List Char × Value) :=
  ((places v).filter Place.isListed).flatMap (placeLeaves path)

/-- The leaves of entries are those of the listed places below them. -/
theorem entryLeaves_eq_flatMap {entries : List (Value × Value)}
    (h : ∀ entry ∈ entries, ∀ path, leavesFrom entry.2 path = listedLeaves entry.2 path)
    {parent : Value} (hparent : parent.isPlainSequence = false) (path : List Char) :
    entryLeaves entries path =
      ((entryPlaces entries parent).filter Place.isListed).flatMap (placeLeaves path) := by
  induction entries with
  | nil => simp [entryLeaves, entryPlaces]
  | cons entry rest ih =>
    obtain ⟨key, child⟩ := entry
    rw [entryLeaves, entryPlaces, List.filter_append, List.flatMap_append,
      ih fun e he => h e (List.mem_cons_of_mem _ he)]
    congr 1
    cases key.keyText? with
    | none => rfl
    | some name => exact (h (key, child) (by simp) _).trans (flatMap_map_under hparent _ _ _).symm

/-- The leaves of items are those of the listed places below them. -/
theorem itemLeaves_eq_flatMap {items : List Value}
    (h : ∀ item ∈ items, ∀ path, leavesFrom item path = listedLeaves item path)
    {parent : Value} (hparent : parent.isPlainSequence = false) (path : List Char) (start : Nat) :
    itemLeaves items path start =
      ((itemPlaces items parent start).filter Place.isListed).flatMap (placeLeaves path) := by
  induction items generalizing start with
  | nil => simp [itemLeaves, itemPlaces]
  | cons item rest ih =>
    rw [itemLeaves, itemPlaces, List.filter_append, List.flatMap_append,
      ih fun e he => h e (List.mem_cons_of_mem _ he)]
    congr 1
    exact (h item (by simp) _).trans (flatMap_map_under hparent _ _ _).symm

/-- The leaves below a value are those of the listed places, in document order. -/
theorem leavesFrom_eq_listedLeaves (v : Value) (path : List Char) :
    leavesFrom v path = listedLeaves v path := by
  induction v using induct generalizing path with
  | tagged tag content ih => rw [leavesFrom, listedLeaves, places, ih, listedLeaves]
  | mapping entries ih =>
    cases entries with
    | nil => simp [listedLeaves, places, entryPlaces, Place.isListed, isLeaf, placeLeaves]
    | cons entry rest =>
      have hroot : (⟨[], [], mapping (entry :: rest)⟩ : Place).isListed = false := rfl
      rw [leavesFrom, listedLeaves, places, List.filter_cons_of_neg (by simp [hroot])]
      simp only [List.isEmpty_cons, Bool.false_eq_true, if_false]
      exact entryLeaves_eq_flatMap ih rfl path
  | sequence items ih =>
    cases hplain : (sequence items).isPlainSequence with
    | true =>
      have hroot : (⟨[], [], sequence items⟩ : Place).isListed = true := by
        simp [Place.isListed, hplain]
      have hstrings : ∀ item ∈ items, item.isString = true := by
        simp only [isPlainSequence, Bool.and_eq_true, List.all_eq_true] at hplain
        exact hplain.2
      rw [listedLeaves, places, List.filter_cons_of_pos hroot,
        filter_itemPlaces_of_isString hplain hstrings]
      simp [placeLeaves]
    | false =>
      cases items with
      | nil => simp [listedLeaves, places, itemPlaces, Place.isListed, isLeaf, placeLeaves]
      | cons item rest =>
        have hroot : (⟨[], [], sequence (item :: rest)⟩ : Place).isListed = false := by
          simp [Place.isListed, hplain, isLeaf]
        rw [leavesFrom, listedLeaves, places, List.filter_cons_of_neg (by simp [hroot])]
        simp only [List.isEmpty_cons, Bool.false_eq_true, if_false]
        exact itemLeaves_eq_flatMap ih hplain path 0
  | scalar v htag hmap hseq =>
    cases v <;> simp_all [leavesFrom, listedLeaves, places, Place.isListed, isLeaf,
      isPlainSequence, placeLeaves]

/-- A leaf with a path is its only leaf. -/
theorem leavesFrom_of_isLeaf {v : Value} (h : v.isLeaf = true) {path : List Char}
    (hpath : path ≠ []) : leavesFrom v path = [(path, v)] := by
  cases v <;> simp_all [isLeaf, leavesFrom, leafAt]

/-- The leaves of a sequence of strings are its items. -/
theorem itemLeaves_of_isString {items : List Value} (h : ∀ item ∈ items, item.isString = true)
    (path : List Char) (start : Nat) :
    itemLeaves items path start =
      (items.zipIdx start).map fun item => (extend path (.index item.2), item.1) := by
  induction items generalizing start with
  | nil => simp [itemLeaves]
  | cons item rest ih =>
    have hitem := h item (by simp)
    cases item with
    | string text =>
      rw [itemLeaves, ih fun e he => h e (List.mem_cons_of_mem _ he)]
      simp [leavesFrom, leafAt, extend]
    | _ => simp [isString] at hitem

/-- Parameters whose names were seen before are all passed over. -/
theorem firstNames_append_of_mem {seen : List String} {block : List Parameter}
    (h : ∀ p ∈ block, p.name ∈ seen) (rest : List Parameter) :
    firstNames seen (block ++ rest) = firstNames seen rest := by
  induction block with
  | nil => rfl
  | cons p block ih =>
    rw [List.cons_append, firstNames, if_pos (h p (by simp)),
      ih fun q hq => h q (List.mem_cons_of_mem _ hq)]

/-- Of blocks with one name each, and different names, the first parameters are kept. -/
theorem firstNames_flatMap {α : Type} {block : α → List Parameter} {first : α → Parameter}
    {xs : List α}
    (hblock : ∀ x ∈ xs, ∃ more, block x = first x :: more ∧ ∀ q ∈ more, q.name = (first x).name)
    {seen : List String} (hseen : ∀ x ∈ xs, (first x).name ∉ seen)
    (hnodup : (xs.map fun x => (first x).name).Nodup) :
    firstNames seen (xs.flatMap block) = xs.map first := by
  induction xs generalizing seen with
  | nil => rfl
  | cons x xs ih =>
    obtain ⟨hx, hxs⟩ := List.nodup_cons.mp hnodup
    obtain ⟨more, hmore, hnames⟩ := hblock x List.mem_cons_self
    have hrest : ∀ y ∈ xs, (first y).name ∉ (first x).name :: seen := by
      intro y hy hmem
      rcases List.mem_cons.mp hmem with heq | hmem
      · exact hx (List.mem_map.mpr ⟨y, hy, heq⟩)
      · exact hseen y (List.mem_cons_of_mem _ hy) hmem
    have hskip : ∀ q ∈ more, q.name ∈ (first x).name :: seen := fun q hq => by
      rw [hnames q hq]
      exact List.mem_cons_self
    rw [List.flatMap_cons, hmore, List.cons_append, firstNames,
      if_neg (hseen x List.mem_cons_self), firstNames_append_of_mem hskip,
      ih (fun y hy => hblock y (List.mem_cons_of_mem _ hy)) hrest hxs, List.map_cons]

/-- What adds nothing may be left out. -/
theorem flatMap_filter_of_eq_nil {α β : Type} {block : α → List β} {test : α → Bool} {xs : List α}
    (h : ∀ x ∈ xs, test x = false → block x = []) :
    xs.flatMap block = (xs.filter test).flatMap block := by
  induction xs with
  | nil => rfl
  | cons x xs ih =>
    rw [List.flatMap_cons, ih fun y hy => h y (List.mem_cons_of_mem _ hy)]
    cases htest : test x with
    | true => rw [List.filter_cons_of_pos htest, List.flatMap_cons]
    | false => rw [List.filter_cons_of_neg (by simp [htest]), h x List.mem_cons_self htest,
        List.nil_append]

end Value

end ChartDocs
