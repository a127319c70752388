import ChartDocs.Value.Lookup

/-!
# Places in a tree of values

A place is a node of a tree that keys with a text and positions lead to, together with the steps
from the root to it. A tag and what is under it are one place. The places are listed in document
order, every collection before what it holds, and two entries whose keys have the same text are two
places with the same steps.
-/

namespace ChartDocs

/-- A node of a tree and the way to it. -/
structure Place where
  /-- The steps from the root down. -/
  steps : List Segment
  /-- The collections that are passed on the way, the outermost first. -/
  above : List Value
  /-- The value at the end, without its tags. -/
  value : Value

namespace Place

/-- The place of a child as a place of the parent. -/
def under (segment : Segment) (parent : Value) (p : Place) : Place :=
  { p with steps := segment :: p.steps, above := parent :: p.above }

/-- The place of a node below a place. -/
def onto (q p : Place) : Place :=
  ⟨q.steps ++ p.steps, q.above ++ p.above, p.value⟩

/-- The path text of a place. -/
def path (p : Place) : List Char :=
  Path.render p.steps

/-- The positions among the steps can be read back from brackets. -/
def IsShort (p : Place) : Prop :=
  ∀ n, .index n ∈ p.steps → n < Path.indexBound

/-- The step from the parent comes first. -/
@[simp] theorem steps_under (segment : Segment) (parent : Value) (p : Place) :
    (p.under segment parent).steps = segment :: p.steps := rfl

/-- The parent is passed first. -/
@[simp] theorem above_under (segment : Segment) (parent : Value) (p : Place) :
    (p.under segment parent).above = parent :: p.above := rfl

/-- The value at a place does not depend on what is above it. -/
@[simp] theorem value_under (segment : Segment) (parent : Value) (p : Place) :
    (p.under segment parent).value = p.value := rfl

/-- The place of a root adds no steps. -/
@[simp] theorem onto_root (v : Value) : (⟨[], [], v⟩ : Place).onto = id := by
  funext p
  rfl

end Place

namespace Value

mutual

/-- The places of a tree in document order. -/
def places : Value → List Place
  | tagged _ content => places content
  | mapping entries => ⟨[], [], mapping entries⟩ :: entryPlaces entries (mapping entries)
  | sequence items => ⟨[], [], sequence items⟩ :: itemPlaces items (sequence items) 0
  | value => [⟨[], [], value⟩]

/-- The places below the entries of a mapping; keys without a text are passed over. -/
def entryPlaces : List (Value × Value) → Value → List Place
  | [], _ => []
  | (key, child) :: rest, parent =>
    (match key.keyText? with
      | some name => (places child).map (.under (.key name) parent)
      | none => []) ++ entryPlaces rest parent

/-- The places below the items of a sequence, counted from a position. -/
def itemPlaces : List Value → Value → Nat → List Place
  | [], _, _ => []
  | child :: rest, parent, n =>
    (places child).map (.under (.index n) parent) ++ itemPlaces rest parent (n + 1)

end

/-- What holds of scalars, and of a tagged value or a collection if it holds of what is inside,
holds of every tree. Keys count as leaves here. -/
theorem induct {motive : Value → Prop}
    (scalar : ∀ v, (∀ tag content, v ≠ tagged tag content) → (∀ entries, v ≠ mapping entries) →
      (∀ items, v ≠ sequence items) → motive v)
    (tagged : ∀ tag content, motive content → motive (tagged tag content))
    (mapping : ∀ entries, (∀ entry ∈ entries, motive entry.2) → motive (mapping entries))
    (sequence : ∀ items, (∀ item ∈ items, motive item) → motive (sequence items)) :
    (v : Value) → motive v
  | .tagged tag content => tagged tag content (induct scalar tagged mapping sequence content)
  | .mapping entries => mapping entries fun entry _ =>
      induct scalar tagged mapping sequence entry.2
  | .sequence items => sequence items fun item _ => induct scalar tagged mapping sequence item
  | .null => scalar _ (by simp) (by simp) (by simp)
  | .bool _ => scalar _ (by simp) (by simp) (by simp)
  | .number _ => scalar _ (by simp) (by simp) (by simp)
  | .string _ => scalar _ (by simp) (by simp) (by simp)
termination_by v => sizeOf v
decreasing_by
  · simp only [Value.tagged.sizeOf_spec]
    omega
  · have hmem : entry ∈ entries := by assumption
    have hentry := List.sizeOf_lt_of_mem hmem
    have hvalue : sizeOf entry.2 < sizeOf entry := by
      obtain ⟨key, value⟩ := entry
      simp only [Prod.mk.sizeOf_spec]
      omega
    simp only [Value.mapping.sizeOf_spec]
    omega
  · have hmem : item ∈ items := by assumption
    have hitem := List.sizeOf_lt_of_mem hmem
    simp only [Value.sequence.sizeOf_spec]
    omega

/-- A place below entries is a place in one whose key has a text. -/
theorem mem_entryPlaces {entries : List (Value × Value)} {parent : Value} {p : Place} :
    p ∈ entryPlaces entries parent ↔
      ∃ key child name q, (key, child) ∈ entries ∧ key.keyText? = some name ∧ q ∈ places child ∧
        p = q.under (.key name) parent := by
  induction entries with
  | nil => simp [entryPlaces]
  | cons entry rest ih =>
    obtain ⟨key, child⟩ := entry
    rw [entryPlaces, List.mem_append, ih]
    constructor
    · rintro (h | ⟨key', child', name, q, hmem, hname, hq, rfl⟩)
      · cases hname : key.keyText? with
        | none => simp [hname] at h
        | some name =>
          rw [hname] at h
          obtain ⟨q, hq, rfl⟩ := List.mem_map.mp h
          exact ⟨key, child, name, q, List.mem_cons_self, hname, hq, rfl⟩
      · exact ⟨key', child', name, q, List.mem_cons_of_mem _ hmem, hname, hq, rfl⟩
    · rintro ⟨key', child', name, q, hmem, hname, hq, rfl⟩
      rcases List.mem_cons.mp hmem with heq | hmem
      · obtain ⟨rfl, rfl⟩ := Prod.mk.inj heq
        left
        rw [hname]
        exact List.mem_map_of_mem hq
      · exact Or.inr ⟨key', child', name, q, hmem, hname, hq, rfl⟩

/-- A place below items is a place in one of them. -/
theorem mem_itemPlaces {items : List Value} {parent : Value} {start : Nat} {p : Place} :
    p ∈ itemPlaces items parent start ↔
      ∃ n child q, items[n]? = some child ∧ q ∈ places child ∧
        p = q.under (.index (start + n)) parent := by
  induction items generalizing start with
  | nil => simp [itemPlaces]
  | cons item rest ih =>
    rw [itemPlaces, List.mem_append, ih]
    constructor
    · rintro (h | ⟨n, child, q, hitem, hq, rfl⟩)
      · obtain ⟨q, hq, rfl⟩ := List.mem_map.mp h
        exact ⟨0, item, q, rfl, hq, rfl⟩
      · refine ⟨n + 1, child, q, hitem, hq, ?_⟩
        rw [Nat.add_assoc, Nat.add_comm 1 n]
    · rintro ⟨n, child, q, hitem, hq, rfl⟩
      cases n with
      | zero =>
        obtain rfl : item = child := by simpa using hitem
        exact Or.inl (List.mem_map_of_mem hq)
      | succ n =>
        refine Or.inr ⟨n, child, q, by simpa using hitem, hq, ?_⟩
        rw [Nat.add_assoc, Nat.add_comm 1 n]

/-- The root is the first place. -/
theorem places_eq_cons (v : Value) : ∃ below, places v = ⟨[], [], v.untag⟩ :: below := by
  induction v using induct with
  | tagged tag content ih => exact ih
  | mapping entries ih => exact ⟨_, rfl⟩
  | sequence items ih => exact ⟨_, rfl⟩
  | scalar v htag hmap hseq => cases v <;> simp_all [places, untag]

/-- The root is a place of a tree. -/
theorem root_mem_places (v : Value) : (⟨[], [], v.untag⟩ : Place) ∈ places v := by
  obtain ⟨below, h⟩ := places_eq_cons v
  rw [h]
  exact List.mem_cons_self

/-- A place of a mapping is the mapping or lies below an entry. -/
theorem mem_places_mapping {entries : List (Value × Value)} {p : Place} :
    p ∈ places (mapping entries) ↔
      p = ⟨[], [], mapping entries⟩ ∨
        ∃ key child name q, (key, child) ∈ entries ∧ key.keyText? = some name ∧
          q ∈ places child ∧ p = q.under (.key name) (mapping entries) := by
  rw [places, List.mem_cons, mem_entryPlaces]

/-- A place of a sequence is the sequence or lies below an item. -/
theorem mem_places_sequence {items : List Value} {p : Place} :
    p ∈ places (sequence items) ↔
      p = ⟨[], [], sequence items⟩ ∨
        ∃ n child q, items[n]? = some child ∧ q ∈ places child ∧
          p = q.under (.index n) (sequence items) := by
  rw [places, List.mem_cons, mem_itemPlaces]
  simp only [Nat.zero_add]

/-- A scalar is its only place. -/
theorem mem_places_scalar {v : Value} {p : Place} (htag : ∀ tag content, v ≠ tagged tag content)
    (hmap : ∀ entries, v ≠ mapping entries) (hseq : ∀ items, v ≠ sequence items) :
    p ∈ places v ↔ p = ⟨[], [], v⟩ := by
  cases v <;> simp_all [places]

/-- No place shows a tag. -/
theorem untag_of_mem_places {v : Value} {p : Place} (h : p ∈ places v) :
    p.value.untag = p.value := by
  induction v using induct generalizing p with
  | tagged tag content ih => exact ih h
  | mapping entries ih =>
    rcases mem_places_mapping.mp h with rfl | ⟨key, child, name, q, hmem, -, hq, rfl⟩
    · rfl
    · have hvalue := ih (key, child) hmem hq
      exact hvalue
  | sequence items ih =>
    rcases mem_places_sequence.mp h with rfl | ⟨n, child, q, hitem, hq, rfl⟩
    · rfl
    · have hvalue := ih child (List.mem_of_getElem? hitem) hq
      exact hvalue
  | scalar v htag hmap hseq =>
    rw [(mem_places_scalar htag hmap hseq).mp h]
    cases v <;> simp_all [untag]

/-- The places of an entry are places below the entries, in the same order. -/
theorem sublist_entryPlaces {entries : List (Value × Value)} {parent key child : Value}
    {name : String} (hmem : (key, child) ∈ entries) (hname : key.keyText? = some name) :
    ((places child).map (.under (.key name) parent)).Sublist (entryPlaces entries parent) := by
  induction entries with
  | nil => exact absurd hmem List.not_mem_nil
  | cons entry rest ih =>
    obtain ⟨first, value⟩ := entry
    rw [entryPlaces]
    rcases List.mem_cons.mp hmem with heq | hmem
    · obtain ⟨rfl, rfl⟩ := Prod.mk.inj heq
      rw [hname]
      exact List.sublist_append_left _ _
    · exact (ih hmem).trans (List.sublist_append_right _ _)

/-- The places of an item are places below the items, in the same order. -/
theorem sublist_itemPlaces {items : List Value} (parent : Value) {child : Value} (start : Nat)
    {n : Nat} (hitem : items[n]? = some child) :
    ((places child).map (.under (.index (start + n)) parent)).Sublist
      (itemPlaces items parent start) := by
  induction items generalizing start n with
  | nil => simp at hitem
  | cons item rest ih =>
    rw [itemPlaces]
    cases n with
    | zero =>
      obtain rfl : item = child := by simpa using hitem
      exact List.sublist_append_left _ _
    | succ n =>
      have hrest := ih (start + 1) (n := n) (by simpa using hitem)
      rw [show start + 1 + n = start + (n + 1) by omega] at hrest
      exact hrest.trans (List.sublist_append_right _ _)

/-- The places below a place are places of the whole, each as often as below. -/
theorem sublist_places {v : Value} {q : Place} (hq : q ∈ places v) :
    ((places q.value).map q.onto).Sublist (places v) := by
  induction v using induct generalizing q with
  | tagged tag content ih => exact ih hq
  | mapping entries ih =>
    rcases mem_places_mapping.mp hq with rfl | ⟨key, child, name, r, hmem, hname, hr, rfl⟩
    · simp
    · have hchild := (ih (key, child) hmem hr).map (Place.under (.key name) (mapping entries))
      rw [List.map_map] at hchild
      exact (hchild.trans (sublist_entryPlaces hmem hname)).cons _
  | sequence items ih =>
    rcases mem_places_sequence.mp hq with rfl | ⟨n, child, r, hitem, hr, rfl⟩
    · simp
    · have hchild := (ih child (List.mem_of_getElem? hitem) hr).map
        (Place.under (.index n) (sequence items))
      have hitems := sublist_itemPlaces (sequence items) 0 hitem
      rw [List.map_map] at hchild
      rw [Nat.zero_add] at hitems
      exact (hchild.trans hitems).cons _
  | scalar v htag hmap hseq =>
    rw [(mem_places_scalar htag hmap hseq).mp hq]
    simp

/-- A place of what is at a place is a place of the whole. -/
theorem onto_mem_places {v : Value} {q p : Place} (hq : q ∈ places v) (hp : p ∈ places q.value) :
    q.onto p ∈ places v :=
  (sublist_places hq).subset (List.mem_map_of_mem hp)

/-- The sequence that a position among the steps counts in is itself a place. -/
theorem exists_sequence_of_index {v : Value} {p : Place} (h : p ∈ places v) {front : List Segment}
    {n : Nat} {back : List Segment} (hsteps : p.steps = front ++ .index n :: back) :
    ∃ q ∈ places v, ∃ items, q.steps = front ∧ q.value = sequence items ∧ n < items.length ∧
      sequence items ∈ p.above := by
  induction v using induct generalizing p front with
  | tagged tag content ih => exact ih h hsteps
  | mapping entries ih =>
    rcases mem_places_mapping.mp h with rfl | ⟨key, child, name, r, hmem, hname, hr, rfl⟩
    · simp at hsteps
    · cases front with
      | nil => simp at hsteps
      | cons s front =>
        obtain ⟨rfl, hrest⟩ := List.cons.inj hsteps
        obtain ⟨q, hq, items, hfront, hvalue, hn, habove⟩ := ih (key, child) hmem hr hrest
        refine ⟨q.under (.key name) (mapping entries), ?_, items, by simp [hfront], hvalue, hn,
          List.mem_cons_of_mem _ habove⟩
        exact mem_places_mapping.mpr (Or.inr ⟨key, child, name, q, hmem, hname, hq, rfl⟩)
  | sequence items ih =>
    rcases mem_places_sequence.mp h with rfl | ⟨m, child, r, hitem, hr, rfl⟩
    · simp at hsteps
    · cases front with
      | nil =>
        obtain ⟨hm, -⟩ := List.cons.inj hsteps
        refine ⟨⟨[], [], sequence items⟩, root_mem_places (sequence items), items, rfl, rfl, ?_,
          List.mem_cons_self⟩
        obtain rfl : m = n := by simpa using hm
        exact (List.getElem?_eq_some_iff.mp hitem).1
      | cons s front =>
        obtain ⟨rfl, hrest⟩ := List.cons.inj hsteps
        obtain ⟨q, hq, inner, hfront, hvalue, hn, habove⟩ :=
          ih child (List.mem_of_getElem? hitem) hr hrest
        refine ⟨q.under (.index m) (sequence items), ?_, inner, by simp [hfront], hvalue, hn,
          List.mem_cons_of_mem _ habove⟩
        exact mem_places_sequence.mpr (Or.inr ⟨m, child, q, hitem, hq, rfl⟩)
  | scalar v htag hmap hseq =>
    rw [(mem_places_scalar htag hmap hseq).mp h] at hsteps
    simp at hsteps

/-- Where every sequence is short, every place is. -/
theorem isShort_of_mem_places {v : Value}
    (hsize : ∀ q ∈ places v, ∀ items, q.value = sequence items → items.length < Path.indexBound)
    {p : Place} (h : p ∈ places v) : p.IsShort := by
  intro n hn
  obtain ⟨front, back, hsteps⟩ := List.append_of_mem hn
  obtain ⟨q, hq, items, -, hvalue, hlt, -⟩ := exists_sequence_of_index h hsteps
  exact Nat.lt_trans hlt (hsize q hq items hvalue)

end Value

end ChartDocs
