import ChartDocs.Proofs.Path.Rendering
import ChartDocs.Proofs.Value.Place
import ChartDocs.Observation

/-!
# What the two lookups find

A lookup finds only places of the tree, and only places whose steps spell the text that is looked
up. Following the steps of a place finds it if the keys of every mapping differ as texts; matching
whole keys finds something for the text of every place. Together they decide what a path text leads
to in a tree whose places have different texts.
-/

namespace ChartDocs.Value

open Text ChartDocs.Path

/-- The texts of the keys of a mapping; collections have none. -/
def keyTexts (entries : List (Value × Value)) : List String :=
  entries.filterMap fun entry => entry.1.keyText?

/-- In every mapping that steps lead to, the keys that have a text have different texts. -/
def DistinctKeys (root : Value) : Prop :=
  ∀ p ∈ places root, ∀ entries, p.value = mapping entries → (keyTexts entries).Nodup

/-- Whether a value, if it is a mapping, has keys with different texts. -/
def hasDistinctKeys : Value → Bool
  | mapping entries => (keyTexts entries).Nodup
  | _ => true

/-- The keys of a tree are distinct if and only if those at each of its places are. -/
theorem distinctKeys_iff {root : Value} :
    DistinctKeys root ↔ ∀ p ∈ places root, p.value.hasDistinctKeys = true := by
  refine forall₂_congr fun p hp => ?_
  cases p.value <;> simp [hasDistinctKeys]

instance (root : Value) : Decidable (DistinctKeys root) :=
  decidable_of_iff' _ distinctKeys_iff

/-- The pieces between the dots of a key are not empty, and no key holds an opening bracket. -/
def NeatKeys (root : Value) : Prop :=
  ∀ p ∈ places root, ∀ s ∈ p.steps, s.IsNeat

/-- No key is empty. -/
def NamedKeys (root : Value) : Prop :=
  ∀ p ∈ places root, ∀ s ∈ p.steps, s ≠ .key ""

/-- Neat keys are not empty. -/
theorem NeatKeys.named {root : Value} (h : NeatKeys root) : NamedKeys root := by
  rintro p hp s hs rfl
  exact name_ne_empty_of_isNeat (h p hp _ hs) rfl

section Children

variable {entries : List (Value × Value)} {items : List Value} {key child : Value} {name : String}
  {n : Nat}

/-- The place of a child below a mapping. -/
theorem under_key_mem_places (hmem : (key, child) ∈ entries) (hname : key.keyText? = some name)
    {q : Place} (hq : q ∈ places child) :
    q.under (.key name) (mapping entries) ∈ places (mapping entries) :=
  mem_places_mapping.mpr (Or.inr ⟨key, child, name, q, hmem, hname, hq, rfl⟩)

/-- The place of a child below a sequence. -/
theorem under_index_mem_places (hitem : items[n]? = some child) {q : Place}
    (hq : q ∈ places child) :
    q.under (.index n) (sequence items) ∈ places (sequence items) :=
  mem_places_sequence.mpr (Or.inr ⟨n, child, q, hitem, hq, rfl⟩)

/-- The keys below an entry are distinct. -/
theorem DistinctKeys.of_entry (h : DistinctKeys (mapping entries)) (hmem : (key, child) ∈ entries)
    (hname : key.keyText? = some name) : DistinctKeys child :=
  fun _ hq inner hvalue => h _ (under_key_mem_places hmem hname hq) inner hvalue

/-- The keys below an item are distinct. -/
theorem DistinctKeys.of_item (h : DistinctKeys (sequence items)) (hitem : items[n]? = some child) :
    DistinctKeys child :=
  fun _ hq inner hvalue => h _ (under_index_mem_places hitem hq) inner hvalue

/-- The key of an entry is neat, and so are those below it. -/
theorem NeatKeys.of_entry (h : NeatKeys (mapping entries)) (hmem : (key, child) ∈ entries)
    (hname : key.keyText? = some name) : (Segment.key name).IsNeat ∧ NeatKeys child := by
  refine ⟨?_, fun q hq s hs => ?_⟩
  · exact h _ (under_key_mem_places hmem hname (root_mem_places child)) _ (by simp)
  · exact h _ (under_key_mem_places hmem hname hq) s (by simp [hs])

/-- The keys below an item are neat. -/
theorem NeatKeys.of_item (h : NeatKeys (sequence items)) (hitem : items[n]? = some child) :
    NeatKeys child :=
  fun _ hq s hs => h _ (under_index_mem_places hitem hq) s (by simp [hs])

end Children

/-- Tags do not matter to a lookup along steps. -/
theorem at?_tagged (tag : String) (content : Value) (steps : List Segment) :
    at? (tagged tag content) steps = at? content steps := by
  cases steps with
  | nil => rfl
  | cons s steps => cases s <;> simp only [at?, untag]

/-- The text of a key is one of the texts of the keys. -/
theorem mem_keyTexts {entries : List (Value × Value)} {key child : Value} {name : String}
    (hmem : (key, child) ∈ entries) (hname : key.keyText? = some name) : name ∈ keyTexts entries :=
  List.mem_filterMap.mpr ⟨(key, child), hmem, hname⟩

/-- The text of the first key, if it has one, comes first. -/
theorem keyTexts_cons (key child : Value) (rest : List (Value × Value)) :
    keyTexts ((key, child) :: rest) = key.keyText?.toList ++ keyTexts rest := by
  cases hkey : key.keyText? <;> simp [keyTexts, hkey]

/-- Every key with a text is the only step to the place of its child. -/
theorem sublist_keyTexts (entries : List (Value × Value)) (parent : Value) :
    ((keyTexts entries).map fun name => [Segment.key name]).Sublist
      ((entryPlaces entries parent).map Place.steps) := by
  induction entries with
  | nil => exact List.Sublist.refl _
  | cons entry rest ih =>
    obtain ⟨key, child⟩ := entry
    rw [keyTexts_cons, entryPlaces, List.map_append, List.map_append]
    refine List.Sublist.append ?_ ih
    cases key.keyText? with
    | none => exact List.Sublist.refl _
    | some name =>
      obtain ⟨below, hchild⟩ := places_eq_cons child
      rw [hchild]
      exact (List.nil_sublist _).cons_cons _

/-- Among keys with different texts each entry is found by its own. -/
theorem entry?_of_mem {entries : List (Value × Value)} (hdistinct : (keyTexts entries).Nodup)
    {key child : Value} {name : String} (hmem : (key, child) ∈ entries)
    (hname : key.keyText? = some name) : entry? name entries = some child := by
  induction entries with
  | nil => exact absurd hmem List.not_mem_nil
  | cons entry rest ih =>
    obtain ⟨first, value⟩ := entry
    rw [keyTexts_cons, List.nodup_append] at hdistinct
    obtain ⟨-, hrest, hdisjoint⟩ := hdistinct
    unfold entry?
    rcases List.mem_cons.mp hmem with heq | hmem
    · obtain ⟨rfl, rfl⟩ := Prod.mk.inj heq
      rw [if_pos hname]
    · have hfirst : first.keyText? ≠ some name := fun hfirst =>
        hdisjoint name (by simp [hfirst]) name (mem_keyTexts hmem hname) rfl
      rw [if_neg hfirst]
      exact ih hrest hmem

/-- What is found by a text is the value of an entry whose key has it. -/
theorem mem_of_entry? {entries : List (Value × Value)} {name : String} {child : Value}
    (h : entry? name entries = some child) :
    ∃ key, (key, child) ∈ entries ∧ key.keyText? = some name := by
  induction entries with
  | nil => cases h
  | cons entry rest ih =>
    obtain ⟨first, value⟩ := entry
    unfold entry? at h
    split at h
    · next hfirst =>
      obtain rfl := Option.some.inj h
      exact ⟨first, List.mem_cons_self, hfirst⟩
    · obtain ⟨key, hmem, hname⟩ := ih h
      exact ⟨key, List.mem_cons_of_mem _ hmem, hname⟩

/-- Following the steps of a place leads to it. -/
theorem at?_of_mem_places {root : Value} (hdistinct : DistinctKeys root) {p : Place}
    (h : p ∈ places root) : at? root p.steps = some p.value := by
  induction root using induct generalizing p with
  | tagged tag content ih => rw [at?_tagged, ih hdistinct h]
  | mapping entries ih =>
    rcases mem_places_mapping.mp h with rfl | ⟨key, child, name, q, hmem, hname, hq, rfl⟩
    · rfl
    · have hkeys := hdistinct _ (root_mem_places _) entries rfl
      have hchild := ih (key, child) hmem (hdistinct.of_entry hmem hname) hq
      rw [Place.steps_under, at?]
      simp only [untag, entry?_of_mem hkeys hmem hname]
      exact hchild
  | sequence items ih =>
    rcases mem_places_sequence.mp h with rfl | ⟨n, child, q, hitem, hq, rfl⟩
    · rfl
    · have hchild := ih child (List.mem_of_getElem? hitem) (hdistinct.of_item hitem) hq
      rw [Place.steps_under, at?]
      simp only [untag, hitem]
      exact hchild
  | scalar v htag hmap hseq =>
    rw [(mem_places_scalar htag hmap hseq).mp h]
    cases v <;> simp_all [at?, untag]

/-- Following steps leads to places with these steps only. -/
theorem mem_places_of_at? {root : Value} {steps : List Segment} {found : Value}
    (h : at? root steps = some found) : ∃ p ∈ places root, p.steps = steps ∧ p.value = found := by
  induction root using induct generalizing steps with
  | tagged tag content ih => exact ih (at?_tagged tag content steps ▸ h)
  | mapping entries ih =>
    cases steps with
    | nil => exact ⟨_, root_mem_places _, rfl, Option.some.inj h⟩
    | cons step steps =>
      cases step with
      | index n => simp [at?, untag] at h
      | key name =>
        simp only [at?, untag] at h
        split at h
        · next child hentry =>
          obtain ⟨key, hmem, hname⟩ := mem_of_entry? hentry
          obtain ⟨q, hq, rfl, rfl⟩ := ih (key, child) hmem h
          exact ⟨_, under_key_mem_places hmem hname hq, rfl, rfl⟩
        · simp at h
  | sequence items ih =>
    cases steps with
    | nil => exact ⟨_, root_mem_places _, rfl, Option.some.inj h⟩
    | cons step steps =>
      cases step with
      | key name => simp [at?, untag] at h
      | index n =>
        simp only [at?, untag] at h
        split at h
        · next child hitem =>
          obtain ⟨q, hq, rfl, rfl⟩ := ih child (List.mem_of_getElem? hitem) h
          exact ⟨_, under_index_mem_places hitem hq, rfl, rfl⟩
        · simp at h
  | scalar v htag hmap hseq =>
    cases steps with
    | nil => exact ⟨_, root_mem_places v, rfl, Option.some.inj h⟩
    | cons step steps => cases step <;> cases v <;> simp_all [at?, untag]

/-- The longest find is one of the finds. -/
theorem mem_of_longest? {finds : List (Nat × Value)} {find : Nat × Value}
    (h : longest? finds = some find) : find ∈ finds := by
  induction finds generalizing find with
  | nil => simp [longest?] at h
  | cons first rest ih =>
    obtain ⟨n, value⟩ := first
    rw [longest?] at h
    split at h
    · next m other hrest =>
      split at h
      · exact List.mem_cons_of_mem _ (ih (hrest.trans h))
      · rw [← Option.some.inj h]
        exact List.mem_cons_self
    · rw [← Option.some.inj h]
      exact List.mem_cons_self

/-- Among finds there is a longest one. -/
theorem longest?_isSome {finds : List (Nat × Value)} {find : Nat × Value} (h : find ∈ finds) :
    (longest? finds).isSome = true := by
  cases finds with
  | nil => exact absurd h List.not_mem_nil
  | cons first rest =>
    obtain ⟨n, value⟩ := first
    rw [longest?]
    split
    · split <;> rfl
    · rfl

/-- A key is found at the start of a text where the text of the key ends there. -/
theorem belowKey?_eq_some_iff {key : Value} {path below : List Char} {n : Nat} :
    belowKey? key path = some (n, below) ↔
      ∃ name rest, key.keyText? = some name ∧ path = name.toList ++ rest ∧
        endsName rest = true ∧ n = name.length ∧ below = dropDot rest := by
  simp only [belowKey?, Option.bind_eq_bind, Option.bind_eq_some_iff, dropLeading?_eq_some_iff]
  constructor
  · rintro ⟨name, hname, rest, hpath, h⟩
    split at h
    · next hends =>
      obtain ⟨rfl, rfl⟩ := Prod.mk.inj (Option.some.inj h)
      exact ⟨name, rest, hname, hpath, hends, rfl, rfl⟩
    · simp at h
  · rintro ⟨name, rest, hname, hpath, hends, rfl, rfl⟩
    exact ⟨name, hname, rest, hpath, by rw [if_pos hends]⟩

/-- What is found below one entry. -/
def entryFind (path : List Char) (entry : Value × Value) : Option (Nat × Value) :=
  (belowKey? entry.1 path).bind fun cut => (spelled? entry.2 cut.2).map (cut.1, ·)

/-- The finds are looked for entry by entry. -/
theorem entryFinds_eq_filterMap (entries : List (Value × Value)) (path : List Char) :
    entryFinds entries path = entries.filterMap (entryFind path) := by
  induction entries with
  | nil => simp [entryFinds]
  | cons entry rest ih =>
    obtain ⟨key, child⟩ := entry
    rw [entryFinds, List.filterMap_cons, entryFind, ih]
    cases hbelow : belowKey? key path with
    | none => rfl
    | some cut => cases hfound : spelled? child cut.2 <;> simp [hfound]

/-- A find lies below an entry whose key the path starts with. -/
theorem mem_entryFinds {entries : List (Value × Value)} {path : List Char} {find : Nat × Value} :
    find ∈ entryFinds entries path ↔
      ∃ key child below, (key, child) ∈ entries ∧ belowKey? key path = some (find.1, below) ∧
        spelled? child below = some find.2 := by
  rw [entryFinds_eq_filterMap, List.mem_filterMap]
  simp only [entryFind, Option.bind_eq_some_iff, Option.map_eq_some_iff]
  constructor
  · rintro ⟨⟨key, child⟩, hmem, ⟨n, below⟩, hbelow, found, hfound, rfl⟩
    exact ⟨key, child, below, hmem, hbelow, hfound⟩
  · rintro ⟨key, child, below, hmem, hbelow, hfound⟩
    exact ⟨(key, child), hmem, (find.1, below), hbelow, find.2, hfound, rfl⟩

/-- What is found below an item is what is spelled in it. -/
theorem itemFind_eq_bind (items : List Value) (n : Nat) (path : List Char) :
    itemFind items n path = items[n]?.bind (spelled? · path) := by
  induction items generalizing n with
  | nil => simp [itemFind]
  | cons item rest ih =>
    cases n with
    | zero => simp [itemFind]
    | succ n => simp [itemFind, ih]

/-- The empty text spells the root. -/
theorem spelled?_nil (v : Value) : spelled? v [] = some v.untag := by
  induction v using induct with
  | tagged tag content ih => rw [spelled?, ih]; rfl
  | mapping entries ih => rw [spelled?, untag] <;> simp
  | sequence items ih => rw [spelled?, untag] <;> simp
  | scalar v htag hmap hseq => cases v <;> simp_all [spelled?, untag]

/-- In a mapping the find with the longest key is taken. -/
theorem spelled?_mapping {path : List Char} (h : path ≠ []) (entries : List (Value × Value)) :
    spelled? (mapping entries) path = (longest? (entryFinds entries path)).map (·.2) := by
  cases path with
  | nil => exact absurd rfl h
  | cons c path => rw [spelled?]; simp

/-- In a sequence the position in front of the path is taken. -/
theorem spelled?_sequence {path : List Char} (h : path ≠ []) (items : List Value) :
    spelled? (sequence items) path =
      (takeIndex? path).bind fun cut => items[cut.1]?.bind (spelled? · (dropDot cut.2)) := by
  cases path with
  | nil => exact absurd rfl h
  | cons c path =>
    rw [spelled?]
    · cases takeIndex? (c :: path) with
      | none => rfl
      | some cut => exact itemFind_eq_bind items cut.1 (dropDot cut.2)
    · simp

/-- Matching whole keys finds something for the text of every place. -/
theorem spelled?_isSome_of_mem_places {root : Value} (hnamed : NamedKeys root) {p : Place}
    (h : p ∈ places root) (hshort : p.IsShort) :
    (spelled? root (dropDot (continuation p.steps))).isSome = true := by
  induction root using induct generalizing p with
  | tagged tag content ih =>
    rw [spelled?]
    exact ih hnamed h hshort
  | mapping entries ih =>
    rcases mem_places_mapping.mp h with rfl | ⟨key, child, name, q, hmem, hname, hq, rfl⟩
    · simp [dropDot, spelled?_nil]
    · have hne : name.toList ≠ [] := by
        have hname := hnamed _ h (.key name) (by simp)
        simpa using hname
      have hchild := ih (key, child) hmem
        (fun r hr s hs => hnamed _ (under_key_mem_places hmem hname hr) s (by simp [hs])) hq
        fun n hn => hshort n (by simp [hn])
      obtain ⟨found, hfound⟩ := Option.isSome_iff_exists.mp hchild
      have htext : dropDot (continuation (q.under (.key name) (mapping entries)).steps) =
          name.toList ++ continuation q.steps := rfl
      have hbelow : belowKey? key (name.toList ++ continuation q.steps) =
          some (name.length, dropDot (continuation q.steps)) :=
        belowKey?_eq_some_iff.mpr ⟨name, _, hname, rfl, endsName_continuation _, rfl, rfl⟩
      have hfind :
          (name.length, found) ∈ entryFinds entries (name.toList ++ continuation q.steps) :=
        mem_entryFinds.mpr ⟨key, child, _, hmem, hbelow, hfound⟩
      rw [htext, spelled?_mapping (by simp [hne]), Option.isSome_map]
      exact longest?_isSome hfind
  | sequence items ih =>
    rcases mem_places_sequence.mp h with rfl | ⟨n, child, q, hitem, hq, rfl⟩
    · simp [dropDot, spelled?_nil]
    · have hchild := ih child (List.mem_of_getElem? hitem)
        (fun r hr s hs => hnamed _ (under_index_mem_places hitem hr) s (by simp [hs])) hq
        fun m hm => hshort m (by simp [hm])
      have hn : n < indexBound := hshort n (by simp)
      rw [Place.steps_under, spelled?_sequence (by simp [Segment.text, dropDot]),
        takeIndex?_continuation hn]
      simpa [hitem] using hchild
  | scalar v htag hmap hseq =>
    rw [(mem_places_scalar htag hmap hseq).mp h]
    simp [dropDot, spelled?_nil]

/-- Matching whole keys finds only places whose steps spell the text. The text is given by its
finest segments; the keys of the place may put several of them together. -/
theorem mem_places_of_spelled? {root : Value} (hneat : NeatKeys root) {steps : List Segment}
    (hplain : ∀ s ∈ steps, s.IsPlain) (hbound : ∀ n, .index n ∈ steps → n < indexBound)
    {found : Value} (h : spelled? root (dropDot (continuation steps)) = some found) :
    ∃ p ∈ places root, continuation p.steps = continuation steps ∧ p.value = found := by
  induction root using induct generalizing steps with
  | tagged tag content ih =>
    rw [spelled?] at h
    exact ih hneat hplain hbound h
  | mapping entries ih =>
    cases steps with
    | nil =>
      rw [continuation_nil, dropDot, spelled?_nil] at h
      · exact ⟨_, root_mem_places _, rfl, Option.some.inj h⟩
      · simp
    | cons s steps =>
      rw [spelled?_mapping (dropDot_continuation_ne_nil (hplain s (by simp)) steps),
        Option.map_eq_some_iff] at h
      obtain ⟨⟨n, value⟩, hlongest, rfl⟩ := h
      obtain ⟨key, child, below, hmem, hbelow, hfound⟩ :=
        mem_entryFinds.mp (mem_of_longest? hlongest)
      obtain ⟨name, rest, hname, htext, hends, -, rfl⟩ := belowKey?_eq_some_iff.mp hbelow
      obtain ⟨hkey, hchild⟩ := hneat.of_entry hmem hname
      obtain ⟨more, hmore, rfl, hspelled⟩ :=
        exists_continuation_of_isNeat hkey hplain hends htext
      obtain ⟨q, hq, hsteps, rfl⟩ := ih (key, child) hmem hchild
        (fun t ht => hplain t (hmore.subset ht)) (fun m hm => hbound m (hmore.subset hm)) hfound
      refine ⟨_, under_key_mem_places hmem hname hq, ?_, rfl⟩
      rw [Place.steps_under, continuation_cons, hsteps, hspelled]
  | sequence items ih =>
    cases steps with
    | nil =>
      rw [continuation_nil, dropDot, spelled?_nil] at h
      · exact ⟨_, root_mem_places _, rfl, Option.some.inj h⟩
      · simp
    | cons step steps =>
      cases step with
      | key name =>
        rw [spelled?_sequence (dropDot_continuation_ne_nil (hplain _ (by simp)) steps),
          takeIndex?_continuation_key (hplain _ (by simp))] at h
        simp at h
      | index n =>
        have hn : n < indexBound := hbound n (by simp)
        rw [spelled?_sequence (by simp [Segment.text, dropDot]), takeIndex?_continuation hn,
          Option.bind_some] at h
        obtain ⟨child, hitem, hfound⟩ := Option.bind_eq_some_iff.mp h
        obtain ⟨q, hq, hsteps, rfl⟩ := ih child (List.mem_of_getElem? hitem) (hneat.of_item hitem)
          (fun t ht => hplain t (List.mem_cons_of_mem _ ht))
          (fun m hm => hbound m (List.mem_cons_of_mem _ hm)) hfound
        refine ⟨_, under_index_mem_places hitem hq, ?_, rfl⟩
        rw [Place.steps_under, continuation_cons, hsteps, continuation_cons]
  | scalar v htag hmap hseq =>
    cases steps with
    | nil =>
      rw [continuation_nil, dropDot, spelled?_nil] at h
      · exact ⟨_, root_mem_places v, rfl, Option.some.inj h⟩
      · simp
    | cons s steps =>
      have hne := dropDot_continuation_ne_nil (hplain s (by simp)) steps
      cases htext : dropDot (continuation (s :: steps)) with
      | nil => exact absurd htext hne
      | cons c text => cases v <;> simp_all [spelled?]

end ChartDocs.Value
