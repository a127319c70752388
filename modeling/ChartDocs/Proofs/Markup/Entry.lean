import ChartDocs.Proofs.Markup.Step

/-!
# Which parameters a text documents

A tag with a path documents a parameter where it stands. A tag without one documents a parameter at
the first key line below it, unless another tag without a path stands in between. The parameter
belongs to the last section that starts above the line that documents it.

What some lines document can be said line by line: one more line lets at most one entry arise and
leaves those above as they are. The tag that waits below some lines decides which entry arises at a
key line.
-/

namespace ChartDocs.Markup

open Text

/-- The key line at a position. -/
def keyAt? (ls : List (List Char)) (j : Nat) : Option KeyLine :=
  ls[j]?.bind keyLine?

/-- The tag at a position, with its kind. -/
def tagAt? (ls : List (List Char)) (i : Nat) : Option (TagKind × TagLine) :=
  ls[i]?.bind tagLine?

/-- Whether the line at a position holds a tag without a path. -/
def Pathless (ls : List (List Char)) (i : Nat) : Prop :=
  ∃ kind tag, tagAt? ls i = some (kind, tag) ∧ tag.path = none

/-- The first line below a position that is a key line or holds a tag without a path is a key
line, and it is at another position. -/
structure Names (ls : List (List Char)) (i j : Nat) : Prop where
  below : i < j
  key : (keyAt? ls j).isSome
  first : ∀ k, i < k → k < j → keyAt? ls k = none ∧ ¬Pathless ls k

/-- The path of the key line at a position. -/
def pathAt (ls : List (List Char)) (j : Nat) : List Char :=
  ((keyAt? ls j).map (keyPath ((ls.take j).filterMap keyLine?).reverse)).getD []

/-- The names of the sections that start above a position. -/
def groupsAbove (ls : List (List Char)) (j : Nat) : List (List Char) :=
  (ls.take j).filterMap groupName?

/-- The last of some positions. -/
def lastPosition? : Nat → Option Nat
  | 0 => none
  | n + 1 => some n

/-- A tag, the position at which it stands, and the position at which it documents. -/
structure Entry where
  stands : Nat
  documents : Nat
  kind : TagKind
  tag : TagLine

namespace Entry

/-- Whether the lines hold the tag and it documents at its position. -/
def Holds (ls : List (List Char)) (e : Entry) : Prop :=
  tagAt? ls e.stands = some (e.kind, e.tag) ∧
    (e.tag.path.isSome ∧ e.documents = e.stands ∨
      e.tag.path = none ∧ Names ls e.stands e.documents)

/-- The section that is open where the entry documents. -/
def owner? (ls : List (List Char)) (e : Entry) : Option Nat :=
  lastPosition? (groupsAbove ls e.documents).length

/-- The parameter that is documented: the path and the section are those of the position, all else
is said by the tag. A skipped parameter has no modifiers. -/
def parameter (ls : List (List Char)) (e : Entry) : Parameter where
  name := String.ofList (e.tag.path.getD (pathAt ls e.documents))
  description := String.ofList e.tag.description
  modifiers :=
    if e.kind = .skip then [] else Parameter.cleanModifiers (e.tag.modifiers.map String.ofList)
  sectionName := (groupsAbove ls e.documents).getLast?.map String.ofList
  skip := e.kind = .skip
  extra := e.kind = .extra
  value := if e.kind = .extra then some (.string "") else none

end Entry

/-- The positions of the entries of a section. -/
def positionsOf (ls : List (List Char)) (entries : List Entry) (owner : Nat) : List Nat :=
  (List.range entries.length).filter fun p => entries[p]?.bind (·.owner? ls) = some owner

/-- The sections that start in some lines, each with the positions of its entries. -/
def outlines (ls : List (List Char)) (entries : List Entry) : List (String × List Nat) :=
  (ls.filterMap groupName?).mapIdx fun owner name =>
    (String.ofList name, positionsOf ls entries owner)

section Append

variable {ls : List (List Char)} {line : List Char} {k : Nat}

/-- A line at the end does not change the key lines above. -/
theorem keyAt?_append_of_lt (h : k < ls.length) : keyAt? (ls ++ [line]) k = keyAt? ls k := by
  rw [keyAt?, List.getElem?_append_left h, keyAt?]

/-- The last line is the key line at its position, if it is one. -/
theorem keyAt?_append_length : keyAt? (ls ++ [line]) ls.length = keyLine? line := by
  simp [keyAt?]

/-- A line at the end does not change the tags above. -/
theorem tagAt?_append_of_lt (h : k < ls.length) : tagAt? (ls ++ [line]) k = tagAt? ls k := by
  rw [tagAt?, List.getElem?_append_left h, tagAt?]

/-- The last line holds the tag at its position, if it holds one. -/
theorem tagAt?_append_length : tagAt? (ls ++ [line]) ls.length = tagLine? line := by
  simp [tagAt?]

/-- A line at the end does not change which lines above hold tags without a path. -/
theorem pathless_append_of_lt (h : k < ls.length) :
    Pathless (ls ++ [line]) k ↔ Pathless ls k := by
  rw [Pathless, tagAt?_append_of_lt h, Pathless]

/-- A line at the end does not change the sections that start above it. -/
theorem groupsAbove_append_of_le (h : k ≤ ls.length) :
    groupsAbove (ls ++ [line]) k = groupsAbove ls k := by
  rw [groupsAbove, List.take_append_of_le_length h, groupsAbove]

/-- A line at the end does not change the paths of the key lines above. -/
theorem pathAt_append_of_lt (h : k < ls.length) : pathAt (ls ++ [line]) k = pathAt ls k := by
  rw [pathAt, keyAt?_append_of_lt h, List.take_append_of_le_length (Nat.le_of_lt h), pathAt]

/-- A new key line has its path after the key lines above. -/
theorem pathAt_append_length {key : KeyLine} (h : keyLine? line = some key) :
    pathAt (ls ++ [line]) ls.length = keyPath (ls.filterMap keyLine?).reverse key := by
  rw [pathAt, keyAt?_append_length, h, List.take_append_of_le_length (Nat.le_refl _),
    List.take_length]
  rfl

/-- Above the last line start all sections of the other lines. -/
theorem groupsAbove_append_length :
    groupsAbove (ls ++ [line]) ls.length = ls.filterMap groupName? := by
  rw [groupsAbove_append_of_le (Nat.le_refl _), groupsAbove, List.take_length]

/-- Only a line of the text is a key line. -/
theorem lt_of_keyAt? (h : (keyAt? ls k).isSome) : k < ls.length := by
  by_contra hout
  rw [keyAt?, List.getElem?_eq_none (Nat.le_of_not_lt hout)] at h
  simp at h

/-- Only a line of the text holds a tag. -/
theorem lt_of_tagAt? {found : TagKind × TagLine} (h : tagAt? ls k = some found) :
    k < ls.length := by
  by_contra hout
  rw [tagAt?, List.getElem?_eq_none (Nat.le_of_not_lt hout)] at h
  simp at h

/-- Every line of a longer text stands in the shorter one, or it is the new line. -/
theorem lt_or_eq_of_lt_append (h : k < (ls ++ [line]).length) : k < ls.length ∨ k = ls.length := by
  rw [List.length_append, List.length_singleton] at h
  omega

end Append

/-- A tag without a path that still waits for a key line. -/
structure Waiting (ls : List (List Char)) (i : Nat) (kind : TagKind) (tag : TagLine) : Prop where
  stands : tagAt? ls i = some (kind, tag)
  pathless : tag.path = none
  quiet : ∀ k, i < k → k < ls.length → keyAt? ls k = none ∧ ¬Pathless ls k

namespace Waiting

variable {ls : List (List Char)} {line : List Char} {i : Nat} {kind : TagKind} {tag : TagLine}

/-- At most one tag waits. -/
theorem unique {i' : Nat} {kind' : TagKind} {tag' : TagLine} (h : Waiting ls i kind tag)
    (h' : Waiting ls i' kind' tag') : i = i' ∧ kind = kind' ∧ tag = tag' := by
  have hle : i' ≤ i := by
    by_contra hlt
    have hquiet := h.quiet i' (Nat.lt_of_not_le hlt) (lt_of_tagAt? h'.stands)
    exact hquiet.2 ⟨kind', tag', h'.stands, h'.pathless⟩
  have hge : i ≤ i' := by
    by_contra hlt
    have hquiet := h'.quiet i (Nat.lt_of_not_le hlt) (lt_of_tagAt? h.stands)
    exact hquiet.2 ⟨kind, tag, h.stands, h.pathless⟩
  obtain rfl : i = i' := Nat.le_antisymm hge hle
  have hfound := Option.some.inj (h.stands.symm.trans h'.stands)
  exact ⟨rfl, congrArg Prod.fst hfound, congrArg Prod.snd hfound⟩

/-- A tag goes on waiting at a line that is no key line and holds no tag without a path; it starts
to wait at its own line. -/
theorem append_iff :
    Waiting (ls ++ [line]) i kind tag ↔
      tagLine? line = some (kind, tag) ∧ tag.path = none ∧ i = ls.length ∨
        Waiting ls i kind tag ∧ keyLine? line = none ∧
          ∀ kind' tag', tagLine? line = some (kind', tag') → tag'.path ≠ none := by
  constructor
  · intro h
    rcases lt_or_eq_of_lt_append (lt_of_tagAt? h.stands) with hi | rfl
    · have hlast := h.quiet ls.length hi (by simp)
      rw [keyAt?_append_length, Pathless, tagAt?_append_length] at hlast
      have hstands : tagAt? ls i = some (kind, tag) := by
        rw [← tagAt?_append_of_lt hi]
        exact h.stands
      refine Or.inr ⟨⟨hstands, h.pathless, ?_⟩, hlast.1, ?_⟩
      · intro k hik hk
        have hquiet := h.quiet k hik (by simp; omega)
        rwa [keyAt?_append_of_lt hk, pathless_append_of_lt hk] at hquiet
      · intro kind' tag' hread hpath
        exact hlast.2 ⟨kind', tag', hread, hpath⟩
    · have hstands := h.stands
      rw [tagAt?_append_length] at hstands
      exact Or.inl ⟨hstands, h.pathless, rfl⟩
  · rintro (⟨hread, hpath, rfl⟩ | ⟨h, hkey, htag⟩)
    · refine ⟨by rw [tagAt?_append_length, hread], hpath, ?_⟩
      intro k hik hk
      rcases lt_or_eq_of_lt_append hk with hk | rfl
      · exact absurd hk (Nat.not_lt_of_lt hik)
      · exact absurd hik (Nat.lt_irrefl _)
    · have hi : i < ls.length := lt_of_tagAt? h.stands
      refine ⟨by rw [tagAt?_append_of_lt hi, h.stands], h.pathless, ?_⟩
      intro k hik hk
      rcases lt_or_eq_of_lt_append hk with hk | rfl
      · rw [keyAt?_append_of_lt hk, pathless_append_of_lt hk]
        exact h.quiet k hik hk
      · rw [keyAt?_append_length, Pathless, tagAt?_append_length]
        refine ⟨hkey, ?_⟩
        rintro ⟨kind', tag', hread, hpath⟩
        exact htag kind' tag' hread hpath

end Waiting

namespace Entry

/-- Whether the entry documents at a line that comes after others. -/
def Arises (ls : List (List Char)) (line : List Char) (e : Entry) : Prop :=
  e.documents = ls.length ∧
    (tagLine? line = some (e.kind, e.tag) ∧ e.tag.path.isSome ∧ e.stands = ls.length ∨
      (keyLine? line).isSome ∧ Waiting ls e.stands e.kind e.tag)

/-- An entry that holds documents at a line of the text. -/
theorem Holds.lt {ls : List (List Char)} {e : Entry} (h : e.Holds ls) :
    e.documents < ls.length := by
  rcases h.2 with ⟨-, heq⟩ | ⟨-, hnames⟩
  · rw [heq]
    exact lt_of_tagAt? h.1
  · exact lt_of_keyAt? hnames.key

/-- A line lets entries arise and keeps those that there are. -/
theorem holds_append_iff {ls : List (List Char)} {line : List Char} {e : Entry} :
    e.Holds (ls ++ [line]) ↔ e.Holds ls ∨ e.Arises ls line := by
  constructor
  · rintro ⟨hstands, ⟨hpath, heq⟩ | ⟨hpath, hnames⟩⟩
    · rcases lt_or_eq_of_lt_append (lt_of_tagAt? hstands) with hi | hi
      · rw [tagAt?_append_of_lt hi] at hstands
        exact Or.inl ⟨hstands, Or.inl ⟨hpath, heq⟩⟩
      · rw [hi, tagAt?_append_length] at hstands
        exact Or.inr ⟨heq.trans hi, Or.inl ⟨hstands, hpath, hi⟩⟩
    · have hbetween : ∀ k, e.stands < k → k < e.documents → k < ls.length →
          keyAt? ls k = none ∧ ¬Pathless ls k := by
        intro k hik hkj hk
        rw [← keyAt?_append_of_lt hk, ← pathless_append_of_lt hk]
        exact hnames.first k hik hkj
      have hkey := hnames.key
      have hbelow := hnames.below
      rcases lt_or_eq_of_lt_append (lt_of_keyAt? hkey) with hj | hj
      · have hi : e.stands < ls.length := Nat.lt_trans hbelow hj
        rw [tagAt?_append_of_lt hi] at hstands
        rw [keyAt?_append_of_lt hj] at hkey
        refine Or.inl ⟨hstands, Or.inr ⟨hpath, hbelow, hkey, ?_⟩⟩
        intro k hik hkj
        exact hbetween k hik hkj (Nat.lt_trans hkj hj)
      · rw [hj] at hkey hbelow
        rw [tagAt?_append_of_lt hbelow] at hstands
        rw [keyAt?_append_length] at hkey
        refine Or.inr ⟨hj, Or.inr ⟨hkey, hstands, hpath, ?_⟩⟩
        intro k hik hk
        exact hbetween k hik (by omega) hk
  · rintro (⟨hstands, hrest⟩ | ⟨hlast, ⟨hread, hpath, hi⟩ | ⟨hkey, hwaiting⟩⟩)
    · have hi : e.stands < ls.length := lt_of_tagAt? hstands
      refine ⟨by rw [tagAt?_append_of_lt hi, hstands], ?_⟩
      rcases hrest with ⟨hpath, heq⟩ | ⟨hpath, hnames⟩
      · exact Or.inl ⟨hpath, heq⟩
      · have hj : e.documents < ls.length := lt_of_keyAt? hnames.key
        refine Or.inr ⟨hpath, hnames.below, by rw [keyAt?_append_of_lt hj, hnames.key], ?_⟩
        intro k hik hkj
        have hk : k < ls.length := Nat.lt_trans hkj hj
        rw [keyAt?_append_of_lt hk, pathless_append_of_lt hk]
        exact hnames.first k hik hkj
    · refine ⟨by rw [hi, tagAt?_append_length, hread], Or.inl ⟨hpath, by rw [hlast, hi]⟩⟩
    · have hi : e.stands < ls.length := lt_of_tagAt? hwaiting.stands
      refine ⟨by rw [tagAt?_append_of_lt hi, hwaiting.stands], Or.inr ⟨hwaiting.pathless, ?_⟩⟩
      refine ⟨by rw [hlast]; exact hi, by rw [hlast, keyAt?_append_length, hkey], ?_⟩
      intro k hik hkj
      have hk : k < ls.length := by omega
      rw [keyAt?_append_of_lt hk, pathless_append_of_lt hk]
      exact hwaiting.quiet k hik hk

/-- At a line that is no key line and holds no tag no entry arises. -/
theorem not_arises {ls : List (List Char)} {line : List Char} (hkey : keyLine? line = none)
    (htag : tagLine? line = none) (e : Entry) : ¬e.Arises ls line := by
  rintro ⟨-, ⟨hread, -⟩ | ⟨hno, -⟩⟩
  · rw [htag] at hread
    simp at hread
  · rw [hkey] at hno
    simp at hno

/-- At a key line the entry of the waiting tag arises. -/
theorem arises_iff_of_key {ls : List (List Char)} {line : List Char} {key : KeyLine}
    (hkey : keyLine? line = some key) {e : Entry} :
    e.Arises ls line ↔ e.documents = ls.length ∧ Waiting ls e.stands e.kind e.tag := by
  constructor
  · rintro ⟨hlast, ⟨hread, -⟩ | ⟨-, hwaiting⟩⟩
    · rw [tagLine?_of_keyLine? hkey] at hread
      simp at hread
    · exact ⟨hlast, hwaiting⟩
  · rintro ⟨hlast, hwaiting⟩
    exact ⟨hlast, Or.inr ⟨by rw [hkey, Option.isSome_some], hwaiting⟩⟩

/-- Entries of the lines above are not moved to other sections. -/
theorem owner?_append {ls : List (List Char)} {e : Entry} (h : e.documents < ls.length)
    (line : List Char) : e.owner? (ls ++ [line]) = e.owner? ls := by
  rw [owner?, groupsAbove_append_of_le (Nat.le_of_lt h), owner?]

/-- A line at the end does not change what entries above it say. -/
theorem parameter_append {ls : List (List Char)} {e : Entry} (h : e.documents < ls.length)
    (line : List Char) : e.parameter (ls ++ [line]) = e.parameter ls := by
  rw [parameter, groupsAbove_append_of_le (Nat.le_of_lt h), pathAt_append_of_lt h, parameter]

/-- An entry that arises belongs to the last section of the lines above. -/
theorem Arises.owner? {ls : List (List Char)} {line : List Char} {e : Entry}
    (h : e.Arises ls line) :
    e.owner? (ls ++ [line]) = lastPosition? (ls.filterMap groupName?).length := by
  rw [Entry.owner?, h.1, groupsAbove_append_length]

end Entry

/-- The last of some positions is one of them. -/
theorem lastPosition?_lt {n k : Nat} (h : lastPosition? n = some k) : k < n := by
  cases n with
  | zero => simp [lastPosition?] at h
  | succ n =>
    obtain rfl : n = k := Option.some.inj h
    exact Nat.lt_succ_self n

section Members

variable {ls : List (List Char)} {entries : List Entry}

/-- One more line does not change who belongs to a section. -/
theorem positionsOf_append (h : ∀ e ∈ entries, e.Holds ls) (line : List Char) (owner : Nat) :
    positionsOf (ls ++ [line]) entries owner = positionsOf ls entries owner := by
  refine List.filter_congr fun p hp => ?_
  have hlt : p < entries.length := List.mem_range.mp hp
  have hmem : entries[p] ∈ entries := List.getElem_mem hlt
  simp [List.getElem?_eq_getElem hlt, Entry.owner?_append (h _ hmem).lt]

/-- One more entry is a member of its section. -/
theorem positionsOf_concat (e : Entry) (owner : Nat) :
    positionsOf ls (entries ++ [e]) owner =
      positionsOf ls entries owner ++
        if e.owner? ls = some owner then [entries.length] else [] := by
  have hold : (List.range entries.length).filter
      (fun p => (entries ++ [e])[p]?.bind (·.owner? ls) = some owner) =
      positionsOf ls entries owner := by
    refine List.filter_congr fun p hp => ?_
    rw [List.getElem?_append_left (List.mem_range.mp hp)]
  rw [positionsOf, List.length_append, List.length_singleton, List.range_succ, List.filter_append,
    hold]
  congr 1
  by_cases h : e.owner? ls = some owner <;> simp [h]

/-- A section that has just started has no members. -/
theorem positionsOf_eq_nil {owner : Nat} (howner : (ls.filterMap groupName?).length ≤ owner) :
    positionsOf ls entries owner = [] := by
  refine List.filter_eq_nil_iff.mpr fun p hp hmember => ?_
  have hlt : p < entries.length := List.mem_range.mp hp
  rw [List.getElem?_eq_getElem hlt, Option.bind_some, decide_eq_true_eq] at hmember
  have habove : (groupsAbove ls entries[p].documents).length ≤ (ls.filterMap groupName?).length :=
    ((List.take_sublist _ ls).filterMap groupName?).length_le
  have hless := lastPosition?_lt hmember
  omega

/-- One more entry adds its position to the section that it belongs to. -/
theorem outlines_concat {e : Entry} {owner : Nat} (h : e.owner? ls = some owner) :
    outlines ls (entries ++ [e]) =
      (outlines ls entries).modify owner fun o => (o.1, o.2 ++ [entries.length]) := by
  refine List.ext_getElem? fun k => ?_
  rw [List.getElem?_modify, outlines, outlines, List.getElem?_mapIdx, List.getElem?_mapIdx,
    Option.map_eq_map, Option.map_map]
  congr 1
  funext name
  rw [positionsOf_concat, h]
  by_cases hk : owner = k <;> simp [hk]

/-- One more entry outside sections changes no section. -/
theorem outlines_concat_of_none {e : Entry} (h : e.owner? ls = none) :
    outlines ls (entries ++ [e]) = outlines ls entries := by
  refine List.ext_getElem? fun k => ?_
  rw [outlines, outlines, List.getElem?_mapIdx, List.getElem?_mapIdx]
  congr 1
  funext name
  rw [positionsOf_concat, h]
  simp

/-- A line that starts no section leaves the sections as they are. -/
theorem outlines_append (h : ∀ e ∈ entries, e.Holds ls) {line : List Char}
    (hgroup : groupName? line = none) : outlines (ls ++ [line]) entries = outlines ls entries := by
  rw [outlines, outlines, List.filterMap_append, List.filterMap_cons_none hgroup,
    List.filterMap_nil, List.append_nil]
  simp only [positionsOf_append h]

/-- A line that starts a section adds it without members. -/
theorem outlines_append_group (h : ∀ e ∈ entries, e.Holds ls) {line name : List Char}
    (hgroup : groupName? line = some name) :
    outlines (ls ++ [line]) entries = outlines ls entries ++ [(String.ofList name, [])] := by
  rw [outlines, outlines, List.filterMap_append, List.filterMap_cons_some hgroup,
    List.filterMap_nil, List.mapIdx_concat]
  simp only [positionsOf_append h, positionsOf_eq_nil (Nat.le_refl _)]

end Members

end ChartDocs.Markup
