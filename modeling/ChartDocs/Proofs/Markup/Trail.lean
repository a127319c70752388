import ChartDocs.Markup.KeyLine
import Mathlib.Data.List.Induction

/-!
# The trail of open keys and the paths of key lines

The path of a key line is its key after the path of the nearest earlier key line that is indented
less. The trail computes it: its indentations strictly decrease outwards, so the keys that stay open
at a line are the same whether they are looked for from the inside or from the outside. After any
key lines they are those of the lines around it, each the nearest that is indented less than the one
inside it.
-/

namespace ChartDocs.Markup

open Text

/-- The path of a key line, given the key lines before it, the nearest first. -/
def keyPath : List KeyLine → KeyLine → List Char
  | [], line => line.key
  | k :: earlier, line =>
    if k.indent < line.indent then keyPath earlier k ++ '.' :: line.key else keyPath earlier line

namespace Trail

/-- Inner keys are indented more than outer ones. -/
def Ordered (trail : Trail) : Prop :=
  trail.Pairwise fun inner outer => outer.indent < inner.indent

/-- The trail after key lines. -/
def after (keys : List KeyLine) : Trail :=
  keys.foldl enter []

/-- No keys are in order. -/
theorem ordered_nil : Ordered [] := List.Pairwise.nil

/-- One more key line is entered into the trail after the earlier ones. -/
theorem after_append (keys : List KeyLine) (line : KeyLine) :
    after (keys ++ [line]) = (after keys).enter line := by
  simp [after]

/-- In an ordered trail only the keys in front can be indented as much as a bound. -/
theorem lt_of_mem_dropWhile {trail : Trail} (h : trail.Ordered) {bound : Nat} {k : KeyLine}
    (hk : k ∈ trail.dropWhile (bound ≤ ·.indent)) : k.indent < bound := by
  induction trail with
  | nil => simp at hk
  | cons first trail ih =>
    obtain ⟨hfirst, htrail⟩ := List.pairwise_cons.mp h
    rw [List.dropWhile_cons] at hk
    split at hk
    · exact ih htrail hk
    · next hbound =>
      have hlt : first.indent < bound := by simpa using hbound
      rcases List.mem_cons.mp hk with rfl | hk
      · exact hlt
      · exact Nat.lt_trans (hfirst k hk) hlt

/-- Entering a key line keeps the trail ordered. -/
theorem ordered_enter {trail : Trail} (h : trail.Ordered) (line : KeyLine) :
    (trail.enter line).Ordered := by
  refine List.pairwise_cons.mpr ⟨fun k hk => lt_of_mem_dropWhile h hk, ?_⟩
  exact List.Pairwise.sublist (List.dropWhile_sublist _) h

/-- Dropping inner keys up to a bound and then up to a smaller one is dropping up to the smaller. -/
theorem dropWhile_dropWhile {bound wider : Nat} (h : bound ≤ wider) (trail : Trail) :
    (trail.dropWhile (wider ≤ ·.indent)).dropWhile (bound ≤ ·.indent) =
      trail.dropWhile (bound ≤ ·.indent) := by
  induction trail with
  | nil => rfl
  | cons first trail ih =>
    by_cases hfirst : wider ≤ first.indent
    · have hbound : bound ≤ first.indent := Nat.le_trans h hfirst
      rw [List.dropWhile_cons_of_pos (by simpa using hfirst), ih,
        List.dropWhile_cons_of_pos (by simpa using hbound)]
    · rw [List.dropWhile_cons_of_neg (by simpa using hfirst)]

/-- A key line closes what an earlier line at its indentation or deeper has opened. -/
theorem enter_enter {trail : Trail} {k line : KeyLine} (h : line.indent ≤ k.indent) :
    (trail.enter k).enter line = trail.enter line := by
  rw [enter, enter, List.dropWhile_cons_of_pos (by simpa using h), dropWhile_dropWhile h, enter]

/-- A key line that is indented more than the innermost key closes nothing. -/
theorem enter_of_lt {trail : Trail} {k line : KeyLine} (h : k.indent < line.indent) :
    (trail.enter k).enter line = line :: trail.enter k := by
  rw [enter, enter, List.dropWhile_cons_of_neg (by simpa using h)]

/-- A key at the end stands after a dot. -/
theorem joined_concat {keys : List KeyLine} (hne : keys ≠ []) (line : KeyLine) :
    joined (keys ++ [line]) = joined keys ++ '.' :: line.key := by
  induction keys with
  | nil => exact absurd rfl hne
  | cons first keys ih =>
    cases keys with
    | nil => simp [joined, join]
    | cons next keys =>
      have h := ih (by simp)
      simp only [joined, List.cons_append, List.map_cons, join] at h ⊢
      rw [h]
      simp

/-- The path of the innermost key stands after the path of the key around it. -/
theorem path_cons {trail : Trail} (hne : trail ≠ []) (line : KeyLine) :
    path (line :: trail) = trail.path ++ '.' :: line.key := by
  rw [path, List.reverse_cons, joined_concat (by simpa using hne), path]

/-- The trail shows the path of every key line that it takes in. -/
theorem path_enter_after (keys : List KeyLine) (line : KeyLine) :
    ((after keys).enter line).path = keyPath keys.reverse line := by
  induction keys using List.reverseRecOn generalizing line with
  | nil => rfl
  | append_singleton keys k ih =>
    rw [after_append, List.reverse_append, List.reverse_singleton, List.singleton_append, keyPath]
    by_cases h : k.indent < line.indent
    · rw [if_pos h, enter_of_lt h, path_cons (by simp [enter]), ih]
    · rw [if_neg h, enter_enter (by omega), ih]

/-- Looked for from the outside, the keys that stay open are the same. -/
theorem takeWhile_reverse {trail : Trail} (h : trail.Ordered) (bound : Nat) :
    trail.reverse.takeWhile (·.indent < bound) =
      (trail.dropWhile (bound ≤ ·.indent)).reverse := by
  induction trail with
  | nil => rfl
  | cons first trail ih =>
    obtain ⟨hfirst, htrail⟩ := List.pairwise_cons.mp h
    rw [List.reverse_cons]
    by_cases hbound : bound ≤ first.indent
    · have hout : [first].takeWhile (·.indent < bound) = [] :=
        List.takeWhile_cons_of_neg (by simpa using hbound)
      rw [List.dropWhile_cons_of_pos (by simpa using hbound), ← ih htrail,
        List.takeWhile_append, hout]
      split
      · next hall =>
        rw [List.append_nil]
        exact ((List.takeWhile_sublist _).eq_of_length hall).symm
      · rfl
    · have hall : ∀ k ∈ trail.reverse ++ [first], (k.indent < bound : Bool) = true := by
        intro k hk
        rw [decide_eq_true_eq]
        rcases List.mem_append.mp hk with hk | hk
        · have hlt := hfirst k (List.mem_reverse.mp hk)
          omega
        · obtain rfl := List.mem_singleton.mp hk
          omega
      rw [List.dropWhile_cons_of_neg (by simpa using hbound), List.reverse_cons]
      simpa using @List.takeWhile_append_of_pos _ _ _ [] hall

/-- The path that a key line would have is the path that it gets. -/
theorem pathTo_eq_path_enter {trail : Trail} (h : trail.Ordered) (line : KeyLine) :
    trail.pathTo line = (trail.enter line).path := by
  rw [pathTo, takeWhile_reverse h, path, enter, List.reverse_cons]

end Trail

/-- The key lines around a key line, the innermost first, given all key lines before it: the nearest
of them that is indented less, and the key lines around that one. -/
inductive Around : List KeyLine → KeyLine → List KeyLine → Prop where
  | outermost {keys : List KeyLine} {line : KeyLine}
    (hdeeper : ∀ k ∈ keys, line.indent ≤ k.indent) : Around keys line []
  | within {before between outer : List KeyLine} {k line : KeyLine}
    (hless : k.indent < line.indent) (hdeeper : ∀ other ∈ between, line.indent ≤ other.indent)
    (h : Around before k outer) : Around (before ++ k :: between) line (k :: outer)

variable {keys outer : List KeyLine} {k line : KeyLine}

/-- A key line that is not indented less is around none of the key lines below it. -/
theorem Around.skip (h : Around keys line outer) (hk : line.indent ≤ k.indent) :
    Around (keys ++ [k]) line outer := by
  cases h with
  | outermost hdeeper => exact .outermost (List.forall_mem_append.mpr ⟨hdeeper, by simpa using hk⟩)
  | within hless hdeeper h =>
    rw [List.append_assoc, List.cons_append]
    exact .within hless (List.forall_mem_append.mpr ⟨hdeeper, by simpa using hk⟩) h

/-- The key lines around a key line can always be told. -/
theorem exists_around (keys : List KeyLine) (line : KeyLine) : ∃ outer, Around keys line outer := by
  induction keys using List.reverseRecOn generalizing line with
  | nil => exact ⟨[], .outermost fun _ hk => absurd hk List.not_mem_nil⟩
  | append_singleton keys k ih =>
    by_cases hk : k.indent < line.indent
    · obtain ⟨outer, h⟩ := ih k
      exact ⟨k :: outer, .within hk (fun _ hmem => absurd hmem List.not_mem_nil) h⟩
    · obtain ⟨outer, h⟩ := ih line
      exact ⟨outer, h.skip (Nat.le_of_not_lt hk)⟩

namespace Trail

/-- The trail after any key lines is in order. -/
theorem ordered_after (keys : List KeyLine) : (after keys).Ordered := by
  induction keys using List.reverseRecOn with
  | nil => exact ordered_nil
  | append_singleton keys k ih =>
    rw [after_append]
    exact ordered_enter ih k

/-- Key lines at the indentation of a later one or deeper leave no trace in the trail after it. -/
theorem enter_foldl_enter {between : List KeyLine} (h : ∀ k ∈ between, line.indent ≤ k.indent)
    (trail : Trail) : (between.foldl enter trail).enter line = trail.enter line := by
  induction between generalizing trail with
  | nil => rfl
  | cons k between ih =>
    obtain ⟨hk, hbetween⟩ := List.forall_mem_cons.mp h
    rw [List.foldl_cons, ih hbetween, enter_enter hk]

/-- The keys that stay open at a key line are those of the key lines around it. -/
theorem enter_after_of_around (h : Around keys line outer) :
    (after keys).enter line = line :: outer := by
  induction h with
  | outermost hdeeper => exact enter_foldl_enter hdeeper []
  | within hless hdeeper h ih =>
    rw [after, List.foldl_append, List.foldl_cons, enter_foldl_enter hdeeper, ← after,
      enter_of_lt hless, ih]

/-- The keys that stay open at a key line are those around it, and no others. -/
theorem enter_after_eq_cons_iff :
    (after keys).enter line = line :: outer ↔ Around keys line outer := by
  refine ⟨fun henter => ?_, enter_after_of_around⟩
  obtain ⟨around, h⟩ := exists_around keys line
  have hsame := (enter_after_of_around h).symm.trans henter
  rwa [(List.cons.inj hsame).2] at h

/-- Whatever key lines have been entered, inner keys are indented more than outer ones, and the path
that a key line would have is the path that it gets: the keys of the key lines around it, of which
there is one list, and its own key. -/
theorem pathTo_after_eq_joined (keys : List KeyLine) (line : KeyLine) :
    (after keys).Ordered ∧
      (after keys).pathTo line = ((after keys).enter line).path ∧
      ∃ outer, (∀ around, Around keys line around ↔ around = outer) ∧
        (after keys).enter line = line :: outer ∧
        ((after keys).enter line).path = joined (outer.reverse ++ [line]) := by
  obtain ⟨outer, h⟩ := exists_around keys line
  have henter := enter_after_of_around h
  refine ⟨ordered_after keys, pathTo_eq_path_enter (ordered_after keys) line, outer,
    fun around => ?_, henter, ?_⟩
  · rw [← enter_after_eq_cons_iff, henter, List.cons_eq_cons, and_iff_right rfl, eq_comm]
  · rw [henter, path, List.reverse_cons]

end Trail

/-- A key line can be indented less than the last one and still more than the one around both. -/
example : (Trail.after [⟨0, "a".toList⟩, ⟨4, "b".toList⟩]).pathTo ⟨2, "c".toList⟩ =
    "a.c".toList := by decide

end ChartDocs.Markup
