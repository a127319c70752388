import ChartDocs.Readme
import Mathlib.Data.List.Basic

/-!
# Marked lines

Lines are marked from left to right, and the only thing that the lines before matter for is whether
they leave a block of code open. So the lines above a cut keep their marks whatever is put below
them, and the lines from a heading on keep theirs wherever no block of code is open.
-/

namespace ChartDocs.Readme

open Text

variable {level : Nat} {fenced : Bool} {title : List Char}

/-- Whether a block of code is open after some lines. -/
def fencedAfter : (fenced : Bool) → List (List Char) → Bool
  | fenced, [] => fenced
  | fenced, line :: rest => fencedAfter (if isFence line then !fenced else fenced) rest

/-- Lines open and close blocks of code before those that follow them. -/
theorem fencedAfter_append (fenced : Bool) (first second : List (List Char)) :
    fencedAfter fenced (first ++ second) = fencedAfter (fencedAfter fenced first) second := by
  induction first generalizing fenced with
  | nil => rfl
  | cons line first ih => exact ih _

/-- Marking changes no lines. -/
theorem map_snd_mark (fenced : Bool) (ls : List (List Char)) :
    (mark fenced ls).map Prod.snd = ls := by
  induction ls generalizing fenced with
  | nil => rfl
  | cons line rest ih =>
    rw [mark]
    split <;> rw [List.map_cons, ih]

/-- Marking adds and removes no lines. -/
theorem length_mark (fenced : Bool) (ls : List (List Char)) :
    (mark fenced ls).length = ls.length := by
  rw [← List.length_map Prod.snd, map_snd_mark]

/-- Later lines are marked as if they stood alone, with a block of code open or not. -/
theorem mark_append (fenced : Bool) (first second : List (List Char)) :
    mark fenced (first ++ second) =
      mark fenced first ++ mark (fencedAfter fenced first) second := by
  induction first generalizing fenced with
  | nil => rfl
  | cons line first ih =>
    rw [List.cons_append, mark, mark, fencedAfter]
    split <;> rw [ih, List.cons_append]

/-- An empty line is no heading and leaves blocks of code as they are. -/
theorem mark_nil_cons (fenced : Bool) (rest : List (List Char)) :
    mark fenced ([] :: rest) = (none, []) :: mark fenced rest := by
  cases fenced <;> rfl

/-- Both parts of marked lines are the marked lines of a text. -/
theorem mark_eq_of_append {ls : List (List Char)} {first second : List MarkedLine}
    (h : mark fenced ls = first ++ second) :
    mark fenced (first.map Prod.snd) = first ∧
      mark (fencedAfter fenced (first.map Prod.snd)) (second.map Prod.snd) = second := by
  have hls : ls = first.map Prod.snd ++ second.map Prod.snd := by
    rw [← map_snd_mark fenced ls, h, List.map_append]
  rw [hls, mark_append] at h
  exact List.append_inj h (by rw [length_mark, List.length_map])

/-- A heading stands outside blocks of code. -/
theorem not_fenced_of_mark {ls : List (List Char)} {line : List Char} {rest : List MarkedLine}
    (h : mark fenced ls = (some level, line) :: rest) : fenced = false ∧ isFence line = false := by
  cases ls with
  | nil => exact absurd h (by simp [mark])
  | cons first ls =>
    rw [mark] at h
    split at h
    · exact absurd h (by simp)
    · next hfence =>
      obtain ⟨hfirst, -⟩ := List.cons_eq_cons.mp h
      obtain ⟨hlevel, rfl⟩ := Prod.mk.inj hfirst
      cases fenced with
      | true => exact absurd hlevel (by simp)
      | false => exact ⟨rfl, by simpa using hfence⟩

section Cut

variable {marked above below : List MarkedLine}

/-- What is above a cut ends with the first heading that has the title. -/
theorem exists_of_cutBelow? (h : cutBelow? title marked = some (above, level, below)) :
    ∃ before line, above = before ++ [(some level, line)] ∧ marked = above ++ below ∧
      headingTitle line = title ∧
      ∀ earlier ∈ before, earlier.1.isSome → headingTitle earlier.2 ≠ title := by
  induction marked generalizing above with
  | nil => simp [cutBelow?] at h
  | cons first rest ih =>
    obtain ⟨_ | other, text⟩ := first
    · obtain ⟨⟨upper, cut⟩, hrest, heq⟩ := Option.map_eq_some_iff.mp h
      obtain ⟨rfl, rfl⟩ := Prod.mk.inj heq
      obtain ⟨before, line, rfl, rfl, htitle, hbefore⟩ := ih hrest
      exact ⟨(none, text) :: before, line, rfl, rfl, htitle,
        List.forall_mem_cons.mpr ⟨fun hsome => absurd hsome (by simp), hbefore⟩⟩
    · rw [cutBelow?] at h
      split at h
      · next htitle =>
        obtain ⟨rfl, heq⟩ := Prod.mk.inj (Option.some.inj h)
        obtain ⟨rfl, rfl⟩ := Prod.mk.inj heq
        exact ⟨[], text, rfl, rfl, htitle, fun _ he => absurd he List.not_mem_nil⟩
      · next hother =>
        obtain ⟨⟨upper, cut⟩, hrest, heq⟩ := Option.map_eq_some_iff.mp h
        obtain ⟨rfl, rfl⟩ := Prod.mk.inj heq
        obtain ⟨before, line, rfl, rfl, htitle, hbefore⟩ := ih hrest
        exact ⟨(some other, text) :: before, line, rfl, rfl, htitle,
          List.forall_mem_cons.mpr ⟨fun _ => hother, hbefore⟩⟩

/-- The search stops at the first heading with the title. -/
theorem cutBelow?_heading {before : List MarkedLine} {line : List Char}
    (htitle : headingTitle line = title)
    (hbefore : ∀ earlier ∈ before, earlier.1.isSome → headingTitle earlier.2 ≠ title) :
    cutBelow? title (before ++ (some level, line) :: below) =
      some (before ++ [(some level, line)], level, below) := by
  induction before with
  | nil => exact if_pos htitle
  | cons first before ih =>
    obtain ⟨hfirst, hrest⟩ := List.forall_mem_cons.mp hbefore
    obtain ⟨_ | other, text⟩ := first
    · rw [List.cons_append, cutBelow?, ih hrest, Option.map_some, List.cons_append]
    · rw [List.cons_append, cutBelow?, if_neg (hfirst rfl), ih hrest, Option.map_some,
        List.cons_append]

/-- Whatever follows the heading, the cut is below it. -/
theorem cutBelow?_append (h : cutBelow? title marked = some (above, level, below))
    (others : List MarkedLine) :
    cutBelow? title (above ++ others) = some (above, level, others) := by
  obtain ⟨before, line, rfl, -, htitle, hbefore⟩ := exists_of_cutBelow? h
  rw [List.append_assoc, List.singleton_append]
  exact cutBelow?_heading htitle hbefore

/-- The lines above a cut keep their marks, and no block of code is open below them. -/
theorem mark_above {ls : List (List Char)}
    (h : cutBelow? title (mark false ls) = some (above, level, below))
    (others : List (List Char)) :
    mark false (above.map Prod.snd ++ others) = above ++ mark false others := by
  obtain ⟨before, line, rfl, hmarked, -⟩ := exists_of_cutBelow? h
  have habove := (mark_eq_of_append hmarked).1
  rw [List.append_assoc] at hmarked
  obtain ⟨hfenced, hline⟩ := not_fenced_of_mark (mark_eq_of_append hmarked).2
  -- A heading stands outside blocks of code and is no fence, so none is open after it either.
  have hafter : fencedAfter false ((before ++ [(some level, line)]).map Prod.snd) = false := by
    rw [List.map_append, fencedAfter_append, hfenced]
    simp [fencedAfter, hline]
  rw [mark_append, habove, hafter]

end Cut

/-- The body ends in the first lines, or it goes on in the second ones. -/
theorem dropBody_append (level : Nat) (first second : List MarkedLine) :
    dropBody level (first ++ second) =
      if dropBody level first = [] then dropBody level second
      else dropBody level first ++ second := by
  induction first with
  | nil => rfl
  | cons marked first ih =>
    obtain ⟨_ | other, line⟩ := marked
    · exact ih
    · rw [List.cons_append, dropBody, dropBody]
      split
      · rw [if_neg (List.cons_ne_nil _ _), List.cons_append]
      · exact ih

/-- Nothing is left if and only if no heading is of at most the level. -/
theorem dropBody_eq_nil_iff {marked : List MarkedLine} :
    dropBody level marked = [] ↔
      ∀ line ∈ marked, ∀ other, line.1 = some other → level < other := by
  induction marked with
  | nil => simp [dropBody]
  | cons first rest ih =>
    obtain ⟨_ | other, line⟩ := first
    · simp [dropBody, ih]
    · rw [dropBody, List.forall_mem_cons]
      split
      · next hle =>
        have hnot : ¬∀ level', some other = some level' → level < level' :=
          fun h => Nat.not_lt.mpr hle (h other rfl)
        simp only [reduceCtorEq, hnot, false_and]
      · next hlt => simp [ih, Nat.lt_of_not_le hlt]

/-- What is left starts with a heading of at most the level. -/
theorem dropBody_eq_nil_or (level : Nat) (marked : List MarkedLine) :
    dropBody level marked = [] ∨ ∃ other line rest,
      other ≤ level ∧ dropBody level marked = (some other, line) :: rest := by
  induction marked with
  | nil => exact Or.inl rfl
  | cons first rest ih =>
    obtain ⟨_ | other, line⟩ := first
    · exact ih
    · rw [dropBody]
      split
      · next hle => exact Or.inr ⟨other, line, rest, hle, rfl⟩
      · exact ih

/-- What is left after the body are the last lines. -/
theorem dropBody_suffix (level : Nat) (marked : List MarkedLine) :
    dropBody level marked <:+ marked := by
  induction marked with
  | nil => exact List.suffix_rfl
  | cons first rest ih =>
    obtain ⟨_ | other, line⟩ := first
    · exact ih.trans (List.suffix_cons _ _)
    · rw [dropBody]
      split
      · exact List.suffix_rfl
      · exact ih.trans (List.suffix_cons _ _)

/-- There is no body to leave out where a body has been left out. -/
theorem dropBody_dropBody (level : Nat) (marked : List MarkedLine) :
    dropBody level (dropBody level marked) = dropBody level marked := by
  rcases dropBody_eq_nil_or level marked with hnil | ⟨other, line, rest, hle, heq⟩
  · rw [hnil, dropBody]
  · rw [heq, dropBody, if_pos hle]

/-- What is left after a body keeps its marks. -/
theorem mark_dropBody {ls : List (List Char)} {above below : List MarkedLine}
    (h : mark fenced ls = above ++ below) :
    mark false ((dropBody level below).map Prod.snd) = dropBody level below := by
  obtain ⟨front, hfront⟩ := dropBody_suffix level below
  rw [← hfront, ← List.append_assoc] at h
  have hmarked := (mark_eq_of_append h).2
  rcases dropBody_eq_nil_or level below with hnil | ⟨other, line, rest, -, hcons⟩
  · rw [hnil, List.map_nil, mark]
  · have hheading := hmarked.trans hcons
    rwa [(not_fenced_of_mark hheading).1] at hmarked

end ChartDocs.Readme
