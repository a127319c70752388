import ChartDocs.Proofs.Readme.Marking
import ChartDocs.Proofs.Text.Trimming

/-!
# Replacing the body of a heading twice

A text that is put below a heading becomes part of the README, and when it is replaced by itself its
lines are read as those of a README. It comes out as it was if its own lines do not end the body
before the body ends, and do not hide that end in a block of code.
-/

namespace ChartDocs.Readme

open Text

variable {level : Nat} {title body readme result : List Char}

/-- Lines that a body of a heading can hold: all headings among them are of a lower rank, and unless
nothing follows the body they leave no block of code open. -/
structure Holds (level : Nat) (last : Prop) (ls : List (List Char)) : Prop where
  lower : ∀ marked ∈ mark false ls, ∀ other, marked.1 = some other → level < other
  closed : last ∨ fencedAfter false ls = false

instance (level : Nat) (last : Prop) [Decidable last] (ls : List (List Char)) :
    Decidable (Holds level last ls) :=
  decidable_of_iff (dropBody level (mark false ls) = [] ∧ (last ∨ fencedAfter false ls = false))
    ⟨fun ⟨hlower, hclosed⟩ => ⟨dropBody_eq_nil_iff.mp hlower, hclosed⟩,
      fun ⟨hlower, hclosed⟩ => ⟨dropBody_eq_nil_iff.mpr hlower, hclosed⟩⟩

/-- Whether a line opens or closes a block of code or can end the body of a heading. -/
def disturbs (level : Nat) (line : List Char) : Bool :=
  isFence line || (headingLevel? line).any (· ≤ level)

/-- Whether a block of code is open depends on the disturbing lines only. -/
theorem fencedAfter_filter (level : Nat) (fenced : Bool) (ls : List (List Char)) :
    fencedAfter fenced (ls.filter (disturbs level)) = fencedAfter fenced ls := by
  induction ls generalizing fenced with
  | nil => rfl
  | cons line ls ih =>
    rw [List.filter_cons]
    split
    · exact ih _
    · next hquiet =>
      have hfence : isFence line = false := by
        by_contra h
        exact hquiet (by simp [disturbs, h])
      rw [ih, fencedAfter, hfence]
      rfl

/-- Whether all headings are of a lower rank depends on the disturbing lines only. -/
theorem lower_mark_filter (level : Nat) (fenced : Bool) (ls : List (List Char)) :
    (∀ marked ∈ mark fenced (ls.filter (disturbs level)), ∀ other, marked.1 = some other →
        level < other) ↔
      ∀ marked ∈ mark fenced ls, ∀ other, marked.1 = some other → level < other := by
  induction ls generalizing fenced with
  | nil => rfl
  | cons line ls ih =>
    rw [List.filter_cons]
    split
    · rw [mark, mark]
      split <;> rw [List.forall_mem_cons, List.forall_mem_cons, ih]
    · next hquiet =>
      have hnone : isFence line = false ∧ (headingLevel? line).any (· ≤ level) = false := by
        simpa [disturbs] using hquiet
      obtain ⟨hfence, hlevel⟩ := hnone
      rw [mark, if_neg (by simp [hfence]), List.forall_mem_cons, ih]
      refine (and_iff_right ?_).symm
      intro other hother
      cases fenced with
      | true => exact absurd hother (by simp)
      | false =>
        have hheading : headingLevel? line = some other := hother
        rw [hheading] at hlevel
        exact Nat.lt_of_not_le (by simpa using hlevel)

/-- Whether a body can hold lines depends only on those that matter. -/
theorem holds_filter_iff {last : Prop} {ls : List (List Char)} :
    Holds level last (ls.filter (disturbs level)) ↔ Holds level last ls := by
  have hlower := lower_mark_filter level false ls
  have hclosed := fencedAfter_filter level false ls
  constructor
  · rintro ⟨hl, hc⟩
    exact ⟨hlower.mp hl, hclosed ▸ hc⟩
  · rintro ⟨hl, hc⟩
    exact ⟨hlower.mpr hl, hclosed.symm ▸ hc⟩

/-- The end of a README: an empty line and what is left after a body, or nothing. -/
def ending (after : List MarkedLine) : List Char :=
  if after = [] then [] else '\n' :: unlines after

/-- The README with a new body between the lines above and what is left after the old body. -/
def replaced (above : List MarkedLine) (body : List Char) (after : List MarkedLine) : List Char :=
  unlines above ++ '\n' :: trimEnd body ++ '\n' :: ending after

/-- The lines of the end of a README. -/
def endingLines (after : List MarkedLine) : List (List Char) :=
  if after = [] then [] else [] :: after.map Prod.snd

/-- The text of marked lines is the text of the lines. -/
theorem unlines_eq (marked : List MarkedLine) :
    unlines marked = Text.unlines (marked.map Prod.snd) := by
  induction marked with
  | nil => rfl
  | cons first rest ih =>
    rw [List.map_cons, unlines_cons, ← ih, unlines, List.flatMap_cons, List.append_assoc]
    rfl

/-- The end of a README is made of its lines. -/
theorem ending_eq (after : List MarkedLine) : ending after = Text.unlines (endingLines after) := by
  rw [ending, endingLines]
  split
  · rfl
  · rw [unlines_cons, unlines_eq, List.nil_append]

/-- Where the heading is found, its body is replaced. -/
theorem replaceBody?_eq_of_cut {above below : List MarkedLine}
    (h : cutBelow? title (mark false (lines readme)) = some (above, level, below)) :
    replaceBody? readme body title = some (replaced above body (dropBody level below)) := by
  rw [replaceBody?, h]
  rfl

/-- A README that has the heading is cut below it. -/
theorem exists_cut_of_replaceBody? (h : replaceBody? readme body title = some result) :
    ∃ above level below,
      cutBelow? title (mark false (lines readme)) = some (above, level, below) := by
  rw [replaceBody?, Option.map_eq_some_iff] at h
  obtain ⟨⟨above, level, below⟩, hcut, -⟩ := h
  exact ⟨above, level, below, hcut⟩

/-- The lines of the new README: those above, an empty one, those of the new body and those after
it. -/
theorem lines_replaced {above after : List MarkedLine}
    (habove : ∀ line ∈ above.map Prod.snd, OnLine line)
    (hafter : ∀ line ∈ after.map Prod.snd, OnLine line) :
    lines (replaced above body after) =
      above.map Prod.snd ++ [] :: (lines (trimEnd body ++ ['\n']) ++ endingLines after) := by
  have hfront : ∀ line ∈ above.map Prod.snd ++ [[]], OnLine line := by
    simpa [or_imp, forall_and, onLine_nil] using habove
  have hend : ∀ line ∈ endingLines after, OnLine line := by
    rw [endingLines]
    split
    · simp
    · exact List.forall_mem_cons.mpr ⟨onLine_nil, hafter⟩
  have htext : replaced above body after =
      Text.unlines (above.map Prod.snd ++ [[]]) ++ (trimEnd body ++ '\n' :: ending after) := by
    simp [replaced, unlines_eq, Text.unlines, ended]
  have hsame : (above.map Prod.snd ++ [[]]).map dropReturn = above.map Prod.snd ++ [[]] := by
    rw [← lines_unlines fun line hline => (hfront line hline).1, lines_unlines_of_onLine hfront]
  rw [htext, lines_unlines_append fun line hline => (hfront line hline).1, hsame,
    lines_append_feed, ending_eq, lines_unlines_of_onLine hend, List.append_assoc,
    List.singleton_append]

/-- The marked lines that a second replacement finds below the heading. -/
def belowAgain (ls : List (List Char)) (after : List MarkedLine) : List MarkedLine :=
  mark false ([] :: (ls ++ endingLines after))

/-- A second replacement cuts below the same heading, whatever it puts there. -/
theorem replaceBody?_replaced {above below : List MarkedLine} (hreturn : '\r' ∉ readme)
    (h : cutBelow? title (mark false (lines readme)) = some (above, level, below))
    (second : List Char) :
    replaceBody? (replaced above body (dropBody level below)) second title =
      some (replaced above second (dropBody level
        (belowAgain (lines (trimEnd body ++ ['\n'])) (dropBody level below)))) := by
  obtain ⟨-, -, -, hmarked, -⟩ := exists_of_cutBelow? h
  have hlines : lines readme = above.map Prod.snd ++ below.map Prod.snd := by
    rw [← map_snd_mark false (lines readme), hmarked, List.map_append]
  have honLine : ∀ line ∈ above.map Prod.snd ++ below.map Prod.snd, OnLine line :=
    fun line hline => onLine_of_mem_lines hreturn (hlines ▸ hline)
  have habove : ∀ line ∈ above.map Prod.snd, OnLine line :=
    fun line hline => honLine line (List.mem_append_left _ hline)
  have hafter : ∀ line ∈ (dropBody level below).map Prod.snd, OnLine line := fun line hline =>
    honLine line (List.mem_append_right _
      (List.map_subset Prod.snd (dropBody_suffix level below).subset hline))
  have hcut : cutBelow? title (mark false (lines (replaced above body (dropBody level below)))) =
      some (above, level,
        belowAgain (lines (trimEnd body ++ ['\n'])) (dropBody level below)) := by
    rw [lines_replaced habove hafter, mark_above h]
    exact cutBelow?_append h _
  exact replaceBody?_eq_of_cut hcut

/-- What a second replacement leaves starts in the lines of the first body, if a heading among them
ends it, and otherwise in the lines after it. -/
theorem dropBody_belowAgain (ls : List (List Char)) (after : List MarkedLine) :
    dropBody level (belowAgain ls after) =
      if dropBody level (mark false ls) = [] then
        dropBody level (mark (fencedAfter false ls) (endingLines after))
      else dropBody level (mark false ls) ++ mark (fencedAfter false ls) (endingLines after) := by
  rw [belowAgain, mark_nil_cons, dropBody, mark_append, dropBody_append]

/-- The lengths of texts of marked lines add up. -/
theorem length_unlines_append (first second : List MarkedLine) :
    (unlines (first ++ second)).length = (unlines first).length + (unlines second).length := by
  rw [unlines, List.flatMap_append, List.length_append, unlines, unlines]

/-- A marked line adds its length and one to the text. -/
theorem length_unlines_cons (first : MarkedLine) (rest : List MarkedLine) :
    (unlines (first :: rest)).length = first.2.length + 1 + (unlines rest).length := by
  rw [unlines, List.flatMap_cons, List.length_append, List.length_append, List.length_singleton,
    unlines]

/-- Marks are no part of the text. -/
theorem unlines_mark (fenced : Bool) (ls : List (List Char)) :
    unlines (mark fenced ls) = Text.unlines ls := by
  rw [unlines_eq, map_snd_mark]

/-- The end of a README is at most one character longer than the lines that it is made of. -/
theorem length_ending_le (after : List MarkedLine) :
    (ending after).length ≤ (unlines after).length + 1 := by
  rw [ending]
  split <;> simp

/-- If anything is left after the body, the end of a README has one more character. -/
theorem length_ending_of_ne_nil {after : List MarkedLine} (h : after ≠ []) :
    (ending after).length = (unlines after).length + 1 := by
  rw [ending, if_neg h, List.length_cons]

/-- A heading in the new body that ends it is left with all that follows, which makes the README
longer. -/
theorem length_ending_lt_of_ne_nil {ls : List (List Char)} {after : List MarkedLine}
    (h : dropBody level (mark false ls) ≠ []) :
    (ending after).length < (ending (dropBody level (belowAgain ls after))).length := by
  have hend : (unlines (mark (fencedAfter false ls) (endingLines after))).length =
      (ending after).length := by rw [unlines_mark, ← ending_eq]
  rw [dropBody_belowAgain, if_neg h,
    length_ending_of_ne_nil (List.append_ne_nil_of_left_ne_nil h _), length_unlines_append, hend]
  omega

/-- Inside a block of code the heading that was left after a body is none, so it is left out with
what belongs to it. -/
theorem length_unlines_dropBody_fenced_lt {after : List MarkedLine}
    (hmarked : mark false (after.map Prod.snd) = after) (hafter : dropBody level after = after)
    (hne : after ≠ []) :
    (unlines (dropBody level (mark true (after.map Prod.snd)))).length <
      (unlines after).length := by
  rcases dropBody_eq_nil_or level after with hnil | ⟨other, line, rest, -, hcons⟩
  · exact absurd (hafter.symm.trans hnil) hne
  · obtain rfl : after = (some other, line) :: rest := hafter.symm.trans hcons
    have hline : isFence line = false := (not_fenced_of_mark hmarked).2
    have hhidden : mark true (((some other, line) :: rest).map Prod.snd) =
        (none, line) :: mark true (rest.map Prod.snd) := by
      rw [List.map_cons, mark, hline]
      rfl
    obtain ⟨front, hfront⟩ := dropBody_suffix level (mark true (rest.map Prod.snd))
    have hlength : (unlines front).length +
        (unlines (dropBody level (mark true (rest.map Prod.snd)))).length =
          (unlines rest).length := by
      rw [← length_unlines_append, hfront, unlines_mark, ← unlines_eq]
    rw [hhidden, dropBody, length_unlines_cons]
    omega

/-- A block of code that the new body leaves open hides the heading after it, which makes the README
shorter. -/
theorem length_ending_lt_of_fenced {ls : List (List Char)} {after : List MarkedLine}
    (hlower : dropBody level (mark false ls) = []) (hfenced : fencedAfter false ls = true)
    (hmarked : mark false (after.map Prod.snd) = after) (hafter : dropBody level after = after)
    (hne : after ≠ []) :
    (ending (dropBody level (belowAgain ls after))).length < (ending after).length := by
  rw [dropBody_belowAgain, if_pos hlower, hfenced, endingLines, if_neg hne, mark_nil_cons,
    dropBody, length_ending_of_ne_nil hne]
  exact Nat.lt_of_le_of_lt (length_ending_le _)
    (Nat.succ_lt_succ (length_unlines_dropBody_fenced_lt hmarked hafter hne))

/-- A second replacement leaves the same end exactly if the body can hold the lines put into it. -/
theorem ending_belowAgain_iff {ls : List (List Char)} {after : List MarkedLine}
    (hmarked : mark false (after.map Prod.snd) = after) (hafter : dropBody level after = after) :
    ending (dropBody level (belowAgain ls after)) = ending after ↔ Holds level (after = []) ls := by
  constructor
  · intro heq
    -- The two ways to fail change the length in opposite directions, so each shows in the length.
    have hlength := congrArg List.length heq
    have hlower : dropBody level (mark false ls) = [] := by
      by_contra hne
      exact Nat.ne_of_gt (length_ending_lt_of_ne_nil hne) hlength
    refine ⟨dropBody_eq_nil_iff.mp hlower, ?_⟩
    by_contra hopen
    obtain ⟨hne, hfenced⟩ := not_or.mp hopen
    rw [Bool.not_eq_false] at hfenced
    exact Nat.ne_of_lt (length_ending_lt_of_fenced hlower hfenced hmarked hafter hne) hlength
  · rintro ⟨hlower, hclosed⟩
    rw [dropBody_belowAgain, if_pos (dropBody_eq_nil_iff.mpr hlower)]
    by_cases hnil : after = []
    · rw [hnil, endingLines, if_pos rfl, mark, dropBody]
    · rw [hclosed.resolve_left hnil, endingLines, if_neg hnil, mark_nil_cons, dropBody, hmarked,
        hafter]

/-- Replacing a body by the same text once more succeeds, and changes nothing if and only if the
body can hold its lines. -/
theorem exists_replaceBody?_again {above below : List MarkedLine} (hreturn : '\r' ∉ readme)
    (hcut : cutBelow? title (mark false (lines readme)) = some (above, level, below))
    (h : replaceBody? readme body title = some result) :
    ∃ again, replaceBody? result body title = some again ∧
      (again = result ↔
        Holds level (dropBody level below = []) (lines (trimEnd body ++ ['\n']))) := by
  rw [replaceBody?_eq_of_cut hcut] at h
  obtain rfl := Option.some.inj h
  refine ⟨_, replaceBody?_replaced hreturn hcut body, ?_⟩
  obtain ⟨-, -, -, hmarked, -⟩ := exists_of_cutBelow? hcut
  rw [← ending_belowAgain_iff (mark_dropBody hmarked) (dropBody_dropBody level below)]
  simp [replaced]

end ChartDocs.Readme
