import ChartDocs.Proofs.Readme.Replacing
import ChartDocs.Proofs.Text.LineEnds

/-!
# The text around a replaced body

A README is cut where the body of the heading begins and where it ends, and its parts before and
after stay, line by line. Each line is written with a line feed, so a part stays as it is, to the
character, if its lines end with line feeds alone.
-/

namespace ChartDocs.Readme

open Text

variable {level : Nat} {title body readme result above old after : List Char}

/-- A README cut before and after the body of the first heading with a title: the heading, outside
blocks of code, is the last line above, the old body has no heading of at most its level, and what
comes after it, if anything does, starts with such a heading. Only the last line of the README can
lack its line end. -/
structure Divides (title readme above old after : List Char) (level : Nat) : Prop where
  text : readme = above ++ (old ++ after)
  marks : mark false (lines readme) =
    mark false (lines above) ++ (mark false (lines old) ++ mark false (lines after))
  heading : ∃ before line, mark false (lines above) = before ++ [(some level, line)] ∧
    headingTitle line = title ∧
    ∀ earlier ∈ before, earlier.1.isSome → headingTitle earlier.2 ≠ title
  lower : ∀ marked ∈ mark false (lines old), ∀ other, marked.1 = some other → level < other
  next : after = [] ∨ ∃ other line rest,
    other ≤ level ∧ mark false (lines after) = (some other, line) :: rest
  above_finished : old ++ after = [] ∨ Finished above
  old_finished : after = [] ∨ Finished old

/-- What is left out in front of the rest has no heading of at most the level. -/
theorem exists_append_dropBody (level : Nat) (marked : List MarkedLine) :
    ∃ front, marked = front ++ dropBody level marked ∧
      ∀ line ∈ front, ∀ other, line.1 = some other → level < other := by
  obtain ⟨front, hfront⟩ := dropBody_suffix level marked
  refine ⟨front, hfront.symm, dropBody_eq_nil_iff.mp ?_⟩
  have hdrop := dropBody_append level front (dropBody level marked)
  rw [hfront] at hdrop
  by_contra hne
  rw [if_neg hne] at hdrop
  exact hne (List.self_eq_append_left.mp hdrop)

/-- A README that has the heading can be cut around the body below it. -/
theorem exists_divides {aboveMarked below : List MarkedLine}
    (h : cutBelow? title (mark false (lines readme)) = some (aboveMarked, level, below)) :
    ∃ above old after, Divides title readme above old after level ∧
      mark false (lines above) = aboveMarked ∧ mark false (lines after) = dropBody level below := by
  obtain ⟨before, line, habove, hmarked, htitle, hbefore⟩ := exists_of_cutBelow? h
  obtain ⟨oldMarked, hbelow, hlower⟩ := exists_append_dropBody level below
  have hlines : lines readme = aboveMarked.map Prod.snd ++
      (oldMarked.map Prod.snd ++ (dropBody level below).map Prod.snd) := by
    have hbelowLines := congrArg (List.map Prod.snd) hbelow
    rw [List.map_append] at hbelowLines
    rw [← map_snd_mark false (lines readme), hmarked, List.map_append, hbelowLines]
  obtain ⟨above, rest, rfl, haboveLines, hrest, hfinished⟩ :=
    exists_append_of_lines_eq_append hlines
  obtain ⟨old, after, rfl, holdLines, hafterLines, holdFinished⟩ :=
    exists_append_of_lines_eq_append hrest
  have haboveMarks : mark false (lines above) = aboveMarked := by
    rw [haboveLines]
    exact (mark_eq_of_append hmarked).1
  have holdMarks : mark false (lines old) = oldMarked := by
    have hbelowMarks : mark false (below.map Prod.snd) = below := by
      have hall := mark_above h (below.map Prod.snd)
      rw [← List.map_append, ← hmarked, map_snd_mark, hmarked] at hall
      exact (List.append_cancel_left hall).symm
    rw [holdLines]
    exact (mark_eq_of_append (hbelowMarks.trans hbelow)).1
  have hafterMarks : mark false (lines after) = dropBody level below := by
    rw [hafterLines]
    exact mark_dropBody hmarked
  refine ⟨above, old, after, ⟨rfl, ?_, ?_, ?_, ?_, hfinished, holdFinished⟩, haboveMarks,
    hafterMarks⟩
  · rw [haboveMarks, holdMarks, hafterMarks, ← hbelow, hmarked]
  · exact ⟨before, line, haboveMarks.trans habove, htitle, hbefore⟩
  · rwa [holdMarks]
  · rw [hafterMarks]
    refine (dropBody_eq_nil_or level below).imp_left fun hnil => ?_
    rwa [hnil, List.map_nil, lines_eq_nil_iff] at hafterLines

/-- The lines of a part of a README, written one after the other. -/
theorem unlines_mark_lines (fenced : Bool) (text : List Char) :
    unlines (mark fenced (lines text)) = withFeeds text := by
  rw [unlines_mark, unlines_lines]

/-- What is left of a finished README is finished. -/
theorem Divides.finished_after (h : Divides title readme above old after level)
    (hlast : readme.getLast? = some '\n') : Finished after := by
  by_cases hnil : after = []
  · exact Or.inl hnil
  · refine Or.inr ?_
    rwa [h.text, ← List.append_assoc, List.getLast?_append_of_ne_nil _ hnil] at hlast

/-- A README with a new body is the text above the old body, the new one, and the text after the old
one, the two texts with a line feed for each line end. So without carriage returns before line feeds
it begins with the text above to the character, where at most the end of an unfinished heading is
added, and it ends with the text after to the character if that has its last line end. -/
theorem replaceBody?_surroundings (h : replaceBody? readme body title = some result) :
    ∃ above old after level, Divides title readme above old after level ∧
      result = withFeeds above ++ '\n' :: trimEnd body ++ '\n' ::
        (if after = [] then [] else '\n' :: withFeeds after) ∧
      (¬['\r', '\n'] <:+: above → (above ++ if Finished above then [] else ['\n']) <+: result) ∧
      (¬['\r', '\n'] <:+: after → readme.getLast? = some '\n' → after <:+ result) := by
  obtain ⟨aboveMarked, level, below, hcut⟩ := exists_cut_of_replaceBody? h
  obtain ⟨above, old, after, hdivides, habove, hafter⟩ := exists_divides hcut
  have hnil : dropBody level below = [] ↔ after = [] := by
    rw [← hafter, ← List.length_eq_zero_iff, length_mark, List.length_eq_zero_iff, lines_eq_nil_iff]
  have hresult : result = withFeeds above ++ '\n' :: trimEnd body ++ '\n' ::
      (if after = [] then [] else '\n' :: withFeeds after) := by
    rw [replaceBody?_eq_of_cut hcut, replaced, ending] at h
    rw [← Option.some.inj h, ← unlines_mark_lines false above, habove,
      ← unlines_mark_lines false after, hafter]
    simp only [hnil]
  refine ⟨above, old, after, level, hdivides, hresult, fun hplain => ?_, fun hplain hlast => ?_⟩
  · rw [← withFeeds_eq hplain, hresult, List.append_assoc]
    exact List.prefix_append _ _
  · have hsame : withFeeds after = after := by
      rw [withFeeds_eq hplain, if_pos (hdivides.finished_after hlast), List.append_nil]
    rw [hresult, hsame]
    split
    · next hnone => rw [hnone]; exact List.nil_suffix
    · exact (((List.suffix_cons _ after).trans (List.suffix_cons _ _)).trans
        (List.suffix_append _ _))

/-- A README with line ends of both kinds, a carriage return of its own and an unfinished line. -/
def mixed : List Char :=
  "# T\r\n\n## P\nold\r\n## Q\n\rend".toList

/-- Around the new body line ends of either kind become line feeds, and all else stays. -/
theorem replaceBody?_surroundings_mixed :
    replaceBody? mixed "t ".toList "P".toList =
      some "# T\n\n## P\n\nt\n\n## Q\n\rend\n".toList ∧
    ∃ above old after level, Divides "P".toList mixed above old after level ∧
      "# T\n\n## P\n\nt\n\n## Q\n\rend\n".toList =
        withFeeds above ++ '\n' :: trimEnd "t ".toList ++ '\n' ::
          (if after = [] then [] else '\n' :: withFeeds after) := by
  have hresult : replaceBody? mixed "t ".toList "P".toList =
      some "# T\n\n## P\n\nt\n\n## Q\n\rend\n".toList := by decide +kernel
  obtain ⟨above, old, after, level, hdivides, heq, -, -⟩ := replaceBody?_surroundings hresult
  exact ⟨hresult, above, old, after, level, hdivides, heq⟩

/-- A carriage return before the line feed of the heading is lost. -/
theorem exists_surroundings_changed : ¬∀ readme body title result : List Char,
    replaceBody? readme body title = some result →
      ∀ above old after level, Divides title readme above old after level →
        (above ++ if Finished above then [] else ['\n']) <+: result ∧
          (after ≠ [] → after <:+ result) := by
  intro h
  have hresult : replaceBody? "## P\r\n".toList "t".toList "P".toList =
      some "## P\n\nt\n".toList := by decide +kernel
  have hmarks : mark false (lines "## P\r\n".toList) = [] ++ [(some 2, "## P".toList)] := by
    decide +kernel
  have hdivides : Divides "P".toList "## P\r\n".toList "## P\r\n".toList [] [] 2 :=
    { text := rfl
      marks := (List.append_nil _).symm
      heading := ⟨[], _, hmarks, by decide +kernel, fun _ he => absurd he List.not_mem_nil⟩
      lower := fun _ hmem => absurd hmem List.not_mem_nil
      next := Or.inl rfl
      above_finished := Or.inl rfl
      old_finished := Or.inl rfl }
  have habove := (h _ _ _ _ hresult _ _ _ _ hdivides).1
  exact absurd habove (by decide +kernel)

end ChartDocs.Readme
