import ChartDocs.Proofs.Readme.Replacing
import ChartDocs.Proofs.Text.LineEnds

/-!
# Replacing the body of a heading by another text

The second of two replacements gives the README that it would have given without the first if and
only if the body can hold the lines of the first text. Those lines are read after the blanks at the
end of the text have been removed, and a line without its blanks can be a heading though it was none
before.
-/

namespace ChartDocs.Readme

open Text

variable {level : Nat} {title readme first once : List Char}

/-- A body can hold lines that are no fences and no headings of at most the level. -/
theorem Holds.of_forall {last : Prop} {ls : List (List Char)}
    (h : ∀ line ∈ ls, isFence line = false ∧
      ∀ other, headingLevel? line = some other → level < other) : Holds level last ls := by
  have hnone : ls.filter (disturbs level) = [] := by
    rw [List.filter_eq_nil_iff]
    intro line hline
    obtain ⟨hfence, hlower⟩ := h line hline
    rw [disturbs, hfence, Bool.false_or, Option.any_eq_true]
    rintro ⟨other, hother, hle⟩
    exact Nat.not_le.mpr (hlower other hother) (of_decide_eq_true hle)
  rw [← holds_filter_iff, hnone]
  exact ⟨fun _ hmarked => absurd hmarked List.not_mem_nil, Or.inr rfl⟩

/-- A replacement does not depend on an earlier one if and only if the body could hold the lines of
the earlier text. -/
theorem replaceBody?_once_eq_iff {above below : List MarkedLine} (hreturn : '\r' ∉ readme)
    (hcut : cutBelow? title (mark false (lines readme)) = some (above, level, below))
    (h : replaceBody? readme first title = some once) (second : List Char) :
    replaceBody? once second title = replaceBody? readme second title ↔
      Holds level (dropBody level below = []) (lines (trimEnd first ++ ['\n'])) := by
  obtain ⟨-, -, -, hmarked, -⟩ := exists_of_cutBelow? hcut
  have honce : once = replaced above first (dropBody level below) := by
    rw [replaceBody?_eq_of_cut hcut] at h
    exact (Option.some.inj h).symm
  rw [honce, replaceBody?_replaced hreturn hcut second, replaceBody?_eq_of_cut hcut,
    ← ending_belowAgain_iff (mark_dropBody hmarked) (dropBody_dropBody level below)]
  simp [replaced]

/-- The last replacement wins: what an earlier one has put below the heading does not matter if and
only if the body can hold its lines. In particular it does not matter if none of its lines, without
the blanks at the end, is a fence or a heading of at most the level. -/
theorem replaceBody?_overwritten (hreturn : '\r' ∉ readme)
    (h : replaceBody? readme first title = some once) :
    ∃ above level below,
      cutBelow? title (mark false (lines readme)) = some (above, level, below) ∧
      (∀ second, replaceBody? once second title = replaceBody? readme second title ↔
        Holds level (dropBody level below = []) (lines (trimEnd first ++ ['\n']))) ∧
      ((∀ line ∈ lines (trimEnd first), isFence line = false ∧
          ∀ other, headingLevel? line = some other → level < other) →
        ∀ second, replaceBody? once second title = replaceBody? readme second title) := by
  obtain ⟨above, level, below, hcut⟩ := exists_cut_of_replaceBody? h
  have hiff := replaceBody?_once_eq_iff hreturn hcut h
  refine ⟨above, level, below, hcut, hiff, fun hlines second => (hiff second).mpr ?_⟩
  refine Holds.of_forall fun line hline => ?_
  rcases mem_lines_trimEnd_append_feed hline with rfl | hmem
  · exact ⟨rfl, fun _ hother => by cases hother⟩
  · exact hlines line hmem

/-- A README with a section after the one for the tables, and without a last line feed. -/
def licensed : List Char :=
  "# Chart\n\n## P ##\nold\n\n## License".toList

/-- A text with a heading of a lower rank and blank lines at the end. -/
def listed : List Char :=
  "### A\n\n| a |\n \n".toList

/-- Headings of a lower rank are overwritten without a trace. -/
theorem replaceBody?_overwritten_listed : ∃ once,
    replaceBody? licensed listed "P".toList = some once ∧
      ∀ second, replaceBody? once second "P".toList = replaceBody? licensed second "P".toList := by
  have honce : replaceBody? licensed listed "P".toList =
      some "# Chart\n\n## P ##\n\n### A\n\n| a |\n\n## License\n".toList := by decide +kernel
  obtain ⟨above, level, below, hcut, -, hsame⟩ :=
    replaceBody?_overwritten (by decide +kernel) honce
  have hlevel : (cutBelow? "P".toList (mark false (lines licensed))).map (·.2.1) = some 2 := by
    decide +kernel
  rw [hcut] at hlevel
  obtain rfl : level = 2 := Option.some.inj hlevel
  have hlines : ∀ line ∈ lines (trimEnd listed), isFence line = false ∧
      (headingLevel? line).all (2 < ·) = true := by decide +kernel
  refine ⟨_, honce, hsame fun line hline => ?_⟩
  obtain ⟨hfence, hlower⟩ := hlines line hline
  refine ⟨hfence, fun other hother => ?_⟩
  rw [hother] at hlower
  exact of_decide_eq_true hlower

/-- A number sign with a no-break space after it is no heading, but without the space it is one. -/
theorem exists_not_overwritten : ¬∀ readme first second title once : List Char,
    '\r' ∉ readme → '\r' ∉ first → replaceBody? readme first title = some once →
      (∀ above level below,
        cutBelow? title (mark false (lines readme)) = some (above, level, below) →
        ∀ line ∈ lines first, isFence line = false ∧
          ∀ other, headingLevel? line = some other → level < other) →
      replaceBody? once second title = replaceBody? readme second title := by
  intro h
  have honce : replaceBody? "## P\n".toList "#\u00a0".toList "P".toList =
      some "## P\n\n#\n".toList := by decide +kernel
  have hlines : ∀ line ∈ lines "#\u00a0".toList,
      isFence line = false ∧ headingLevel? line = none := by decide +kernel
  have hsecond := h _ _ "t".toList _ _ (by decide +kernel) (by decide +kernel) honce
    fun _ _ _ _ line hline => by simp [hlines line hline]
  exact absurd hsecond (by decide +kernel)

end ChartDocs.Readme
