import ChartDocs.Proofs.Readme.Surroundings

/-!
# Headings with a given title

A heading is written as number signs, a space and its title. Reading the title drops the number
signs that may close a heading, and takes those at the end of the title itself for such. So below a
heading that is written with a title the body is replaced, unless the title ends with a number sign:
then another title is read off the heading, and it is passed over.
-/

namespace ChartDocs.Readme

open Text

variable {level : Nat} {title readme : List Char} {before rest : List (List Char)}

/-- The line of a heading without closing number signs. -/
def headingLine (level : Nat) (title : List Char) : List Char :=
  List.replicate level '#' ++ ' ' :: title

/-- The line of a heading begins with as many number signs as its level. -/
theorem takeWhile_headingLine (level : Nat) (title : List Char) :
    (headingLine level title).takeWhile (· = '#') = List.replicate level '#' := by
  rw [headingLine, List.takeWhile_append_of_pos fun c hc => by simp [List.eq_of_mem_replicate hc]]
  simp

/-- After the number signs come a space and the title. -/
theorem dropWhile_headingLine (level : Nat) (title : List Char) :
    (headingLine level title).dropWhile (· = '#') = ' ' :: title := by
  rw [headingLine, List.dropWhile_append_of_pos fun c hc => by simp [List.eq_of_mem_replicate hc]]
  simp

/-- The line of a heading has its level. -/
theorem headingLevel?_headingLine (hlow : 1 ≤ level) (hhigh : level ≤ 6) (title : List Char) :
    headingLevel? (headingLine level title) = some level := by
  rw [headingLevel?, takeWhile_headingLine, dropWhile_headingLine, List.length_replicate]
  exact if_pos ⟨hlow, hhigh, rfl⟩

/-- The line of a heading is no fence. -/
theorem isFence_headingLine (hlow : 1 ≤ level) (title : List Char) :
    isFence (headingLine level title) = false := by
  obtain ⟨more, rfl⟩ := Nat.exists_eq_add_of_le' hlow
  have hstart : trimStart (headingLine (more + 1) title) = headingLine (more + 1) title :=
    List.dropWhile_cons_of_neg (by decide)
  rw [isFence, hstart, headingLine, List.replicate_succ]
  rfl

/-- The number signs at the end of a title are dropped with the blanks before them. -/
theorem headingTitle_headingLine (level : Nat) (h : trim title = title) :
    headingTitle (headingLine level title) = trimEnd (title.rdropWhile (· = '#')) := by
  have hblank : trim (' ' :: title) = trim title := rfl
  rw [headingTitle, dropWhile_headingLine, hblank, h]
  rfl

/-- The title of a heading is read as it is written, unless it ends with a number sign. -/
theorem headingTitle_headingLine_eq_iff (level : Nat) (h : trim title = title) :
    headingTitle (headingLine level title) = title ↔ title.getLast? ≠ some '#' := by
  rw [headingTitle_headingLine level h]
  constructor
  · intro hread hlast
    obtain ⟨front, rfl⟩ := List.getLast?_eq_some_iff.mp hlast
    rw [List.rdropWhile_concat_pos _ _ _ (by simp)] at hread
    have hprefix := (trimEnd_prefix_self (front.rdropWhile (· = '#'))).trans
      (List.rdropWhile_prefix (· = '#') front)
    rw [hread] at hprefix
    exact absurd hprefix.length_le (by simp)
  · intro hlast
    have hkept : title.rdropWhile (· = '#') = title := by
      rw [List.rdropWhile_eq_self_iff]
      intro hne
      simpa [List.getLast?_eq_some_getLast hne] using hlast
    rw [hkept, trimEnd_of_trim h]

/-- Lines that are no fences are marked each by itself, and leave no block of code open. -/
theorem mark_append_of_forall (h : ∀ line ∈ before, isFence line = false)
    (rest : List (List Char)) :
    mark false (before ++ rest) =
      before.map (fun line => (headingLevel? line, line)) ++ mark false rest := by
  induction before with
  | nil => rfl
  | cons line before ih =>
    obtain ⟨hline, hbefore⟩ := List.forall_mem_cons.mp h
    rw [List.cons_append, mark, hline, ih hbefore]
    rfl

/-- Lines above a heading that a search for a title passes over: no fences, and no headings with the
title. -/
def PassedOver (title : List Char) (before : List (List Char)) : Prop :=
  ∀ line ∈ before, isFence line = false ∧
    ((headingLevel? line).isSome → headingTitle line ≠ title)

instance (title : List Char) (before : List (List Char)) : Decidable (PassedOver title before) :=
  inferInstanceAs (Decidable (∀ line ∈ before, _ ∧ _))

/-- A README is cut below the first heading from which the title is read. -/
theorem cutBelow?_headingLine (hlow : 1 ≤ level) (hhigh : level ≤ 6)
    (hbefore : PassedOver title before)
    (hread : headingTitle (headingLine level title) = title) (rest : List (List Char)) :
    cutBelow? title (mark false (before ++ headingLine level title :: rest)) =
      some (before.map (fun line => (headingLevel? line, line)) ++
        [(some level, headingLine level title)], level, mark false rest) := by
  have hmark : mark false (headingLine level title :: rest) =
      (some level, headingLine level title) :: mark false rest := by
    rw [mark, isFence_headingLine hlow, headingLevel?_headingLine hlow hhigh]
    rfl
  rw [mark_append_of_forall fun line hline => (hbefore line hline).1, hmark]
  refine cutBelow?_heading hread fun earlier hearlier hsome => ?_
  obtain ⟨line, hline, rfl⟩ := List.mem_map.mp hearlier
  exact (hbefore line hline).2 hsome

/-- Below the lines that a search for a title passes over, the body of a heading that is written
with the title is replaced, if and only if the title does not end with a number sign. -/
theorem exists_replaced_headingLine_iff (htrim : trim title = title) (hlow : 1 ≤ level)
    (hhigh : level ≤ 6) (hlines : lines readme = before ++ headingLine level title :: rest)
    (hbefore : PassedOver title before) :
    (∃ above old after, Divides title readme above old after level ∧
        lines above = before ++ [headingLine level title] ∧
        ∀ body, replaceBody? readme body title =
          some (replaced (mark false (lines above)) body (mark false (lines after)))) ↔
      title.getLast? ≠ some '#' := by
  rw [← headingTitle_headingLine_eq_iff level htrim]
  constructor
  · rintro ⟨above, old, after, hdivides, habove, -⟩
    obtain ⟨front, line, hmarks, htitle, -⟩ := hdivides.heading
    have hlast := congrArg (List.map Prod.snd) hmarks
    rw [map_snd_mark, habove, List.map_append] at hlast
    obtain rfl := List.singleton_inj.mp (List.append_inj' hlast rfl).2
    exact htitle
  · intro hread
    have hcut := cutBelow?_headingLine hlow hhigh hbefore hread rest
    rw [← hlines] at hcut
    obtain ⟨above, old, after, hdivides, habove, hafter⟩ := exists_divides hcut
    refine ⟨above, old, after, hdivides, ?_, fun body => ?_⟩
    · rw [← map_snd_mark false (lines above), habove]
      simp [Function.comp_def]
    · rw [habove, hafter, replaceBody?_eq_of_cut hcut]

/-- A README with a heading of another title above one whose title has number signs and a no-break
space in it. -/
def numbered : List Char :=
  "# C#\n\n### #1 of C#\n### #1 of C#\u00a0naïve\nold\n#### low\n~~~\n# no\n~~~\n# End".toList

/-- Only number signs at the end of a title are not read as written. -/
theorem exists_replaced_numbered :
    lines numbered = ["# C#".toList, [], "### #1 of C#".toList] ++
        headingLine 3 "#1 of C#\u00a0naïve".toList ::
          ["old".toList, "#### low".toList, "~~~".toList, "# no".toList, "~~~".toList,
            "# End".toList] ∧
      (∃ above old after, Divides "#1 of C#\u00a0naïve".toList numbered above old after 3 ∧
        lines above = ["# C#".toList, [], "### #1 of C#".toList,
          headingLine 3 "#1 of C#\u00a0naïve".toList] ∧
        ∀ body, replaceBody? numbered body "#1 of C#\u00a0naïve".toList =
          some (replaced (mark false (lines above)) body (mark false (lines after)))) ∧
      replaceBody? numbered "t".toList "#1 of C#\u00a0naïve".toList =
        some "# C#\n\n### #1 of C#\n### #1 of C#\u00a0naïve\n\nt\n\n# End\n".toList := by
  have hlines : lines numbered = ["# C#".toList, [], "### #1 of C#".toList] ++
      headingLine 3 "#1 of C#\u00a0naïve".toList ::
        ["old".toList, "#### low".toList, "~~~".toList, "# no".toList, "~~~".toList,
          "# End".toList] := by decide +kernel
  have hfound := (exists_replaced_headingLine_iff (by decide +kernel) (by decide) (by decide) hlines
    (by decide +kernel)).mpr (by decide +kernel)
  exact ⟨hlines, hfound, by decide +kernel⟩

/-- A heading with a title that ends with a number sign is not found. -/
theorem exists_headingLine_not_found : ¬∀ (readme body title : List Char) (level : Nat)
    (before rest : List (List Char)), title ≠ [] → trim title = title → '\n' ∉ title →
      1 ≤ level → level ≤ 6 → lines readme = before ++ headingLine level title :: rest →
      PassedOver title before → ∃ result, replaceBody? readme body title = some result := by
  intro h
  have hnone : replaceBody? "## C#\nold\n".toList "t".toList "C#".toList = none := by
    decide +kernel
  obtain ⟨result, hresult⟩ := h "## C#\nold\n".toList "t".toList "C#".toList 2 []
    ["old".toList] (by decide) (by decide +kernel) (by decide) (by decide) (by decide)
    (by decide +kernel) (by decide)
  rw [hnone] at hresult
  cases hresult

end ChartDocs.Readme
