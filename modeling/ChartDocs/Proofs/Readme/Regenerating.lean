import ChartDocs.Proofs.Readme.Replacing
import ChartDocs.Proofs.Tables.Lines

/-!
# Writing tables into a README again

Only code fences and headings of at most the level of the replaced heading matter for a body. Rows
are neither, and titles of sections are headings of level three. So tables are stable below headings
of level one and two as far as the descriptions of their sections are, and below deeper headings
only if there are no sections.
-/

namespace ChartDocs

open Text

namespace Readme

variable {level : Nat} {line : List Char}

/-- A line that begins with number signs is no fence. -/
theorem isFence_hashes (rest : List Char) : isFence ('#' :: '#' :: '#' :: rest) = false := rfl

/-- A line that starts with three number signs is no heading of a higher rank. -/
theorem three_le_of_headingLevel?_hashes {rest : List Char}
    (h : headingLevel? ('#' :: '#' :: '#' :: rest) = some level) : 3 ≤ level := by
  rw [headingLevel?] at h
  split at h
  · obtain rfl := Option.some.inj h
    simp
  · exact absurd h (by simp)

/-- Three number signs and a space, or nothing, make a heading of level three. -/
theorem headingLevel?_hashes {rest : List Char} (h : rest.head?.all (· = ' ')) :
    headingLevel? ('#' :: '#' :: '#' :: rest) = some 3 := by
  cases rest with
  | nil => rfl
  | cons c rest =>
    obtain rfl : c = ' ' := by simpa using h
    rfl

/-- Lines of tables that belong to no description, also when they are trimmed. -/
inductive Quiet : List Char → Prop where
  | empty : Quiet []
  | row (rest : List Char) : Quiet ('|' :: rest)
  | title (rest : List Char) : Quiet ('#' :: '#' :: '#' :: rest)

/-- A quiet line is quiet without the blanks at its end. -/
theorem Quiet.trimEnd (h : Quiet line) : Quiet (trimEnd line) := by
  cases h with
  | empty => exact .empty
  | row rest =>
    rw [← List.singleton_append, trimEnd_append (by decide)]
    exact .row _
  | title rest =>
    have hline : '#' :: '#' :: '#' :: rest = ['#', '#', '#'] ++ rest := rfl
    rw [hline, trimEnd_append (by decide)]
    exact .title _

/-- A quiet line is quiet without a carriage return at its end. -/
theorem Quiet.dropReturn (h : Quiet line) : Quiet (dropReturn line) := by
  cases h with
  | empty => exact .empty
  | row rest =>
    rw [← List.singleton_append, dropReturn_append (by decide)]
    exact .row _
  | title rest =>
    have hline : '#' :: '#' :: '#' :: rest = ['#', '#', '#'] ++ rest := rfl
    rw [hline, dropReturn_append (by decide)]
    exact .title _

/-- Titles of sections end no body of a heading of level one or two, and neither do rows. -/
theorem Quiet.disturbs_eq_false (h : Quiet line) (hlevel : level ≤ 2) :
    disturbs level line = false := by
  cases h with
  | empty => rfl
  | row rest => rfl
  | title rest =>
    rw [disturbs, isFence_hashes, Bool.false_or, Option.any_eq_false]
    intro other hother
    have hthree := three_le_of_headingLevel?_hashes hother
    exact decide_eq_false (by omega)

end Readme

namespace Tables

open Readme

/-- The title of a section is quiet. -/
theorem quiet_titleLine (s : Section) : Quiet (titleLine s) :=
  .title (' ' :: s.name.toList)

/-- The row of a parameter is quiet. -/
theorem quiet_rowLine (p : Parameter) : Quiet (rowLine p) :=
  .row _

/-- The lines above the rows are quiet. -/
theorem quiet_of_mem_headerLines {line : List Char} (h : line ∈ headerLines) : Quiet line := by
  rcases List.mem_pair.mp h with rfl | rfl
  · exact .row _
  · exact .row _

/-- The lines after a description are quiet. -/
theorem quiet_of_mem_closingLines {s : Section} {rows : List Parameter} {line : List Char}
    (h : line ∈ closingLines s rows) : Quiet line := by
  rcases mem_closingLines h with rfl | hline | ⟨p, rfl⟩
  · exact .empty
  · exact quiet_of_mem_headerLines hline
  · exact quiet_rowLine p

/-- Of the lines of a section only those of its description matter below a heading of level one or
two. -/
theorem filter_sectionLines {level : Nat} (hlevel : level ≤ 2) (s : Section)
    (rows : List Parameter) :
    (sectionLines s rows).filter (disturbs level) =
      (descriptionLines s).filter (disturbs level) := by
  have htitle := (quiet_titleLine s).disturbs_eq_false hlevel
  have hempty := Quiet.empty.disturbs_eq_false hlevel
  have hclosing : (closingLines s rows).filter (disturbs level) = [] := by
    refine List.filter_eq_nil_iff.mpr fun line hline => ?_
    rw [(quiet_of_mem_closingLines hline).disturbs_eq_false hlevel]
    decide
  rw [sectionLines, List.filter_cons_of_neg (by simp [htitle]),
    List.filter_cons_of_neg (by simp [hempty]), List.filter_append, hclosing, List.append_nil]

end Tables

namespace Catalog

open Readme Tables

/-- A line of the tables is quiet or belongs to a description; in a tidy catalog it really is one
line. -/
theorem mem_tableLines {c : Catalog} {line : List Char} (h : line ∈ c.tableLines) :
    (Quiet line ∧ (c.Tidy → '\n' ∉ line)) ∨ line ∈ c.describedLines := by
  rcases exists_of_mem_intercalate h with rfl | ⟨group, hgroup, hline⟩
  · exact Or.inl ⟨.empty, fun _ => List.not_mem_nil⟩
  · obtain ⟨s, hs, rfl⟩ := List.mem_map.mp hgroup
    rw [sectionLines, List.mem_cons, List.mem_cons, List.mem_append] at hline
    rcases hline with rfl | rfl | hline | hline
    · exact Or.inl ⟨quiet_titleLine s, fun htidy => feed_not_mem_titleLine (htidy s hs).name⟩
    · exact Or.inl ⟨.empty, fun _ => List.not_mem_nil⟩
    · exact Or.inr (List.mem_flatMap.mpr ⟨s, hs, hline⟩)
    · exact Or.inl ⟨quiet_of_mem_closingLines hline, fun _ => feed_not_mem_closingLines hline⟩

/-- The lines of tidy tables hold no line feeds. -/
theorem feed_not_mem_tableLines {c : Catalog} (h : c.Tidy) {line : List Char}
    (hline : line ∈ c.tableLines) : '\n' ∉ line := by
  rcases mem_tableLines hline with ⟨-, hfeed⟩ | hdescribed
  · exact hfeed h
  · exact (h.of_mem_describedLines hdescribed).1

/-- Only lines of descriptions can disturb a heading of the first two levels. -/
theorem filter_tableLines {level : Nat} (hlevel : level ≤ 2) (c : Catalog) :
    c.tableLines.filter (disturbs level) = c.describedLines.filter (disturbs level) := by
  rw [tableLines, filter_intercalate rfl, describedLines, List.filter_flatMap, List.flatMap_map]
  exact List.flatMap_congr fun s _ => filter_sectionLines hlevel s (c.rows s)

/-- Trimming takes away nothing that matters below a heading of level one or two. -/
theorem filter_lines_tables {level : Nat} (hlevel : level ≤ 2) {c : Catalog} (h : c.Tidy) :
    (lines (trimEnd c.tables ++ ['\n'])).filter (disturbs level) =
      c.describedLines.filter (disturbs level) := by
  rw [tables_eq, filter_lines_trimEnd_unlines rfl (fun _ => feed_not_mem_tableLines h) ?_ ?_,
    filter_tableLines hlevel]
  · intro line hline
    rcases mem_tableLines hline with ⟨hquiet, -⟩ | hdescribed
    · simp [hquiet.disturbs_eq_false hlevel, hquiet.trimEnd.disturbs_eq_false hlevel]
    · rw [(h.of_mem_describedLines hdescribed).2]
  · intro line hline
    rcases mem_tableLines hline with ⟨hquiet, -⟩ | hdescribed
    · simp [hquiet.disturbs_eq_false hlevel, hquiet.dropReturn.disturbs_eq_false hlevel]
    · have hsame := dropReturn_trimEnd line
      rw [(h.of_mem_describedLines hdescribed).2] at hsame
      rw [hsame]

/-- Tables begin with the title of the first section. -/
theorem exists_tableLines {c : Catalog} {s : Section} {rest : List Section}
    (h : c.sections = s :: rest) : ∃ others, c.tableLines = titleLine s :: others := by
  rw [tableLines, h, List.map_cons]
  cases rest with
  | nil => exact ⟨_, List.intercalate_singleton⟩
  | cons next rest => exact ⟨_, List.intercalate_cons_cons⟩

/-- Tidy tables begin with a heading of level three. -/
theorem exists_lines_tables {c : Catalog} (h : c.Tidy) (hsections : c.sections ≠ []) :
    ∃ first rest, lines (trimEnd c.tables ++ ['\n']) = first :: rest ∧
      isFence first = false ∧ headingLevel? first = some 3 := by
  obtain ⟨s, others, hcons⟩ := List.exists_cons_of_ne_nil hsections
  obtain ⟨more, hlines⟩ := exists_tableLines hcons
  have hline : '\n' ∉ titleLine s :=
    feed_not_mem_titleLine (h s (hcons ▸ List.mem_cons_self)).name
  -- Blanks at the end and a carriage return are taken from the name, so the number signs remain.
  have htitle : titleLine s = ['#', '#', '#'] ++ ' ' :: s.name.toList := rfl
  have hheading {name : List Char} (hname : name <+: ' ' :: s.name.toList) :
      headingLevel? (['#', '#', '#'] ++ name) = some 3 := by
    refine headingLevel?_hashes ?_
    cases name with
    | nil => rfl
    | cons c name =>
      obtain ⟨rfl, -⟩ := List.cons_prefix_cons.mp hname
      rfl
  rw [tables_eq, hlines]
  obtain ⟨first, rest, hfirst, rfl | rfl⟩ := exists_lines_trimEnd_unlines hline more
  · refine ⟨_, rest, hfirst, ?_⟩
    rw [htitle, trimEnd_append (by decide)]
    exact ⟨rfl, hheading (trimEnd_prefix_self _)⟩
  · refine ⟨_, rest, hfirst, ?_⟩
    rw [htitle, dropReturn_append (by decide)]
    exact ⟨rfl, hheading (dropReturn_prefix_self _)⟩

/-- Only under a heading of the first two levels can tables be held. -/
theorem level_le_two_of_holds_tables {level : Nat} {last : Prop} {c : Catalog} (h : c.Tidy)
    (hsections : c.sections ≠ [])
    (hholds : Holds level last (lines (trimEnd c.tables ++ ['\n']))) : level ≤ 2 := by
  obtain ⟨first, rest, hlines, hfence, hheading⟩ := exists_lines_tables h hsections
  have hmarked : (some 3, first) ∈ mark false (first :: rest) := by
    rw [mark, if_neg (by simp [hfence]), hheading]
    exact List.mem_cons_self
  have hlt := hholds.lower _ (hlines ▸ hmarked) 3 rfl
  exact Nat.le_of_lt_succ hlt

/-- A body can hold the tables of a tidy catalog exactly if there are no sections, or if the heading
has level one or two and the body can hold the descriptions. -/
theorem holds_tables_iff {level : Nat} {last : Prop} {c : Catalog} (h : c.Tidy) :
    Holds level last (lines (trimEnd c.tables ++ ['\n'])) ↔
      c.sections = [] ∨ level ≤ 2 ∧ Holds level last c.describedLines := by
  have hdescribed (hlevel : level ≤ 2) : Holds level last (lines (trimEnd c.tables ++ ['\n'])) ↔
      Holds level last c.describedLines := by
    rw [← holds_filter_iff, filter_lines_tables hlevel h, holds_filter_iff]
  constructor
  · intro hholds
    by_cases hsections : c.sections = []
    · exact Or.inl hsections
    · have hlevel := level_le_two_of_holds_tables h hsections hholds
      exact Or.inr ⟨hlevel, (hdescribed hlevel).mp hholds⟩
  · rintro (hsections | ⟨hlevel, hholds⟩)
    · have htables : c.tables = [] := by rw [tables, hsections]; rfl
      have hmark : mark false [[]] = [(none, [])] := rfl
      rw [htables, trimEnd_nil, List.nil_append, lines_feed]
      exact ⟨by simp [hmark], Or.inr rfl⟩
    · exact (hdescribed hlevel).mpr hholds

end Catalog

namespace Readme

/-- Writing the tables of a catalog into a README again succeeds, and changes nothing exactly if the
body can hold their lines: the tables have no heading outside blocks of code that ends the body, and
leave no block of code open unless the body is last. For tidy catalogs this depends on the level of
the heading and on the descriptions alone. -/
theorem regenerating_unchanged_iff (c : Catalog) {readme title result : List Char}
    (hreturn : '\r' ∉ readme) (h : replaceBody? readme c.tables title = some result) :
    ∃ above level below again,
      cutBelow? title (mark false (lines readme)) = some (above, level, below) ∧
      replaceBody? result c.tables title = some again ∧
      (again = result ↔
        Holds level (dropBody level below = []) (lines (trimEnd c.tables ++ ['\n']))) ∧
      (c.Tidy → (again = result ↔ c.sections = [] ∨
        level ≤ 2 ∧ Holds level (dropBody level below = []) c.describedLines)) := by
  obtain ⟨above, level, below, hcut⟩ := exists_cut_of_replaceBody? h
  obtain ⟨again, hagain, hsame⟩ := exists_replaceBody?_again hreturn hcut h
  exact ⟨above, level, below, again, hcut, hagain, hsame,
    fun htidy => hsame.trans (Catalog.holds_tables_iff htidy)⟩

/-- A section with a block of code and a smaller heading in its description. -/
def commented : Catalog where
  sections := [{
    name := "Image"
    description := ["#### Pulling", "~~~", "# no heading", "~~~"] }]

/-- A README with a section after the one for the tables. -/
def chartReadme : List Char :=
  "# Chart\n\n## Parameters\nold\n\n## License\n".toList

/-- Writing the tables of a section with a block of code again changes nothing. -/
theorem regenerating_commented : ∃ result,
    replaceBody? chartReadme commented.tables "Parameters".toList = some result ∧
      replaceBody? result commented.tables "Parameters".toList = some result := by
  cases hresult : replaceBody? chartReadme commented.tables "Parameters".toList with
  | none => exact absurd hresult (by decide +kernel)
  | some result =>
    obtain ⟨above, level, below, again, hcut, hagain, -, htidy⟩ :=
      regenerating_unchanged_iff commented (by decide) hresult
    have hlevel : (cutBelow? "Parameters".toList (mark false (lines chartReadme))).map (·.2.1) =
        some 2 := by decide +kernel
    rw [hcut] at hlevel
    obtain rfl : level = 2 := Option.some.inj hlevel
    have hdescribed : Holds 2 False commented.describedLines := by decide +kernel
    have hsame := (htidy (by decide +kernel)).mpr
      (Or.inr ⟨Nat.le_refl 2, hdescribed.lower, Or.inr (hdescribed.closed.resolve_left id)⟩)
    exact ⟨result, rfl, hsame ▸ hagain⟩

/-- A catalog with a section of which only the name is known. -/
def named : Catalog where
  sections := [{ name := "Image" }]

/-- Below a heading of level three, tables pile up. -/
theorem exists_regenerating_changed : ¬∀ (c : Catalog) (readme title result : List Char),
    '\r' ∉ readme → replaceBody? readme c.tables title = some result →
      replaceBody? result c.tables title = some result := by
  intro h
  have hfirst : replaceBody? "### Parameters\n".toList named.tables "Parameters".toList =
      some "### Parameters\n\n### Image\n".toList := by decide +kernel
  have hsecond := h named _ _ _ (by decide) hfirst
  exact absurd hsecond (by decide +kernel)

end Readme

end ChartDocs
