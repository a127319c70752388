import ChartDocs.Proofs.Text.Pieces
import ChartDocs.Tables
import Mathlib.Data.List.Basic

/-!
# The lines of tables

The tables of a catalog are made of lines: the title of each section, its description as it is
written, and the rows of its parameters. Whatever a parameter holds, its row is one line that
starts with a bar, because cells are escaped.
-/

namespace ChartDocs

open Text

/-- The name of a section is on one line, and so is each line of its description, with no blanks at
its end. -/
structure Section.Tidy (s : Section) : Prop where
  name : '\n' ∉ s.name.toList
  description : ∀ line ∈ s.description, '\n' ∉ line.toList ∧ trimEnd line.toList = line.toList

instance (s : Section) : Decidable s.Tidy :=
  decidable_of_iff ('\n' ∉ s.name.toList ∧
      ∀ line ∈ s.description, '\n' ∉ line.toList ∧ trimEnd line.toList = line.toList)
    ⟨fun ⟨hname, hdescription⟩ => ⟨hname, hdescription⟩,
      fun ⟨hname, hdescription⟩ => ⟨hname, hdescription⟩⟩

namespace Tables

/-- The row of a parameter without its line end. -/
def rowLine (p : Parameter) : List Char :=
  "| ".toList ++ codeCell p.name.toList ++ " | ".toList ++ escapeCell p.description.toList ++
    " | ".toList ++ codeCell p.display ++ " |".toList

/-- The two lines above the rows of a table. -/
def headerLines : List (List Char) :=
  ["| Name | Description | Value |".toList, "| ---- | ----------- | ----- |".toList]

/-- The line with the name of a section. -/
def titleLine (s : Section) : List Char :=
  "### ".toList ++ s.name.toList

/-- The lines of the description of a section. -/
def descriptionLines (s : Section) : List (List Char) :=
  s.description.map String.toList

/-- The lines after the description of a section: an empty one if there is a description, and the
table. -/
def closingLines (s : Section) (rows : List Parameter) : List (List Char) :=
  (if s.description = [] then [] else [[]]) ++
    if rows = [] then [] else headerLines ++ rows.map rowLine

/-- The lines of a section with the rows of some parameters. -/
def sectionLines (s : Section) (rows : List Parameter) : List (List Char) :=
  titleLine s :: [] :: (descriptionLines s ++ closingLines s rows)

/-- The row of a parameter is a line with its end. -/
theorem row_eq (p : Parameter) : row p = ended (rowLine p) := by
  have hend : " |\n".toList = " |".toList ++ ['\n'] := rfl
  exact (congrArg (_ ++ ·) hend).trans (List.append_assoc _ _ _).symm

/-- The header of a table is two lines with their ends. -/
theorem header_eq : header = unlines headerLines := by
  decide

/-- A table that is not empty is its header lines and the rows of its parameters. -/
theorem table_eq {rows : List Parameter} (h : rows ≠ []) :
    table rows = unlines (headerLines ++ rows.map rowLine) := by
  have hrows : rows.flatMap row = unlines (rows.map rowLine) := by
    rw [unlines, List.flatMap_map]
    exact List.flatMap_congr fun p _ => row_eq p
  rw [table, if_neg h, unlines_append, hrows, header_eq]

/-- The heading of a section is its title, an empty line and the lines of its description, with an
empty line after them if there are any. -/
theorem heading_eq (s : Section) :
    heading s = titleLine s ++ '\n' :: '\n' :: (unlines (descriptionLines s) ++
      unlines (if s.description = [] then [] else [[]])) := by
  have hdescription : unlines (descriptionLines s) ++
      unlines (if s.description = [] then [] else [[]]) =
      if s.description = [] then []
      else join ['\n'] (s.description.map String.toList) ++ "\n\n".toList := by
    split
    · next h => rw [descriptionLines, h]; rfl
    · next h =>
      rw [descriptionLines, ← join_append_feed (by simpa using h), List.append_assoc]
      rfl
  rw [hdescription]
  exact List.append_assoc (titleLine s) "\n\n".toList _

/-- The lines of a section are its heading and its table. -/
theorem unlines_sectionLines (s : Section) (rows : List Parameter) :
    unlines (sectionLines s rows) = heading s ++ table rows := by
  have hrows : unlines (if rows = [] then [] else headerLines ++ rows.map rowLine) =
      table rows := by
    split
    · next h => rw [h]; rfl
    · next h => exact (table_eq h).symm
  rw [sectionLines, unlines_cons, unlines_cons, unlines_append, closingLines, unlines_append,
    hrows, heading_eq, List.append_assoc, List.cons_append, List.cons_append, List.nil_append,
    List.append_assoc]

/-- A line after a description is empty, a header line or a row. -/
theorem mem_closingLines {s : Section} {rows : List Parameter} {line : List Char}
    (h : line ∈ closingLines s rows) : line = [] ∨ line ∈ headerLines ∨ ∃ p, line = rowLine p := by
  rcases List.mem_append.mp h with hempty | htable
  · split at hempty
    · exact absurd hempty List.not_mem_nil
    · exact Or.inl (List.mem_singleton.mp hempty)
  · split at htable
    · exact absurd htable List.not_mem_nil
    · rcases List.mem_append.mp htable with hheader | hrow
      · exact Or.inr (Or.inl hheader)
      · obtain ⟨p, -, rfl⟩ := List.mem_map.mp hrow
        exact Or.inr (Or.inr ⟨p, rfl⟩)

/-- A text in which line feeds have been replaced has none. -/
theorem feed_not_mem_replace {text : List Char} (new : List Char) (h : '\n' ∉ new) :
    '\n' ∉ replace '\n' new text := by
  rw [replace, List.mem_flatMap]
  rintro ⟨c, -, hc⟩
  split at hc
  · exact h hc
  · next hne => exact hne (List.mem_singleton.mp hc).symm

/-- An escaped text is on one line. -/
theorem feed_not_mem_escapeCell (text : List Char) : '\n' ∉ escapeCell text :=
  feed_not_mem_replace _ (by decide)

/-- A code span is on one line. -/
theorem feed_not_mem_codeCell (text : List Char) : '\n' ∉ codeCell text := by
  have hfence (n : Nat) : '\n' ∉ List.replicate n '\x60' :=
    fun h => absurd (List.eq_of_mem_replicate h) (by decide)
  rw [codeCell]
  split
  · exact List.not_mem_nil
  · dsimp only
    split <;> simp [hfence, feed_not_mem_escapeCell]

/-- A row is one line, whatever its parameter holds. -/
theorem feed_not_mem_rowLine (p : Parameter) : '\n' ∉ rowLine p := by
  have hname := List.not_mem_append (by decide : '\n' ∉ "| ".toList)
    (feed_not_mem_codeCell p.name.toList)
  have hbetween : '\n' ∉ " | ".toList := by decide
  have hdescription := List.not_mem_append (List.not_mem_append hname hbetween)
    (feed_not_mem_escapeCell p.description.toList)
  have hvalue := List.not_mem_append (List.not_mem_append hdescription hbetween)
    (feed_not_mem_codeCell p.display)
  exact List.not_mem_append hvalue (by decide)

/-- The title of a section is on one line if its name is. -/
theorem feed_not_mem_titleLine {s : Section} (h : '\n' ∉ s.name.toList) :
    '\n' ∉ titleLine s :=
  List.not_mem_append (by decide) h

/-- Every line after a description is one line. -/
theorem feed_not_mem_closingLines {s : Section} {rows : List Parameter} {line : List Char}
    (h : line ∈ closingLines s rows) : '\n' ∉ line := by
  have hheader : ∀ line ∈ headerLines, '\n' ∉ line := by decide
  rcases mem_closingLines h with rfl | hline | ⟨p, rfl⟩
  · exact List.not_mem_nil
  · exact hheader line hline
  · exact feed_not_mem_rowLine p

end Tables

namespace Catalog

open Tables

/-- The lines of the tables of all sections. -/
def tableLines (c : Catalog) : List (List Char) :=
  [[]].intercalate (c.sections.map fun s => sectionLines s (c.rows s))

/-- Groups of lines with an empty line between them make the texts with a line feed between them. -/
theorem join_map_unlines (groups : List (List (List Char))) :
    join ['\n'] (groups.map unlines) = unlines ([[]].intercalate groups) := by
  induction groups with
  | nil => rfl
  | cons group rest ih =>
    cases rest with
    | nil => rw [List.intercalate_singleton]; rfl
    | cons next rest =>
      have hjoin : join ['\n'] ((group :: next :: rest).map unlines) =
          unlines group ++ ['\n'] ++ join ['\n'] ((next :: rest).map unlines) := rfl
      rw [hjoin, ih, List.intercalate_cons_cons, unlines_append, unlines_append]
      rfl

/-- The tables of a catalog are their lines. -/
theorem tables_eq (c : Catalog) : c.tables = unlines c.tableLines := by
  rw [tableLines, ← join_map_unlines, List.map_map, tables]
  exact congrArg _ (List.map_congr_left fun s _ => (unlines_sectionLines s (c.rows s)).symm)

/-- A line of groups with empty lines between them is empty or in one of the groups. -/
theorem exists_of_mem_intercalate {groups : List (List (List Char))} {line : List Char}
    (h : line ∈ [[]].intercalate groups) : line = [] ∨ ∃ group ∈ groups, line ∈ group := by
  induction groups with
  | nil => exact absurd h List.not_mem_nil
  | cons group rest ih =>
    cases rest with
    | nil =>
      rw [List.intercalate_singleton] at h
      exact Or.inr ⟨group, List.mem_cons_self, h⟩
    | cons next rest =>
      rw [List.intercalate_cons_cons, List.mem_append, List.mem_append] at h
      rcases h with (h | h) | h
      · exact Or.inr ⟨group, List.mem_cons_self, h⟩
      · exact Or.inl (List.mem_singleton.mp h)
      · rcases ih h with hempty | ⟨other, hother, hline⟩
        · exact Or.inl hempty
        · exact Or.inr ⟨other, List.mem_cons_of_mem group hother, hline⟩

/-- The empty lines between groups do not count for a test that they fail. -/
theorem filter_intercalate {test : List Char → Bool} (h : test [] = false)
    (groups : List (List (List Char))) :
    ([[]].intercalate groups).filter test = groups.flatMap (·.filter test) := by
  induction groups with
  | nil => rfl
  | cons group rest ih =>
    cases rest with
    | nil => rw [List.intercalate_singleton, List.flatMap_singleton]
    | cons next rest =>
      rw [List.intercalate_cons_cons, List.filter_append, List.filter_append, ih,
        List.flatMap_cons (x := group), List.filter_cons_of_neg (by simp [h]), List.filter_nil,
        List.append_nil]

/-- The lines of all descriptions. -/
def describedLines (c : Catalog) : List (List Char) :=
  c.sections.flatMap descriptionLines

/-- A catalog of tidy sections. -/
def Tidy (c : Catalog) : Prop :=
  ∀ s ∈ c.sections, s.Tidy

instance (c : Catalog) : Decidable c.Tidy :=
  inferInstanceAs (Decidable (∀ s ∈ c.sections, s.Tidy))

/-- In a tidy catalog each line of a description is one line without blanks at its end. -/
theorem Tidy.of_mem_describedLines {c : Catalog} (h : c.Tidy) {line : List Char}
    (hline : line ∈ c.describedLines) : '\n' ∉ line ∧ trimEnd line = line := by
  obtain ⟨s, hs, hmem⟩ := List.mem_flatMap.mp hline
  obtain ⟨text, htext, rfl⟩ := List.mem_map.mp hmem
  exact (h s hs).description text htext

end Catalog

end ChartDocs
