import ChartDocs.Proofs.Tables.Lines
import Mathlib.Algebra.GroupWithZero.Nat
import Mathlib.Data.List.Forall2

/-!
# The cells of a row

A row is divided into cells by its bare bars, those that no backslash stands directly before. Cells
are escaped so that they hold none, and the bars that a row is built with stand after blanks. So
exactly these divide the row, and each cell comes out as it was put in, whatever the parameter
holds. The text of a section has one such row for each of its parameters that is not skipped, in the
order of its members.
-/

namespace ChartDocs.Tables

open Text

variable {escaped : Bool} {cell : List Char}

/-- The number of bars that no backslash stands directly before; `escaped` tells whether one stands
directly before the text. -/
def bareBars : (escaped : Bool) → List Char → Nat
  | _, [] => 0
  | escaped, c :: rest =>
    (if c = '|' ∧ escaped = false then 1 else 0) + bareBars (c = '\\') rest

/-- The parts of a text between its bare bars. -/
def cells : (escaped : Bool) → List Char → List (List Char)
  | _, [] => [[]]
  | escaped, c :: rest =>
    if c = '|' ∧ escaped = false then [] :: cells false rest
    else consFirst c (cells (c = '\\') rest)

/-- A character more in the first piece does not change the number of pieces. -/
theorem length_consFirst {pieces : List (List Char)} (h : pieces ≠ []) (c : Char) :
    (consFirst c pieces).length = pieces.length := by
  match pieces, h with
  | _ :: _, _ => rfl

/-- Each bare bar begins one more cell. -/
theorem length_cells (escaped : Bool) (text : List Char) :
    (cells escaped text).length = bareBars escaped text + 1 := by
  induction text generalizing escaped with
  | nil => rfl
  | cons c rest ih =>
    rw [cells, bareBars]
    split
    · next hbar =>
      obtain ⟨rfl, -⟩ := hbar
      have hstate : (decide ('|' = '\\')) = false := rfl
      rw [List.length_cons, ih, hstate]
      omega
    · have hne : cells (c = '\\') rest ≠ [] := fun hnil => by simpa [hnil] using ih (c = '\\')
      rw [length_consFirst hne, ih]
      omega

/-- A character that is no bar divides the counting of bars. -/
theorem bareBars_append_cons {c : Char} (hc : c ≠ '|') (escaped : Bool) (text rest : List Char) :
    bareBars escaped (text ++ c :: rest) = bareBars escaped text + bareBars (c = '\\') rest := by
  induction text generalizing escaped with
  | nil => simp [bareBars, hc]
  | cons d text ih => rw [List.cons_append, bareBars, bareBars, ih, Nat.add_assoc]

/-- A text without bars has no bare bars. -/
theorem bareBars_of_not_mem {text : List Char} (h : '|' ∉ text) (escaped : Bool) :
    bareBars escaped text = 0 := by
  induction text generalizing escaped with
  | nil => rfl
  | cons c rest ih =>
    obtain ⟨hc, hrest⟩ := not_or.mp (List.mem_cons.not.mp h)
    rw [bareBars, ih hrest, if_neg fun hbar => hc hbar.1.symm]

/-- Characters that are no bar and no backslash can be put around a text. -/
theorem bareBars_between {c : Char} (hbar : c ≠ '|') (hslash : c ≠ '\\') (text : List Char) :
    bareBars false (c :: (text ++ [c])) = bareBars false text := by
  rw [← List.cons_append, bareBars_append_cons hbar]
  simp [bareBars, hbar, hslash]

/-- A cell without bare bars is divided from the rest by a bar after a blank. -/
theorem cells_append_bar (h : bareBars escaped cell = 0) (rest : List Char) :
    cells escaped (cell ++ ' ' :: '|' :: rest) = (cell ++ [' ']) :: cells false rest := by
  induction cell generalizing escaped with
  | nil => simp [cells, consFirst]
  | cons c cell ih =>
    rw [bareBars, Nat.add_eq_zero_iff] at h
    obtain ⟨hbar, hcell⟩ := h
    have hc : ¬(c = '|' ∧ escaped = false) := fun hc => absurd hbar (by simp [hc])
    rw [List.cons_append, cells, if_neg hc, ih hcell]
    rfl

/-- Cells between blanks, each with a bar after it. -/
def closedCells : List (List Char) → List Char
  | [] => []
  | cell :: rest => ' ' :: (cell ++ ' ' :: '|' :: closedCells rest)

/-- The row of some cells. -/
def cellRow (contents : List (List Char)) : List Char :=
  '|' :: closedCells contents

/-- Closed cells have one bare bar each and those that they hold. -/
theorem bareBars_closedCells (contents : List (List Char)) :
    bareBars false (closedCells contents) =
      contents.length + (contents.map (bareBars false)).sum := by
  induction contents with
  | nil => rfl
  | cons cell rest ih =>
    have hcell : bareBars false (closedCells (cell :: rest)) =
        bareBars false cell + (1 + bareBars false (closedCells rest)) := by
      rw [closedCells, ← List.cons_append, bareBars_append_cons (by decide)]
      simp [bareBars]
    rw [hcell, ih, List.length_cons, List.map_cons, List.sum_cons]
    omega

/-- A row has a bare bar at its beginning, one after each cell, and those of its cells. -/
theorem bareBars_cellRow (contents : List (List Char)) :
    bareBars false (cellRow contents) =
      contents.length + 1 + (contents.map (bareBars false)).sum := by
  have hfirst : bareBars false (cellRow contents) =
      1 + bareBars false (closedCells contents) := by simp [cellRow, bareBars]
  rw [hfirst, bareBars_closedCells]
  omega

/-- A row without bare bars in its cells is divided into them. -/
theorem cells_cellRow {contents : List (List Char)}
    (h : ∀ cell ∈ contents, bareBars false cell = 0) :
    cells false (cellRow contents) =
      [] :: ((contents.map fun cell => ' ' :: (cell ++ [' '])) ++ [[]]) := by
  have hclosed : cells false (closedCells contents) =
      (contents.map fun cell => ' ' :: (cell ++ [' '])) ++ [[]] := by
    induction contents with
    | nil => rfl
    | cons cell rest ih =>
      obtain ⟨hcell, hrest⟩ := List.forall_mem_cons.mp h
      have hpadded : bareBars false (' ' :: cell) = 0 := by simpa [bareBars] using hcell
      rw [closedCells, ← List.cons_append, cells_append_bar hpadded, ih hrest, List.map_cons]
      rfl
  rw [← hclosed]
  rfl

/-- A row is on one line if and only if all its cells are. -/
theorem feed_mem_cellRow (contents : List (List Char)) :
    '\n' ∈ cellRow contents ↔ ∃ cell ∈ contents, '\n' ∈ cell := by
  have hclosed : '\n' ∈ closedCells contents ↔ ∃ cell ∈ contents, '\n' ∈ cell := by
    induction contents with
    | nil => simp [closedCells]
    | cons cell rest ih => simp [closedCells, ih]
  simp [cellRow, hclosed]

/-- A character of a text as a cell has it. -/
def escapedChar (c : Char) : List Char :=
  if c = '|' then ['\\', '|'] else if c = '\n' then [' '] else [c]

/-- A text is escaped character by character. -/
theorem escapeCell_eq_flatMap (text : List Char) : escapeCell text = text.flatMap escapedChar := by
  rw [escapeCell, replace, replace, List.flatMap_assoc]
  refine List.flatMap_congr fun c _ => ?_
  rw [escapedChar]
  split
  · rfl
  · rw [List.flatMap_singleton]

/-- The first character is escaped before the others. -/
theorem escapeCell_cons (c : Char) (text : List Char) :
    escapeCell (c :: text) = escapedChar c ++ escapeCell text := by
  rw [escapeCell_eq_flatMap, escapeCell_eq_flatMap, List.flatMap_cons]

/-- An escaped text has no bare bars, whatever stands before it. -/
theorem bareBars_escapeCell (escaped : Bool) (text : List Char) :
    bareBars escaped (escapeCell text) = 0 := by
  induction text generalizing escaped with
  | nil => rfl
  | cons c text ih =>
    rw [escapeCell_cons, escapedChar]
    split
    · simp [bareBars, ih]
    · next hbar => split <;> simp [bareBars, ih, hbar]

/-- The fence of a code span: longer than any run of backticks in the text. -/
def fence (text : List Char) : List Char :=
  List.replicate (longestRun '\x60' 0 text + 1) '\x60'

/-- Whether a text would touch a fence with a backtick. -/
def TouchesFence (text : List Char) : Prop :=
  text.head? = some '\x60' ∨ text.getLast? = some '\x60'

instance (text : List Char) : Decidable (TouchesFence text) :=
  inferInstanceAs (Decidable (text.head? = some '\x60' ∨ text.getLast? = some '\x60'))

/-- What a code span holds for a text: the content, set off by spaces if the text would touch the
fence. -/
def setOff (text content : List Char) : List Char :=
  if TouchesFence text then ' ' :: (content ++ [' ']) else content

/-- A code span is what it holds between two fences. -/
theorem codeCell_eq {text : List Char} (h : text ≠ []) :
    codeCell text = fence text ++ (setOff text (escapeCell text) ++ fence text) := by
  have htouches : (decide (text.head? = some '\x60') || decide (text.getLast? = some '\x60')) =
      decide (TouchesFence text) := by
    rw [← Bool.decide_or]
    rfl
  rw [codeCell, if_neg h, htouches, setOff]
  by_cases ht : TouchesFence text
  · simp [ht, fence]
  · simp [ht, fence]

/-- Fences bring no bare bars. -/
theorem bareBars_fenced (n : Nat) (content : List Char) :
    bareBars false (List.replicate n '\x60' ++ (content ++ List.replicate n '\x60')) =
      bareBars false content := by
  induction n with
  | zero => simp
  | succ n ih =>
    have houter : List.replicate (n + 1) '\x60' ++ (content ++ List.replicate (n + 1) '\x60') =
        '\x60' :: ((List.replicate n '\x60' ++ (content ++ List.replicate n '\x60')) ++
          ['\x60']) := by
      rw [List.append_assoc, List.append_assoc, ← List.replicate_succ', ← List.cons_append,
        ← List.replicate_succ]
    rw [houter, bareBars_between (by decide) (by decide), ih]

/-- A code span has no bare bars. -/
theorem bareBars_codeCell (text : List Char) : bareBars false (codeCell text) = 0 := by
  by_cases h : text = []
  · rw [h]; rfl
  rw [codeCell_eq h, fence, bareBars_fenced, setOff]
  split
  · rw [bareBars_between (by decide) (by decide), bareBars_escapeCell]
  · exact bareBars_escapeCell false text

/-- The row of a parameter is the row of its name, its description and its value. -/
theorem rowLine_eq (p : Parameter) :
    rowLine p =
      cellRow [codeCell p.name.toList, escapeCell p.description.toList, codeCell p.display] := by
  have hrow : rowLine p = ['|', ' '] ++ codeCell p.name.toList ++ [' ', '|', ' '] ++
      escapeCell p.description.toList ++ [' ', '|', ' '] ++ codeCell p.display ++ [' ', '|'] := rfl
  rw [hrow]
  simp only [cellRow, closedCells, List.append_assoc, List.cons_append, List.nil_append]

/-- The row of a parameter is divided into its cells. -/
theorem cells_rowLine (p : Parameter) :
    cells false (rowLine p) =
      [[], ' ' :: (codeCell p.name.toList ++ [' ']),
        ' ' :: (escapeCell p.description.toList ++ [' ']), ' ' :: (codeCell p.display ++ [' ']),
        []] := by
  have hcells : ∀ cell ∈ [codeCell p.name.toList, escapeCell p.description.toList,
      codeCell p.display], bareBars false cell = 0 := by
    simp [bareBars_codeCell, bareBars_escapeCell]
  rw [rowLine_eq, cells_cellRow hcells]
  rfl

/-- A line is the row of a parameter: exactly four bare bars divide it, into the name, the
description and the value of the parameter. -/
structure RowOf (p : Parameter) (line : List Char) : Prop where
  oneLine : '\n' ∉ line
  fourBars : bareBars false line = 4
  divided : cells false line =
    [[], ' ' :: (codeCell p.name.toList ++ [' ']),
      ' ' :: (escapeCell p.description.toList ++ [' ']), ' ' :: (codeCell p.display ++ [' ']),
      []]

/-- What a table has for a parameter is its row. -/
theorem rowOf_rowLine (p : Parameter) : RowOf p (rowLine p) := by
  have hlength := length_cells false (rowLine p)
  rw [cells_rowLine] at hlength
  exact ⟨feed_not_mem_rowLine p, (Nat.succ.inj hlength).symm, cells_rowLine p⟩

/-- Lines are the rows of a section: in the order of its members, one for each parameter that is
not skipped, and none for the others or for positions outside the catalog. -/
inductive RowsOf (parameters : List Parameter) : List Nat → List (List Char) → Prop where
  | nil : RowsOf parameters [] []
  | shown {i : Nat} {p : Parameter} {line : List Char} {members : List Nat}
      {lines : List (List Char)} (hp : parameters[i]? = some p) (hskip : p.skip = false)
      (hline : RowOf p line) (h : RowsOf parameters members lines) :
      RowsOf parameters (i :: members) (line :: lines)
  | passedOver {i : Nat} {members : List Nat} {lines : List (List Char)}
      (hskip : ∀ p, parameters[i]? = some p → p.skip = true) (h : RowsOf parameters members lines) :
      RowsOf parameters (i :: members) lines

/-- A section has rows if and only if it has a parameter that is not skipped. -/
theorem RowsOf.ne_nil_iff {parameters : List Parameter} {members : List Nat}
    {lines : List (List Char)} (h : RowsOf parameters members lines) :
    lines ≠ [] ↔ ∃ i ∈ members, ∃ p, parameters[i]? = some p ∧ p.skip = false := by
  induction h with
  | nil => simp
  | @shown i p line members lines hp hskip hline h ih =>
    exact iff_of_true (List.cons_ne_nil line lines) ⟨i, List.mem_cons_self, p, hp, hskip⟩
  | @passedOver i members lines hskip h ih =>
    rw [ih, List.exists_mem_cons_iff]
    refine (or_iff_right ?_).symm
    rintro ⟨p, hp, hshown⟩
    exact absurd (hskip p hp) (by simp [hshown])

/-- The table of a section has the rows of the section. -/
theorem rowsOf_rows (c : Catalog) (s : Section) :
    RowsOf c.parameters s.members ((c.rows s).map rowLine) := by
  rw [Catalog.rows, Catalog.members]
  induction s.members with
  | nil => exact .nil
  | cons i members ih =>
    cases hp : c.parameters[i]? with
    | none =>
      rw [List.filterMap_cons_none hp]
      exact .passedOver (by simp [hp]) ih
    | some p =>
      rw [List.filterMap_cons_some hp]
      cases hskip : p.skip with
      | true =>
        rw [List.filter_cons_of_neg (by simp [hskip])]
        exact .passedOver (by simp [hp, hskip]) ih
      | false =>
        rw [List.filter_cons_of_pos (by simp [hskip])]
        exact .shown hp hskip (rowOf_rowLine p) ih

/-- A text is that of a section with its rows: the line of its title, an empty one, the lines of its
description with an empty one after them, and, if it has a parameter that is not skipped, two header
lines and the rows. -/
structure SectionText (parameters : List Parameter) (s : Section) (rows : List (List Char))
    (text : List Char) : Prop where
  ofMembers : RowsOf parameters s.members rows
  shown : rows ≠ [] ↔ ∃ i ∈ s.members, ∃ p, parameters[i]? = some p ∧ p.skip = false
  lines : text = unlines (titleLine s :: [] :: (descriptionLines s ++
    ((if s.description = [] then [] else [[]]) ++ if rows = [] then [] else headerLines ++ rows)))

/-- The tables of a catalog are the texts of its sections with an empty line between them, and each
of these texts has exactly the rows of its section. -/
theorem tables_rows (c : Catalog) :
    ∃ texts : List (List Char), c.tables = join ['\n'] texts ∧
      List.Forall₂ (fun s text => ∃ rows, SectionText c.parameters s rows text)
        c.sections texts := by
  refine ⟨c.sections.map fun s => heading s ++ table (c.rows s), rfl, ?_⟩
  rw [List.forall₂_map_right_iff, List.forall₂_same]
  intro s _
  refine ⟨(c.rows s).map rowLine, rowsOf_rows c s, (rowsOf_rows c s).ne_nil_iff, ?_⟩
  rw [← unlines_sectionLines, sectionLines, closingLines]
  simp only [List.map_eq_nil_iff]

/-- A section that shows its parameters out of their order and repeats a position, with a parameter
that is skipped and a position outside the catalog, and one that shows nothing. -/
def crowded : Catalog where
  sections := [
    { name := "Common", description := ["All | of them"], members := [1, 2, 9, 0, 1] },
    { name := "Hidden", members := [2] }]
  parameters := [
    { name := "a|b", description := "c\n|", value := some (.string "\\|") },
    { name := "\x60", description := "\\" },
    { name := "hidden", skip := true }]

/-- The first section has rows under its description, the second none. -/
theorem tables_rows_crowded : ∃ rows : List (List Char),
    RowsOf crowded.parameters [1, 2, 9, 0, 1] rows ∧ rows ≠ [] ∧
      crowded.tables = join ['\n']
        [unlines ("### Common".toList :: [] :: "All | of them".toList :: [] ::
          (headerLines ++ rows)), "### Hidden\n\n".toList] := by
  obtain ⟨texts, htables, hsections⟩ := tables_rows crowded
  obtain ⟨first, others, ⟨rows, hcommon⟩, hothers, rfl⟩ := List.forall₂_cons_left_iff.mp hsections
  obtain ⟨second, none, ⟨noRows, hhidden⟩, hend, rfl⟩ := List.forall₂_cons_left_iff.mp hothers
  obtain rfl := List.forall₂_nil_left_iff.mp hend
  have hne : rows ≠ [] := hcommon.shown.mpr ⟨1, by decide, _, rfl, rfl⟩
  have hnone : noRows = [] := by
    by_contra hsome
    obtain ⟨i, hi, p, hp, hskip⟩ := hhidden.shown.mp hsome
    obtain rfl := List.mem_singleton.mp hi
    obtain rfl := Option.some.inj hp
    exact absurd hskip (by decide)
  have hfirst : first = unlines ("### Common".toList :: [] :: "All | of them".toList :: [] ::
      (headerLines ++ rows)) := by
    rw [hcommon.lines, if_neg hne]
    rfl
  have hsecond : second = "### Hidden\n\n".toList := by
    rw [hhidden.lines, hnone]
    rfl
  exact ⟨rows, hcommon.ofMembers, hne, by rw [htables, hfirst, hsecond]⟩

/-- Bars and line feeds in a parameter do not show in the shape of its row. -/
example : crowded.tables =
    ("### Common\n\nAll | of them\n\n" ++
      "| Name | Description | Value |\n| ---- | ----------- | ----- |\n" ++
      "| \x60\x60 \x60 \x60\x60 | \\ |  |\n" ++
      "| \x60a\\|b\x60 | c \\| | \x60\"\\\\|\"\x60 |\n" ++
      "| \x60\x60 \x60 \x60\x60 | \\ |  |\n" ++
      "\n### Hidden\n\n").toList := by
  decide +kernel

end ChartDocs.Tables
