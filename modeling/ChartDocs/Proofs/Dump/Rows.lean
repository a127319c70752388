import ChartDocs.Dump.Format
import ChartDocs.Proofs.Tables.Cells

/-!
# The rows of dumps

Observed parameters are dumped one row each, in Markdown below two header lines and in a plain table
without a header. Names and values stand in these rows as they are. So a row is on one line if and
only if they are, and a row in Markdown has its four bare bars and those of its name and value.
-/

namespace ChartDocs.Dump

open Text Tables

/-- A text of header lines and a number of rows, each of them one line that meets a condition. -/
def HasRows (meets : List Char → Prop) (count : Nat) (header : List (List Char))
    (text : List Char) : Prop :=
  ∃ rows : List (List Char), rows.length = count ∧ text = unlines (header ++ rows) ∧
    ∀ row ∈ rows, '\n' ∉ row ∧ meets row

/-- Lines that are put under each other have one line feed each and those that they hold. -/
theorem count_feed_unlines (ls : List (List Char)) :
    (unlines ls).count '\n' = ls.length + ls.flatten.count '\n' := by
  induction ls with
  | nil => rfl
  | cons line ls ih =>
    rw [unlines_cons, List.count_append, List.count_cons_self, ih, List.length_cons,
      List.flatten_cons, List.count_append]
    omega

/-- There are as many line feeds as lines if and only if no line has one inside. -/
theorem count_feed_unlines_eq_length_iff {ls : List (List Char)} :
    (unlines ls).count '\n' = ls.length ↔ ∀ line ∈ ls, '\n' ∉ line := by
  rw [count_feed_unlines, Nat.add_eq_left, List.count_eq_zero, List.mem_flatten]
  simp only [not_exists, not_and]

/-- A text that was made of lines has the wanted rows if and only if each of them is one. -/
theorem hasRows_iff {meets : List Char → Prop} {header ls : List (List Char)} :
    HasRows meets ls.length header (unlines (header ++ ls)) ↔
      ∀ line ∈ ls, '\n' ∉ line ∧ meets line := by
  constructor
  · rintro ⟨rows, hlength, htext, hrows⟩
    have hsame : unlines ls = unlines rows := by
      rw [unlines_append, unlines_append] at htext
      exact List.append_cancel_left htext
    have hfeed : ∀ row ∈ rows, '\n' ∉ row := fun row hrow => (hrows row hrow).1
    have hcount : (unlines ls).count '\n' = ls.length := by
      rw [hsame, ← hlength]
      exact count_feed_unlines_eq_length_iff.mpr hfeed
    -- Without line feeds inside, both lists are the pieces of the same text.
    have hpieces := splitAt_unlines (count_feed_unlines_eq_length_iff.mp hcount)
    rw [hsame, splitAt_unlines hfeed] at hpieces
    rwa [← List.append_cancel_right hpieces]
  · intro h
    exact ⟨ls, rfl, rfl, h⟩

/-- The two lines above the rows of observed parameters. -/
def valueHeader : List (List Char) :=
  ["| Name | Type | Value |".toList, "|------|------|-------|".toList]

/-- The row of an observed parameter in Markdown without its line end. -/
def valueLine (p : Parameter) : List Char :=
  cellRow ['\x60' :: (p.name.toList ++ ['\x60']), (p.kind.elim "" Kind.name).toList,
    '\x60' :: (p.display ++ ['\x60'])]

/-- The row of an observed parameter is a line with its end. -/
theorem valueRow_eq (p : Parameter) : valueRow p = ended (valueLine p) := by
  have hrow : valueRow p = ['|', ' ', '\x60'] ++ p.name.toList ++ ['\x60', ' ', '|', ' '] ++
      (p.kind.elim "" Kind.name).toList ++ [' ', '|', ' ', '\x60'] ++ p.display ++
      ['\x60', ' ', '|', '\n'] := rfl
  rw [hrow]
  simp only [ended, valueLine, cellRow, closedCells, List.append_assoc, List.cons_append,
    List.nil_append]

/-- The table of observed parameters is its header lines and the rows. -/
theorem valuesMarkdown_eq (ps : List Parameter) :
    valuesMarkdown ps = unlines (valueHeader ++ ps.map valueLine) := by
  have hrows : ps.flatMap valueRow = unlines (ps.map valueLine) := by
    rw [unlines, List.flatMap_map]
    exact List.flatMap_congr fun p _ => valueRow_eq p
  have hheader : "| Name | Type | Value |\n|------|------|-------|\n".toList =
      unlines valueHeader := by decide
  exact (congrArg₂ (· ++ ·) hheader hrows).trans (unlines_append _ _).symm

/-- The name of a kind has no bars and no line feeds. -/
theorem kindName_plain (kind : Option Kind) :
    '|' ∉ (kind.elim "" Kind.name).toList ∧ '\n' ∉ (kind.elim "" Kind.name).toList := by
  cases kind with
  | none => decide
  | some kind => cases kind <;> decide

/-- A row has four bare bars, and those of the name and the value in it. -/
theorem bareBars_valueLine (p : Parameter) :
    bareBars false (valueLine p) =
      4 + (bareBars false p.name.toList + bareBars false p.display) := by
  have hspan (text : List Char) :
      bareBars false ('\x60' :: (text ++ ['\x60'])) = bareBars false text :=
    bareBars_between (by decide) (by decide) text
  have hkind := bareBars_of_not_mem (kindName_plain p.kind).1 false
  rw [valueLine, bareBars_cellRow]
  simp [hspan, hkind]

/-- A row of observed parameters is broken exactly by a line feed in the name or the value. -/
theorem feed_mem_valueLine (p : Parameter) :
    '\n' ∈ valueLine p ↔ '\n' ∈ p.name.toList ∨ '\n' ∈ p.display := by
  rw [valueLine, feed_mem_cellRow]
  simp [(kindName_plain p.kind).2]

/-- The row of a parameter in a plain table without its line end. -/
def plainLine (width : Nat) (p : Parameter) : List Char :=
  "  ".toList ++ padTo width p.name.toList ++ "  ".toList ++ detail p ++ flagText p

/-- A plain table is its rows. -/
theorem plainTable_eq (ps : List Parameter) :
    plainTable ps = unlines (ps.map (plainLine (widthOf (ps.map (·.name))))) := by
  rw [plainTable, unlines, List.flatMap_map]
  rfl

/-- A parameter has no other flags than the three. -/
theorem flags_subset (p : Parameter) : flags p ⊆ ["skip", "extra", "no-schema"] := by
  rw [flags]
  cases p.skip <;> cases p.extra <;> cases p.inSchema <;> simp

/-- The flags of a parameter are on one line. -/
theorem feed_not_mem_flagText (p : Parameter) : '\n' ∉ flagText p := by
  have hflags : ∀ flag ∈ (flags p).map String.toList, '\n' ∉ flag := by
    intro flag hflag
    obtain ⟨name, hname, rfl⟩ := List.mem_map.mp hflag
    have hnames : ∀ name ∈ ["skip", "extra", "no-schema"], '\n' ∉ name.toList := by decide
    exact hnames name (flags_subset p hname)
  rw [flagText]
  split
  · exact List.not_mem_nil
  · have hjoin := not_mem_join (by decide : '\n' ∉ [',']) hflags
    simp [hjoin]

/-- Padding neither adds nor takes line feeds. -/
theorem feed_mem_padTo {width : Nat} {text : List Char} :
    '\n' ∈ padTo width text ↔ '\n' ∈ text := by
  rw [padTo, List.mem_append]
  exact or_iff_left fun h => absurd (List.eq_of_mem_replicate h) (by decide)

/-- What a plain table shows of a parameter: its value, or its description where the kind is
unknown. -/
def shown (p : Parameter) : List Char :=
  if p.kind.isSome then p.display else p.description.toList

/-- The last column of a plain table has the line feeds of what it shows. -/
theorem feed_mem_detail (p : Parameter) : '\n' ∈ detail p ↔ '\n' ∈ shown p := by
  rw [detail, shown]
  cases p.kind with
  | none => rfl
  | some kind =>
    have hname : '\n' ∉ kind.name.toList := by cases kind <;> decide
    have hpadded : '\n' ∉ padTo 8 kind.name.toList := fun h => hname (feed_mem_padTo.mp h)
    simp [hpadded]

/-- A row of a plain table is broken exactly by a line feed in the name or in what it shows. -/
theorem feed_mem_plainLine (width : Nat) (p : Parameter) :
    '\n' ∈ plainLine width p ↔ '\n' ∈ p.name.toList ∨ '\n' ∈ shown p := by
  have hblanks : '\n' ∉ "  ".toList := by decide
  simp only [plainLine, List.mem_append, feed_mem_padTo, feed_mem_detail, hblanks,
    feed_not_mem_flagText, false_or, or_false]

/-- A text that a row in Markdown can hold as it is. -/
def FitsRow (text : List Char) : Prop :=
  '\n' ∉ text ∧ bareBars false text = 0

instance (text : List Char) : Decidable (FitsRow text) :=
  inferInstanceAs (Decidable ('\n' ∉ text ∧ bareBars false text = 0))

/-- Observed parameters have one row each if and only if their names and values fit rows. -/
theorem hasRows_valuesMarkdown_iff (ps : List Parameter) :
    HasRows (bareBars false · = 4) ps.length valueHeader (valuesMarkdown ps) ↔
      ∀ p ∈ ps, FitsRow p.name.toList ∧ FitsRow p.display := by
  have hlength : ps.length = (ps.map valueLine).length := (List.length_map valueLine).symm
  rw [valuesMarkdown_eq, hlength, hasRows_iff, List.forall_mem_map]
  refine forall₂_congr fun p _ => ?_
  rw [feed_mem_valueLine, bareBars_valueLine, FitsRow, FitsRow, not_or]
  constructor
  · rintro ⟨⟨hname, hdisplay⟩, hbars⟩
    exact ⟨⟨hname, by omega⟩, hdisplay, by omega⟩
  · rintro ⟨⟨hname, hnameBars⟩, hdisplay, hdisplayBars⟩
    exact ⟨⟨hname, hdisplay⟩, by omega⟩

/-- Parameters have one row each in a plain table if and only if no name and nothing shown breaks
it. -/
theorem hasRows_plainTable_iff (ps : List Parameter) :
    HasRows (fun _ => True) ps.length [] (plainTable ps) ↔
      ∀ p ∈ ps, '\n' ∉ p.name.toList ∧ '\n' ∉ shown p := by
  rw [plainTable_eq]
  generalize widthOf (ps.map (·.name)) = width
  have hlength : ps.length = (ps.map (plainLine width)).length := (List.length_map _).symm
  have hrows := @hasRows_iff (fun _ => True) [] (ps.map (plainLine width))
  rw [List.nil_append] at hrows
  rw [hlength, hrows, List.forall_mem_map]
  refine forall₂_congr fun p _ => ?_
  rw [feed_mem_plainLine, not_or, and_true]

/-- In Markdown the dump of observed parameters is two header lines and a row for each of them, in
order, and in a plain table it is a row for each of them. The rows in Markdown are lines that are
divided by exactly four bare bars if and only if no name and no value has a line feed or a bare bar.
The rows of a plain table are lines if and only if no name and nothing shown beside it has a line
feed. -/
theorem dumpList_rows (ps : List Parameter) :
    (∃ text, Parameter.dumpList ps .markdown = .ok text ∧
      text = unlines (valueHeader ++ ps.map valueLine) ∧
      (HasRows (bareBars false · = 4) ps.length valueHeader text ↔
        ∀ p ∈ ps, FitsRow p.name.toList ∧ FitsRow p.display)) ∧
    ∃ text, Parameter.dumpList ps .table = .ok text ∧
      text = unlines (ps.map (plainLine (widthOf (ps.map (·.name))))) ∧
      (HasRows (fun _ => True) ps.length [] text ↔
        ∀ p ∈ ps, '\n' ∉ p.name.toList ∧ '\n' ∉ shown p) :=
  ⟨⟨valuesMarkdown ps, rfl, valuesMarkdown_eq ps, hasRows_valuesMarkdown_iff ps⟩,
    plainTable ps, rfl, plainTable_eq ps, hasRows_plainTable_iff ps⟩

/-- A value of two lines, the first with a bar. -/
def scripted : Parameter where
  name := "script"
  kind := some .string
  value := some (.string "cat log | sort\n")

/-- A bar or a line feed in a value breaks its row. -/
theorem not_hasRows_scripted :
    (∃ text, Parameter.dumpList [scripted] .markdown = .ok text ∧
      ¬HasRows (bareBars false · = 4) 1 valueHeader text) ∧
    ∃ text, Parameter.dumpList [scripted] .table = .ok text ∧
      ¬HasRows (fun _ => True) 1 [] text := by
  refine ⟨⟨_, rfl, fun hrows => ?_⟩, _, rfl, fun hrows => ?_⟩
  · have hfits := (hasRows_valuesMarkdown_iff [scripted]).mp hrows scripted (by simp)
    exact absurd hfits.2 (by decide)
  · have hfits := (hasRows_plainTable_iff [scripted]).mp hrows scripted (by simp)
    exact absurd hfits.2 (by decide)

end ChartDocs.Dump
