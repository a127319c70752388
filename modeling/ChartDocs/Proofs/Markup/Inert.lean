import ChartDocs.Proofs.Markup.Step
import ChartDocs.Proofs.Text.LineEnds

/-!
# Lines that do nothing

Under the default settings, blank lines, other comments, items of sequences and bare text do
nothing: they are neither key lines nor comments that start with two number signs. Between a tag and
its key such a line hides the key from the look ahead, so the tag waits, and still the key names it.
So the catalog of a text is known from its other lines, and does not change when lines of this kind
are inserted or deleted anywhere.
-/

namespace ChartDocs.Markup

open Text

/-- Whether a line is neither a key line nor a comment that starts with two number signs. -/
def isInert (line : List Char) : Bool :=
  (keyLine? line).isNone && !startsWith ['#', '#'] (trimStart line)

/-- An inert line is no key line. -/
theorem keyLine?_of_isInert {line : List Char} (h : isInert line = true) : keyLine? line = none :=
  Option.isNone_iff_eq_none.mp (Bool.and_eq_true_iff.mp h).1

/-- An inert line is no comment. -/
theorem commentText?_of_isInert {line : List Char} (h : isInert line = true) :
    commentText? line = none := by
  have hstart : dropLeading? ['#', '#'] (trimStart line) = none := by
    simpa [startsWith] using (Bool.and_eq_true_iff.mp h).2
  rw [commentText?, hstart, Option.map_none]

namespace State

/-- A line without a comment is no matter of descriptions. -/
theorem describing_of_commentText?_eq_none {line : List Char} (h : commentText? line = none)
    (s : State) : s.describing {} line = s := by
  have hopen : endsDescription {} line = false := by
    rw [endsDescription_eq_isSome, h, Option.bind_none, Option.isSome_none]
  have hend : s.onDescriptionEnd {} line = s := by
    rw [onDescriptionEnd, hopen, Bool.and_false]
    exact if_neg Bool.false_ne_true
  have hline : s.onDescriptionLine {} line = s := by
    rw [onDescriptionLine, descriptionLine?_eq_map, h]
    split <;> rfl
  have hstart : s.onDescriptionStart {} line = s := by
    rw [onDescriptionStart, descriptionStart?_eq_map, h]
    split <;> rfl
  rw [describing, hend, hline, hstart]

/-- A line that is no key line and no comment does nothing. -/
theorem take_of_isInert {line : List Char} (h : isInert line = true) (s : State) :
    (s.takeLine line).describing {} line = s := by
  have hcomment := commentText?_of_isInert h
  rw [takeLine_of_commentText?_eq_none (keyLine?_of_isInert h) hcomment]
  exact describing_of_commentText?_eq_none hcomment s

/-- Lines that do nothing can be left out. -/
theorem takeLines_filter (ls : List (List Char)) (s : State) :
    takeLines (ls.filter (!isInert ·)) s = takeLines ls s := by
  induction ls generalizing s with
  | nil => rfl
  | cons line ls ih =>
    cases hline : isInert line with
    | true =>
      rw [List.filter_cons_of_neg (by simp [hline]), ih, takeLines_cons, take_of_isInert hline]
    | false => rw [List.filter_cons_of_pos (by simp [hline]), takeLines_cons, takeLines_cons, ih]

end State

/-- Lines that do nothing can be inserted between any two lines of a text, and deleted there. -/
theorem ofText_insert {before inserted : String} (hbefore : Finished before.toList)
    (hinserted : Finished inserted.toList)
    (h : ∀ line ∈ lines inserted.toList, isInert line = true) (after : String) :
    Catalog.ofText {} (before ++ inserted ++ after) = Catalog.ofText {} (before ++ after) := by
  have hnone : (lines inserted.toList).filter (!isInert ·) = [] :=
    List.filter_eq_nil_iff.mpr fun line hline => by simp [h line hline]
  rw [ofText_eq_takeLines, ofText_eq_takeLines, ← State.takeLines_filter (lines _),
    ← State.takeLines_filter (lines (before ++ after).toList)]
  simp only [String.toList_append, List.append_assoc, lines_append_of_finished hbefore,
    lines_append_of_finished hinserted, List.filter_append, hnone, List.nil_append]

/-- Texts that have the same lines apart from lines that do nothing, wherever and however many of
these are inserted or deleted, have the same catalog. -/
theorem ofText_eq_of_filter_eq {text other : String}
    (h : (lines text.toList).filter (!isInert ·) = (lines other.toList).filter (!isInert ·)) :
    Catalog.ofText {} text = Catalog.ofText {} other := by
  rw [ofText_eq_takeLines, ofText_eq_takeLines, ← State.takeLines_filter, h,
    State.takeLines_filter]

/-- A text with a description and with a tag directly above its key. -/
def denseText : String :=
  "## @section S\n## @descriptionStart\n## Text\n## @descriptionEnd\n## @param A\na:\n  - b\n"

/-- The same text with blank lines, other comments, bare text and other items. -/
def sparseText : String :=
  "## @section S\n## @descriptionStart\n# n: 1\n## Text\n\n## @descriptionEnd\r\n" ++
    "## @param A\n\n  bare\n# c: 1\na:\n  - d: 2\n  - e"

/-- Inside the description and between the tag and its key nothing changes. -/
theorem ofText_eq_of_filter_eq_sparseText :
    (lines denseText.toList).filter (!isInert ·) =
        (lines sparseText.toList).filter (!isInert ·) ∧
      Catalog.ofText {} denseText = Catalog.ofText {} sparseText ∧
      Catalog.ofText {} sparseText =
        { sections := [{ name := "S", description := ["Text"], members := [0] }]
          parameters := [{ name := "a", sectionName := some "S" }] } := by
  have hlines : (lines denseText.toList).filter (!isInert ·) =
      (lines sparseText.toList).filter (!isInert ·) := by decide +kernel
  exact ⟨hlines, ofText_eq_of_filter_eq hlines, by decide +kernel⟩

end ChartDocs.Markup
