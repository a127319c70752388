import ChartDocs.Proofs.Text.Pieces
import ChartDocs.Text.Blank
import Mathlib.Data.List.DropRight

/-!
# Texts without trailing blanks

Trimming the end of two texts one after the other trims the second, and reaches into the first only
if nothing of the second remains. For the lines of a text this means that blank lines at the end
disappear, the last other line is trimmed, and all lines before it stay.
-/

namespace ChartDocs.Text

variable {first second line : List Char} {c : Char}

/-- What is all blanks is dropped with the blanks before it. -/
theorem trimEnd_append_of_eq_nil (h : trimEnd second = []) :
    trimEnd (first ++ second) = trimEnd first := by
  have hblank : second.reverse.dropWhile isBlank = [] := List.reverse_eq_nil_iff.mp h
  rw [trimEnd, dropEndWhile, List.reverse_append, List.dropWhile_append, hblank, trimEnd,
    dropEndWhile]
  rfl

/-- Before a text that is not all blanks everything stays. -/
theorem trimEnd_append_of_ne_nil (h : trimEnd second ≠ []) :
    trimEnd (first ++ second) = first ++ trimEnd second := by
  have hblank : (second.reverse.dropWhile isBlank).isEmpty = false :=
    List.isEmpty_eq_false_iff.mpr fun hnil => h (List.reverse_eq_nil_iff.mpr hnil)
  rw [trimEnd, dropEndWhile, List.reverse_append, List.dropWhile_append, hblank, trimEnd,
    dropEndWhile]
  simp

/-- What ends without a blank stays in front of a trimmed text. -/
theorem trimEnd_append (h : trimEnd first = first) (second : List Char) :
    trimEnd (first ++ second) = first ++ trimEnd second := by
  by_cases hsecond : trimEnd second = []
  · rw [trimEnd_append_of_eq_nil hsecond, h, hsecond, List.append_nil]
  · exact trimEnd_append_of_ne_nil hsecond

/-- One blank is dropped. -/
theorem trimEnd_singleton (h : isBlank c = true) : trimEnd [c] = [] := by
  simp [trimEnd, dropEndWhile, h]

/-- What is left without the blanks at the end is a beginning. -/
theorem trimEnd_prefix_self (text : List Char) : trimEnd text <+: text := by
  rw [trimEnd, dropEndWhile, ← List.reverse_suffix, List.reverse_reverse]
  exact List.dropWhile_suffix _

/-- Dropping blanks at the end twice is dropping them once. -/
theorem trimEnd_trimEnd (text : List Char) : trimEnd (trimEnd text) = trimEnd text := by
  rw [trimEnd, trimEnd, dropEndWhile, dropEndWhile, List.reverse_reverse,
    List.dropWhile_idempotent]

/-- A trimmed text is not trimmed further. -/
theorem trim_trim (text : List Char) : trim (trim text) = trim text := by
  have hstart : trimStart (trim text) = trim text := by
    have hprefix : trim text <+: trimStart text := trimEnd_prefix_self _
    cases htrim : trim text with
    | nil => rfl
    | cons c rest =>
      obtain ⟨more, hmore⟩ := htrim ▸ hprefix
      have hhead := List.head?_dropWhile_not isBlank text
      rw [← trimStart, ← hmore] at hhead
      exact List.dropWhile_cons_of_neg (by simpa using hhead)
  rw [trim, hstart, trim, trimEnd_trimEnd]

/-- A text without blanks around it has none at its end. -/
theorem trimEnd_of_trim {text : List Char} (h : trim text = text) : trimEnd text = text := by
  rw [← h, trim, trimEnd_trimEnd]

/-- A trimmed text does not end with a blank. -/
theorem getLast?_trimEnd_ne (text : List Char) (h : isBlank c = true) :
    (trimEnd text).getLast? ≠ some c := by
  intro hlast
  have hhead := List.head?_dropWhile_not isBlank text.reverse
  rw [trimEnd, dropEndWhile, List.getLast?_reverse] at hlast
  rw [hlast] at hhead
  exact absurd (h.symm.trans hhead) (by decide)

/-- A trimmed line ends with no carriage return that could belong to a line end. -/
theorem dropReturn_trimEnd (text : List Char) : dropReturn (trimEnd text) = trimEnd text :=
  if_neg (getLast?_trimEnd_ne text (by decide))

/-- What is left without a carriage return at the end is a beginning. -/
theorem dropReturn_prefix_self (line : List Char) : dropReturn line <+: line := by
  rw [dropReturn]
  split
  · exact List.dropLast_prefix line
  · exact List.prefix_rfl

/-- After a text without a carriage return at its end, one is dropped only from the text behind. -/
theorem dropReturn_append (h : dropReturn first = first) (second : List Char) :
    dropReturn (first ++ second) = first ++ dropReturn second := by
  rcases List.eq_nil_or_concat second with rfl | ⟨front, last, rfl⟩
  · have hnil : dropReturn [] = [] := rfl
    rw [hnil, List.append_nil, h]
  · rw [dropReturn, dropReturn, List.concat_eq_append, ← List.append_assoc, List.getLast?_concat,
      List.getLast?_concat, List.dropLast_concat, List.dropLast_concat]
    split
    · rfl
    · rw [List.append_assoc]

variable {ls : List (List Char)}

/-- A line feed is one empty line. -/
theorem lines_feed : lines ['\n'] = [[]] := rfl

/-- If only blank lines follow, the first line of a trimmed text is trimmed itself. -/
theorem lines_trimEnd_unlines_of_eq_nil (hline : '\n' ∉ line) (h : trimEnd (unlines ls) = []) :
    lines (trimEnd (unlines (line :: ls)) ++ ['\n']) = [trimEnd line] := by
  have hfeed : trimEnd (['\n'] ++ unlines ls) = [] := by
    rw [trimEnd_append_of_eq_nil h, trimEnd_singleton (by decide)]
  have hmem : '\n' ∉ trimEnd line := fun hc => hline ((trimEnd_prefix_self line).subset hc)
  rw [unlines_cons, ← List.singleton_append, trimEnd_append_of_eq_nil hfeed,
    lines_append_cons hmem, dropReturn_trimEnd, lines_nil]

/-- Otherwise it stays, and the lines after it are those of the rest trimmed. -/
theorem lines_trimEnd_unlines_of_ne_nil (hline : '\n' ∉ line) (h : trimEnd (unlines ls) ≠ []) :
    lines (trimEnd (unlines (line :: ls)) ++ ['\n']) =
      dropReturn line :: lines (trimEnd (unlines ls) ++ ['\n']) := by
  have hfeed : trimEnd (['\n'] ++ unlines ls) = '\n' :: trimEnd (unlines ls) :=
    trimEnd_append_of_ne_nil h
  have hne : trimEnd (['\n'] ++ unlines ls) ≠ [] := by
    rw [hfeed]
    exact List.cons_ne_nil _ _
  rw [unlines_cons, ← List.singleton_append, trimEnd_append_of_ne_nil hne, hfeed,
    List.append_assoc, List.cons_append, lines_append_cons hline]

/-- The first line of a trimmed text is the first line, trimmed or without a carriage return. -/
theorem exists_lines_trimEnd_unlines (hline : '\n' ∉ line) (ls : List (List Char)) :
    ∃ first rest, lines (trimEnd (unlines (line :: ls)) ++ ['\n']) = first :: rest ∧
      (first = trimEnd line ∨ first = dropReturn line) := by
  by_cases h : trimEnd (unlines ls) = []
  · exact ⟨_, [], lines_trimEnd_unlines_of_eq_nil hline h, Or.inl rfl⟩
  · exact ⟨_, _, lines_trimEnd_unlines_of_ne_nil hline h, Or.inr rfl⟩

/-- Trimming changes nothing about the lines that pass a test, if it does not change any single line
that passes and no blank line passes. -/
theorem filter_lines_trimEnd_unlines {test : List Char → Bool} (hempty : test [] = false)
    (hlines : ∀ line ∈ ls, '\n' ∉ line)
    (htrim : ∀ line ∈ ls, [trimEnd line].filter test = [line].filter test)
    (hreturn : ∀ line ∈ ls, [dropReturn line].filter test = [line].filter test) :
    (lines (trimEnd (unlines ls) ++ ['\n'])).filter test = ls.filter test := by
  induction ls with
  | nil => simp [lines_feed, hempty]
  | cons line ls ih =>
    obtain ⟨hline, hlines⟩ := List.forall_mem_cons.mp hlines
    obtain ⟨hlineTrim, htrim⟩ := List.forall_mem_cons.mp htrim
    obtain ⟨hlineReturn, hreturn⟩ := List.forall_mem_cons.mp hreturn
    have hrest := ih hlines htrim hreturn
    -- Either only blank lines follow and this one is trimmed, or it stays and the rest is trimmed.
    rw [← List.singleton_append (l := ls), List.filter_append]
    by_cases h : trimEnd (unlines ls) = []
    · rw [List.singleton_append, lines_trimEnd_unlines_of_eq_nil hline h, hlineTrim, ← hrest, h]
      simp [lines_feed, hempty]
    · rw [List.singleton_append, lines_trimEnd_unlines_of_ne_nil hline h,
        ← List.singleton_append (l := lines _), List.filter_append, hlineReturn, hrest]

end ChartDocs.Text
