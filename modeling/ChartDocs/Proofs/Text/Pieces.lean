import ChartDocs.Text.Lines

/-!
# Pieces between separators

Cutting a text finds exactly the pieces that were joined, as long as no piece holds the separator.
In particular the lines of a text that ends every line with a line feed are those lines.
-/

namespace ChartDocs.Text

/-- A text without the separator is one piece. -/
theorem splitAt_of_not_mem {separator : Char} {text : List Char} (h : separator ∉ text) :
    splitAt separator text = [text] := by
  induction text with
  | nil => rfl
  | cons c rest ih =>
    have hc : c ≠ separator := fun e => h (by simp [e])
    rw [splitAt, if_neg hc, ih fun hrest => h (List.mem_cons_of_mem c hrest)]
    rfl

/-- A piece up to the first separator comes off the front. -/
theorem splitAt_append_cons {separator : Char} {piece : List Char} (h : separator ∉ piece)
    (rest : List Char) :
    splitAt separator (piece ++ separator :: rest) = piece :: splitAt separator rest := by
  induction piece with
  | nil => simp [splitAt]
  | cons c piece ih =>
    have hc : c ≠ separator := fun e => h (by simp [e])
    rw [List.cons_append, splitAt, if_neg hc, ih fun hpiece => h (List.mem_cons_of_mem c hpiece)]
    rfl

/-- No piece holds the separator. -/
theorem not_mem_of_mem_splitAt {separator : Char} {text piece : List Char}
    (h : piece ∈ splitAt separator text) : separator ∉ piece := by
  induction text generalizing piece with
  | nil =>
    simp only [splitAt, List.mem_singleton] at h
    simp [h]
  | cons c rest ih =>
    rw [splitAt] at h
    split at h
    · rcases List.mem_cons.mp h with rfl | h
      · exact List.not_mem_nil
      · exact ih h
    · next hc =>
      obtain ⟨first, others, e⟩ := List.exists_cons_of_ne_nil (splitAt_ne_nil separator rest)
      rw [e, consFirst] at h
      rcases List.mem_cons.mp h with rfl | h
      · have hfirst : separator ∉ first := ih (by simp [e])
        intro hmem
        rcases List.mem_cons.mp hmem with heq | hmem
        · exact hc heq.symm
        · exact hfirst hmem
      · exact ih (by simp [e, h])

/-- Cutting at the separator undoes joining with it. -/
theorem splitAt_join {separator : Char} {pieces : List (List Char)} (hne : pieces ≠ [])
    (h : ∀ piece ∈ pieces, separator ∉ piece) :
    splitAt separator (join [separator] pieces) = pieces := by
  induction pieces with
  | nil => exact absurd rfl hne
  | cons piece rest ih =>
    have hpiece : separator ∉ piece := h piece (by simp)
    cases rest with
    | nil => exact splitAt_of_not_mem hpiece
    | cons next rest =>
      have hrest : ∀ p ∈ next :: rest, separator ∉ p := fun p hp => h p (List.mem_cons_of_mem _ hp)
      rw [join, List.append_assoc, List.singleton_append, splitAt_append_cons hpiece,
        ih (by simp) hrest]
      simp

/-- Every character of a piece is in the joined text. -/
theorem mem_join_of_mem {separator piece : List Char} {pieces : List (List Char)} {c : Char}
    (h : piece ∈ pieces) (hc : c ∈ piece) : c ∈ join separator pieces := by
  induction pieces with
  | nil => exact absurd h List.not_mem_nil
  | cons first rest ih =>
    cases rest with
    | nil => rwa [List.mem_singleton.mp h] at hc
    | cons next rest =>
      simp only [join, List.mem_append]
      rcases List.mem_cons.mp h with rfl | h
      · exact Or.inl (Or.inl hc)
      · exact Or.inr (ih h)

/-- A character that is neither in the separator nor in a piece is not in the joined text. -/
theorem not_mem_join {separator : List Char} {pieces : List (List Char)} {c : Char}
    (hseparator : c ∉ separator) (h : ∀ piece ∈ pieces, c ∉ piece) : c ∉ join separator pieces := by
  induction pieces with
  | nil => exact List.not_mem_nil
  | cons first rest ih =>
    have hfirst : c ∉ first := h first (by simp)
    have hrest : c ∉ join separator rest := ih fun p hp => h p (List.mem_cons_of_mem _ hp)
    cases rest with
    | nil => exact hfirst
    | cons next rest => simp [join, hfirst, hseparator, hrest]

/-- A line with its line feed. -/
def ended (line : List Char) : List Char :=
  line ++ ['\n']

/-- Lines, each with its line feed. -/
def unlines (ls : List (List Char)) : List Char :=
  ls.flatMap ended

/-- No lines make the empty text. -/
@[simp] theorem unlines_nil : unlines [] = [] := rfl

/-- The first line comes with its line feed before the others. -/
@[simp] theorem unlines_cons (line : List Char) (ls : List (List Char)) :
    unlines (line :: ls) = line ++ '\n' :: unlines ls := by
  simp [unlines, ended]

/-- Cut at its line feeds, a text of lines is those lines and nothing after the last line feed. -/
theorem splitAt_unlines {ls : List (List Char)} (h : ∀ line ∈ ls, '\n' ∉ line) :
    splitAt '\n' (unlines ls) = ls ++ [[]] := by
  induction ls with
  | nil => rfl
  | cons line ls ih =>
    obtain ⟨hline, hrest⟩ := List.forall_mem_cons.mp h
    rw [unlines_cons, splitAt_append_cons hline, ih hrest, List.cons_append]

/-- The first line of a text comes off the front. -/
theorem lines_append_cons {line : List Char} (h : '\n' ∉ line) (rest : List Char) :
    lines (line ++ '\n' :: rest) = dropReturn line :: lines rest := by
  obtain ⟨first, others, e⟩ := List.exists_cons_of_ne_nil (splitAt_ne_nil '\n' rest)
  rw [lines, lines, splitAt_append_cons h, e]
  rfl

/-- The lines of a text are the lines that it was put together from. -/
theorem lines_unlines {ls : List (List Char)} (h : ∀ line ∈ ls, '\n' ∉ line) :
    lines (unlines ls) = ls.map dropReturn := by
  induction ls with
  | nil => rfl
  | cons line ls ih =>
    rw [unlines_cons, lines_append_cons (h line (by simp)), List.map_cons,
      ih fun l hl => h l (List.mem_cons_of_mem _ hl)]

/-- Finished lines come off the front of a text. -/
theorem lines_unlines_append {ls : List (List Char)} (h : ∀ line ∈ ls, '\n' ∉ line)
    (rest : List Char) : lines (unlines ls ++ rest) = ls.map dropReturn ++ lines rest := by
  induction ls with
  | nil => rfl
  | cons line ls ih =>
    have hline : '\n' ∉ line := h line List.mem_cons_self
    rw [unlines_cons, List.append_assoc, List.cons_append, lines_append_cons hline, List.map_cons,
      ih fun l hl => h l (List.mem_cons_of_mem line hl), List.cons_append]

/-- Lines come before those that follow them. -/
theorem unlines_append (first second : List (List Char)) :
    unlines (first ++ second) = unlines first ++ unlines second :=
  List.flatMap_append

/-- Joined lines lack the last line feed. -/
theorem join_append_feed {pieces : List (List Char)} (h : pieces ≠ []) :
    join ['\n'] pieces ++ ['\n'] = unlines pieces := by
  induction pieces with
  | nil => exact absurd rfl h
  | cons piece rest ih =>
    cases rest with
    | nil => rw [join, unlines_cons, unlines_nil]
    | cons next rest =>
      have hjoin : join ['\n'] (piece :: next :: rest) =
          piece ++ ['\n'] ++ join ['\n'] (next :: rest) := rfl
      rw [hjoin, List.append_assoc, ih (List.cons_ne_nil _ _), unlines_cons piece,
        List.append_assoc, List.singleton_append]

/-- The pieces between line feeds, put under each other, have one line feed more. -/
theorem unlines_splitAt (text : List Char) : unlines (splitAt '\n' text) = text ++ ['\n'] := by
  rw [← join_append_feed (splitAt_ne_nil '\n' text), join_splitAt]

/-- A line feed divides the lines of a text, whatever stands before it. -/
theorem lines_append_feed (text rest : List Char) :
    lines (text ++ '\n' :: rest) = lines (text ++ ['\n']) ++ lines rest := by
  have hpieces : ∀ piece ∈ splitAt '\n' text, '\n' ∉ piece := fun _ => not_mem_of_mem_splitAt
  have htext : text ++ '\n' :: rest = unlines (splitAt '\n' text) ++ rest := by
    rw [unlines_splitAt, List.append_assoc, List.singleton_append]
  rw [htext, lines_unlines_append hpieces, ← unlines_splitAt, lines_unlines hpieces]

/-- A line without a carriage return at its end stays as it is. -/
theorem dropReturn_of_not_mem {line : List Char} (h : '\r' ∉ line) : dropReturn line = line := by
  refine if_neg fun hlast => h ?_
  exact List.mem_of_getLast? hlast

/-- A text without line ends. -/
def OnLine (text : List Char) : Prop :=
  '\n' ∉ text ∧ '\r' ∉ text

instance (text : List Char) : Decidable (OnLine text) :=
  inferInstanceAs (Decidable ('\n' ∉ text ∧ '\r' ∉ text))

/-- The empty text has no line ends. -/
theorem onLine_nil : OnLine [] := ⟨List.not_mem_nil, List.not_mem_nil⟩

/-- Two texts have no line ends together if and only if neither has any. -/
theorem onLine_append {front back : List Char} :
    OnLine (front ++ back) ↔ OnLine front ∧ OnLine back := by
  simp only [OnLine, List.mem_append, not_or]
  constructor
  · rintro ⟨⟨hf, hb⟩, hf', hb'⟩
    exact ⟨⟨hf, hf'⟩, hb, hb'⟩
  · rintro ⟨⟨hf, hf'⟩, hb, hb'⟩
    exact ⟨⟨hf, hb⟩, hf', hb'⟩

/-- Texts on one line are on one line when they are joined by such a text. -/
theorem onLine_join {separator : List Char} {pieces : List (List Char)}
    (hseparator : OnLine separator) (h : ∀ piece ∈ pieces, OnLine piece) :
    OnLine (join separator pieces) :=
  ⟨not_mem_join hseparator.1 fun piece hp => (h piece hp).1,
    not_mem_join hseparator.2 fun piece hp => (h piece hp).2⟩

/-- Lines without line ends are the lines of the text that they make up. -/
theorem lines_unlines_of_onLine {ls : List (List Char)} (h : ∀ line ∈ ls, OnLine line) :
    lines (unlines ls) = ls := by
  have hsame : ∀ line ∈ ls, dropReturn line = id line :=
    fun line hline => dropReturn_of_not_mem (h line hline).2
  rw [lines_unlines fun line hline => (h line hline).1, List.map_congr_left hsame, List.map_id]

/-- Dropping a carriage return brings no characters. -/
theorem mem_of_mem_dropReturn {line : List Char} {c : Char} (h : c ∈ dropReturn line) :
    c ∈ line := by
  rw [dropReturn] at h
  split at h
  · exact List.dropLast_subset line h
  · exact h

/-- The characters of lines are characters of the pieces. -/
theorem mem_of_mem_linesOfPieces {pieces : List (List Char)} {line : List Char} {c : Char}
    (h : line ∈ linesOfPieces pieces) (hc : c ∈ line) : ∃ piece ∈ pieces, c ∈ piece := by
  induction pieces with
  | nil => exact absurd h List.not_mem_nil
  | cons piece rest ih =>
    cases rest with
    | nil =>
      rw [linesOfPieces] at h
      split at h
      · exact absurd h List.not_mem_nil
      · exact ⟨piece, List.mem_cons_self, List.mem_singleton.mp h ▸ hc⟩
    | cons next rest =>
      rcases List.mem_cons.mp h with rfl | h
      · exact ⟨piece, List.mem_cons_self, mem_of_mem_dropReturn hc⟩
      · obtain ⟨other, hother, hmem⟩ := ih h
        exact ⟨other, List.mem_cons_of_mem piece hother, hmem⟩

/-- A line of a text holds no line feed. -/
theorem feed_not_mem_of_mem_lines {text line : List Char} (h : line ∈ lines text) :
    '\n' ∉ line := by
  intro hfeed
  obtain ⟨piece, hpiece, hmem⟩ := mem_of_mem_linesOfPieces h hfeed
  exact not_mem_of_mem_splitAt hpiece hmem

/-- The lines of a text without carriage returns hold no line ends. -/
theorem onLine_of_mem_lines {text line : List Char} (h : '\r' ∉ text) (hline : line ∈ lines text) :
    OnLine line := by
  refine ⟨feed_not_mem_of_mem_lines hline, fun hreturn => ?_⟩
  obtain ⟨piece, hpiece, hmem⟩ := mem_of_mem_linesOfPieces hline hreturn
  have htext : '\r' ∈ join ['\n'] (splitAt '\n' text) := mem_join_of_mem hpiece hmem
  exact h (join_splitAt '\n' text ▸ htext)

end ChartDocs.Text
