import ChartDocs.Proofs.Text.Trimming
import Mathlib.Data.List.Infix

/-!
# Line ends

Writing the lines of a text one after the other gives the text back with a line feed for every line
end, and with one more at the end of an unfinished last line. So a text comes back as it was if its
lines end with line feeds alone. Where the lines of a text are cut in two, so is the text.
-/

namespace ChartDocs.Text

variable {text line rest : List Char}

/-- The text with a line feed for every line end, also at the end of an unfinished last line. -/
def withFeeds : List Char → List Char
  | [] => []
  | '\n' :: rest => '\n' :: withFeeds rest
  | '\r' :: '\n' :: rest => '\n' :: withFeeds rest
  | [c] => [c, '\n']
  | c :: d :: rest => c :: withFeeds (d :: rest)

/-- A property of texts holds if it passes from the rest of a text to the text with one more line,
and holds for an unfinished line. -/
@[elab_as_elim]
theorem induction_on_lines {motive : List Char → Prop} (text : List Char) (nil : motive [])
    (unfinished : ∀ line, line ≠ [] → '\n' ∉ line → motive line)
    (finished : ∀ line rest, '\n' ∉ line → motive rest → motive (line ++ '\n' :: rest)) :
    motive text := by
  induction hlength : text.length using Nat.strongRecOn generalizing text with
  | ind n ih =>
    subst hlength
    by_cases hfeed : '\n' ∈ text
    · obtain ⟨line, rest, rfl, hline⟩ := List.eq_append_cons_of_mem hfeed
      exact finished line rest hline (ih rest.length (by simp; omega) rest rfl)
    · by_cases hnil : text = []
      · exact hnil ▸ nil
      · exact unfinished text hnil hfeed

/-- A text without line feeds is one line. -/
theorem lines_unfinished (hne : line ≠ []) (h : '\n' ∉ line) : lines line = [line] := by
  rw [lines, splitAt_of_not_mem h, linesOfPieces, if_neg hne]

/-- Only the empty text has no lines. -/
@[simp] theorem lines_eq_nil_iff : lines text = [] ↔ text = [] := by
  cases text using induction_on_lines with
  | nil => simp
  | unfinished line hne h => simp [lines_unfinished hne h, hne]
  | finished line rest h => simp [lines_append_cons h]

/-- A line feed at the end finishes the last line, unless that ends with a line feed or with a
carriage return. -/
theorem lines_append_feed_of_getLast? {c : Char} (h : text.getLast? = some c) (hfeed : c ≠ '\n')
    (hreturn : c ≠ '\r') : lines (text ++ ['\n']) = lines text := by
  induction text using induction_on_lines with
  | nil => cases h
  | unfinished line hne hline =>
    have hsame : dropReturn line = line := if_neg (by simp [h, hreturn])
    rw [lines_append_cons hline, hsame, lines_nil, lines_unfinished hne hline]
  | finished line rest hline ih =>
    rw [List.getLast?_append_cons] at h
    cases rest with
    | nil => exact absurd (Option.some.inj h).symm hfeed
    | cons d rest =>
      rw [List.getLast?_cons_cons] at h
      rw [List.append_assoc, List.cons_append, lines_append_cons hline, ih h,
        lines_append_cons hline]

/-- Finishing the last line of a trimmed text adds at most an empty line. -/
theorem mem_lines_trimEnd_append_feed (h : line ∈ lines (trimEnd text ++ ['\n'])) :
    line = [] ∨ line ∈ lines (trimEnd text) := by
  cases hlast : (trimEnd text).getLast? with
  | none =>
    rw [List.getLast?_eq_none_iff.mp hlast, List.nil_append, lines_feed] at h
    exact Or.inl (List.mem_singleton.mp h)
  | some c =>
    have hvisible : isBlank c = false := by
      by_contra hblank
      exact getLast?_trimEnd_ne text (by simpa using hblank) hlast
    have hfeed : c ≠ '\n' := by rintro rfl; exact absurd hvisible (by decide)
    have hreturn : c ≠ '\r' := by rintro rfl; exact absurd hvisible (by decide)
    exact Or.inr (lines_append_feed_of_getLast? hlast hfeed hreturn ▸ h)

/-- Only a line feed, or a carriage return before one, is not kept. -/
theorem withFeeds_cons_cons {c d : Char} (hc : c ≠ '\n') (h : ¬(c = '\r' ∧ d = '\n'))
    (rest : List Char) : withFeeds (c :: d :: rest) = c :: withFeeds (d :: rest) :=
  withFeeds.eq_5 c d rest hc fun hreturn hfeed => h ⟨hreturn, hfeed⟩

/-- An unfinished line gets a line feed. -/
theorem withFeeds_unfinished (hne : line ≠ []) (h : '\n' ∉ line) :
    withFeeds line = line ++ ['\n'] := by
  induction line with
  | nil => exact absurd rfl hne
  | cons c line ih =>
    obtain ⟨hc, hline⟩ := List.ne_and_not_mem_of_not_mem_cons h
    cases line with
    | nil => exact withFeeds.eq_4 c (Ne.symm hc)
    | cons d line =>
      have hd : d ≠ '\n' := fun hd => hline (hd ▸ List.mem_cons_self)
      rw [withFeeds_cons_cons (Ne.symm hc) fun hreturn => hd hreturn.2,
        ih (List.cons_ne_nil d line) hline, ← List.cons_append]

/-- A character before others is no carriage return at the end. -/
theorem dropReturn_cons_cons (c d : Char) (line : List Char) :
    dropReturn (c :: d :: line) = c :: dropReturn (d :: line) := by
  rw [dropReturn, dropReturn, List.getLast?_cons_cons, List.dropLast_cons_cons]
  split <;> rfl

/-- A finished line ends with a line feed. -/
theorem withFeeds_append_feed (h : '\n' ∉ line) (rest : List Char) :
    withFeeds (line ++ '\n' :: rest) = dropReturn line ++ '\n' :: withFeeds rest := by
  induction line with
  | nil => rfl
  | cons c line ih =>
    obtain ⟨hc, hline⟩ := List.ne_and_not_mem_of_not_mem_cons h
    cases line with
    | nil =>
      by_cases hreturn : c = '\r'
      · rw [hreturn]
        rfl
      · have hsame : dropReturn [c] = [c] := if_neg (by simpa using hreturn)
        rw [hsame, List.singleton_append, withFeeds_cons_cons (Ne.symm hc) fun h => hreturn h.1]
        rfl
    | cons d line =>
      have hd : d ≠ '\n' := fun hd => hline (hd ▸ List.mem_cons_self)
      rw [List.cons_append, List.cons_append, withFeeds_cons_cons (Ne.symm hc) fun h => hd h.2,
        ← List.cons_append, ih hline, dropReturn_cons_cons, List.cons_append]

/-- The lines of a text, written one after the other. -/
theorem unlines_lines (text : List Char) : unlines (lines text) = withFeeds text := by
  induction text using induction_on_lines with
  | nil => rfl
  | unfinished line hne h =>
    rw [lines_unfinished hne h, withFeeds_unfinished hne h, unlines_cons, unlines_nil]
  | finished line rest h ih =>
    rw [lines_append_cons h, unlines_cons, ih, withFeeds_append_feed h]

/-- Whether the last line of a text has a line end, if there is any line. -/
def Finished (text : List Char) : Prop :=
  text = [] ∨ text.getLast? = some '\n'

instance (text : List Char) : Decidable (Finished text) :=
  inferInstanceAs (Decidable (text = [] ∨ text.getLast? = some '\n'))

/-- Whether a text is finished is decided after its line feeds. -/
theorem finished_append_feed (line rest : List Char) :
    Finished (line ++ '\n' :: rest) ↔ Finished rest := by
  cases rest with
  | nil => simp [Finished]
  | cons c rest => simp [Finished]

/-- Two finished texts make a finished one. -/
theorem Finished.append (h : Finished text) (hrest : Finished rest) : Finished (text ++ rest) := by
  rcases hrest with rfl | hlast
  · rwa [List.append_nil]
  · exact Or.inr (by rw [List.getLast?_append, hlast]; rfl)

/-- If no carriage return stands before a line feed, only the end of an unfinished last line is
added. -/
theorem withFeeds_eq (h : ¬['\r', '\n'] <:+: text) :
    withFeeds text = text ++ if Finished text then [] else ['\n'] := by
  induction text using induction_on_lines with
  | nil => rfl
  | unfinished line hne hline =>
    have hunfinished : ¬Finished line := by
      rintro (hnil | hlast)
      · exact hne hnil
      · exact hline (List.mem_of_getLast? hlast)
    rw [withFeeds_unfinished hne hline, if_neg hunfinished]
  | finished line rest hline ih =>
    have hreturn : line.getLast? ≠ some '\r' := by
      intro hlast
      obtain ⟨front, rfl⟩ := List.getLast?_eq_some_iff.mp hlast
      exact h ⟨front, rest, by simp⟩
    have hrest : ¬['\r', '\n'] <:+: rest := fun hfound =>
      h (hfound.trans ((List.suffix_cons _ rest).trans (List.suffix_append line _)).isInfix)
    rw [withFeeds_append_feed hline, dropReturn, if_neg hreturn, ih hrest]
    simp only [finished_append_feed, List.append_assoc, List.cons_append]

/-- The lines of a finished text come before those of what follows. -/
theorem lines_append_of_finished (h : Finished text) (rest : List Char) :
    lines (text ++ rest) = lines text ++ lines rest := by
  rcases h with rfl | hlast
  · rfl
  · obtain ⟨front, rfl⟩ := List.getLast?_eq_some_iff.mp hlast
    rw [List.append_assoc, List.singleton_append, lines_append_feed]

/-- The first line of a text is that of a part of it, with its line end if more lines follow. -/
theorem exists_append_of_lines_eq_cons {ls : List (List Char)} (h : lines text = line :: ls) :
    ∃ front back, text = front ++ back ∧ lines front = [line] ∧ lines back = ls ∧
      (back = [] ∨ Finished front) := by
  cases text using induction_on_lines with
  | nil => cases h
  | unfinished text hne htext =>
    rw [lines_unfinished hne htext] at h
    obtain ⟨rfl, rfl⟩ := List.cons_eq_cons.mp h
    exact ⟨text, [], (List.append_nil _).symm, lines_unfinished hne htext, rfl, Or.inl rfl⟩
  | finished first rest hfirst =>
    rw [lines_append_cons hfirst] at h
    obtain ⟨rfl, rfl⟩ := List.cons_eq_cons.mp h
    exact ⟨first ++ ['\n'], rest, by simp, lines_append_cons hfirst [], rfl,
      Or.inr ((finished_append_feed first []).mpr (Or.inl rfl))⟩

/-- Where the lines of a text are cut, the text can be cut. -/
theorem exists_append_of_lines_eq_append {first second : List (List Char)}
    (h : lines text = first ++ second) :
    ∃ front back, text = front ++ back ∧ lines front = first ∧ lines back = second ∧
      (back = [] ∨ Finished front) := by
  induction first generalizing text with
  | nil => exact ⟨[], text, rfl, rfl, h, Or.inr (Or.inl rfl)⟩
  | cons line first ih =>
    obtain ⟨raw, rest, rfl, hraw, hrest, hend⟩ := exists_append_of_lines_eq_cons h
    obtain ⟨front, back, rfl, hfront, hback, hlast⟩ := ih hrest
    refine ⟨raw ++ front, back, (List.append_assoc _ _ _).symm, ?_, hback, ?_⟩
    · rcases hend with hnil | hend
      · obtain ⟨rfl, rfl⟩ := List.append_eq_nil_iff.mp hnil
        rw [List.append_nil, hraw, ← hfront]
        rfl
      · rw [lines_append_of_finished hend, hraw, hfront, List.singleton_append]
    · rcases hend with hnil | hend
      · exact Or.inl (List.append_eq_nil_iff.mp hnil).2
      · exact hlast.imp id fun hlast => hend.append hlast

end ChartDocs.Text
