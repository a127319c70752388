import ChartDocs.Proofs.Tables.Cells

/-!
# Reading code spans

A cell is read in two steps. Backslashes before bars are left out first, over the whole row. Then a
run of backticks begins a code span, and the next run of the same length ends it; runs of other
lengths in between are text. A span that begins and ends with a space and holds anything else loses
one space at each end. The fence of a written cell is longer than all runs of its text, and the
spaces that keep the text from its fence are those that reading takes away.
-/

namespace ChartDocs.Tables

open Text

variable {n : Nat} {text content : List Char}

/-- A text without the backslashes directly before bars. -/
def unescapeBars : List Char → List Char
  | [] => []
  | c :: rest =>
    if c = '\\' ∧ rest.head? = some '|' then unescapeBars rest else c :: unescapeBars rest

/-- What stands before the first run of exactly `n` backticks, and what follows it; `run` backticks
stand directly before the text. -/
def cutAtRun? (n : Nat) : (run : Nat) → List Char → Option (List Char × List Char)
  | run, [] => if run = n then some ([], []) else none
  | run, c :: rest =>
    if c = '\x60' then cutAtRun? n (run + 1) rest
    else if run = n then some ([], c :: rest)
    else (cutAtRun? n 0 rest).map fun (content, after) =>
      (List.replicate run '\x60' ++ c :: content, after)

/-- Whether a text both begins and ends with a space. -/
def IsSpaced (text : List Char) : Prop :=
  text.head? = some ' ' ∧ text.getLast? = some ' '

instance (text : List Char) : Decidable (IsSpaced text) :=
  inferInstanceAs (Decidable (text.head? = some ' ' ∧ text.getLast? = some ' '))

/-- The content of a code span without a space at each end, unless it is all spaces. -/
def dropSpaces (content : List Char) : List Char :=
  if IsSpaced content ∧ content.any (· ≠ ' ') then content.tail.dropLast else content

/-- The text in a code span; nothing may follow the span. -/
def readSpan? (span : List Char) : Option (List Char) :=
  let n := (span.takeWhile (· = '\x60')).length
  if n = 0 then none
  else
    match cutAtRun? n 0 (span.dropWhile (· = '\x60')) with
    | some (content, []) => some (dropSpaces content)
    | _ => none

/-- The text in a cell that is a code span. -/
def readCell? (cell : List Char) : Option (List Char) :=
  readSpan? (unescapeBars cell)

/-- A text on one line, with spaces for its line feeds. -/
def unbroken (text : List Char) : List Char :=
  replace '\n' [' '] text

/-- A line feed at the front becomes a space, and all else stays. -/
theorem unbroken_cons (c : Char) (text : List Char) :
    unbroken (c :: text) = (if c = '\n' then ' ' else c) :: unbroken text := by
  rw [unbroken, replace, List.flatMap_cons]
  split <;> rfl

/-- Line feeds become spaces character by character. -/
theorem unbroken_eq_map (text : List Char) :
    unbroken text = text.map fun c => if c = '\n' then ' ' else c := by
  induction text with
  | nil => rfl
  | cons c text ih => rw [unbroken_cons, ih, List.map_cons]

/-- An escaped text does not begin with a bar. -/
theorem head?_escapeCell_append_ne {rest : List Char} (h : rest.head? ≠ some '|')
    (text : List Char) : (escapeCell text ++ rest).head? ≠ some '|' := by
  cases text with
  | nil => exact h
  | cons c text =>
    rw [escapeCell_cons, escapedChar]
    split
    · simp
    · next hbar => split <;> simp [hbar]

/-- A character that is no backslash before a bar stays. -/
theorem unescapeBars_cons_of_ne {c : Char} {rest : List Char}
    (h : c = '\\' → rest.head? ≠ some '|') : unescapeBars (c :: rest) = c :: unescapeBars rest := by
  rw [unescapeBars, if_neg fun hescape => h hescape.1 hescape.2]

/-- A text without backslashes stays as it is. -/
theorem unescapeBars_append_of_not_mem {front : List Char} (h : '\\' ∉ front) (rest : List Char) :
    unescapeBars (front ++ rest) = front ++ unescapeBars rest := by
  induction front with
  | nil => rfl
  | cons c front ih =>
    obtain ⟨hc, hfront⟩ := not_or.mp (List.mem_cons.not.mp h)
    rw [List.cons_append, unescapeBars_cons_of_ne fun hescape => absurd hescape.symm hc, ih hfront,
      List.cons_append]

/-- Escaping is undone, if no bar follows the text. -/
theorem unescapeBars_escapeCell_append {rest : List Char} (h : rest.head? ≠ some '|')
    (text : List Char) :
    unescapeBars (escapeCell text ++ rest) = unbroken text ++ unescapeBars rest := by
  induction text with
  | nil => rfl
  | cons c text ih =>
    rw [escapeCell_cons, unbroken_cons, List.append_assoc, List.cons_append, ← ih, escapedChar]
    split
    · next hbar => simp [unescapeBars, hbar]
    · split
      · exact unescapeBars_cons_of_ne fun hescape => absurd hescape (by decide)
      -- A backslash of the text stays, because what comes next never begins with a bar.
      · exact unescapeBars_cons_of_ne fun _ => head?_escapeCell_append_ne h text

/-- Line feeds that become spaces change no runs of backticks. -/
theorem longestRun_unbroken (run : Nat) (text : List Char) :
    longestRun '\x60' run (unbroken text) = longestRun '\x60' run text := by
  induction text generalizing run with
  | nil => rfl
  | cons c text ih =>
    rw [unbroken_cons]
    split
    · next hfeed =>
      rw [hfeed, longestRun, longestRun, if_neg (by decide), if_neg (by decide), ih]
    · rw [longestRun, longestRun, ih, ih]

/-- A space at the end changes no runs of backticks. -/
theorem longestRun_append_space (run : Nat) (text : List Char) :
    longestRun '\x60' run (text ++ [' ']) = longestRun '\x60' run text := by
  induction text generalizing run with
  | nil => simp [longestRun]
  | cons c text ih => rw [List.cons_append, longestRun, longestRun, ih, ih]

/-- A run at the end is cut off if it has the wanted length. -/
theorem cutAtRun?_replicate (run count : Nat) :
    cutAtRun? (run + count) run (List.replicate count '\x60') = some ([], []) := by
  induction count generalizing run with
  | zero => exact if_pos rfl
  | succ count ih =>
    rw [List.replicate_succ, cutAtRun?, if_pos rfl, ← ih (run + 1)]
    congr 1
    omega

/-- A text that has only shorter runs and does not end with a backtick reaches to the fence. -/
theorem cutAtRun?_append_replicate {run : Nat} (hne : content ≠ [])
    (hlast : content.getLast? ≠ some '\x60') (hrun : longestRun '\x60' run content < n) :
    cutAtRun? n run (content ++ List.replicate n '\x60') =
      some (List.replicate run '\x60' ++ content, []) := by
  induction content generalizing run with
  | nil => exact absurd rfl hne
  | cons c rest ih =>
    rw [longestRun] at hrun
    rw [List.cons_append, cutAtRun?]
    by_cases hc : c = '\x60'
    · have hrest : rest ≠ [] := by
        rintro rfl
        exact hlast (congrArg some hc)
      rw [if_pos hc] at hrun ⊢
      rw [List.getLast?_cons_of_ne_nil hrest] at hlast
      rw [ih hrest hlast hrun, hc, List.replicate_succ', List.append_assoc, List.singleton_append]
    · rw [if_neg hc, Nat.max_lt] at hrun
      have hcut : cutAtRun? n 0 (rest ++ List.replicate n '\x60') = some (rest, []) := by
        by_cases hrest : rest = []
        · rw [hrest, List.nil_append]
          simpa using cutAtRun?_replicate 0 n
        · rw [List.getLast?_cons_of_ne_nil hrest] at hlast
          exact ih hrest hlast hrun.2
      rw [if_neg hc, if_neg (Nat.ne_of_lt hrun.1), hcut]
      rfl

/-- A fence that is longer than all runs of a content gives the content back. -/
theorem readSpan?_replicate (hne : content ≠ []) (htouches : ¬TouchesFence content)
    (hrun : longestRun '\x60' 0 content < n) :
    readSpan? (List.replicate n '\x60' ++ (content ++ List.replicate n '\x60')) =
      some (dropSpaces content) := by
  obtain ⟨hfirst, hlast⟩ := not_or.mp htouches
  have hfence : ∀ c ∈ List.replicate n '\x60', decide (c = '\x60') = true :=
    fun c hc => decide_eq_true (List.eq_of_mem_replicate hc)
  obtain ⟨c, rest, rfl⟩ := List.exists_cons_of_ne_nil hne
  have hc : decide (c = '\x60') = false := decide_eq_false fun heq => hfirst (congrArg some heq)
  have hn : n ≠ 0 := Nat.ne_of_gt (Nat.zero_lt_of_lt hrun)
  have hopening : ((List.replicate n '\x60' ++ (c :: rest ++ List.replicate n '\x60')).takeWhile
      (· = '\x60')).length = n := by
    rw [List.takeWhile_append_of_pos hfence, List.cons_append, List.takeWhile_cons, hc]
    simp
  have hcontent : (List.replicate n '\x60' ++ (c :: rest ++ List.replicate n '\x60')).dropWhile
      (· = '\x60') = c :: rest ++ List.replicate n '\x60' := by
    rw [List.dropWhile_append_of_pos hfence, List.cons_append, List.dropWhile_cons, hc]
    rfl
  rw [readSpan?, hopening, hcontent, if_neg hn, cutAtRun?_append_replicate hne hlast hrun]
  rfl

/-- A text on one line has as many characters as before. -/
theorem unbroken_ne_nil (h : text ≠ []) : unbroken text ≠ [] := by
  rw [unbroken_eq_map]
  exact fun hnil => h (List.map_eq_nil_iff.mp hnil)

/-- Line feeds do not decide whether a text would touch a fence. -/
theorem touchesFence_unbroken (text : List Char) :
    TouchesFence (unbroken text) ↔ TouchesFence text := by
  have hbacktick (c : Option Char) :
      c.map (fun c => if c = '\n' then ' ' else c) = some '\x60' ↔ c = some '\x60' := by
    cases c with
    | none => rfl
    | some c => by_cases hfeed : c = '\n' <;> simp [hfeed]
  rw [TouchesFence, TouchesFence, unbroken_eq_map, List.head?_map, List.getLast?_map, hbacktick,
    hbacktick]

/-- Without its backslashes before bars a code span holds the text on one line. -/
theorem unescapeBars_codeCell (h : text ≠ []) :
    unescapeBars (codeCell text) =
      fence text ++ (setOff text (unbroken text) ++ fence text) := by
  have hfence : '\\' ∉ fence text :=
    fun hmem => absurd (List.eq_of_mem_replicate hmem) (by decide)
  have hclosing : unescapeBars (fence text) = fence text := by
    simpa [unescapeBars] using unescapeBars_append_of_not_mem hfence []
  have hspaced : unescapeBars (' ' :: fence text) = ' ' :: fence text := by
    rw [unescapeBars_cons_of_ne fun hescape => absurd hescape (by decide), hclosing]
  rw [codeCell_eq h, unescapeBars_append_of_not_mem hfence]
  congr 1
  rw [setOff, setOff]
  split
  · rw [List.cons_append, List.append_assoc, List.singleton_append,
      unescapeBars_cons_of_ne fun hescape => absurd hescape (by decide),
      unescapeBars_escapeCell_append (by simp), hspaced]
    simp
  · rw [unescapeBars_escapeCell_append (by simp [fence, List.replicate_succ]), hclosing]

/-- A code span for a text holds something. -/
theorem setOff_ne_nil (h : text ≠ []) : setOff text text ≠ [] := by
  rw [setOff]
  split
  · exact List.cons_ne_nil _ _
  · exact h

/-- A text between spaces begins and ends with a space. -/
theorem isSpaced_spaced (text : List Char) : IsSpaced (' ' :: (text ++ [' '])) :=
  ⟨rfl, List.getLast?_concat (l := ' ' :: text)⟩

/-- What a code span holds does not touch the fence. -/
theorem not_touchesFence_setOff (text : List Char) : ¬TouchesFence (setOff text text) := by
  rw [setOff]
  split
  · obtain ⟨hfirst, hlast⟩ := isSpaced_spaced text
    rw [TouchesFence, hfirst, hlast]
    decide
  · assumption

/-- Setting off a text changes no runs of backticks. -/
theorem longestRun_setOff (text : List Char) :
    longestRun '\x60' 0 (setOff text text) = longestRun '\x60' 0 text := by
  rw [setOff]
  split
  · rw [longestRun, if_neg (by decide), longestRun_append_space, Nat.zero_max]
  · rfl

/-- Reading takes away the spaces that set a text off, and no others from such a text. -/
theorem dropSpaces_setOff (text : List Char) : dropSpaces (setOff text text) = dropSpaces text := by
  rw [setOff]
  split
  · next htouches =>
    have hmem : '\x60' ∈ text := htouches.elim List.mem_of_head? List.mem_of_getLast?
    have hother : ¬IsSpaced text := by
      rintro ⟨hfirst, hlast⟩
      rcases htouches with htouch | htouch
      · exact absurd (hfirst.symm.trans htouch) (by decide)
      · exact absurd (hlast.symm.trans htouch) (by decide)
    have hany : (' ' :: (text ++ [' '])).any (· ≠ ' ') = true :=
      List.any_eq_true.mpr ⟨'\x60', by simp [hmem], by decide⟩
    rw [dropSpaces, if_pos ⟨isSpaced_spaced text, hany⟩, dropSpaces, if_neg fun h => hother h.1]
    simp
  · rfl

/-- The code span of a text is read as the text on one line, without the spaces that a code span
cannot keep at its ends. -/
theorem readCell?_codeCell (h : text ≠ []) :
    readCell? (codeCell text) = some (dropSpaces (unbroken text)) := by
  have hsetOff : setOff text (unbroken text) = setOff (unbroken text) (unbroken text) := by
    simp only [setOff, touchesFence_unbroken]
  have hrun : longestRun '\x60' 0 (setOff (unbroken text) (unbroken text)) <
      longestRun '\x60' 0 text + 1 := by
    rw [longestRun_setOff, longestRun_unbroken]
    exact Nat.lt_succ_self _
  rw [readCell?, unescapeBars_codeCell h, hsetOff, fence,
    readSpan?_replicate (setOff_ne_nil (unbroken_ne_nil h)) (not_touchesFence_setOff _) hrun,
    dropSpaces_setOff]

/-- A content loses spaces if and only if it begins and ends with one and is not all spaces. -/
theorem dropSpaces_eq_self_iff (content : List Char) :
    dropSpaces content = content ↔ ¬(IsSpaced content ∧ content.any (· ≠ ' ')) := by
  rw [dropSpaces]
  split
  · next h =>
    have hlength : content.tail.dropLast.length < content.length := by
      have hpositive : 0 < content.length := by
        obtain ⟨c, hc, -⟩ := List.any_eq_true.mp h.2
        exact List.length_pos_of_mem hc
      simp only [List.length_dropLast, List.length_tail]
      omega
    exact iff_of_false (fun heq => Nat.ne_of_lt hlength (congrArg List.length heq))
      (not_not_intro h)
  · next h => exact iff_of_true rfl h

/-- A code span is read back as the text that was put into it, on one line, unless that text both
begins and ends with a space. -/
theorem readCell?_codeCell_of_not_isSpaced (h : text ≠ []) (hspaced : ¬IsSpaced (unbroken text)) :
    readCell? (codeCell text) = some (unbroken text) := by
  rw [readCell?_codeCell h, (dropSpaces_eq_self_iff _).mpr fun hdrops => hspaced hdrops.1]

/-- A text between spaces loses them. -/
example : readCell? (codeCell " a ".toList) = some "a".toList := by decide

/-- Backticks at an end, runs of them inside, bars, a backslash before a bar and a line feed. -/
def knotted : List Char :=
  "\x60a\x60\x60|\\|b\n".toList

/-- The knotted text is read back from its code span on one line. -/
theorem readCell?_codeCell_knotted :
    codeCell knotted = "\x60\x60\x60 \x60a\x60\x60\\|\\\\|b  \x60\x60\x60".toList ∧
      readCell? (codeCell knotted) = some "\x60a\x60\x60|\\|b ".toList :=
  ⟨by decide, readCell?_codeCell_of_not_isSpaced (by decide) (by decide)⟩

end ChartDocs.Tables
