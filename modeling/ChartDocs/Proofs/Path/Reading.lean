import ChartDocs.Proofs.Path.Ancestry

/-!
# The ways to read a path text

A path text can be read in several ways where keys hold dots or brackets. `Reads` lists them all:
a key is read up to a dot, a bracket or the end, a position is read off its brackets, and dots may
be passed over anywhere. Cutting a text into its segments is one of these ways, and matching whole
keys against it always follows one. The text of plain segments can only be read as plain segments in
one way, and cutting it finds this way unless a position is too large to be read.
-/

namespace ChartDocs.Path

open Text Decimal

/-- A text can be read as steps, with dots passed over. -/
inductive Reads : List Char → List Segment → Prop where
  | nil : Reads [] []
  | dot {text : List Char} {steps : List Segment} (h : Reads text steps) :
    Reads ('.' :: text) steps
  | key (name : String) {rest : List Char} {steps : List Segment} (hends : endsName rest = true)
    (h : Reads rest steps) : Reads (name.toList ++ rest) (.key name :: steps)
  | index {text rest : List Char} {n : Nat} {steps : List Segment}
    (htake : takeIndex? text = some (n, rest)) (h : Reads rest steps) :
    Reads text (.index n :: steps)

variable {text rest : List Char} {steps : List Segment} {n : Nat}

/-- A dot in front makes no difference. -/
theorem reads_of_dropDot (h : Reads (dropDot text) steps) : Reads text steps := by
  unfold dropDot at h
  split at h
  · exact .dot h
  · exact h

/-- A position between brackets is below the bound. -/
theorem position?_lt {inner : List Char} (h : position? inner = some n) : n < indexBound := by
  unfold position? at h
  extract_lets ds at h
  split at h
  · simp at h
  · obtain ⟨hlt, heq⟩ := Option.ite_none_right_eq_some.mp h
    exact Option.some.inj heq ▸ hlt

/-- A position is taken from between a bracket and the next closing one. -/
theorem exists_of_takeIndex? (h : takeIndex? text = some (n, rest)) :
    ∃ inner after, text = '[' :: after ∧ cutAt? ']' after = some (inner, rest) ∧
      position? inner = some n := by
  unfold takeIndex? at h
  split at h
  · next after =>
    obtain ⟨⟨inner, back⟩, hcut, h⟩ := Option.bind_eq_some_iff.mp h
    obtain ⟨m, hposition, h⟩ := Option.bind_eq_some_iff.mp h
    obtain ⟨rfl, rfl⟩ := Prod.mk.inj (Option.some.inj h)
    exact ⟨inner, after, rfl, hcut, hposition⟩
  · simp at h

/-- Only positions below the bound are read. -/
theorem Reads.index_lt (h : Reads text steps) : ∀ m, .index m ∈ steps → m < indexBound := by
  induction h with
  | nil => exact fun m hm => absurd hm List.not_mem_nil
  | dot h ih => exact ih
  | key name hends h ih => exact fun m hm => ih m (by simpa using hm)
  | index htake h ih =>
    intro m hm
    rcases List.mem_cons.mp hm with heq | hm
    · obtain ⟨inner, after, -, -, hposition⟩ := exists_of_takeIndex? htake
      obtain rfl := Segment.index.inj heq
      exact position?_lt hposition
    · exact ih m hm

/-- A text is cut at the same character whatever stands at its end. -/
theorem cutAt?_append_right {c : Char} {cut : List Char × List Char}
    (h : cutAt? c text = some cut) (more : List Char) :
    cutAt? c (text ++ more) = some (cut.1, cut.2 ++ more) := by
  induction text generalizing cut with
  | nil => simp [cutAt?] at h
  | cons d text ih =>
    rw [cutAt?] at h
    rw [List.cons_append, cutAt?]
    split at h
    · next hd =>
      obtain rfl := Option.some.inj h
      rw [if_pos hd]
    · next hd =>
      obtain ⟨below, hbelow, rfl⟩ := Option.map_eq_some_iff.mp h
      rw [if_neg hd, ih hbelow]
      rfl

/-- A position is taken off the front whatever follows. -/
theorem takeIndex?_append (h : takeIndex? text = some (n, rest)) (more : List Char) :
    takeIndex? (text ++ more) = some (n, rest ++ more) := by
  obtain ⟨inner, after, rfl, hcut, hposition⟩ := exists_of_takeIndex? h
  simp [takeIndex?, cutAt?_append_right hcut, hposition]

/-- A key is read in front of what ends it, unless it is empty. -/
theorem reads_key_append (name : List Char) (hends : endsName rest = true) (h : Reads rest steps) :
    Reads (name ++ rest) ((if name = [] then [] else [.key (String.ofList name)]) ++ steps) := by
  split
  · next hempty => rwa [hempty]
  · simpa using Reads.key (String.ofList name) hends h

/-- Positions one after the other are read as steps. -/
theorem reads_indexSegments (fuel : Nat) (text : List Char) (hends : endsName rest = true)
    (h : Reads rest steps) : Reads (text ++ rest) (indexSegments fuel text ++ steps) := by
  induction fuel generalizing text with
  | zero => exact reads_key_append text hends h
  | succ fuel ih =>
    rw [indexSegments]
    split
    · next m after htake => exact .index (takeIndex?_append htake rest) (ih after)
    · exact reads_key_append text hends h

/-- What stops before a bracket or at the end is followed by what ends a name. -/
theorem endsName_dropWhile (piece : List Char) (hends : endsName rest = true) :
    endsName (piece.dropWhile (· ≠ '[') ++ rest) = true := by
  cases hback : piece.dropWhile (· ≠ '[') with
  | nil => exact hends
  | cons c back =>
    have hc : c = '[' := by
      have hne : piece.dropWhile (· ≠ '[') ≠ [] := by
        rw [hback]
        exact List.cons_ne_nil c back
      have hnot := List.head_dropWhile_not (· ≠ '[') hne
      simp only [hback, List.head_cons] at hnot
      simpa using hnot
    simp [endsName, hc]

/-- A piece between dots is read as a key and positions. -/
theorem reads_pieceSegments (piece : List Char) (hends : endsName rest = true)
    (h : Reads rest steps) : Reads (piece ++ rest) (pieceSegments piece ++ steps) := by
  have hback := reads_indexSegments (piece.dropWhile (· ≠ '[')).length
    (piece.dropWhile (· ≠ '[')) hends h
  have hpiece := reads_key_append (piece.takeWhile (· ≠ '['))
    (endsName_dropWhile piece hends) hback
  rw [← List.append_assoc, List.takeWhile_append_dropWhile] at hpiece
  rw [pieceSegments, List.append_assoc]
  exact hpiece

/-- The segments of a text are a way to read it. -/
theorem reads_segments (text : List Char) : Reads text (segments text) := by
  have hpieces : ∀ ps : List (List Char), ps ≠ [] →
      Reads (join ['.'] ps) (ps.flatMap pieceSegments) := by
    intro ps hne
    induction ps with
    | nil => exact absurd rfl hne
    | cons piece ps ih =>
      cases ps with
      | nil =>
        have h : Reads (piece ++ []) (pieceSegments piece ++ []) :=
          reads_pieceSegments piece rfl .nil
        simpa [join] using h
      | cons next ps =>
        have h := reads_pieceSegments piece rfl (.dot (ih (by simp)))
        simpa [join] using h
  have h := hpieces (splitAt '.' text) (splitAt_ne_nil '.' text)
  rwa [join_splitAt] at h

/-- What is taken off the front of a text that starts with a position is this position. -/
theorem eq_of_takeIndex?_text {m : Nat} {after : List Char}
    (h : takeIndex? ((Segment.index m).text ++ after) = some (n, rest)) :
    n = m ∧ rest = after := by
  obtain ⟨inner, back, htext, hcut, hposition⟩ := exists_of_takeIndex? h
  have hback : back = digits m ++ ']' :: after := by
    simpa [Segment.text] using htext.symm
  rw [hback, cutAt?_append (not_mem_digits (c := ']') (by decide) m)] at hcut
  obtain ⟨rfl, rfl⟩ := Prod.mk.inj (Option.some.inj hcut)
  rw [position?_digits] at hposition
  obtain ⟨-, heq⟩ := Option.ite_none_right_eq_some.mp hposition
  exact ⟨(Option.some.inj heq).symm, rfl⟩

/-- Nothing is dropped from a text that starts with a plain key. -/
theorem dropDot_append {name : String} (hname : (Segment.key name).IsPlain) (rest : List Char) :
    dropDot (name.toList ++ rest) = name.toList ++ rest := by
  obtain ⟨c, tail, hcons, hdot, -⟩ := exists_eq_cons_of_isPlain hname
  rw [hcons, List.cons_append, dropDot]
  intro after hdotted
  exact hdot (List.cons.inj hdotted).1

/-- A plain text does not start with a dot once the first one is dropped. -/
theorem dropDot_dropDot_continuation (h : ∀ s ∈ steps, s.IsPlain) :
    dropDot (dropDot (continuation steps)) = dropDot (continuation steps) := by
  cases steps with
  | nil => rfl
  | cons s steps =>
    cases s with
    | index m => rfl
    | key name => exact dropDot_append (h (.key name) (by simp)) _

/-- A plain key that a plain text starts with, and that ends there, is its first segment. -/
theorem exists_of_continuation_eq_append {name : String} (hname : (Segment.key name).IsPlain)
    (hends : endsName rest = true) (hsteps : ∀ s ∈ steps, s.IsPlain)
    (h : dropDot (continuation steps) = name.toList ++ rest) :
    ∃ below, steps = .key name :: below ∧ rest = continuation below := by
  obtain ⟨c, tail, hcons, -, hc⟩ := exists_eq_cons_of_isPlain hname
  obtain ⟨-, hdot, hbracket⟩ := hname
  cases steps with
  | nil => simp [hcons, dropDot] at h
  | cons s below =>
    cases s with
    | index m =>
      rw [hcons] at h
      exact absurd (List.cons.inj h).1.symm hc
    | key other =>
      obtain ⟨-, hotherDot, hotherBracket⟩ := hsteps (.key other) (by simp)
      obtain ⟨heq, hrest⟩ := eq_of_append_eq_append ⟨hotherDot, hotherBracket⟩ ⟨hdot, hbracket⟩
        (endsName_continuation below) hends h
      exact ⟨below, by rw [String.toList_inj.mp heq], hrest.symm⟩

/-- A position that a plain text starts with is its first segment. -/
theorem exists_of_takeIndex?_continuation (hsteps : ∀ s ∈ steps, s.IsPlain)
    (h : takeIndex? (dropDot (continuation steps)) = some (n, rest)) :
    ∃ below, steps = .index n :: below ∧ rest = continuation below := by
  cases steps with
  | nil => simp [dropDot, takeIndex?] at h
  | cons s below =>
    cases s with
    | index m =>
      obtain ⟨rfl, rfl⟩ := eq_of_takeIndex?_text h
      exact ⟨below, rfl, rfl⟩
    | key name =>
      rw [takeIndex?_continuation_key (hsteps _ (by simp))] at h
      simp at h

/-- Plain segments that a text of plain segments can be read as are these segments. -/
theorem Reads.eq_of_isPlain (h : Reads text steps) (hsteps : ∀ s ∈ steps, s.IsPlain)
    {more : List Segment} (hmore : ∀ s ∈ more, s.IsPlain)
    (htext : dropDot text = dropDot (continuation more)) : steps = more := by
  -- The dot before the next key may have been read already, so it is dropped on both sides.
  induction h generalizing more with
  | nil =>
    cases more with
    | nil => rfl
    | cons s more => exact absurd htext.symm (dropDot_continuation_ne_nil (hmore s (by simp)) more)
  | dot h ih =>
    refine ih hsteps hmore ?_
    rw [dropDot] at htext
    rw [htext, dropDot_dropDot_continuation hmore]
  | key name hends h ih =>
    obtain ⟨hname, hsteps⟩ := List.forall_mem_cons.mp hsteps
    rw [dropDot_append hname] at htext
    obtain ⟨below, rfl, rfl⟩ :=
      exists_of_continuation_eq_append hname hends hmore htext.symm
    rw [ih hsteps (List.forall_mem_cons.mp hmore).2 rfl]
  | index htake h ih =>
    obtain ⟨inner, after, rfl, -⟩ := exists_of_takeIndex? htake
    rw [dropDot] at htext
    · rw [htext] at htake
      obtain ⟨below, rfl, rfl⟩ := exists_of_takeIndex?_continuation hmore htake
      rw [ih (List.forall_mem_cons.mp hsteps).2 (List.forall_mem_cons.mp hmore).2 rfl]
    · simp

/-- The text of plain segments is read as these and no other plain segments. -/
theorem Reads.eq_of_render (hmore : ∀ s ∈ steps, s.IsPlain) {more : List Segment}
    (h : Reads (render steps) more) (hplain : ∀ s ∈ more, s.IsPlain) : more = steps := by
  refine h.eq_of_isPlain hplain hmore ?_
  rw [render_eq_dropDot (ne_empty_of_isPlain hmore), dropDot_dropDot_continuation hmore]

/-- Plain segments come back from their path text if and only if their positions are below the
bound, and no other plain segments have the same path text. -/
theorem segments_render_eq_iff (hsteps : ∀ s ∈ steps, s.IsPlain) :
    (segments (render steps) = steps ↔ ∀ n, .index n ∈ steps → n < indexBound) ∧
      ∀ more, (∀ s ∈ more, s.IsPlain) → render more = render steps → more = steps := by
  refine ⟨⟨fun hcut => ?_, segments_of_render hsteps⟩, fun more hmore htext => ?_⟩
  · have hread := reads_segments (render steps)
    rw [hcut] at hread
    exact hread.index_lt
  · exact eq_of_render_eq hmore hsteps htext

/-- Positions in front and one after the other, the greatest position, and keys that hold digits or
closing brackets. -/
def nested : List Segment :=
  [.index 0, .index 12, .key "a]1", .index 18446744073709551615, .key "80", .index 7]

/-- The nested steps are read back from their path text, and no other plain steps spell it. -/
theorem segments_render_nested :
    (∀ s ∈ nested, s.IsPlain) ∧ (∀ n, .index n ∈ nested → n < indexBound) ∧
      render nested = "[0][12].a]1[18446744073709551615].80[7]".toList ∧
      segments "[0][12].a]1[18446744073709551615].80[7]".toList = nested ∧
      ∀ more, (∀ s ∈ more, s.IsPlain) → render more = render nested → more = nested := by
  have hplain : ∀ s ∈ nested, s.IsPlain := by decide +kernel
  have hbound : ∀ n, .index n ∈ nested → n < indexBound := by
    simp [nested, indexBound]
  have htext : render nested = "[0][12].a]1[18446744073709551615].80[7]".toList := by
    decide +kernel
  obtain ⟨hiff, honly⟩ := segments_render_eq_iff hplain
  exact ⟨hplain, hbound, htext, htext ▸ hiff.mpr hbound, honly⟩

/-- From the bound on a position stays text. -/
example : segments (render [.key "a", .index 18446744073709551616]) =
    [.key "a", .key "[18446744073709551616]"] := by decide +kernel

end ChartDocs.Path
