import ChartDocs.Proofs.Text.Pieces
import ChartDocs.Path

/-!
# Path texts and their segments

A path text is the texts of its segments one after the other, without the dot in front of a first
key. Taking it apart gives the segments back when no key holds a dot or a bracket. A key with dots
comes back in pieces: the segments of the text are the finest ones that spell it.
-/

namespace ChartDocs

open Text Decimal

namespace Segment

/-- The text by which a segment continues a path. -/
def text : Segment → List Char
  | key name => '.' :: name.toList
  | index n => '[' :: digits n ++ [']']

/-- A key that a path text shows as it is: not empty, and without dots and opening brackets. -/
def IsPlain : Segment → Prop
  | key name => name ≠ "" ∧ '.' ∉ name.toList ∧ '[' ∉ name.toList
  | index _ => True

/-- A key without opening brackets whose pieces between dots are not empty. -/
def IsNeat : Segment → Prop
  | key name => '[' ∉ name.toList ∧ ∀ piece ∈ splitAt '.' name.toList, piece ≠ []
  | index _ => True

instance (s : Segment) : Decidable s.IsPlain := by
  cases s <;> unfold IsPlain <;> infer_instance

instance (s : Segment) : Decidable s.IsNeat := by
  cases s <;> unfold IsNeat <;> infer_instance

/-- Whether a segment is a position or a key without dots. -/
def isDotless : Segment → Bool
  | key name => !name.toList.contains '.'
  | index _ => true

/-- The segments that a path text shows for a segment: a key with dots falls into pieces. -/
def pieces : Segment → List Segment
  | key name => (splitAt '.' name.toList).map fun piece => key (String.ofList piece)
  | index n => [index n]

end Segment

namespace Path

/-- The text by which segments continue a path. -/
def continuation (steps : List Segment) : List Char :=
  steps.flatMap Segment.text

/-- No segments continue a path with nothing. -/
@[simp] theorem continuation_nil : continuation [] = [] := rfl

/-- The first segment continues a path before the others. -/
@[simp] theorem continuation_cons (s : Segment) (steps : List Segment) :
    continuation (s :: steps) = s.text ++ continuation steps := rfl

/-- Segments continue a path before those that follow them. -/
@[simp] theorem continuation_append (steps more : List Segment) :
    continuation (steps ++ more) = continuation steps ++ continuation more := by
  simp [continuation]

/-- A key is not empty if its pieces are not. -/
theorem name_ne_empty_of_isNeat {name : String} (h : (Segment.key name).IsNeat) : name ≠ "" := by
  rintro rfl
  exact h.2 [] (by simp [splitAt]) rfl

/-- A plain segment is neat. -/
theorem isNeat_of_isPlain {s : Segment} (h : s.IsPlain) : s.IsNeat := by
  cases s with
  | index n => trivial
  | key name =>
    refine ⟨h.2.2, fun piece hpiece => ?_⟩
    rw [splitAt_of_not_mem h.2.1, List.mem_singleton] at hpiece
    simpa [hpiece] using h.1

/-- A path that is not empty is extended by the text of the segment. -/
theorem extend_of_ne_nil {path : List Char} (h : path ≠ []) (s : Segment) :
    extend path s = path ++ s.text := by
  cases s with
  | key name => simp [extend, Segment.text, h]
  | index n => simp [extend, Segment.text]

/-- Segments after a path that is not empty only append their texts. -/
theorem foldl_extend {path : List Char} (h : path ≠ []) (steps : List Segment) :
    steps.foldl extend path = path ++ continuation steps := by
  induction steps generalizing path with
  | nil => simp
  | cons s steps ih =>
    rw [List.foldl_cons, extend_of_ne_nil h, ih (by simp [h]), continuation_cons, List.append_assoc]

/-- A path text is the texts of its segments without the dot in front. -/
theorem render_eq_dropDot {steps : List Segment} (h : ∀ s ∈ steps, s ≠ .key "") :
    render steps = dropDot (continuation steps) := by
  cases steps with
  | nil => rfl
  | cons s steps =>
    rw [render, List.foldl_cons]
    cases s with
    | index n => exact foldl_extend (by simp [extend]) steps
    | key name =>
      have hname : name.toList ≠ [] := by
        intro e
        exact h (.key name) (by simp) (by rw [String.toList_eq_nil_iff.mp e])
      exact foldl_extend (by simpa [extend] using hname) steps

/-- Only the root has no path text. -/
theorem render_ne_nil {steps : List Segment} (hne : steps ≠ []) (h : ∀ s ∈ steps, s ≠ .key "") :
    render steps ≠ [] := by
  cases steps with
  | nil => exact absurd rfl hne
  | cons s steps =>
    have hfirst : extend [] s ≠ [] := by
      cases s with
      | index n => simp [extend]
      | key name =>
        have hname : name ≠ "" := fun e => h (.key name) (by simp) (by rw [e])
        simpa [extend] using hname
    rw [render, List.foldl_cons, foldl_extend hfirst]
    simp [hfirst]

/-- A position and what follows it are appended to the path text before it. -/
theorem render_append_index (steps : List Segment) (n : Nat) (more : List Segment) :
    render (steps ++ .index n :: more) =
      render steps ++ '[' :: (digits n ++ ']' :: continuation more) := by
  rw [render, List.foldl_append, List.foldl_cons, foldl_extend (by simp [extend])]
  simp [extend, render]

/-- The digits of a number are digits only. -/
theorem not_mem_digits {c : Char} (h : c.isDigit = false) (n : Nat) : c ∉ digits n := by
  intro hmem
  rw [Nat.isDigit_of_mem_toDigits (by decide) (by decide) hmem] at h
  exact Bool.noConfusion h

/-- A text is cut at the first of the characters. -/
theorem cutAt?_append {c : Char} {inner : List Char} (h : c ∉ inner) (rest : List Char) :
    cutAt? c (inner ++ c :: rest) = some (inner, rest) := by
  induction inner with
  | nil => simp [cutAt?]
  | cons d inner ih =>
    have hd : d ≠ c := fun e => h (by simp [e])
    rw [List.cons_append, cutAt?, if_neg hd, ih fun hinner => h (List.mem_cons_of_mem d hinner)]
    rfl

/-- Written digits denote their number if it is below the bound, and nothing otherwise. -/
theorem position?_digits (n : Nat) :
    position? (digits n) = if n < indexBound then some n else none := by
  have hall : (digits n).all Char.isDigit = true :=
    List.all_eq_true.mpr fun c hc => Nat.isDigit_of_mem_toDigits (by decide) (by decide) hc
  have hne : digits n ≠ [] := Nat.toDigits_ne_nil
  have hplus : ∀ rest, digits n ≠ '+' :: rest := fun rest e =>
    not_mem_digits (c := '+') (by decide) n (by simp [e])
  have hvalue : ofDigits (digits n) = n := Nat.ofDigitChars_toDigits (by decide) (by decide)
  unfold position?
  split
  · next rest e => exact absurd e (hplus rest)
  · simp [hne, hall, hvalue]

/-- A written position is read back. -/
theorem takeIndex?_text {n : Nat} (h : n < indexBound) (rest : List Char) :
    takeIndex? ((Segment.index n).text ++ rest) = some (n, rest) := by
  have htext : (Segment.index n).text ++ rest = '[' :: (digits n ++ ']' :: rest) := by
    simp [Segment.text]
  simp [htext, takeIndex?, cutAt?_append (not_mem_digits (c := ']') (by decide) n),
    position?_digits, h]

/-- Positions are read back from their brackets. -/
theorem indexSegments_continuation {positions : List Nat}
    (h : ∀ n ∈ positions, n < indexBound) {fuel : Nat} (hfuel : positions.length ≤ fuel) :
    indexSegments fuel (continuation (positions.map .index)) = positions.map .index := by
  induction positions generalizing fuel with
  | nil => cases fuel <;> simp [indexSegments, takeIndex?]
  | cons n positions ih =>
    cases fuel with
    | zero => simp at hfuel
    | succ fuel =>
      rw [List.map_cons, continuation_cons, indexSegments, takeIndex?_text (h n (by simp))]
      simp only [List.cons.injEq, true_and]
      exact ih (fun m hm => h m (List.mem_cons_of_mem n hm)) (by simpa using hfuel)

/-- Each position has at least one character of text. -/
theorem length_le_continuation (positions : List Nat) :
    positions.length ≤ (continuation (positions.map .index)).length := by
  induction positions with
  | nil => simp
  | cons n positions ih =>
    simp only [List.map_cons, continuation_cons, Segment.text, List.length_append,
      List.length_cons]
    omega

/-- Nothing stands before a character that does not occur. -/
theorem beforeLast?_of_not_mem {c : Char} {text : List Char} (h : c ∉ text) :
    beforeLast? c text = none := by
  induction text with
  | nil => rfl
  | cons d text ih =>
    have hd : d ≠ c := fun e => h (by simp [e])
    rw [beforeLast?, ih fun htext => h (List.mem_cons_of_mem d htext)]
    simp [hd]

/-- What stands before the last of the characters ends at it. -/
theorem beforeLast?_append {c : Char} {back : List Char} (h : c ∉ back) (front : List Char) :
    beforeLast? c (front ++ c :: back) = some front := by
  induction front with
  | nil => simp [beforeLast?, beforeLast?_of_not_mem h]
  | cons d front ih => rw [List.cons_append, beforeLast?, ih]

/-- Steps are keys only, or there is a last position among them. -/
theorem exists_last_index (steps : List Segment) :
    (∀ n, .index n ∉ steps) ∨
      ∃ front n back, steps = front ++ .index n :: back ∧ ∀ m, .index m ∉ back := by
  induction steps with
  | nil => exact Or.inl fun n => List.not_mem_nil
  | cons s steps ih =>
    rcases ih with hkeys | ⟨front, n, back, rfl, hback⟩
    · cases s with
      | index n => exact Or.inr ⟨[], n, steps, rfl, hkeys⟩
      | key name => exact Or.inl fun n hn => hkeys n (by simpa using hn)
    · exact Or.inr ⟨s :: front, n, back, rfl, hback⟩

/-- Keys show no brackets. -/
theorem bracket_not_mem_continuation {steps : List Segment} (hneat : ∀ s ∈ steps, s.IsNeat)
    (hkeys : ∀ n, .index n ∉ steps) : '[' ∉ continuation steps := by
  intro hmem
  obtain ⟨s, hs, hmem⟩ := List.mem_flatMap.mp hmem
  cases s with
  | index n => exact hkeys n hs
  | key name =>
    rcases List.mem_cons.mp hmem with heq | hmem
    · exact absurd heq (by decide)
    · exact (hneat _ hs).1 hmem

/-- Dropping a dot brings no characters. -/
theorem mem_of_mem_dropDot {c : Char} {text : List Char} (h : c ∈ dropDot text) : c ∈ text := by
  unfold dropDot at h
  split at h
  · exact List.mem_cons_of_mem _ h
  · exact h

/-- Without positions a path text leads into no sequence. -/
theorem beforeLast?_render_of_keys {steps : List Segment} (hneat : ∀ s ∈ steps, s.IsNeat)
    (hkeys : ∀ n, .index n ∉ steps) : beforeLast? '[' (render steps) = none := by
  have hne : ∀ s ∈ steps, s ≠ .key "" := by
    rintro s hs rfl
    exact name_ne_empty_of_isNeat (hneat _ hs) rfl
  rw [render_eq_dropDot hne]
  exact beforeLast?_of_not_mem fun hmem =>
    bracket_not_mem_continuation hneat hkeys (mem_of_mem_dropDot hmem)

/-- A path text leads into the sequence that its last position counts in. -/
theorem beforeLast?_render_index (front : List Segment) (n : Nat) {back : List Segment}
    (hneat : ∀ s ∈ back, s.IsNeat) (hkeys : ∀ m, .index m ∉ back) :
    beforeLast? '[' (render (front ++ .index n :: back)) = some (render front) := by
  rw [render_append_index]
  refine beforeLast?_append ?_ _
  simp [not_mem_digits (c := '[') (by decide) n, bracket_not_mem_continuation hneat hkeys]

/-- A key with positions after it is read as the key and the positions. -/
theorem pieceSegments_append {name : List Char} (hname : '[' ∉ name) {positions : List Nat}
    (h : ∀ n ∈ positions, n < indexBound) :
    pieceSegments (name ++ continuation (positions.map .index)) =
      (if name = [] then [] else [.key (String.ofList name)]) ++ positions.map .index := by
  have hstop : ∀ c ∈ name, (c ≠ '[' : Bool) = true := fun c hc => by
    simpa using fun e : c = '[' => hname (e ▸ hc)
  have htake : (continuation (positions.map .index)).takeWhile (· ≠ '[') = [] := by
    cases positions <;> simp [Segment.text]
  have hdrop : (continuation (positions.map .index)).dropWhile (· ≠ '[') =
      continuation (positions.map .index) := by
    cases positions <;> simp [Segment.text]
  rw [pieceSegments, List.takeWhile_append_of_pos hstop, List.dropWhile_append_of_pos hstop,
    htake, hdrop, List.append_nil, indexSegments_continuation h (length_le_continuation positions)]

/-- The segments of a text that starts with a piece without dots. The piece is any that is read as
`front`, also when positions follow it. -/
theorem segments_append (piece : List Char) (front : List Segment) (hpiece : '.' ∉ piece)
    (hfront : ∀ positions : List Nat, (∀ n ∈ positions, n < indexBound) →
      pieceSegments (piece ++ continuation (positions.map .index)) =
        front ++ positions.map .index)
    {steps : List Segment} (hplain : ∀ s ∈ steps, s.IsPlain)
    (hbound : ∀ n, .index n ∈ steps → n < indexBound) :
    segments (piece ++ continuation steps) = front ++ steps := by
  induction steps generalizing piece front with
  | nil =>
    have h := hfront [] (by simp)
    simpa [segments, splitAt_of_not_mem hpiece] using h
  | cons s steps ih =>
    have hplain' : ∀ s ∈ steps, s.IsPlain := fun t ht => hplain t (List.mem_cons_of_mem s ht)
    have hbound' : ∀ n, .index n ∈ steps → n < indexBound := fun n hn =>
      hbound n (List.mem_cons_of_mem s hn)
    cases s with
    | index n =>
      -- The position belongs to the piece.
      have hn : n < indexBound := hbound n (by simp)
      have hmore : '.' ∉ piece ++ (Segment.index n).text := by
        simp [Segment.text, hpiece, not_mem_digits (c := '.') (by decide) n]
      have hread := ih (piece ++ (Segment.index n).text) (front ++ [.index n]) hmore
        (fun positions hpositions => by
          have h := hfront (n :: positions) (by simpa using ⟨hn, hpositions⟩)
          simpa using h) hplain' hbound'
      simpa using hread
    | key name =>
      -- The dot before the key ends the piece.
      obtain ⟨hempty, hdot, hbracket⟩ := hplain (.key name) (by simp)
      have hne : name.toList ≠ [] := by simpa using hempty
      have hread := ih name.toList [.key name] hdot (fun positions hpositions => by
        rw [pieceSegments_append hbracket hpositions]
        simp [hne]) hplain' hbound'
      have h := hfront [] (by simp)
      rw [List.map_nil, continuation_nil, List.append_nil, List.append_nil] at h
      have hcut : piece ++ continuation (.key name :: steps) =
          piece ++ '.' :: (name.toList ++ continuation steps) := by
        simp [Segment.text]
      rw [hcut, segments, splitAt_append_cons hpiece, List.flatMap_cons, h, ← segments, hread]
      rfl

/-- Taking apart the text of plain segments gives them back. -/
theorem segments_dropDot_continuation {steps : List Segment} (hplain : ∀ s ∈ steps, s.IsPlain)
    (hbound : ∀ n, .index n ∈ steps → n < indexBound) :
    segments (dropDot (continuation steps)) = steps := by
  cases steps with
  | nil => rfl
  | cons s steps =>
    cases s with
    | index n =>
      refine segments_append [] [] (by simp) ?_ hplain hbound
      intro positions hpositions
      have h := pieceSegments_append (List.not_mem_nil (a := '[')) hpositions
      simpa using h
    | key name =>
      obtain ⟨hempty, hdot, hbracket⟩ := hplain (.key name) (by simp)
      have hne : name.toList ≠ [] := by simpa using hempty
      refine segments_append name.toList [.key name] hdot ?_
        (fun t ht => hplain t (List.mem_cons_of_mem _ ht))
        (fun n hn => hbound n (List.mem_cons_of_mem _ hn))
      intro positions hpositions
      rw [pieceSegments_append hbracket hpositions]
      simp [hne]

/-- No plain segment is the empty key. -/
theorem ne_empty_of_isPlain {steps : List Segment} (h : ∀ s ∈ steps, s.IsPlain) :
    ∀ s ∈ steps, s ≠ .key "" := by
  rintro s hs rfl
  exact (h _ hs).1 rfl

/-- Plain segments can be read off the path text that they are rendered to. -/
theorem segments_of_render {steps : List Segment} (hplain : ∀ s ∈ steps, s.IsPlain)
    (hbound : ∀ n, .index n ∈ steps → n < indexBound) : segments (render steps) = steps := by
  rw [render_eq_dropDot (ne_empty_of_isPlain hplain),
    segments_dropDot_continuation hplain hbound]

/-- The finest segments that spell the same text. -/
def refine (steps : List Segment) : List Segment :=
  steps.flatMap Segment.pieces

/-- Pieces between dots, each behind a dot, spell the text that they were cut from. -/
theorem continuation_map_key {ps : List (List Char)} (hne : ps ≠ []) :
    continuation (ps.map fun piece => .key (String.ofList piece)) = '.' :: join ['.'] ps := by
  induction ps with
  | nil => exact absurd rfl hne
  | cons piece ps ih =>
    cases ps with
    | nil => simp [Segment.text, join]
    | cons next ps =>
      rw [List.map_cons, continuation_cons, ih (by simp)]
      simp [Segment.text, join]

/-- The pieces of a segment spell its text. -/
theorem continuation_pieces (s : Segment) : continuation s.pieces = s.text := by
  cases s with
  | index n => simp [Segment.pieces]
  | key name =>
    rw [Segment.pieces, continuation_map_key (splitAt_ne_nil '.' _), join_splitAt]
    rfl

/-- The finest segments spell the same text. -/
theorem continuation_refine (steps : List Segment) :
    continuation (refine steps) = continuation steps := by
  induction steps with
  | nil => rfl
  | cons s steps ih =>
    rw [refine, List.flatMap_cons, continuation_append, continuation_pieces, ← refine, ih,
      continuation_cons]

/-- The pieces of a neat key are plain. -/
theorem isPlain_of_mem_refine {steps : List Segment} (h : ∀ s ∈ steps, s.IsNeat) :
    ∀ s ∈ refine steps, s.IsPlain := by
  intro s hs
  obtain ⟨whole, hwhole, hs⟩ := List.mem_flatMap.mp hs
  cases whole with
  | index n =>
    rw [List.mem_singleton.mp hs]
    trivial
  | key name =>
    obtain ⟨piece, hpiece, rfl⟩ := List.mem_map.mp hs
    obtain ⟨hbracket, hpieces⟩ := h (.key name) hwhole
    refine ⟨by simpa using hpieces piece hpiece, ?_, ?_⟩
    · simpa using not_mem_of_mem_splitAt hpiece
    · rw [String.toList_ofList]
      intro hmem
      apply hbracket
      rw [← join_splitAt '.' name.toList]
      exact mem_join_of_mem hpiece hmem

/-- The positions among the finest segments are positions of the given ones. -/
theorem index_mem_of_mem_refine {steps : List Segment} {n : Nat} (h : .index n ∈ refine steps) :
    .index n ∈ steps := by
  obtain ⟨whole, hwhole, hmem⟩ := List.mem_flatMap.mp h
  cases whole with
  | index m => rwa [List.mem_singleton.mp hmem]
  | key name => simp [Segment.pieces] at hmem

/-- Segments are their own finest ones only if no key holds a dot. -/
theorem isDotless_of_refine_eq {steps : List Segment} (h : refine steps = steps) :
    ∀ s ∈ steps, s.isDotless = true := by
  intro s hs
  cases s with
  | index n => rfl
  | key name =>
    rw [← h] at hs
    obtain ⟨whole, -, hmem⟩ := List.mem_flatMap.mp hs
    cases whole with
    | index n => simp [Segment.pieces] at hmem
    | key other =>
      obtain ⟨piece, hpiece, e⟩ := List.mem_map.mp hmem
      have hdot := not_mem_of_mem_splitAt hpiece
      simpa [Segment.isDotless, ← Segment.key.inj e] using hdot

/-- Segments without dots are their own finest ones. -/
theorem refine_of_isDotless {steps : List Segment} (h : ∀ s ∈ steps, s.isDotless = true) :
    refine steps = steps := by
  induction steps with
  | nil => rfl
  | cons s steps ih =>
    have hs : s.pieces = [s] := by
      cases s with
      | index n => rfl
      | key name =>
        have hdot : '.' ∉ name.toList := by simpa [Segment.isDotless] using h (.key name) (by simp)
        simp [Segment.pieces, splitAt_of_not_mem hdot]
    rw [refine, List.flatMap_cons, hs, ← refine, ih fun t ht => h t (List.mem_cons_of_mem s ht)]
    rfl

/-- The segments of the text of neat keys and positions are the finest ones. -/
theorem segments_render_of_isNeat {steps : List Segment} (h : ∀ s ∈ steps, s.IsNeat)
    (hbound : ∀ n, .index n ∈ steps → n < indexBound) :
    segments (render steps) = refine steps := by
  have hne : ∀ s ∈ steps, s ≠ .key "" := by
    rintro s hs rfl
    exact name_ne_empty_of_isNeat (h _ hs) rfl
  rw [render_eq_dropDot hne, ← continuation_refine,
    segments_dropDot_continuation (isPlain_of_mem_refine h)
      fun n hn => hbound n (index_mem_of_mem_refine hn)]

/-- A position is taken from the front of what continues a path. -/
theorem takeIndex?_continuation {n : Nat} (h : n < indexBound) (steps : List Segment) :
    takeIndex? (dropDot (continuation (.index n :: steps))) = some (n, continuation steps) :=
  takeIndex?_text h (continuation steps)

/-- A plain key starts with a character that is no dot and no opening bracket. -/
theorem exists_eq_cons_of_isPlain {name : String} (h : (Segment.key name).IsPlain) :
    ∃ c rest, name.toList = c :: rest ∧ c ≠ '.' ∧ c ≠ '[' := by
  obtain ⟨hempty, hdot, hbracket⟩ := h
  have hne : name.toList ≠ [] := by simpa using hempty
  obtain ⟨c, rest, hcons⟩ := List.exists_cons_of_ne_nil hne
  have hc : c ∈ name.toList := hcons ▸ List.mem_cons_self
  exact ⟨c, rest, hcons, fun e => hdot (e ▸ hc), fun e => hbracket (e ▸ hc)⟩

/-- A plain segment continues a path with more than a dot. -/
theorem dropDot_continuation_ne_nil {s : Segment} (h : s.IsPlain) (steps : List Segment) :
    dropDot (continuation (s :: steps)) ≠ [] := by
  cases s with
  | index n => simp [Segment.text, dropDot]
  | key name =>
    have hne : name.toList ≠ [] := by simpa using h.1
    simp [Segment.text, dropDot, hne]

/-- A text that starts with a key starts with no position. -/
theorem takeIndex?_continuation_key {name : String} (h : (Segment.key name).IsPlain)
    (steps : List Segment) : takeIndex? (dropDot (continuation (.key name :: steps))) = none := by
  obtain ⟨c, tail, htext, -, hc⟩ := exists_eq_cons_of_isPlain h
  simp only [continuation_cons, Segment.text, List.cons_append, dropDot, htext]
  rw [takeIndex?]
  simpa using hc

/-- Whether a character neither ends a name nor opens a position. -/
def isNameChar (c : Char) : Bool :=
  c ≠ '.' && c ≠ '['

/-- A name without dots and brackets is taken up to its end. -/
theorem takeWhile_isNameChar_append {name rest : List Char} (hdot : '.' ∉ name)
    (hbracket : '[' ∉ name) (hends : endsName rest = true) :
    (name ++ rest).takeWhile isNameChar = name := by
  have hname : ∀ c ∈ name, isNameChar c = true := fun c hc => by
    have h₁ : c ≠ '.' := fun e => hdot (e ▸ hc)
    have h₂ : c ≠ '[' := fun e => hbracket (e ▸ hc)
    simp [isNameChar, h₁, h₂]
  rw [List.takeWhile_append_of_pos hname]
  cases rest with
  | nil => simp
  | cons c rest =>
    have hc : isNameChar c = false := by
      simp only [endsName, Bool.or_eq_true, decide_eq_true_eq] at hends
      rcases hends with rfl | rfl <;> rfl
    simp [hc]

/-- A text starts with only one name that ends there. -/
theorem eq_of_append_eq_append {name other rest remainder : List Char}
    (hname : '.' ∉ name ∧ '[' ∉ name) (hother : '.' ∉ other ∧ '[' ∉ other)
    (hrest : endsName rest = true) (hremainder : endsName remainder = true)
    (h : name ++ rest = other ++ remainder) : name = other ∧ rest = remainder := by
  have heq : name = other := by
    rw [← takeWhile_isNameChar_append hname.1 hname.2 hrest, h,
      takeWhile_isNameChar_append hother.1 hother.2 hremainder]
  subst heq
  exact ⟨rfl, List.append_cancel_left h⟩

/-- A name ends where segments continue the path. -/
@[simp] theorem endsName_continuation (steps : List Segment) :
    endsName (continuation steps) = true := by
  cases steps with
  | nil => rfl
  | cons s steps => cases s <;> simp [Segment.text, endsName]

/-- A name that a path text starts with, and that ends there, is spelled by the first segments. -/
theorem exists_continuation_of_join {ps : List (List Char)} (hne : ps ≠ [])
    (hps : ∀ piece ∈ ps, piece ≠ [] ∧ '.' ∉ piece ∧ '[' ∉ piece) {steps : List Segment}
    (hplain : ∀ s ∈ steps, s.IsPlain) {rest : List Char} (hends : endsName rest = true)
    (h : dropDot (continuation steps) = join ['.'] ps ++ rest) :
    ∃ more, more <:+ steps ∧ rest = continuation more ∧
      continuation steps = '.' :: (join ['.'] ps ++ rest) := by
  induction ps generalizing steps with
  | nil => exact absurd rfl hne
  | cons piece ps ih =>
    obtain ⟨hempty, hdot, hbracket⟩ := hps piece (by simp)
    obtain ⟨c, tail, hpiece⟩ := List.exists_cons_of_ne_nil hempty
    have hfirst : ∃ tail, join ['.'] (piece :: ps) ++ rest = c :: tail := by
      cases ps <;> simp [join, hpiece]
    obtain ⟨textTail, hfirst⟩ := hfirst
    rw [hfirst] at h
    cases steps with
    | nil => simp [dropDot] at h
    | cons s steps =>
      cases s with
      | index n =>
        -- A position starts with a bracket, the name does not.
        have hc : c = '[' := by
          have h' := (List.cons.inj h).1
          exact h'.symm
        exact absurd (by simp [hpiece, hc]) hbracket
      | key name =>
        obtain ⟨-, hnameDot, hnameBracket⟩ := hplain (.key name) (by simp)
        have htext : name.toList ++ continuation steps = join ['.'] (piece :: ps) ++ rest :=
          h.trans hfirst.symm
        cases ps with
        | nil =>
          obtain ⟨heq, hrest⟩ := eq_of_append_eq_append ⟨hnameDot, hnameBracket⟩ ⟨hdot, hbracket⟩
            (endsName_continuation steps) hends htext
          refine ⟨steps, List.suffix_cons _ _, hrest.symm, ?_⟩
          simp [Segment.text, join, heq, hrest]
        | cons next ps =>
          have hsplit : join ['.'] (piece :: next :: ps) ++ rest =
              piece ++ '.' :: (join ['.'] (next :: ps) ++ rest) := by
            simp [join]
          rw [hsplit] at htext ⊢
          obtain ⟨heq, hrest⟩ := eq_of_append_eq_append ⟨hnameDot, hnameBracket⟩ ⟨hdot, hbracket⟩
            (endsName_continuation steps) rfl htext
          obtain ⟨more, hmore, hspelled, -⟩ := ih (by simp)
            (fun p hp => hps p (List.mem_cons_of_mem _ hp))
            (fun t ht => hplain t (List.mem_cons_of_mem _ ht)) (by rw [hrest, dropDot])
          refine ⟨more, hmore.trans (List.suffix_cons _ _), hspelled, ?_⟩
          simp [Segment.text, heq, hrest]

/-- A neat key that a path text starts with is spelled by the first segments of the text. -/
theorem exists_continuation_of_isNeat {name : String} (hname : (Segment.key name).IsNeat)
    {steps : List Segment} (hplain : ∀ s ∈ steps, s.IsPlain) {rest : List Char}
    (hends : endsName rest = true)
    (h : dropDot (continuation steps) = name.toList ++ rest) :
    ∃ more, more <:+ steps ∧ rest = continuation more ∧
      continuation steps = (Segment.key name).text ++ rest := by
  have hpieces : ∀ piece ∈ splitAt '.' name.toList,
      piece ≠ [] ∧ '.' ∉ piece ∧ '[' ∉ piece := by
    intro piece hpiece
    refine ⟨hname.2 piece hpiece, not_mem_of_mem_splitAt hpiece, fun hmem => hname.1 ?_⟩
    rw [← join_splitAt '.' name.toList]
    exact mem_join_of_mem hpiece hmem
  rw [← join_splitAt '.' name.toList] at h
  obtain ⟨more, hmore, hspelled, htext⟩ :=
    exists_continuation_of_join (splitAt_ne_nil '.' _) hpieces hplain hends h
  refine ⟨more, hmore, hspelled, ?_⟩
  rw [htext, join_splitAt]
  rfl

end Path

end ChartDocs
