import ChartDocs.Proofs.Path.Rendering

/-!
# Beginnings of path texts

Below a place, path texts start with the text of the place, and a dot or a bracket follows. Plain
segments can be read off their text one after the other, so the converse holds as well: where one
path text continues another after the end of a name, its segments continue those of the other. That
a text merely starts like another one says nothing, as for `image` and `imagePullSecrets`.
-/

namespace ChartDocs.Path

variable {s t : Segment} {steps more : List Segment} {rest remainder : List Char}

/-- Written positions are told apart by their digits. -/
theorem digits_injective : Function.Injective Decimal.digits := by
  intro m n h
  calc
    m = Decimal.ofDigits (Decimal.digits m) := Nat.ofDigitChars_ten_toDigits.symm
    _ = Decimal.ofDigits (Decimal.digits n) := by rw [h]
    _ = n := Nat.ofDigitChars_ten_toDigits

/-- Dot or bracket, and the place where a name or position ends, separate the first segment from
what follows. -/
theorem eq_of_text_append_eq (hs : s.IsPlain) (ht : t.IsPlain) (hrest : endsName rest = true)
    (hremainder : endsName remainder = true) (h : s.text ++ rest = t.text ++ remainder) :
    s = t ∧ rest = remainder := by
  cases s with
  | key name =>
    cases t with
    | key other =>
      obtain ⟨hname, heq⟩ := eq_of_append_eq_append hs.2 ht.2 hrest hremainder
        (List.cons.inj h).2
      exact ⟨by rw [String.toList_inj.mp hname], heq⟩
    | index n => exact absurd (List.cons.inj h).1 (by decide)
  | index m =>
    cases t with
    | key other => exact absurd (List.cons.inj h).1 (by decide)
    | index n =>
      have hcut : ∀ k after, cutAt? ']' (Decimal.digits k ++ ']' :: after) =
          some (Decimal.digits k, after) := fun k =>
        cutAt?_append (not_mem_digits (by decide) k)
      have htext : Decimal.digits m ++ ']' :: rest = Decimal.digits n ++ ']' :: remainder := by
        simpa [Segment.text] using h
      have heq := hcut m rest
      rw [htext, hcut] at heq
      obtain ⟨hdigits, rfl⟩ := Prod.mk.inj (Option.some.inj heq)
      exact ⟨by rw [digits_injective hdigits], rfl⟩

/-- Where a name can end, it can end before further segments. -/
theorem endsName_continuation_append (steps : List Segment) (hrest : endsName rest = true) :
    endsName (continuation steps ++ rest) = true := by
  cases steps with
  | nil => exact hrest
  | cons s steps => cases s <;> simp [Segment.text, endsName]

/-- Segments whose texts come first, up to the end of a name, come first themselves. -/
theorem isPrefix_of_continuation_eq (hsteps : ∀ s ∈ steps, s.IsPlain)
    (hmore : ∀ s ∈ more, s.IsPlain) (hrest : endsName rest = true)
    (h : continuation more = continuation steps ++ rest) : steps <+: more := by
  induction steps generalizing more with
  | nil => exact List.nil_prefix
  | cons s steps ih =>
    rw [continuation_cons, List.append_assoc] at h
    cases more with
    | nil => cases s <;> simp [Segment.text] at h
    | cons t more =>
      obtain ⟨hs, hsteps⟩ := List.forall_mem_cons.mp hsteps
      obtain ⟨ht, hmore⟩ := List.forall_mem_cons.mp hmore
      obtain ⟨hfirst, htail⟩ := eq_of_text_append_eq ht hs (endsName_continuation more)
        (endsName_continuation_append steps hrest) h
      rw [hfirst]
      exact (List.prefix_cons_inj s).mpr (ih hsteps hmore htail)

/-- The text with the dot in front that a path text leaves out before a first key. -/
def addDot (text : List Char) : List Char :=
  if text.head? = some '[' then text else '.' :: text

/-- The dot that was left out stands before the whole of a longer text. -/
theorem addDot_append {text : List Char} (h : text ≠ []) (rest : List Char) :
    addDot (text ++ rest) = addDot text ++ rest := by
  obtain ⟨c, text, rfl⟩ := List.exists_cons_of_ne_nil h
  by_cases hc : c = '[' <;> simp [addDot, hc]

/-- The dot that rendering drops can be put back. -/
theorem addDot_render (hne : steps ≠ []) (hsteps : ∀ s ∈ steps, s.IsPlain) :
    addDot (render steps) = continuation steps := by
  rw [render_eq_dropDot (ne_empty_of_isPlain hsteps)]
  obtain ⟨s, steps, rfl⟩ := List.exists_cons_of_ne_nil hne
  cases s with
  | key name =>
    obtain ⟨c, tail, hname, -, hc⟩ := exists_eq_cons_of_isPlain (hsteps (.key name) (by simp))
    simp [Segment.text, dropDot, addDot, hname, hc]
  | index n => rfl

/-- A path text of plain segments that starts with another one does so from the dot on. -/
theorem continuation_eq_append (hne : steps ≠ []) (hsteps : ∀ s ∈ steps, s.IsPlain)
    (hmore : ∀ s ∈ more, s.IsPlain) (h : render more = render steps ++ rest) :
    continuation more = continuation steps ++ rest := by
  have htext : render steps ≠ [] := render_ne_nil hne (ne_empty_of_isPlain hsteps)
  have hne' : more ≠ [] := by
    rintro rfl
    exact htext (List.append_eq_nil_iff.mp h.symm).1
  calc
    continuation more = addDot (render more) := (addDot_render hne' hmore).symm
    _ = addDot (render steps) ++ rest := by rw [h, addDot_append htext]
    _ = continuation steps ++ rest := by rw [addDot_render hne hsteps]

/-- A path text continues another one after the end of a name exactly if its segments start with
those of the other. -/
theorem exists_render_eq_append_iff (hne : steps ≠ []) (hsteps : ∀ s ∈ steps, s.IsPlain)
    (hmore : ∀ s ∈ more, s.IsPlain) :
    (∃ rest, render more = render steps ++ rest ∧ endsName rest = true) ↔ steps <+: more := by
  constructor
  · rintro ⟨rest, htext, hends⟩
    exact isPrefix_of_continuation_eq hsteps hmore hends
      (continuation_eq_append hne hsteps hmore htext)
  · rintro ⟨below, rfl⟩
    refine ⟨continuation below, ?_, endsName_continuation below⟩
    have htext : render steps ≠ [] := render_ne_nil hne (ne_empty_of_isPlain hsteps)
    rw [render, List.foldl_append]
    exact foldl_extend htext below

/-- Plain segments are told apart by their path texts. -/
theorem eq_of_render_eq (hsteps : ∀ s ∈ steps, s.IsPlain) (hmore : ∀ s ∈ more, s.IsPlain)
    (h : render steps = render more) : steps = more := by
  cases steps with
  | nil =>
    cases more with
    | nil => rfl
    | cons t more => exact absurd h.symm (render_ne_nil (by simp) (ne_empty_of_isPlain hmore))
  | cons s steps =>
    have hne : more ≠ [] := by
      rintro rfl
      exact render_ne_nil (by simp) (ne_empty_of_isPlain hsteps) h
    have hle : s :: steps <+: more := (exists_render_eq_append_iff (by simp) hsteps hmore).mp
      ⟨[], by rw [List.append_nil, h], rfl⟩
    have hge : more <+: s :: steps := (exists_render_eq_append_iff hne hmore hsteps).mp
      ⟨[], by rw [List.append_nil, h], rfl⟩
    exact hle.eq_of_length_le hge.length_le

end ChartDocs.Path
