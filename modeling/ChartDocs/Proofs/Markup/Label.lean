import ChartDocs.Proofs.Markup.Printing

/-!
# Labels

A tag without a path may show the path of its key in a label, for readers only. A label ends at a
blank or at an opening bracket or parenthesis, since what is in brackets after a label are
modifiers. So a path of keys is passed over as a whole and leaves nothing in the tag, while a
position in the path is read as modifiers.
-/

namespace ChartDocs

open Text Decimal

/-- A key of which a label shows every character: not empty, and without dots, blanks, opening
brackets and opening parentheses. -/
def Segment.IsBare : Segment → Prop
  | key name => name ≠ "" ∧ ∀ c ∈ name.toList, Markup.isLabelChar c = true ∧ c ≠ '.'
  | index _ => True

-- By the list of the characters of the key, not by all characters there are.
instance (s : Segment) : Decidable s.IsBare :=
  match s with
  | .key name =>
    letI := List.decidableBAll (fun c => Markup.isLabelChar c = true ∧ c ≠ '.') name.toList
    inferInstanceAs (Decidable (name ≠ "" ∧
      ∀ c ∈ name.toList, Markup.isLabelChar c = true ∧ c ≠ '.'))
  | .index _ => inferInstanceAs (Decidable True)

namespace Markup

open ChartDocs.Path

/-- A path of bare keys is made of characters of labels. -/
theorem isLabelChar_of_mem_continuation {steps : List Segment} (hbare : ∀ s ∈ steps, s.IsBare)
    (hkeys : ∀ n, .index n ∉ steps) :
    ∀ c ∈ continuation steps, isLabelChar c = true := by
  intro c hc
  obtain ⟨s, hs, hc⟩ := List.mem_flatMap.mp hc
  cases s with
  | index n => exact absurd hs (hkeys n)
  | key name =>
    rcases List.mem_cons.mp hc with rfl | hc
    · decide
    · exact ((hbare _ hs).2 c hc).1

/-- A path that starts with a key is the key and what continues it. -/
theorem render_key_cons {name : String} (hname : name ≠ "") (steps : List Segment) :
    render (.key name :: steps) = name.toList ++ continuation steps := by
  have hne : name.toList ≠ [] := by simpa using hname
  have hfirst : extend [] (.key name) = name.toList := rfl
  rw [render, List.foldl_cons, hfirst, foldl_extend hne]

/-- The characters of labels are no blanks. -/
theorem isBlank_of_isLabelChar {c : Char} (h : isLabelChar c = true) : isBlank c = false := by
  simp only [isLabelChar, Bool.and_eq_true] at h
  simpa using h.1.1

/-- A label is passed over up to the character that ends it. -/
theorem dropLabel_append {label rest : List Char} (hne : label ≠ [])
    (hlabel : ∀ c ∈ label, isLabelChar c = true)
    (hrest : ∀ c, rest.head? = some c → isLabelChar c = false) :
    dropLabel (' ' :: (label ++ rest)) = rest := by
  obtain ⟨c, tail, rfl⟩ := List.exists_cons_of_ne_nil hne
  have hblank : isBlank c = false := isBlank_of_isLabelChar (hlabel c List.mem_cons_self)
  have htext : trimStart (c :: tail ++ rest) = c :: tail ++ rest := trimStart_cons_of_not hblank _
  have hstop : rest.dropWhile isLabelChar = rest := by
    cases rest with
    | nil => rfl
    | cons d rest => exact List.dropWhile_cons_of_neg (by simp [hrest d rfl])
  rw [dropLabel, if_pos (by decide), htext, List.dropWhile_append_of_pos hlabel, hstop]

/-- Of a path, the keys up to the first position are a label. -/
theorem dropLabel_path {name : String} (hname : (Segment.key name).IsBare) {front : List Segment}
    (hbare : ∀ s ∈ front, s.IsBare) (hkeys : ∀ n, .index n ∉ front) {rest : List Char}
    (hrest : ∀ c, rest.head? = some c → isLabelChar c = false) :
    dropLabel (' ' :: (name.toList ++ (continuation front ++ rest))) = rest := by
  have hne : name.toList ≠ [] := by simpa using hname.1
  have hlabel : ∀ c ∈ name.toList ++ continuation front, isLabelChar c = true := by
    intro c hc
    rcases List.mem_append.mp hc with hc | hc
    · exact (hname.2 c hc).1
    · exact isLabelChar_of_mem_continuation hbare hkeys c hc
  rw [← List.append_assoc]
  exact dropLabel_append (by simp [hne]) hlabel hrest

/-- A position is read as a modifier. -/
theorem takeModifiers_index (n : Nat) (rest : List Char) :
    takeModifiers ((Segment.index n).text ++ rest) = ([digits n], rest) := by
  have htext : (Segment.index n).text ++ rest = '[' :: (join [','] [digits n] ++ ']' :: rest) := by
    simp [Segment.text, join]
  have hclosed : ∀ m ∈ [digits n], ',' ∉ m ∧ '[' ∉ m ∧ ']' ∉ m := by
    intro m hm
    rw [List.mem_singleton.mp hm]
    exact ⟨not_mem_digits (by decide) n, not_mem_digits (by decide) n,
      not_mem_digits (by decide) n⟩
  rw [htext, takeModifiers_brackets (List.cons_ne_nil _ _) hclosed]

/-- A tag line with a path as its label and a description. -/
def labelledLine (kind : TagKind) (steps : List Segment) (description : List Char) : List Char :=
  "## ".toList ++ ((kind.word {}).toList ++ ' ' :: (render steps ++ ' ' :: description))

/-- The path of bare keys and positions that starts with a key is no path of a tag. -/
theorem ofRest_labelled {name : String} (hname : (Segment.key name).IsBare) (steps : List Segment)
    (description : List Char) :
    TagLine.ofRest (' ' :: (render (.key name :: steps) ++ ' ' :: description)) =
      let rest := dropLabel (' ' :: (name.toList ++ (continuation steps ++ ' ' :: description)))
      { path := none
        modifiers := (takeModifiers rest).1
        description := trim (takeModifiers rest).2 } := by
  have hne : name.toList ≠ [] := by simpa using hname.1
  obtain ⟨c, tail, hsplit⟩ := List.exists_cons_of_ne_nil hne
  have hc : isLabelChar c = true := (hname.2 c (by simp [hsplit])).1
  have hhead : (trimStart (' ' :: (name.toList ++ (continuation steps ++
      ' ' :: description)))).head? ≠ some '(' := by
    rw [trimStart_blank, hsplit, List.cons_append,
      trimStart_cons_of_not (isBlank_of_isLabelChar hc), List.head?_cons]
    rintro heq
    rw [Option.some.inj heq] at hc
    exact absurd hc (by decide)
  rw [render_key_cons hname.1, List.append_assoc, ofRest_of_head? hhead]

/-- The label of a tag is no path and leaves nothing behind: if it shows a path of keys, the tag has
no modifiers, and its description is what follows the label. Of a label with positions, the first
position is read as the only modifier, and the description is what follows the position: the rest of
the label, if it does not end there, and then the rest of the line. -/
theorem tagLine?_of_label (kind : TagKind) {name : String} {steps : List Segment}
    {description : List Char} (hbare : ∀ s ∈ .key name :: steps, s.IsBare)
    (htrim : trim description = description) (hhead : description.head? ≠ some '[') :
    ∃ tag, tagLine? (labelledLine kind (.key name :: steps) description) = some (kind, tag) ∧
      tag.path = none ∧
      ((∀ n, .index n ∉ steps) → tag.modifiers = [] ∧ tag.description = description) ∧
      ∀ front n back, steps = front ++ .index n :: back → (∀ m, .index m ∉ front) →
        tag.modifiers = [digits n] ∧
          tag.description = trim (continuation back ++ ' ' :: description) ∧
          (back = [] → tag.description = description) := by
  have hname : (Segment.key name).IsBare := hbare (.key name) List.mem_cons_self
  have hsteps : ∀ s ∈ steps, s.IsBare := fun s hs => hbare s (List.mem_cons_of_mem _ hs)
  refine ⟨_, tagLine?_word kind (Or.inr ⟨_, rfl⟩), ?_⟩
  rw [ofRest_labelled hname]
  refine ⟨rfl, fun hkeys => ?_, ?_⟩
  · have hdrop : dropLabel (' ' :: (name.toList ++ (continuation steps ++ ' ' :: description))) =
        ' ' :: description :=
      dropLabel_path hname hsteps hkeys fun c hc => Option.some.inj hc ▸ (by decide)
    dsimp only
    rw [hdrop, takeModifiers_blank, takeModifiers_of_head? htrim hhead]
    exact ⟨rfl, htrim⟩
  · rintro front n back rfl hkeys
    have hfront : ∀ s ∈ front, s.IsBare := fun s hs => hsteps s (List.mem_append_left _ hs)
    have hdrop : dropLabel (' ' :: (name.toList ++ (continuation (front ++ .index n :: back) ++
        ' ' :: description))) =
        (Segment.index n).text ++ (continuation back ++ ' ' :: description) := by
      rw [continuation_append, continuation_cons, List.append_assoc, List.append_assoc]
      exact dropLabel_path hname hfront hkeys fun c hc => Option.some.inj hc ▸ (by decide)
    dsimp only
    rw [hdrop, takeModifiers_index]
    refine ⟨rfl, rfl, ?_⟩
    rintro rfl
    rw [continuation_nil, List.nil_append, trim_blank, htrim]

/-- A label that shows a path of keys, one that ends with a position and one with a position in the
middle. -/
theorem tagLine?_of_label_image :
    (∃ tag, tagLine? "## @param image.tag The (short) tag".toList = some (.param, tag) ∧
      tag.path = none ∧ tag.modifiers = [] ∧ tag.description = "The (short) tag".toList) ∧
    (∃ tag, tagLine? "## @extra image.args[12] One".toList = some (.extra, tag) ∧
      tag.path = none ∧ tag.modifiers = ["12".toList] ∧ tag.description = "One".toList) ∧
    ∃ tag, tagLine? "## @skip args[0].name One".toList = some (.skip, tag) ∧
      tag.path = none ∧ tag.modifiers = ["0".toList] ∧ tag.description = ".name One".toList := by
  have hkeys : ∀ s ∈ [.key "image", .key "tag"], Segment.IsBare s := by decide
  have hlast : ∀ s ∈ [.key "image", .key "args", .index 12], Segment.IsBare s := by decide
  have hmiddle : ∀ s ∈ [.key "args", .index 0, .key "name"], Segment.IsBare s := by decide
  have hshort : trim "The (short) tag".toList = "The (short) tag".toList := by decide
  have hone : trim "One".toList = "One".toList := by decide
  refine ⟨?_, ?_, ?_⟩
  · obtain ⟨tag, hline, hpath, hread, -⟩ := tagLine?_of_label .param hkeys hshort (by decide)
    obtain ⟨hmodifiers, hdescription⟩ := hread (by simp)
    exact ⟨tag, hline, hpath, hmodifiers, hdescription⟩
  · obtain ⟨tag, hline, hpath, -, hread⟩ := tagLine?_of_label .extra hlast hone (by decide)
    obtain ⟨hmodifiers, -, hdescription⟩ := hread [.key "args"] 12 [] rfl (by simp)
    exact ⟨tag, hline, hpath, hmodifiers, hdescription rfl⟩
  · obtain ⟨tag, hline, hpath, -, hread⟩ := tagLine?_of_label .skip hmiddle hone (by decide)
    obtain ⟨hmodifiers, hdescription, -⟩ := hread [] 0 [.key "name"] rfl (by simp)
    exact ⟨tag, hline, hpath, hmodifiers, hdescription.trans (by decide)⟩

/-- A label with a position is not passed over as a whole. -/
theorem not_tagLine?_of_label_index :
    ¬∀ (name : String) (steps : List Segment) (description : List Char),
      (∀ s ∈ .key name :: steps, s.IsBare) → trim description = description →
      description.head? ≠ some '[' →
      tagLine? (labelledLine .param (.key name :: steps) description) =
        some (.param, { path := none, modifiers := [], description }) := by
  intro hall
  have hports := hall "ports" [.index 0] "First".toList (by decide) (by decide) (by decide)
  have hread : tagLine? (labelledLine .param [.key "ports", .index 0] "First".toList) =
      some (.param,
        { path := none, modifiers := ["0".toList], description := "First".toList }) := by
    decide +kernel
  rw [hread] at hports
  exact absurd hports (by decide)

end Markup

end ChartDocs
