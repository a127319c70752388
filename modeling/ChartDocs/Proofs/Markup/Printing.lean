import ChartDocs.Proofs.Markup.Step
import ChartDocs.Proofs.Path.Rendering

/-!
# Printed documents

A document is a list of tags and of sections that have a description and tags of their own. It is
printed line by line: a tag with its path in parentheses, its modifiers in brackets and its
description, a section with its name and its description between the two description tags.

A printed line is read as what was printed, and as nothing else: the texts of a document are free of
the characters that end the parts of a line, and a printed word is no beginning of another one.
-/

namespace ChartDocs.Markup

open Text ChartDocs.Path

/-- A text that can stand within a line: it has no line ends and no blanks around it. -/
structure FitsLine (text : List Char) : Prop where
  onLine : OnLine text
  trimmed : trim text = text

instance (text : List Char) : Decidable (FitsLine text) :=
  decidable_of_iff (OnLine text ∧ trim text = text)
    ⟨fun ⟨h₁, h₂⟩ => ⟨h₁, h₂⟩, fun ⟨h₁, h₂⟩ => ⟨h₁, h₂⟩⟩

/-- A tag with its path. -/
structure DocumentTag where
  kind : TagKind
  path : List Char
  modifiers : List (List Char) := []
  description : List Char := []

/-- A section with its description and its tags. -/
structure DocumentGroup where
  name : List Char
  description : List (List Char) := []
  tags : List DocumentTag := []

/-- Tags outside sections and then sections. -/
structure Document where
  tags : List DocumentTag := []
  groups : List DocumentGroup := []

namespace DocumentTag

/-- The modifiers in brackets, if there are any. -/
def brackets (t : DocumentTag) : List Char :=
  if t.modifiers = [] then [] else " [".toList ++ join [','] t.modifiers ++ [']']

/-- The description after a blank, if there is one. -/
def remark (t : DocumentTag) : List Char :=
  if t.description = [] then [] else ' ' :: t.description

/-- What is printed after the word of a tag. -/
def rest (t : DocumentTag) : List Char :=
  " (".toList ++ t.path ++ ')' :: (t.brackets ++ t.remark)

/-- The printed tag. -/
def line (t : DocumentTag) : List Char :=
  "## ".toList ++ ((t.kind.word {}).toList ++ t.rest)

/-- Whether the parts of the tag can be told apart when they are printed. -/
structure Printable (t : DocumentTag) : Prop where
  path : FitsLine t.path
  path_ne_nil : t.path ≠ []
  path_closed : ')' ∉ t.path
  modifiers : ∀ m ∈ t.modifiers, FitsLine m
  modifiers_ne_nil : ∀ m ∈ t.modifiers, m ≠ []
  modifiers_closed : ∀ m ∈ t.modifiers, ',' ∉ m ∧ '[' ∉ m ∧ ']' ∉ m
  modifiers_nodup : t.modifiers.Nodup
  skip : t.kind = .skip → t.modifiers = []
  description : FitsLine t.description
  description_head : t.description.head? ≠ some '['

instance (t : DocumentTag) : Decidable t.Printable :=
  decidable_of_iff (FitsLine t.path ∧ t.path ≠ [] ∧ ')' ∉ t.path ∧
    (∀ m ∈ t.modifiers, FitsLine m) ∧ (∀ m ∈ t.modifiers, m ≠ []) ∧
    (∀ m ∈ t.modifiers, ',' ∉ m ∧ '[' ∉ m ∧ ']' ∉ m) ∧ t.modifiers.Nodup ∧
    (t.kind = .skip → t.modifiers = []) ∧ FitsLine t.description ∧
    t.description.head? ≠ some '[')
    ⟨fun ⟨h₁, h₂, h₃, h₄, h₅, h₆, h₇, h₈, h₉, h₁₀⟩ => ⟨h₁, h₂, h₃, h₄, h₅, h₆, h₇, h₈, h₉, h₁₀⟩,
      fun ⟨h₁, h₂, h₃, h₄, h₅, h₆, h₇, h₈, h₉, h₁₀⟩ => ⟨h₁, h₂, h₃, h₄, h₅, h₆, h₇, h₈, h₉, h₁₀⟩⟩

/-- The parameter that the tag documents in a section or outside sections. -/
def parameter (owner : Option (List Char)) (t : DocumentTag) : Parameter where
  name := String.ofList t.path
  description := String.ofList t.description
  modifiers := t.modifiers.map String.ofList
  sectionName := owner.map String.ofList
  skip := t.kind = .skip
  extra := t.kind = .extra
  value := if t.kind = .extra then some (.string "") else none

end DocumentTag

namespace DocumentGroup

/-- The printed name. -/
def heading (g : DocumentGroup) : List Char :=
  "## ".toList ++ ("@section".toList ++ ' ' :: g.name)

/-- The printed line that opens a description. -/
def opening : List Char :=
  "## @descriptionStart".toList

/-- The printed line that closes a description. -/
def closing : List Char :=
  "## @descriptionEnd".toList

/-- A printed line of description. -/
def remark (text : List Char) : List Char :=
  "## ".toList ++ text

/-- The printed description, if there is one. -/
def remarks (g : DocumentGroup) : List (List Char) :=
  if g.description = [] then [] else opening :: (g.description.map remark ++ [closing])

/-- The printed section. -/
def lines (g : DocumentGroup) : List (List Char) :=
  g.heading :: (g.remarks ++ g.tags.map DocumentTag.line)

/-- Whether the parts of the section can be told apart when they are printed. -/
structure Printable (g : DocumentGroup) : Prop where
  name : FitsLine g.name
  description : ∀ text ∈ g.description, FitsLine text
  description_head : ∀ text ∈ g.description, text.head? ≠ some '@'
  tags : ∀ t ∈ g.tags, t.Printable

instance (g : DocumentGroup) : Decidable g.Printable :=
  decidable_of_iff (FitsLine g.name ∧ (∀ text ∈ g.description, FitsLine text) ∧
    (∀ text ∈ g.description, text.head? ≠ some '@') ∧ ∀ t ∈ g.tags, t.Printable)
    ⟨fun ⟨h₁, h₂, h₃, h₄⟩ => ⟨h₁, h₂, h₃, h₄⟩, fun ⟨h₁, h₂, h₃, h₄⟩ => ⟨h₁, h₂, h₃, h₄⟩⟩

/-- The section with its parameters at consecutive positions. -/
def toSection (g : DocumentGroup) (start : Nat) : Section where
  name := String.ofList g.name
  description := g.description.map String.ofList
  members := List.range' start g.tags.length

/-- The parameters of the section. -/
def parameters (g : DocumentGroup) : List Parameter :=
  g.tags.map (·.parameter (some g.name))

/-- Sections whose parameters follow one another. -/
def toSections : Nat → List DocumentGroup → List Section
  | _, [] => []
  | start, g :: groups => g.toSection start :: toSections (start + g.tags.length) groups

end DocumentGroup

namespace Document

/-- The printed document. -/
def lines (d : Document) : List (List Char) :=
  d.tags.map DocumentTag.line ++ d.groups.flatMap DocumentGroup.lines

/-- The text of the printed document. -/
def print (d : Document) : String :=
  String.ofList (unlines d.lines)

/-- Whether the parts of the document can be told apart when they are printed. -/
structure Printable (d : Document) : Prop where
  tags : ∀ t ∈ d.tags, t.Printable
  groups : ∀ g ∈ d.groups, g.Printable

instance (d : Document) : Decidable d.Printable :=
  decidable_of_iff ((∀ t ∈ d.tags, t.Printable) ∧ ∀ g ∈ d.groups, g.Printable)
    ⟨fun ⟨h₁, h₂⟩ => ⟨h₁, h₂⟩, fun ⟨h₁, h₂⟩ => ⟨h₁, h₂⟩⟩

/-- The catalog that the document is. -/
def catalog (d : Document) : Catalog where
  sections := DocumentGroup.toSections d.tags.length d.groups
  parameters := d.tags.map (·.parameter none) ++ d.groups.flatMap DocumentGroup.parameters

end Document

/-- A space in front is dropped. -/
theorem trimStart_blank (text : List Char) : trimStart (' ' :: text) = trimStart text :=
  List.dropWhile_cons_of_pos (by decide)

/-- A space in front does not count. -/
theorem trim_blank (text : List Char) : trim (' ' :: text) = trim text := by
  rw [trim, trimStart_blank, trim]

/-- A text gets no longer by dropping blanks at its end. -/
theorem length_trimEnd_le (text : List Char) : (trimEnd text).length ≤ text.length := by
  have hsub : (text.reverse.dropWhile isBlank).Sublist text.reverse := List.dropWhile_sublist _
  rw [trimEnd, dropEndWhile, List.length_reverse]
  exact Nat.le_trans hsub.length_le (Nat.le_of_eq List.length_reverse)

/-- A text without blanks around it has none in front. -/
theorem trimStart_eq_self {text : List Char} (h : trim text = text) : trimStart text = text := by
  have hsub : (trimStart text).Sublist text := List.dropWhile_sublist _
  have hle : text.length ≤ (trimStart text).length := by
    have hend := length_trimEnd_le (trimStart text)
    rw [← trim, h] at hend
    exact hend
  exact hsub.eq_of_length (Nat.le_antisymm hsub.length_le hle)

/-- A printed comment is read from its first character that is no blank on. -/
theorem commentText?_comment (text : List Char) :
    commentText? ("## ".toList ++ text) = some (trimStart text) := by
  have hread : dropLeading? ['#', '#'] (trimStart ("## ".toList ++ text)) = some (' ' :: text) :=
    dropLeading?_append ['#', '#'] (' ' :: text)
  rw [commentText?, hread, Option.map_some, trimStart_blank]

/-- A printed comment is no key line. -/
theorem keyLine?_comment (text : List Char) : keyLine? ("## ".toList ++ text) = none := by
  cases h : keyLine? ("## ".toList ++ text) with
  | none => rfl
  | some key =>
    have hno := commentText?_of_keyLine? h
    rw [commentText?_comment] at hno
    simp at hno

/-- The words that the default settings give a meaning. -/
def tagWords : List (List Char) :=
  ["@param".toList, "@skip".toList, "@extra".toList, "@section".toList, "@descriptionStart".toList,
    "@descriptionEnd".toList]

/-- The word of every kind of tag has a meaning. -/
theorem word_mem_tagWords (kind : TagKind) : (kind.word {}).toList ∈ tagWords := by
  cases kind <;> decide

/-- No tag word is the beginning of another one. -/
theorem not_prefix_of_mem_tagWords {word other : List Char} (hword : word ∈ tagWords)
    (hother : other ∈ tagWords) (hne : word ≠ other) : ¬word <+: other := by
  have hall : ∀ word ∈ tagWords, ∀ other ∈ tagWords, word ≠ other → ¬word <+: other := by
    decide +kernel
  exact hall word hword other hother hne

/-- A text that starts with one tag word is not read as another one. -/
theorem dropWord?_other {word other text rest : List Char} (hword : word ∈ tagWords)
    (hother : other ∈ tagWords) (hne : word ≠ other) (h : dropWord? word text = some rest) :
    dropWord? other text = none :=
  dropWord?_exclusive h (not_prefix_of_mem_tagWords hword hother hne)
    (not_prefix_of_mem_tagWords hother hword hne.symm)

/-- Every tag word starts with an at sign. -/
theorem exists_eq_cons_of_mem_tagWords {word : List Char} (h : word ∈ tagWords) :
    ∃ tail, word = '@' :: tail := by
  have hall : ∀ word ∈ tagWords, word = '@' :: word.tail := by decide
  exact ⟨word.tail, hall word h⟩

/-- A text that does not start with an at sign starts with no tag word. -/
theorem dropWord?_eq_none_of_head {word text : List Char} (hword : word ∈ tagWords)
    (h : text.head? ≠ some '@') : dropWord? word text = none := by
  obtain ⟨tail, rfl⟩ := exists_eq_cons_of_mem_tagWords hword
  cases text with
  | nil => rfl
  | cons d text =>
    have hd : '@' ≠ d := fun e => h (by rw [← e]; rfl)
    rw [dropWord?, dropLeading?, if_neg hd, Option.bind_none]

/-- A tag word that ends before a blank or at the end of a text is complete. -/
theorem dropWord?_append {word rest : List Char} (hword : word ∈ tagWords)
    (hrest : rest = [] ∨ ∃ text, rest = ' ' :: text) :
    dropWord? word (word ++ rest) = some rest := by
  have hend : ∀ word ∈ tagWords, completes word [] = true ∧ completes word [' '] = true := by
    decide +kernel
  have hcomplete : completes word rest = true := by
    rcases hrest with rfl | ⟨text, rfl⟩
    · exact (hend word hword).1
    · exact (hend word hword).2
  rw [dropWord?, dropLeading?_append, Option.bind_some, if_pos hcomplete]

/-- The text of a printed comment that starts with a tag word is that word and what follows. -/
theorem commentText?_word {word : List Char} (hword : word ∈ tagWords) (rest : List Char) :
    commentText? ("## ".toList ++ (word ++ rest)) = some (word ++ rest) := by
  obtain ⟨tail, rfl⟩ := exists_eq_cons_of_mem_tagWords hword
  rw [commentText?_comment, List.cons_append, trimStart_cons_of_not (by decide)]

/-- A printed comment that starts with the word of a tag is read as a tag of its kind. -/
theorem tagLine?_word (kind : TagKind) {rest : List Char}
    (hrest : rest = [] ∨ ∃ text, rest = ' ' :: text) :
    tagLine? ("## ".toList ++ ((kind.word {}).toList ++ rest)) =
      some (kind, TagLine.ofRest rest) := by
  have hword := word_mem_tagWords kind
  rw [tagLine?_eq_some_iff, tagOf?_eq_map, commentText?_word hword, Option.bind_some,
    dropWord?_append hword hrest, Option.map_some]

/-- Without an opening parenthesis a tag gives no path. -/
theorem ofRest_of_head? {rest : List Char} (h : (trimStart rest).head? ≠ some '(') :
    TagLine.ofRest rest =
      { path := none
        modifiers := (takeModifiers (dropLabel rest)).1
        description := trim (takeModifiers (dropLabel rest)).2 } := by
  have hpath : takeParentheses? rest = none := by
    rw [takeParentheses?]
    split
    · next heq =>
      rw [heq] at h
      exact absurd rfl h
    · rfl
  rw [TagLine.ofRest, hpath]

/-- A blank in front of modifiers is passed over. -/
theorem takeModifiers_blank (text : List Char) :
    takeModifiers (' ' :: text) = takeModifiers text := by
  rw [takeModifiers, trimStart_blank, takeModifiers]

/-- A text that does not start with a bracket holds no modifiers. -/
theorem takeModifiers_of_head? {text : List Char} (htrim : trim text = text)
    (hhead : text.head? ≠ some '[') : takeModifiers text = ([], text) := by
  rw [takeModifiers, trimStart_eq_self htrim]
  split
  · exact absurd rfl hhead
  · rfl

/-- Modifiers are the pieces between the brackets. -/
theorem takeModifiers_brackets {ms : List (List Char)} (hne : ms ≠ [])
    (hclosed : ∀ m ∈ ms, ',' ∉ m ∧ '[' ∉ m ∧ ']' ∉ m) (rest : List Char) :
    takeModifiers ('[' :: (join [','] ms ++ ']' :: rest)) = (ms, rest) := by
  have hopen : '[' ∉ join [','] ms := not_mem_join (by decide) fun m hm => (hclosed m hm).2.1
  have hclose : ']' ∉ join [','] ms := not_mem_join (by decide) fun m hm => (hclosed m hm).2.2
  have hdrop : (join [','] ms).dropWhile (· = '[') = join [','] ms := by
    refine List.dropWhile_eq_self_iff.mpr fun hlength hhead => hopen ?_
    rw [decide_eq_true_eq] at hhead
    rw [← hhead]
    exact List.getElem_mem hlength
  have hpieces : splitAt ',' (join [','] ms) = ms := splitAt_join hne fun m hm => (hclosed m hm).1
  simp only [takeModifiers, trimStart_cons_of_not (show isBlank '[' = false by decide),
    cutAt?_append hclose]
  rw [hdrop, hpieces]

/-- Modifiers without blanks around them that are not empty and not repeated are kept. -/
theorem cleanModifiers_eq_self {ms : List (List Char)} (htrim : ∀ m ∈ ms, trim m = m)
    (hne : ∀ m ∈ ms, m ≠ []) (hnodup : ms.Nodup) :
    Parameter.cleanModifiers (ms.map String.ofList) = ms.map String.ofList := by
  have hfold : ∀ kept : List (List Char), (kept ++ ms).Nodup →
      (ms.map String.ofList).foldl Parameter.addModifier (kept.map String.ofList) =
        (kept ++ ms).map String.ofList := by
    induction ms with
    | nil => simp
    | cons m ms ih =>
      intro kept hall
      have hm : trimString (String.ofList m) = String.ofList m := by
        rw [trimString, String.toList_ofList, htrim m (by simp)]
      have hnew : String.ofList m ∉ kept.map String.ofList := by
        intro hmem
        obtain ⟨other, hother, heq⟩ := List.mem_map.mp hmem
        obtain rfl := String.ofList_injective heq
        exact (List.nodup_append.mp hall).2.2 other hother other (by simp) rfl
      have hempty : String.ofList m ≠ "" := by
        intro he
        exact hne m (by simp) (String.ofList_injective he)
      have hadd : Parameter.addModifier (kept.map String.ofList) (String.ofList m) =
          (kept ++ [m]).map String.ofList := by
        rw [Parameter.addModifier, hm]
        simp [hempty, hnew]
      rw [List.map_cons, List.foldl_cons, hadd,
        ih (fun l hl => htrim l (List.mem_cons_of_mem _ hl))
          (fun l hl => hne l (List.mem_cons_of_mem _ hl)) (List.nodup_cons.mp hnodup).2
          (kept ++ [m]) (by simpa using hall)]
      simp
  exact hfold [] (by simpa using hnodup)

namespace DocumentTag

variable {t : DocumentTag}

/-- What is said by the printed tag. -/
def toTagLine (t : DocumentTag) : TagLine :=
  ⟨some t.path, t.modifiers, t.description⟩

/-- Without blanks around it the printed remark is the description. -/
theorem trim_remark (h : t.Printable) : trim t.remark = t.description := by
  rw [remark]
  split
  · next hempty => rw [hempty, trim_nil]
  · rw [trim_blank, h.description.trimmed]

/-- The printed path is what stands between the parentheses. -/
theorem takeParentheses?_rest (h : t.Printable) :
    takeParentheses? t.rest = some (t.path, t.brackets ++ t.remark) := by
  have hrest : t.rest = ' ' :: '(' :: (t.path ++ ')' :: (t.brackets ++ t.remark)) := rfl
  rw [takeParentheses?, hrest, trimStart_blank, trimStart_cons_of_not (by decide)]
  exact cutAt?_append h.path_closed _

/-- The printed modifiers are read as modifiers. -/
theorem takeModifiers_of_ne_nil (h : t.Printable) (hne : t.modifiers ≠ []) :
    takeModifiers (t.brackets ++ t.remark) = (t.modifiers, t.remark) := by
  have htext : t.brackets ++ t.remark =
      ' ' :: '[' :: (join [','] t.modifiers ++ ']' :: t.remark) := by
    rw [brackets, if_neg hne]
    simp
  rw [htext, takeModifiers_blank, takeModifiers_brackets hne h.modifiers_closed]

/-- Without modifiers the description follows the path. -/
theorem takeModifiers_of_eq_nil (h : t.Printable) (hempty : t.modifiers = []) :
    takeModifiers (t.brackets ++ t.remark) = (t.modifiers, t.description) := by
  have hnone : takeModifiers t.description = ([], t.description) :=
    takeModifiers_of_head? h.description.trimmed h.description_head
  rw [brackets, if_pos hempty, List.nil_append, remark, hempty]
  split
  · next hd => rw [hd] at hnone ⊢; exact hnone
  · rw [takeModifiers_blank, hnone]

/-- What is printed after the word is read as what the tag says. -/
theorem ofRest_rest (h : t.Printable) : TagLine.ofRest t.rest = t.toTagLine := by
  have hpath : TagLine.pathOf t.path = some t.path := by
    rw [TagLine.pathOf, h.path.trimmed, if_neg h.path_ne_nil]
  rw [TagLine.ofRest, takeParentheses?_rest h]
  dsimp only
  by_cases hempty : t.modifiers = []
  · rw [takeModifiers_of_eq_nil h hempty, hpath, h.description.trimmed, toTagLine]
  · rw [takeModifiers_of_ne_nil h hempty, hpath, trim_remark h, toTagLine]

/-- A printed tag is read as a tag of its kind. -/
theorem tagLine?_line (h : t.Printable) : tagLine? t.line = some (t.kind, t.toTagLine) := by
  have hrest : t.rest = [] ∨ ∃ text, t.rest = ' ' :: text := Or.inr ⟨_, rfl⟩
  rw [line, tagLine?_word t.kind hrest, ofRest_rest h]

/-- The tag documents what it says. -/
theorem build_toTagLine (h : t.Printable) : t.kind.build t.toTagLine = t.parameter none := by
  have hclean := cleanModifiers_eq_self (fun m hm => (h.modifiers m hm).trimmed)
    h.modifiers_ne_nil h.modifiers_nodup
  rw [TagKind.build_eq, parameter, toTagLine, hclean]
  by_cases hskip : t.kind = .skip
  · rw [if_pos hskip, h.skip hskip]
    rfl
  · rw [if_neg hskip]
    rfl

end DocumentTag

end ChartDocs.Markup
