import ChartDocs.Markup.Scan
import ChartDocs.Proofs.Text.Pieces
import Mathlib.Data.List.DropRight

/-!
# What a line is under the default settings

The default words start with characters that are no blanks, so there is one way to read them after
blanks. A comment that starts with two number signs is no key line, and its text starts with at most
one of the tag words. Hence a line is a key line, a tag of one kind, a section line, or none of
these.
-/

namespace ChartDocs.Markup

open Text

/-- Blanks in front do not matter to trimming. -/
theorem trimStart_append {blanks : List Char} (h : ∀ c ∈ blanks, isBlank c = true)
    (text : List Char) : trimStart (blanks ++ text) = trimStart text :=
  List.dropWhile_append_of_pos h

/-- A text that starts with no blank is not shortened. -/
theorem trimStart_cons_of_not {c : Char} (h : isBlank c = false) (text : List Char) :
    trimStart (c :: text) = c :: text :=
  List.dropWhile_cons_of_neg (by simp [h])

/-- Trimming trims the start. -/
theorem trim_trimStart (text : List Char) : trim (trimStart text) = trim text := by
  rw [trim, trim, trimStart, trimStart, List.dropWhile_idempotent]

/-- A word that starts with no blank can only be read where the blanks end. -/
theorem afterWord?_of_not_blank {α : Type} {c : Char} (hc : isBlank c = false) (word : List Char)
    (accept : List Char → Option α) (text : List Char) :
    afterWord? (c :: word) accept text =
      (dropLeading? (c :: word) (trimStart text)).bind accept := by
  induction text with
  | nil => rfl
  | cons d text ih =>
    rw [afterWord?] at ih ⊢
    rw [blankTails]
    cases hd : isBlank d with
    | true =>
      have hne : c ≠ d := by
        rintro rfl
        rw [hc] at hd
        exact Bool.noConfusion hd
      have hskip : trimStart (d :: text) = trimStart text := List.dropWhile_cons_of_pos hd
      rw [if_pos rfl, List.findSome?_append, ih, hskip]
      simp [dropLeading?, hne]
    | false =>
      rw [if_neg (by simp), trimStart_cons_of_not hd]
      simp

/-- A word that is read stands after some of the leading blanks. -/
theorem exists_of_afterWord? {α : Type} {word text : List Char} {accept : List Char → Option α}
    {found : α} (h : afterWord? word accept text = some found) :
    ∃ rest, word ++ rest ∈ blankTails text ∧ accept rest = some found := by
  obtain ⟨tail, htail, hfound⟩ := List.exists_of_findSome?_eq_some h
  obtain ⟨rest, hrest, haccept⟩ := Option.bind_eq_some_iff.mp hfound
  exact ⟨rest, dropLeading?_eq_some_iff.mp hrest ▸ htail, haccept⟩

/-- The text of a comment, from its first character that is no blank on. -/
def commentText? (line : List Char) : Option (List Char) :=
  (dropLeading? ['#', '#'] (trimStart line)).map trimStart

/-- What follows a word at the start of a text, if the word is complete there. -/
def dropWord? (word text : List Char) : Option (List Char) :=
  (dropLeading? word text).bind fun rest => if completes word rest then some rest else none

/-- A tag word stands at the start of the text of a comment. -/
theorem afterTag?_eq_bind {c : Char} (hc : isBlank c = false) (word line : List Char) :
    afterTag? ['#', '#'] (c :: word) line = (commentText? line).bind (dropWord? (c :: word)) := by
  rw [afterTag?, afterWord?_of_not_blank (by decide), commentText?]
  cases dropLeading? ['#', '#'] (trimStart line) with
  | none => rfl
  | some rest => exact afterWord?_of_not_blank hc word _ rest

/-- Of two words, neither of which starts with the other, a text starts with at most one. -/
theorem dropWord?_exclusive {word other text rest : List Char} (h : dropWord? word text = some rest)
    (hword : ¬ word <+: other) (hother : ¬ other <+: word) : dropWord? other text = none := by
  obtain ⟨tail, htail, -⟩ := Option.bind_eq_some_iff.mp h
  have hstarts : word <+: text := ⟨tail, (dropLeading?_eq_some_iff.mp htail).symm⟩
  cases hread : dropLeading? other text with
  | none => rw [dropWord?, hread, Option.bind_none]
  | some tail' =>
    have hstarts' : other <+: text := ⟨tail', (dropLeading?_eq_some_iff.mp hread).symm⟩
    rcases List.prefix_or_prefix_of_prefix hstarts hstarts' with hle | hle
    · exact absurd hle hword
    · exact absurd hle hother

/-- The key line that a line is. -/
def keyLine? (line : List Char) : Option KeyLine :=
  KeyLine.ofLine? ['#', '#'] line

/-- The tag of a kind that a line holds. -/
def tagOf? (kind : TagKind) (line : List Char) : Option TagLine :=
  TagLine.ofLine? ['#', '#'] (kind.word {}).toList line

/-- The tag that a line holds, with its kind. -/
def tagLine? (line : List Char) : Option (TagKind × TagLine) :=
  match tagOf? .param line with
  | some tag => some (.param, tag)
  | none =>
    match tagOf? .skip line with
    | some tag => some (.skip, tag)
    | none => (tagOf? .extra line).map (.extra, ·)

/-- The name of the section that a line starts. -/
def groupName? (line : List Char) : Option (List Char) :=
  sectionName? {} line

/-- A tag is what follows its word in a comment. -/
theorem tagOf?_eq_map (kind : TagKind) (line : List Char) :
    tagOf? kind line =
      ((commentText? line).bind (dropWord? (kind.word {}).toList)).map TagLine.ofRest := by
  rw [tagOf?, TagLine.ofLine?]
  congr 1
  cases kind <;> exact afterTag?_eq_bind (by decide) _ _

/-- The name of a section is what follows the word for sections in a comment, without blanks around
it. -/
theorem groupName?_eq_map (line : List Char) :
    groupName? line = ((commentText? line).bind (dropWord? "@section".toList)).map trim := by
  rw [groupName?, sectionName?, tagText?]
  congr 1
  exact afterTag?_eq_bind (by decide) _ _

/-- A description ends at its word in a comment. -/
theorem endsDescription_eq_isSome (line : List Char) :
    endsDescription {} line =
      ((commentText? line).bind (dropWord? "@descriptionEnd".toList)).isSome := by
  rw [endsDescription]
  congr 1
  exact afterTag?_eq_bind (by decide) _ _

/-- A description starts with what follows its word in a comment, without blanks around it. -/
theorem descriptionStart?_eq_map (line : List Char) :
    descriptionStart? {} line =
      ((commentText? line).bind (dropWord? "@descriptionStart".toList)).map trim := by
  rw [descriptionStart?, tagText?]
  congr 1
  exact afterTag?_eq_bind (by decide) _ _

/-- A line of description is the text of a comment without blanks around it. -/
theorem descriptionLine?_eq_map (line : List Char) :
    descriptionLine? {} line = (commentText? line).map trim := by
  have hread : afterComment? ['#', '#'] line = dropLeading? ['#', '#'] (trimStart line) := by
    rw [afterComment?, afterWord?_of_not_blank (by decide)]
    cases dropLeading? ['#', '#'] (trimStart line) <;> rfl
  have hsame : descriptionLine? {} line = (afterComment? ['#', '#'] line).map trim := rfl
  rw [hsame, hread, commentText?, Option.map_map]
  congr 1
  funext rest
  exact (trim_trimStart rest).symm

/-- A line without the start of a comment is neither a tag nor a section line. -/
theorem readings_of_commentText?_eq_none {line : List Char} (h : commentText? line = none) :
    (∀ kind, tagOf? kind line = none) ∧ groupName? line = none := by
  refine ⟨fun kind => ?_, ?_⟩
  · rw [tagOf?_eq_map, h]
    rfl
  · rw [groupName?_eq_map, h]
    rfl

/-- A line that holds a word is no comment with another word in front. -/
theorem tagOf?_exclusive {kind other : TagKind} {line : List Char} {tag : TagLine}
    (h : tagOf? kind line = some tag) (hne : kind ≠ other) : tagOf? other line = none := by
  rw [tagOf?_eq_map, Option.map_eq_some_iff] at h
  obtain ⟨rest, hrest, -⟩ := h
  obtain ⟨text, htext, hword⟩ := Option.bind_eq_some_iff.mp hrest
  have hother : dropWord? (other.word {}).toList text = none := by
    cases kind <;> cases other <;>
      first
        | exact absurd rfl hne
        | exact dropWord?_exclusive hword (by decide) (by decide)
  rw [tagOf?_eq_map, htext, Option.bind_some, hother]
  rfl

/-- A tag line starts no section. -/
theorem groupName?_of_tagOf? {kind : TagKind} {line : List Char} {tag : TagLine}
    (h : tagOf? kind line = some tag) : groupName? line = none := by
  rw [tagOf?_eq_map, Option.map_eq_some_iff] at h
  obtain ⟨rest, hrest, -⟩ := h
  obtain ⟨text, htext, hword⟩ := Option.bind_eq_some_iff.mp hrest
  have hother : dropWord? "@section".toList text = none := by
    cases kind <;> exact dropWord?_exclusive hword (by decide) (by decide)
  rw [groupName?_eq_map, htext, Option.bind_some, hother]
  rfl

/-- A key line is no comment. -/
theorem commentText?_of_keyLine? {line : List Char} {key : KeyLine}
    (h : keyLine? line = some key) : commentText? line = none := by
  rw [keyLine?, KeyLine.ofLine?] at h
  split at h
  · simp at h
  · next hcomment =>
    cases hread : dropLeading? ['#', '#'] (trimStart line) with
    | none => rw [commentText?, hread, Option.map_none]
    | some rest =>
      have htext := dropLeading?_eq_some_iff.mp hread
      exact absurd (by simp [isComment, htext]) hcomment

/-- A line holds a tag of a kind if and only if it is read as one of this kind. -/
theorem tagLine?_eq_some_iff {line : List Char} {kind : TagKind} {tag : TagLine} :
    tagLine? line = some (kind, tag) ↔ tagOf? kind line = some tag := by
  constructor
  · intro h
    rw [tagLine?] at h
    split at h
    · next hparam =>
      obtain ⟨rfl, rfl⟩ := Prod.mk.inj (Option.some.inj h)
      exact hparam
    · split at h
      · next hskip =>
        obtain ⟨rfl, rfl⟩ := Prod.mk.inj (Option.some.inj h)
        exact hskip
      · obtain ⟨extra, hextra, heq⟩ := Option.map_eq_some_iff.mp h
        obtain ⟨rfl, rfl⟩ := Prod.mk.inj heq
        exact hextra
  · intro h
    cases kind with
    | param => rw [tagLine?, h]
    | skip => rw [tagLine?, tagOf?_exclusive h (by decide), h]
    | extra =>
      rw [tagLine?, tagOf?_exclusive h (by decide), tagOf?_exclusive h (by decide), h]
      rfl

/-- A line holds no tag if and only if it is read as one of no kind. -/
theorem tagLine?_eq_none_iff {line : List Char} :
    tagLine? line = none ↔ ∀ kind, tagOf? kind line = none := by
  constructor
  · intro h kind
    cases htag : tagOf? kind line with
    | none => rfl
    | some tag =>
      rw [tagLine?_eq_some_iff.mpr htag] at h
      simp at h
  · intro h
    rw [tagLine?, h .param, h .skip, h .extra]
    rfl

/-- A key line holds no tag. -/
theorem tagLine?_of_keyLine? {line : List Char} {key : KeyLine} (h : keyLine? line = some key) :
    tagLine? line = none :=
  tagLine?_eq_none_iff.mpr (readings_of_commentText?_eq_none (commentText?_of_keyLine? h)).1

/-- A key line starts no section. -/
theorem groupName?_of_keyLine? {line : List Char} {key : KeyLine} (h : keyLine? line = some key) :
    groupName? line = none :=
  (readings_of_commentText?_eq_none (commentText?_of_keyLine? h)).2

/-- A line with a tag is no key line. -/
theorem keyLine?_of_tagLine? {line : List Char} {found : TagKind × TagLine}
    (h : tagLine? line = some found) : keyLine? line = none := by
  cases hkey : keyLine? line with
  | none => rfl
  | some key =>
    rw [tagLine?_of_keyLine? hkey] at h
    simp at h

/-- A line with a tag starts no section. -/
theorem groupName?_of_tagLine? {line : List Char} {found : TagKind × TagLine}
    (h : tagLine? line = some found) : groupName? line = none :=
  groupName?_of_tagOf? (tagLine?_eq_some_iff.mp h)

end ChartDocs.Markup
