import ChartDocs.Proofs.Markup.Lookahead
import ChartDocs.Proofs.Markup.Printing

/-!
# Any comment and any word

What starts a comment and the words of tags are free texts. They may start or end with blanks, hold
brackets and repeat each other, so a line that is written with them can be read in several ways. But
the readings differ in blanks only, and a tag with its path is read as it was written, whatever the
settings are.

This takes a word that is complete before a blank. A word that ends in a letter or a number must end
at a word boundary, and there is none after a number that belongs to no words, such as a superscript
two. A tag with such a word is never read.
-/

namespace ChartDocs

namespace Text

/-- A number of some ranges lies in one of them. -/
theorem Ranges.exists_of_has {ranges : Ranges} {n : Nat} (h : ranges.has n = true) :
    ∃ range ∈ ranges, range.1 ≤ n ∧ n ≤ range.2 := by
  induction ranges with
  | nil => exact absurd h (by simp [Ranges.has])
  | cons range rest ih =>
    obtain ⟨low, high⟩ := range
    simp only [Ranges.has, Bool.and_eq_true, Bool.or_eq_true, decide_eq_true_eq] at h
    obtain ⟨hlow, hhigh | hrest⟩ := h
    · exact ⟨(low, high), List.mem_cons_self, hlow, hhigh⟩
    · obtain ⟨found, hfound, hbounds⟩ := ih hrest
      exact ⟨found, List.mem_cons_of_mem _ hfound, hbounds⟩

/-- A blank belongs to no word. -/
theorem isWord_of_isBlank {c : Char} (h : isBlank c = true) : isWord c = false := by
  have htable : ∀ range ∈ blankRanges, ∀ n ∈ List.range' range.1 (range.2 + 1 - range.1),
      isWord (Char.ofNat n) = false := by
    decide +kernel
  obtain ⟨range, hrange, hlow, hhigh⟩ := Ranges.exists_of_has h
  have hmem : c.toNat ∈ List.range' range.1 (range.2 + 1 - range.1) := by
    rw [List.mem_range'_1]
    omega
  rw [← Char.ofNat_toNat c]
  exact htable range hrange _ hmem

/-- What follows a text is determined up to blanks by the whole up to blanks. -/
theorem trimStart_cancel (front : List Char) {first second : List Char}
    (h : trimStart (front ++ first) = trimStart (front ++ second)) :
    trimStart first = trimStart second := by
  induction front with
  | nil => exact h
  | cons c front ih =>
    cases hc : isBlank c with
    | true =>
      rw [List.cons_append, List.cons_append, trimStart, trimStart,
        List.dropWhile_cons_of_pos hc, List.dropWhile_cons_of_pos hc] at h
      exact ih h
    | false =>
      rw [List.cons_append, List.cons_append, Markup.trimStart_cons_of_not hc,
        Markup.trimStart_cons_of_not hc] at h
      rw [List.append_cancel_left (List.cons.inj h).2]

end Text

namespace Markup

open Text State ChartDocs.Path

variable {word path description : List Char}

/-- A word can be complete before a blank: a last character that is a letter or a number belongs to
words. -/
def CanEnd (word : List Char) : Prop :=
  ∀ last ∈ word.getLast?, isAlphanumeric last = true → isWord last = true

-- By the last character of the word, not by all characters there are.
instance (word : List Char) : Decidable (CanEnd word) :=
  Option.decidableForallMem word.getLast?

/-- Only few letters and numbers at its end keep a word from being complete: the numbers that are
neither decimal nor alphabetic, and what the latest version of Unicode added. -/
theorem canEnd_of_getLast? (h : ∀ last ∈ word.getLast?, addedRanges.contains last = false ∧
    (isNumber last = true → isAlphabetic last = true ∨ isDecimalNumber last = true)) :
    CanEnd word := by
  intro last hlast halphanumeric
  obtain ⟨hadded, hnumber⟩ := h last hlast
  have hclass : isAlphabetic last = true ∨ isDecimalNumber last = true :=
    (Bool.or_eq_true_iff.mp halphanumeric).elim Or.inl hnumber
  rcases hclass with hclass | hclass <;> simp [isWord, hclass, hadded]

/-- Before a character that belongs to no words, exactly the words that can end are complete. -/
theorem completes_iff {rest : List Char} (hrest : ∀ c, rest.head? = some c → isWord c = false) :
    completes word rest = true ↔ CanEnd word := by
  have hboundary (last : Char) : boundaryAfter last rest = isWord last := by
    cases rest with
    | nil => rfl
    | cons c rest => rw [boundaryAfter, hrest c rfl, Bool.bne_false]
  have hunderscore : isWord '_' = true := by decide +kernel
  unfold completes CanEnd
  cases hlast : word.getLast? with
  | none => simp
  | some last =>
    by_cases hguard : isAlphanumeric last = true
    · simp [hguard, hboundary]
    · by_cases heq : last = '_'
      · simp [heq, hboundary, hunderscore]
      · simp [hguard, heq]

/-- Whichever of the blanks in front are left, the text without them is the same. -/
theorem trimStart_of_mem_blankTails {text tail : List Char} (h : tail ∈ blankTails text) :
    trimStart tail = trimStart text := by
  induction text with
  | nil => rw [List.mem_singleton.mp h]
  | cons c rest ih =>
    rw [blankTails] at h
    split at h
    · next hc =>
      rcases List.mem_append.mp h with h | h
      · rw [ih h, trimStart, trimStart, List.dropWhile_cons_of_pos hc]
      · rw [List.mem_singleton.mp h]
    · rw [List.mem_singleton.mp h]

/-- A text is what is left after none of its blanks. -/
theorem mem_blankTails_self (text : List Char) : text ∈ blankTails text := by
  cases text with
  | nil => exact List.mem_singleton_self _
  | cons c rest =>
    rw [blankTails]
    split
    · exact List.mem_append_right _ (List.mem_singleton_self _)
    · exact List.mem_singleton_self _

/-- A text is left after one blank before it. -/
theorem mem_blankTails_blank (text : List Char) : text ∈ blankTails (' ' :: text) :=
  List.mem_append_left _ (mem_blankTails_self text)

variable {α : Type} {accept : List Char → Option α}

/-- Every reading leaves the same text after the word, up to blanks. -/
theorem exists_left_of_afterWord? {text rest : List Char} {found : α}
    (htext : trimStart text = trimStart (word ++ rest))
    (h : afterWord? word accept text = some found) :
    ∃ left, trimStart left = trimStart rest ∧ accept left = some found := by
  obtain ⟨left, hleft, haccept⟩ := exists_of_afterWord? h
  have hsame : trimStart (word ++ left) = trimStart (word ++ rest) := by
    rw [trimStart_of_mem_blankTails hleft, htext]
  exact ⟨left, trimStart_cancel word hsame, haccept⟩

/-- There is a reading if what follows the word is accepted. -/
theorem isSome_afterWord? {text rest : List Char} (htext : word ++ rest ∈ blankTails text)
    (h : (accept rest).isSome) : (afterWord? word accept text).isSome := by
  refine List.findSome?_isSome_iff.mpr ⟨word ++ rest, htext, ?_⟩
  rwa [dropLeading?_append, Option.bind_some]

/-- What follows the word of a tag with a path. -/
def pathText (path description : List Char) : List Char :=
  ' ' :: '(' :: (path ++ ')' :: ' ' :: description)

/-- A line with a comment, the word of a tag, a path in parentheses and a description. -/
def pathLine (comment word path description : List Char) : List Char :=
  comment ++ ' ' :: (word ++ pathText path description)

/-- What is read after the word is what was written, up to blanks, and the word is complete. -/
theorem afterTag?_pathLine {comment left : List Char}
    (h : afterTag? comment word (pathLine comment word path description) = some left) :
    trimStart left = trimStart (pathText path description) ∧ completes word left = true := by
  obtain ⟨text, htext, hword⟩ := exists_left_of_afterWord? rfl h
  rw [trimStart_blank] at htext
  obtain ⟨found, hfound, haccept⟩ := exists_left_of_afterWord? htext hword
  obtain ⟨hcomplete, hsame⟩ := Option.ite_none_right_eq_some.mp haccept
  obtain rfl : found = left := Option.some.inj hsame
  exact ⟨hfound, hcomplete⟩

/-- After the word of a tag with a path, no word goes on. -/
theorem isWord_of_head? {left : List Char}
    (h : trimStart left = trimStart (pathText path description)) {c : Char}
    (hc : left.head? = some c) : isWord c = false := by
  cases hblank : isBlank c with
  | true => exact isWord_of_isBlank hblank
  | false =>
    obtain ⟨rest, rfl⟩ := List.head?_eq_some_iff.mp hc
    rw [trimStart_cons_of_not hblank, pathText, trimStart_blank,
      trimStart_cons_of_not (by decide)] at h
    rw [(List.cons.inj h).1]
    decide +kernel

/-- The word is read if it can be complete before the path. -/
theorem isSome_afterTag?_pathLine (comment word path description : List Char) :
    (afterTag? comment word (pathLine comment word path description)).isSome ↔ CanEnd word := by
  constructor
  · intro h
    obtain ⟨left, hleft⟩ := Option.isSome_iff_exists.mp h
    obtain ⟨hrest, hcomplete⟩ := afterTag?_pathLine hleft
    exact (completes_iff fun c => isWord_of_head? hrest).mp hcomplete
  · intro hend
    have hcomplete : completes word (pathText path description) = true :=
      (completes_iff fun c => isWord_of_head? rfl).mpr hend
    refine isSome_afterWord? (mem_blankTails_self _)
      (isSome_afterWord? (mem_blankTails_blank _) ?_)
    rw [if_pos hcomplete, Option.isSome_some]

/-- A path without blanks around it is read as it was written, and so is what follows it. -/
theorem ofRest_of_trimStart (htrim : trim path = path) (hne : path ≠ []) (hclosed : ')' ∉ path)
    {left : List Char} (h : trimStart left = trimStart (pathText path description)) :
    TagLine.ofRest left =
      { path := some path
        modifiers := (takeModifiers description).1
        description := trim (takeModifiers description).2 } := by
  have htext : trimStart left = '(' :: (path ++ ')' :: ' ' :: description) := by
    rw [h, pathText, trimStart_blank, trimStart_cons_of_not (by decide)]
  have hcut : takeParentheses? left = some (path, ' ' :: description) := by
    rw [takeParentheses?, htext]
    exact cutAt?_append hclosed _
  have hpath : TagLine.pathOf path = some path := by
    rw [TagLine.pathOf, htrim, if_neg hne]
  rw [TagLine.ofRest, hcut]
  dsimp only
  rw [takeModifiers_blank, hpath]

/-- Under any settings, a line with a comment, the word of a tag, a path and a description is read
as a tag with that path, and what follows the path gives its modifiers and its description, if the
word can be complete. Otherwise it is not read as such a tag. -/
theorem tagFor?_pathLine (settings : Settings) (kind : TagKind) (htrim : trim path = path)
    (hne : path ≠ []) (hclosed : ')' ∉ path) (description : List Char) :
    tagFor? settings kind (pathLine settings.comment.toList (kind.word settings.tags).toList path
        description) =
      if CanEnd (kind.word settings.tags).toList then
        some { path := some path
               modifiers := (takeModifiers description).1
               description := trim (takeModifiers description).2 }
      else none := by
  rw [tagFor?, TagLine.ofLine?]
  have hread := isSome_afterTag?_pathLine settings.comment.toList
    (kind.word settings.tags).toList path description
  by_cases hend : CanEnd (kind.word settings.tags).toList
  · obtain ⟨left, hleft⟩ := Option.isSome_iff_exists.mp (hread.mpr hend)
    rw [if_pos hend, hleft, Option.map_some,
      ofRest_of_trimStart htrim hne hclosed (afterTag?_pathLine hleft).1]
  · rw [if_neg hend, Option.not_isSome_iff_eq_none.mp (mt hread.mp hend), Option.map_none]

/-- Settings in which comment and tag word start with blanks and the word with a parenthesis. -/
def blankSettings : Settings :=
  { comment := " *", tags := { param := " (p" } }

/-- The parenthesis of the word opens no path. -/
theorem tagFor?_blankSettings :
    trim "a.b".toList = "a.b".toList ∧ "a.b".toList ≠ [] ∧ ')' ∉ "a.b".toList ∧
      tagFor? blankSettings .param " *  (p (a.b) [array, x] Text ".toList =
        some { path := some "a.b".toList
               modifiers := ["array".toList, " x".toList]
               description := "Text".toList } := by
  have htrim : trim "a.b".toList = "a.b".toList := by decide
  have hne : "a.b".toList ≠ [] := by decide
  have hclosed : ')' ∉ "a.b".toList := by decide
  have hend : CanEnd (TagKind.param.word blankSettings.tags).toList := by decide +kernel
  have hread := tagFor?_pathLine blankSettings .param htrim hne hclosed "[array, x] Text ".toList
  rw [if_pos hend] at hread
  exact ⟨htrim, hne, hclosed, hread.trans (by decide +kernel)⟩

/-- A tag word that ends with a superscript two is not read where it was written. -/
theorem exists_tagFor?_eq_none :
    ∃ (settings : Settings) (path description : List Char),
      '\n' ∉ settings.comment.toList ∧ '\n' ∉ settings.tags.param.toList ∧
      settings.tags.param ≠ "" ∧ trim path = path ∧ path ≠ [] ∧ ')' ∉ path ∧ '\n' ∉ path ∧
      '\n' ∉ description ∧
      tagFor? settings .param (pathLine settings.comment.toList settings.tags.param.toList path
        description) = none :=
  ⟨{ tags := { param := "@param²" } }, ['a'], ['d'], by decide +kernel⟩

end Markup

end ChartDocs
