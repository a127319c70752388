import ChartDocs.Proofs.Readme.Replacing
import Mathlib.Algebra.Group.Nat.Even

/-!
# Headings and blocks of code

A block of code reaches from a fence to the first later fence of the same character that is at least
as long, and other fences in between are its text. Marking knows no kinds of fences: a heading
counts if an even number of lines that begin like a fence stands above it. So a heading that is
selected lies outside of all blocks as long as every such line above it is a fence of a block, and a
fence of another kind inside a block can bring a heading of that block to light.
-/

namespace ChartDocs.Readme

open Text

variable {ls : List (List Char)} {line : List Char} {i : Nat}

/-- A fence: a run of one character. -/
structure Fence where
  char : Char
  length : Nat
deriving DecidableEq, Repr

namespace Fence

/-- The fence at the beginning of a line, after at most three spaces, and what follows it. -/
def ofLine? (line : List Char) : Option (Fence × List Char) :=
  match line.dropWhile (· = ' ') with
  | [] => none
  | c :: rest =>
    let length := ((c :: rest).takeWhile (· = c)).length
    if (line.takeWhile (· = ' ')).length ≤ 3 ∧ (c = '\x60' ∨ c = '~') ∧ 3 ≤ length then
      some (⟨c, length⟩, rest.dropWhile (· = c))
    else none

/-- Whether a line closes the block that a fence has opened. -/
def closedBy (fence : Fence) (line : List Char) : Bool :=
  (ofLine? line).any fun (other, rest) =>
    other.char = fence.char ∧ fence.length ≤ other.length ∧ rest.all isBlank

end Fence

/-- The opening fence of the block that is open after a line, if one is. -/
def nextBlock : Option Fence → List Char → Option Fence
  | none, line => (Fence.ofLine? line).map Prod.fst
  | some fence, line => if fence.closedBy line then none else some fence

/-- The opening fence of the block that is open above a line, if one is. -/
def blockAt (ls : List (List Char)) (i : Nat) : Option Fence :=
  (ls.take i).foldl nextBlock none

/-- Two lines are the fences of a block of code: the first opens it outside of other blocks, and the
last is the first later line that closes it. -/
structure IsBlock (ls : List (List Char)) (fence : Fence) (first last : Nat) : Prop where
  lt : first < last
  outside : blockAt ls first = none
  opening : (ls[first]?.bind Fence.ofLine?).map Prod.fst = some fence
  interior : ∀ i < last, first < i → (ls[i]?).any fence.closedBy = false
  closing : (ls[last]?).any fence.closedBy = true

/-- Whether a line lies strictly between the fences of a block. -/
def Inside (ls : List (List Char)) (i : Nat) : Prop :=
  ∃ fence first last, IsBlock ls fence first last ∧ first < i ∧ i < last

/-- A line changes which block is open for the line below it. -/
theorem blockAt_succ (h : ls[i]? = some line) :
    blockAt ls (i + 1) = nextBlock (blockAt ls i) line := by
  rw [blockAt, List.take_add_one, h, List.foldl_append]
  rfl

/-- The block that a fence has opened is open above all lines up to its closing fence. -/
theorem IsBlock.blockAt_eq {fence : Fence} {first last : Nat} (h : IsBlock ls fence first last)
    (hfirst : first < i) (hlast : i ≤ last) : blockAt ls i = some fence := by
  induction i, hfirst using Nat.le_induction with
  | base =>
    obtain ⟨⟨opening, after⟩, hopening, hfence⟩ := Option.map_eq_some_iff.mp h.opening
    obtain ⟨line, hline, hread⟩ := Option.bind_eq_some_iff.mp hopening
    rw [Nat.succ_eq_add_one, blockAt_succ hline, h.outside, nextBlock, hread, Option.map_some,
      hfence]
  | succ i hi ih =>
    obtain ⟨closing, hclosing, -⟩ := (Option.any_eq_true _ _).mp h.closing
    have hlength : last < ls.length := (List.getElem?_eq_some_iff.mp hclosing).1
    have hline : ls[i]? = some ls[i] := List.getElem?_eq_getElem (by omega)
    have hopen : fence.closedBy ls[i] = false := by
      simpa [hline] using h.interior i (by omega) (by omega)
    rw [blockAt_succ hline, ih (by omega), nextBlock, hopen]
    rfl

/-- A block is open above each line inside of one. -/
theorem Inside.blockAt_ne_none (h : Inside ls i) : blockAt ls i ≠ none := by
  obtain ⟨fence, first, last, hblock, hfirst, hlast⟩ := h
  rw [hblock.blockAt_eq hfirst (Nat.le_of_lt hlast)]
  exact Option.some_ne_none fence

/-- Before a character that is no blank, trimming drops just the spaces. -/
theorem trimStart_eq_of_dropWhile {c : Char} {rest : List Char}
    (h : line.dropWhile (· = ' ') = c :: rest) (hc : isBlank c = false) :
    trimStart line = c :: rest := by
  have hspaces : ∀ d ∈ line.takeWhile (· = ' '), isBlank d = true := by
    intro d hd
    have hspace : d = ' ' := by simpa using List.mem_takeWhile_imp hd
    rw [hspace]
    rfl
  rw [trimStart, ← List.takeWhile_append_dropWhile (p := (· = ' ')) (l := line), h,
    List.dropWhile_append_of_pos hspaces, List.dropWhile_cons, hc]
  rfl

/-- A run of at least three characters begins with three. -/
theorem exists_eq_of_three_le_takeWhile {c : Char} {text : List Char}
    (h : 3 ≤ (text.takeWhile (· = c)).length) : ∃ rest, text = c :: c :: c :: rest := by
  have hrun : text.takeWhile (· = c) = List.replicate (text.takeWhile (· = c)).length c :=
    List.eq_replicate_of_mem fun d hd => by simpa using List.mem_takeWhile_imp hd
  obtain ⟨more, hmore⟩ := Nat.exists_eq_add_of_le' h
  refine ⟨List.replicate more c ++ text.dropWhile (· = c), ?_⟩
  rw [hmore] at hrun
  have htext := List.takeWhile_append_dropWhile (p := (· = c)) (l := text)
  rw [hrun] at htext
  exact htext.symm

/-- Each fence is a line that marking takes for one. -/
theorem isFence_of_ofLine? (h : Fence.ofLine? line ≠ none) : isFence line = true := by
  rw [Fence.ofLine?] at h
  split at h
  · exact absurd rfl h
  · next c rest htext =>
    dsimp only at h
    split at h
    · next hfence =>
      obtain ⟨-, hc, hlength⟩ := hfence
      have hblank : isBlank c = false := by rcases hc with rfl | rfl <;> rfl
      obtain ⟨more, hmore⟩ := exists_eq_of_three_le_takeWhile hlength
      rw [isFence, trimStart_eq_of_dropWhile htext hblank, hmore]
      rcases hc with rfl | rfl <;> simp [startsWith, dropLeading?]
    · exact absurd rfl h

/-- A line that does not begin like a fence opens and closes nothing. -/
theorem isSome_nextBlock_of_not_isFence (h : isFence line = false) (block : Option Fence) :
    (nextBlock block line).isSome = block.isSome := by
  have hnone : Fence.ofLine? line = none := by
    by_contra hne
    exact absurd (isFence_of_ofLine? hne) (by simp [h])
  cases block with
  | none => simp [nextBlock, hnone]
  | some fence => simp [nextBlock, Fence.closedBy, hnone]

/-- A heading counts unless a block of code is open above it or it is a fence. -/
theorem getElem?_mark (fenced : Bool) (ls : List (List Char)) (i : Nat) :
    (mark fenced ls)[i]? = ls[i]?.map fun line =>
      (if isFence line || fencedAfter fenced (ls.take i) then none else headingLevel? line,
        line) := by
  induction ls generalizing fenced i with
  | nil => rfl
  | cons first rest ih =>
    rw [mark]
    cases i with
    | zero => by_cases hfence : isFence first <;> cases fenced <;> simp [hfence, fencedAfter]
    | succ i => by_cases hfence : isFence first <;> simp [hfence, fencedAfter, ih]

/-- A block of code is taken to be open below an odd number of lines that begin like a fence. -/
theorem fencedAfter_eq_false_iff (fenced : Bool) (ls : List (List Char)) :
    fencedAfter fenced ls = false ↔ (fenced = false ↔ Even (ls.countP isFence)) := by
  induction ls generalizing fenced with
  | nil => simp [fencedAfter]
  | cons line rest ih =>
    rw [fencedAfter, ih, List.countP_cons]
    by_cases hfence : isFence line
    · cases fenced <;> simp [hfence, Nat.even_add_one]
    · simp [hfence]

/-- A line is marked as a heading if and only if it is one and an even number of lines that begin
like a fence stands above it. -/
theorem getElem?_mark_eq_heading_iff {level : Nat} :
    (mark false ls)[i]? = some (some level, line) ↔
      ls[i]? = some line ∧ isFence line = false ∧ headingLevel? line = some level ∧
        Even ((ls.take i).countP isFence) := by
  have heven := fencedAfter_eq_false_iff false (ls.take i)
  rw [getElem?_mark, Option.map_eq_some_iff]
  constructor
  · rintro ⟨found, hfound, heq⟩
    obtain ⟨hmark, rfl⟩ := Prod.mk.inj heq
    split at hmark
    · exact absurd hmark (by simp)
    · next hopen =>
      obtain ⟨hfence, hafter⟩ := Bool.or_eq_false_iff.mp (Bool.not_eq_true _ ▸ hopen)
      exact ⟨hfound, hfence, hmark, (heven.mp hafter).mp rfl⟩
  · rintro ⟨hline, hfence, hlevel, hcount⟩
    have hafter : fencedAfter false (ls.take i) = false := heven.mpr (iff_of_true rfl hcount)
    exact ⟨line, hline, by simp [hfence, hafter, hlevel]⟩

/-- Whether all lines above a line that begin like a fence are fences of blocks: each of them opens
a block or closes the one that is open. -/
def FencesMatch (ls : List (List Char)) (i : Nat) : Prop :=
  ∀ j < i, (ls[j]?).any isFence = true → (blockAt ls (j + 1)).isSome = !(blockAt ls j).isSome

instance (ls : List (List Char)) (i : Nat) : Decidable (FencesMatch ls i) :=
  inferInstanceAs (Decidable (∀ j < i, (ls[j]?).any isFence = true →
    (blockAt ls (j + 1)).isSome = !(blockAt ls j).isSome))

/-- Where all such lines are fences, blocks are found as they are. -/
theorem fencedAfter_take (h : FencesMatch ls i) :
    fencedAfter false (ls.take i) = (blockAt ls i).isSome := by
  induction i with
  | zero => rfl
  | succ i ih =>
    have habove : FencesMatch ls i := fun j hj => h j (Nat.lt_succ_of_lt hj)
    cases hline : ls[i]? with
    | none =>
      have hlength : ls.length ≤ i := List.getElem?_eq_none_iff.mp hline
      have htake : ls.take (i + 1) = ls.take i := by
        rw [List.take_of_length_le (Nat.le_succ_of_le hlength), List.take_of_length_le hlength]
      rw [blockAt, htake, ih habove, blockAt]
    | some line =>
      have hnext : fencedAfter false (ls.take (i + 1)) =
          if isFence line then !(blockAt ls i).isSome else (blockAt ls i).isSome := by
        rw [List.take_add_one, hline, fencedAfter_append, ih habove]
        rfl
      rw [hnext]
      split
      · next hfence => exact (h i (Nat.lt_succ_self i) (by simp [hline, hfence])).symm
      · next hfence =>
        rw [blockAt_succ hline, isSome_nextBlock_of_not_isFence (by simpa using hfence)]

/-- The positions of the heading whose body is replaced and, if there is one, of the heading that
ends this body. -/
def selected (above : List MarkedLine) (level : Nat) (below : List MarkedLine) : List Nat :=
  (above.length - 1) ::
    if dropBody level below = [] then []
    else [above.length + (below.length - (dropBody level below).length)]

/-- A selected line is marked as a heading. -/
theorem exists_mark_of_mem_selected {title : List Char} {above below : List MarkedLine}
    {level : Nat} (hcut : cutBelow? title (mark false ls) = some (above, level, below))
    (hi : i ∈ selected above level below) :
    ∃ other line, (mark false ls)[i]? = some (some other, line) := by
  obtain ⟨before, line, habove, hmarked, -⟩ := exists_of_cutBelow? hcut
  rw [hmarked]
  rcases List.mem_cons.mp hi with htarget | hend
  · refine ⟨level, line, ?_⟩
    rw [htarget, habove, List.length_append, List.length_singleton, Nat.add_sub_cancel,
      List.append_assoc, List.getElem?_append_right (Nat.le_refl _), Nat.sub_self]
    rfl
  · rcases dropBody_eq_nil_or level below with hnil | ⟨other, last, rest, -, hcons⟩
    · rw [if_pos hnil] at hend
      exact absurd hend List.not_mem_nil
    · obtain ⟨front, hfront⟩ := dropBody_suffix level below
      have hposition : i = above.length + front.length := by
        rw [if_neg (by simp [hcons]), List.mem_singleton] at hend
        have hlength := congrArg List.length hfront
        rw [List.length_append] at hlength
        omega
      refine ⟨other, last, ?_⟩
      rw [hposition, List.getElem?_append_right (Nat.le_add_right _ _), Nat.add_sub_cancel_left,
        ← hfront, List.getElem?_append_right (Nat.le_refl _), Nat.sub_self, hcons]
      rfl

/-- The heading whose body is replaced and the heading that ends this body are headings with an even
number of lines above them that begin like a fence. So they lie inside no block of code if all these
lines are fences of blocks. -/
theorem selected_not_inside {readme body title result : List Char}
    (h : replaceBody? readme body title = some result) :
    ∃ above level below,
      cutBelow? title (mark false (lines readme)) = some (above, level, below) ∧
      result = replaced above body (dropBody level below) ∧
      ∀ i ∈ selected above level below,
        (∃ line other, (lines readme)[i]? = some line ∧ headingLevel? line = some other) ∧
        Even (((lines readme).take i).countP isFence) ∧
        (FencesMatch (lines readme) i → ¬Inside (lines readme) i) := by
  obtain ⟨above, level, below, hcut⟩ := exists_cut_of_replaceBody? h
  have hresult : result = replaced above body (dropBody level below) := by
    rw [replaceBody?_eq_of_cut hcut] at h
    exact (Option.some.inj h).symm
  refine ⟨above, level, below, hcut, hresult, fun i hi => ?_⟩
  obtain ⟨other, line, hmark⟩ := exists_mark_of_mem_selected hcut hi
  obtain ⟨hline, -, hlevel, heven⟩ := getElem?_mark_eq_heading_iff.mp hmark
  refine ⟨⟨line, other, hline, hlevel⟩, heven, fun hmatch hinside => ?_⟩
  have hopen : (blockAt (lines readme) i).isSome = false := by
    rw [← fencedAfter_take hmatch, fencedAfter_eq_false_iff]
    exact iff_of_true rfl heven
  exact hinside.blockAt_ne_none (Option.isNone_iff_eq_none.mp (by simpa using hopen))

/-- A README with a heading in a block of code above the heading of the same title. -/
def quoting : List Char :=
  "\x60\x60\x60md\n## P\n\x60\x60\x60\n## P\nold\n## Q\n".toList

/-- The search passes over the heading in the block of code. -/
theorem selected_not_inside_quoting :
    Inside (lines quoting) 1 ∧ ∃ above level below,
      cutBelow? "P".toList (mark false (lines quoting)) = some (above, level, below) ∧
      selected above level below = [3, 5] ∧ ∀ i ∈ [3, 5], ¬Inside (lines quoting) i := by
  have hresult : replaceBody? quoting "t".toList "P".toList =
      some "\x60\x60\x60md\n## P\n\x60\x60\x60\n## P\n\nt\n\n## Q\n".toList := by decide +kernel
  have hblock : IsBlock (lines quoting) ⟨'\x60', 3⟩ 0 2 :=
    { lt := by decide
      outside := rfl
      opening := by decide +kernel
      interior := by decide +kernel
      closing := by decide +kernel }
  obtain ⟨above, level, below, hcut, -, hselected⟩ := selected_not_inside hresult
  have hpositions : (cutBelow? "P".toList (mark false (lines quoting))).map
      (fun cut => selected cut.1 cut.2.1 cut.2.2) = some [3, 5] := by decide +kernel
  rw [hcut, Option.map_some, Option.some.injEq] at hpositions
  have hmatch : ∀ i ∈ [3, 5], FencesMatch (lines quoting) i := by decide +kernel
  refine ⟨⟨_, 0, 2, hblock, by decide, by decide⟩, above, level, below, hcut, hpositions,
    fun i hi => ?_⟩
  exact (hselected i (hpositions ▸ hi)).2.2 (hmatch i hi)

/-- A fence of backticks inside a block of tildes brings the heading below it to light. -/
theorem exists_selected_inside : ¬∀ (readme title : List Char) (above : List MarkedLine)
    (level : Nat) (below : List MarkedLine) (i : Nat),
      cutBelow? title (mark false (lines readme)) = some (above, level, below) →
      i ∈ selected above level below → ¬Inside (lines readme) i := by
  intro h
  have hcut : cutBelow? "P".toList (mark false (lines
      "~~~\n\x60\x60\x60\n## P\n\x60\x60\x60\n~~~\n## P\n".toList)) =
      some ([(none, "~~~".toList), (none, "\x60\x60\x60".toList), (some 2, "## P".toList)], 2,
        [(none, "\x60\x60\x60".toList), (none, "~~~".toList), (some 2, "## P".toList)]) := by
    decide +kernel
  have hblock : IsBlock (lines "~~~\n\x60\x60\x60\n## P\n\x60\x60\x60\n~~~\n## P\n".toList)
      ⟨'~', 3⟩ 0 4 :=
    { lt := by decide
      outside := rfl
      opening := by decide +kernel
      interior := by decide +kernel
      closing := by decide +kernel }
  exact h _ _ _ _ _ 2 hcut (by decide) ⟨_, 0, 4, hblock, by decide, by decide⟩

end ChartDocs.Readme
