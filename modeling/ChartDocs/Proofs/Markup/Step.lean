import ChartDocs.Proofs.Markup.Line
import ChartDocs.Proofs.Markup.Lookahead

/-!
# One line under the default settings

A line does one thing under the default settings: it opens a key, holds a tag, starts a section, or
does none of these. Descriptions are a matter of their own: they change neither the parameters nor
what is known about keys, and they come last.
-/

namespace ChartDocs.Markup

open Text

/-- Under the default settings no line is taken in twice. -/
theorem exclusive_default (line : List Char) : State.Exclusive {} line where
  group _ h := groupName?_of_tagOf? h
  tags _ _ _ hne h := tagOf?_exclusive h hne

/-- What a kind of tag makes of a tag, field by field. -/
theorem TagKind.build_eq (kind : TagKind) (tag : TagLine) :
    kind.build tag =
      { name := String.ofList (tag.path.getD [])
        description := String.ofList tag.description
        modifiers :=
          if kind = .skip then [] else Parameter.cleanModifiers (tag.modifiers.map String.ofList)
        skip := kind = .skip
        extra := kind = .extra
        value := if kind = .extra then some (.string "") else none } := by
  cases kind <;> rfl

namespace State

/-- Take in a tag: it is attached at once if it has a path, and waits for a key otherwise. -/
def takeTag (kind : TagKind) (tag : TagLine) (s : State) : State :=
  if tag.path.isSome then s.attach (kind.build tag)
  else { s with pending := some (kind.build tag) }

/-- Make a new section the current one. -/
def takeGroup (name : List Char) (s : State) : State :=
  { s with
    catalog := s.catalog.addSection { name := String.ofList name }
    current := some s.catalog.sections.length
    capturing := false }

/-- Open a key, which names the waiting parameter. -/
def takeKey (key : KeyLine) (s : State) : State :=
  { s with trail := s.trail.enter key }.resolve (s.trail.enter key).path

/-- Take in a line but for descriptions. -/
def takeLine (line : List Char) (s : State) : State :=
  match keyLine? line with
  | some key => s.takeKey key
  | none =>
    match tagLine? line with
    | some (kind, tag) => s.takeTag kind tag
    | none =>
      match groupName? line with
      | some name => s.takeGroup name
      | none => s

/-- A line that is no key line and no comment changes nothing but descriptions. -/
theorem takeLine_of_commentText?_eq_none {line : List Char} (hkey : keyLine? line = none)
    (h : commentText? line = none) (s : State) : s.takeLine line = s := by
  obtain ⟨htag, hgroup⟩ := readings_of_commentText?_eq_none h
  rw [takeLine, hkey, tagLine?_eq_none_iff.mpr htag, hgroup]

/-- Descriptions do not notice tags. -/
theorem unnoticed_takeTag (kind : TagKind) (tag : TagLine) : Unnoticed (takeTag kind tag) := by
  cases h : tag.path.isSome with
  | true =>
    have hattach : takeTag kind tag = (attach · (kind.build tag)) := by
      funext s
      rw [takeTag, if_pos h]
    rw [hattach]
    exact unnoticed_attach _
  | false =>
    have hwait : takeTag kind tag = fun s => { s with pending := some (kind.build tag) } := by
      funext s
      rw [takeTag, if_neg (by simp [h])]
    rw [hwait]
    exact unnoticed_wait _

/-- While no description is open, a line does nothing to descriptions unless it opens one in the
section. -/
theorem describing_of_not_capturing {line : List Char} {s : State} (h : s.capturing = false)
    (hstart : s.current = none ∨ descriptionStart? {} line = none) :
    s.describing {} line = s := by
  have hend : s.onDescriptionEnd {} line = s := by
    rw [onDescriptionEnd, h, Bool.and_false, Bool.false_and, if_neg Bool.false_ne_true]
  have hline : s.onDescriptionLine {} line = s := by
    rw [onDescriptionLine, h, if_neg Bool.false_ne_true]
  have hopen : s.onDescriptionStart {} line = s := by
    rw [onDescriptionStart]
    rcases hstart with hcurrent | hnone
    · rw [hcurrent, Option.isSome_none, Bool.and_false, if_neg Bool.false_ne_true]
    · rw [hnone]
      split <;> rfl
  rw [describing, hend, hline, hopen]

/-- Under the default settings a key line is taken in as the key that it holds. -/
theorem onKeyLine_default (line : List Char) (s : State) :
    s.onKeyLine {} line =
      match keyLine? line with
      | some key => s.takeKey key
      | none => s := rfl

/-- Under the default settings a tag is taken in without a look at the next line. -/
theorem onTag_default (kind : TagKind) (line : List Char) (s : State) :
    s.onTag {} kind line none =
      match tagOf? kind line with
      | some tag => s.takeTag kind tag
      | none => s := rfl

/-- Under the default settings a section line is taken in as the name that it holds. -/
theorem onSection_default (line : List Char) (s : State) :
    s.onSection {} line =
      match groupName? line with
      | some name => s.takeGroup name
      | none => s := rfl

/-- Two states that differ in descriptions only. -/
structure Agrees (s t : State) : Prop where
  parameters : s.catalog.parameters = t.catalog.parameters
  outlines : s.catalog.outlines = t.catalog.outlines
  current : s.current = t.current
  trail : s.trail = t.trail
  pending : s.pending = t.pending

/-- States that agree with a third one agree with what it agrees with. -/
theorem Agrees.trans {s t u : State} (h : s.Agrees t) (h' : t.Agrees u) : s.Agrees u where
  parameters := h.parameters.trans h'.parameters
  outlines := h.outlines.trans h'.outlines
  current := h.current.trans h'.current
  trail := h.trail.trans h'.trail
  pending := h.pending.trans h'.pending

/-- A line of description changes descriptions only. -/
theorem agrees_describe (s : State) (text : List Char) : (s.describe text).Agrees s := by
  rw [describe]
  cases hcurrent : s.current with
  | none => exact ⟨rfl, rfl, rfl, rfl, rfl⟩
  | some owner => exact ⟨rfl, Catalog.outlines_addLine _ _ _, hcurrent.symm, rfl, rfl⟩

/-- The description steps change descriptions only. -/
theorem agrees_describing (settings : Settings) (line : List Char) (s : State) :
    (s.describing settings line).Agrees s :=
  describing_kept (P := fun t => t.Agrees s)
    (fun _ _ h => ⟨h.parameters, h.outlines, h.current, h.trail, h.pending⟩)
    (fun t text h => (agrees_describe t text).trans h) ⟨rfl, rfl, rfl, rfl, rfl⟩ settings line

/-- A line is taken in, and then descriptions are. -/
theorem step_default (line : List Char) (s : State) :
    s.step {} line none = (s.takeLine line).describing {} line := by
  rw [step_eq, onKeyLine_default, takeLine]
  simp only [onTag_default, onSection_default]
  cases hkey : keyLine? line with
  | some key =>
    have hcomment := commentText?_of_keyLine? hkey
    obtain ⟨htag, hgroup⟩ := readings_of_commentText?_eq_none hcomment
    simp only [htag, hgroup]
  | none =>
    cases hread : tagLine? line with
    | none =>
      have htag := tagLine?_eq_none_iff.mp hread
      simp only [htag]
    | some found =>
      obtain ⟨kind, tag⟩ := found
      have htag : tagOf? kind line = some tag := tagLine?_eq_some_iff.mp hread
      have hother : ∀ other, kind ≠ other → tagOf? other line = none :=
        fun other hne => tagOf?_exclusive htag hne
      simp only [groupName?_of_tagOf? htag]
      cases kind with
      | param => simp only [htag, hother .skip (by decide), hother .extra (by decide)]
      | skip =>
        simp only [htag, hother .param (by decide), hother .extra (by decide)]
        exact ((unnoticed_takeTag .skip tag).describing {} line s).symm
      | extra =>
        simp only [htag, hother .param (by decide), hother .skip (by decide)]
        exact ((unnoticed_takeTag .extra tag).describing {} line s).symm

/-- Take in lines one after the other. -/
def takeLines (ls : List (List Char)) (s : State) : State :=
  ls.foldl (fun s line => (s.takeLine line).describing {} line) s

/-- Without lines nothing changes. -/
@[simp] theorem takeLines_nil (s : State) : takeLines [] s = s := rfl

/-- The first line is taken in before the rest. -/
@[simp] theorem takeLines_cons (line : List Char) (ls : List (List Char)) (s : State) :
    takeLines (line :: ls) s = takeLines ls ((s.takeLine line).describing {} line) := rfl

/-- Lines are taken in before those that follow them. -/
@[simp] theorem takeLines_append (ls rest : List (List Char)) (s : State) :
    takeLines (ls ++ rest) s = takeLines rest (takeLines ls s) := by
  simp [takeLines]

end State

/-- The catalog of a text is known after its lines. -/
theorem ofText_eq_takeLines (text : String) :
    Catalog.ofText {} text = (State.takeLines (lines text.toList) {}).catalog := by
  have hblind : State.run {} (lines text.toList) {} = State.runBlind {} (lines text.toList) {} :=
    State.run_eq_runBlind (fun line _ => exclusive_default line) Trail.ordered_nil (Or.inl rfl)
  rw [Catalog.ofText, hblind, State.runBlind]
  simp only [State.step_default]
  rfl

end ChartDocs.Markup
