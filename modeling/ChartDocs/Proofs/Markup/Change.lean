import ChartDocs.Proofs.Markup.Step
import Mathlib.Logic.Relation

/-!
# What a line can change

However a line is read, it takes a state through a few elementary changes, one after the other. They
say all that a line can do, and what is known about the line when it does so. Hence a property that
every elementary change keeps is kept by every line and by the run over any lines.
-/

namespace ChartDocs.Markup

open Relation

namespace State

/-- An elementary change of the state on a line. -/
inductive Change (settings : Settings) (line : List Char) : State → State → Prop where
  /-- Keys are opened and closed. -/
  | trail (s : State) (trail : Trail) : Change settings line s { s with trail }
  /-- The waiting parameter, if there is one, gets its name. -/
  | resolve (s : State) (path : List Char) : Change settings line s (s.resolve path)
  /-- A tag on the line is attached. -/
  | attach (s : State) {kind : TagKind} {tag : TagLine}
      (h : tagFor? settings kind line = some tag) :
      Change settings line s (s.attach (kind.build tag))
  /-- A tag on the line waits. -/
  | wait (s : State) {kind : TagKind} {tag : TagLine}
      (h : tagFor? settings kind line = some tag) :
      Change settings line s { s with pending := some (kind.build tag) }
  /-- The section that the line names becomes the current one. -/
  | group (s : State) {name : List Char} (h : sectionName? settings line = some name) :
      Change settings line s (s.takeGroup name)
  /-- A description ends. -/
  | closing (s : State) : Change settings line s { s with capturing := false }
  /-- A description starts in the current section. -/
  | opening (s : State) (h : s.current.isSome) : Change settings line s { s with capturing := true }
  /-- The line is taken into the description of the current section. -/
  | describe (s : State) {text : List Char}
      (h : descriptionLine? settings line = some text ∨
        descriptionStart? settings line = some text) : Change settings line s (s.describe text)

variable {settings : Settings} {line : List Char}

/-- A key line opens and closes keys and names the waiting parameter. -/
theorem changes_onKeyLine (s : State) :
    ReflTransGen (Change settings line) s (s.onKeyLine settings line) := by
  unfold onKeyLine
  split
  · next key _ =>
    have htrail : Change settings line s { s with trail := s.trail.enter key } := .trail s _
    exact .tail (.single htrail) (.resolve _ _)
  · exact .refl

/-- A tag waits or is attached. -/
theorem changes_onTag (kind : TagKind) (next : Option (List Char)) (s : State) :
    ReflTransGen (Change settings line) s (s.onTag settings kind line next) := by
  unfold onTag
  split
  · next tag htag =>
    have hwait : Change settings line s { s with pending := some (kind.build tag) } :=
      .wait s htag
    dsimp only
    split
    · exact .single (.attach s htag)
    · split
      · exact .tail (.single hwait) (.resolve _ _)
      · exact .single hwait
  · exact .refl

/-- A section line makes its section the current one. -/
theorem changes_onSection (s : State) :
    ReflTransGen (Change settings line) s (s.onSection settings line) := by
  unfold onSection
  split
  · next name hname => exact .single (.group s hname)
  · exact .refl

/-- A description is opened, closed or taken in. -/
theorem changes_describing (s : State) :
    ReflTransGen (Change settings line) s (s.describing settings line) := by
  have hend (s : State) :
      ReflTransGen (Change settings line) s (s.onDescriptionEnd settings line) := by
    unfold onDescriptionEnd
    split
    · exact .single (.closing s)
    · exact .refl
  have hline (s : State) :
      ReflTransGen (Change settings line) s (s.onDescriptionLine settings line) := by
    unfold onDescriptionLine
    split
    · split
      · next text htext => exact .single (.describe s (Or.inl htext))
      · exact .refl
    · exact .refl
  have hstart (s : State) :
      ReflTransGen (Change settings line) s (s.onDescriptionStart settings line) := by
    unfold onDescriptionStart
    split
    · next hallowed =>
      have hcurrent : s.current.isSome := (Bool.and_eq_true_iff.mp hallowed).2
      split
      · next text htext =>
        have hopening : ReflTransGen (Change settings line) s { s with capturing := true } :=
          .single (.opening s hcurrent)
        dsimp only
        split
        · exact hopening
        · exact hopening.tail (.describe _ (Or.inr htext))
      · exact .refl
    · exact .refl
  exact ((hend s).trans (hline _)).trans (hstart _)

/-- A line does nothing but elementary changes. -/
theorem changes_step (next : Option (List Char)) (s : State) :
    ReflTransGen (Change settings line) s (s.step settings line next) := by
  rw [step_eq]
  have hkey : ReflTransGen (Change settings line) s (s.onKeyLine settings line) :=
    changes_onKeyLine s
  have hparam := hkey.trans (changes_onTag .param next _)
  have hdescribed := (hparam.trans (changes_onSection _)).trans (changes_describing _)
  exact (hdescribed.trans (changes_onTag .skip next _)).trans (changes_onTag .extra next _)

variable {P : State → Prop} {s : State}

/-- What every change keeps is kept by a line. -/
theorem step_of_change (hchange : ∀ s t, Change settings line s t → P s → P t) (h : P s)
    (next : Option (List Char)) : P (s.step settings line next) := by
  have hchanges : ReflTransGen (Change settings line) s (s.step settings line next) :=
    changes_step next s
  generalize s.step settings line next = t at hchanges
  induction hchanges with
  | refl => exact h
  | tail _ hlast ih => exact hchange _ _ hlast ih

/-- What every change on some lines keeps is kept by the run over them. -/
theorem run_of_change {ls : List (List Char)}
    (hchange : ∀ line ∈ ls, ∀ s t, Change settings line s t → P s → P t) (h : P s) :
    P (run settings ls s) := by
  induction ls generalizing s with
  | nil => exact h
  | cons line ls ih =>
    have hline := hchange line List.mem_cons_self
    exact ih (fun l hl => hchange l (List.mem_cons_of_mem line hl))
      (step_of_change hline h ls.head?)

end State

end ChartDocs.Markup
