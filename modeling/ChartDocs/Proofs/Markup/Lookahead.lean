import ChartDocs.Markup.Scan
import ChartDocs.Proofs.Catalog.Attaching
import ChartDocs.Proofs.Markup.Trail

/-!
# A look at the next line changes nothing

A tag without a path that is directly followed by a key line takes its path from that line before
the line is taken in. The key line itself would give it the same path, so a scan that never looks
ahead ends in the same state.

After each line a scan with the look ahead is in the same state as one without it, or it has already
named the waiting parameter by the key line that comes next. The description steps do not tell the
two apart, and the key line ends the difference.
-/

namespace ChartDocs.Markup

open Text

namespace TagKind

/-- What holds of the three kinds holds of all. -/
theorem forall_iff {P : TagKind → Prop} : (∀ kind, P kind) ↔ P .param ∧ P .skip ∧ P .extra :=
  ⟨fun h => ⟨h .param, h .skip, h .extra⟩, fun ⟨hparam, hskip, hextra⟩ kind => by
    cases kind <;> assumption⟩

instance {P : TagKind → Prop} [DecidablePred P] : Decidable (∀ kind, P kind) :=
  decidable_of_iff _ forall_iff.symm

end TagKind

namespace State

/-- Take in lines one after the other, without a look at the line after. -/
def runBlind (settings : Settings) (ls : List (List Char)) (s : State) : State :=
  ls.foldl (fun s line => s.step settings line none) s

/-- The steps that close, extend and open descriptions. -/
def describing (settings : Settings) (line : List Char) (s : State) : State :=
  s |>.onDescriptionEnd settings line
    |>.onDescriptionLine settings line
    |>.onDescriptionStart settings line

/-- The tag of a kind that a line holds. -/
def tagFor? (settings : Settings) (kind : TagKind) (line : List Char) : Option TagLine :=
  TagLine.ofLine? settings.comment.toList (kind.word settings.tags).toList line

/-- A line holds a tag of one kind at most, and no parameter tag and section at once. -/
structure Exclusive (settings : Settings) (line : List Char) : Prop where
  group : ∀ tag, tagFor? settings .param line = some tag → sectionName? settings line = none
  tags : ∀ kind other tag, kind ≠ other → tagFor? settings kind line = some tag →
    tagFor? settings other line = none

/-- A line holds a tag of one kind at most. -/
def SingleTagged (settings : Settings) (line : List Char) : Prop :=
  ∀ kind other, kind ≠ other →
    tagFor? settings kind line = none ∨ tagFor? settings other line = none

instance (settings : Settings) (line : List Char) : Decidable (SingleTagged settings line) :=
  inferInstanceAs (Decidable (∀ kind other, kind ≠ other →
    tagFor? settings kind line = none ∨ tagFor? settings other line = none))

/-- A change of the state that descriptions do not notice. -/
structure Unnoticed (change : State → State) : Prop where
  current : ∀ s, (change s).current = s.current
  capturing : ∀ s, (change s).capturing = s.capturing
  capture : ∀ s capturing, { change s with capturing } = change { s with capturing }
  describe : ∀ s text, (change s).describe text = change (s.describe text)

/-- A state is ahead of another one if it has named the waiting parameter by the next line. -/
def Ahead (settings : Settings) (next : Option (List Char)) (s behind : State) : Prop :=
  s = behind ∨ ∃ key, next.bind (KeyLine.ofLine? settings.comment.toList) = some key ∧
    s = behind.resolve (behind.trail.pathTo key)

/-- A line is exclusive if of any two readings that exclude each other one is missing. -/
theorem exclusive_iff {settings : Settings} {line : List Char} :
    Exclusive settings line ↔
      (tagFor? settings .param line = none ∨ sectionName? settings line = none) ∧
        SingleTagged settings line := by
  constructor
  · rintro ⟨hgroup, htags⟩
    refine ⟨?_, fun kind other hne => ?_⟩
    · cases hparam : tagFor? settings .param line with
      | none => exact Or.inl rfl
      | some tag => exact Or.inr (hgroup tag hparam)
    · cases hkind : tagFor? settings kind line with
      | none => exact Or.inl rfl
      | some tag => exact Or.inr (htags kind other tag hne hkind)
  · rintro ⟨hgroup, htags⟩
    refine ⟨fun tag hparam => hgroup.resolve_left ?_, fun kind other tag hne hkind =>
      (htags kind other hne).resolve_left ?_⟩
    · simp [hparam]
    · simp [hkind]

instance (settings : Settings) (line : List Char) : Decidable (Exclusive settings line) :=
  decidable_of_iff _ exclusive_iff.symm

/-- What the description steps do depends on the line, on whether there is a current section and on
whether a description is open, and they only close or open the description and add lines to it. So
they keep what all this keeps. -/
theorem describing_related {R : State → State → Prop}
    (hcurrent : ∀ s t, R s t → s.current = t.current)
    (hcapturing : ∀ s t, R s t → s.capturing = t.capturing)
    (hcapture : ∀ s t capturing, R s t → R { s with capturing } { t with capturing })
    (hdescribe : ∀ s t text, R s t → R (s.describe text) (t.describe text))
    {s t : State} (h : R s t) (settings : Settings) (line : List Char) :
    R (s.describing settings line) (t.describing settings line) := by
  have hend {s t : State} (h : R s t) :
      R (s.onDescriptionEnd settings line) (t.onDescriptionEnd settings line) := by
    have hends : (s.current.isSome && s.capturing && endsDescription settings line) =
        (t.current.isSome && t.capturing && endsDescription settings line) := by
      rw [hcurrent s t h, hcapturing s t h]
    unfold onDescriptionEnd
    rw [hends]
    split
    · exact hcapture s t false h
    · exact h
  have hline {s t : State} (h : R s t) :
      R (s.onDescriptionLine settings line) (t.onDescriptionLine settings line) := by
    unfold onDescriptionLine
    rw [hcapturing s t h]
    split
    · split
      · exact hdescribe s t _ h
      · exact h
    · exact h
  have hstart {s t : State} (h : R s t) :
      R (s.onDescriptionStart settings line) (t.onDescriptionStart settings line) := by
    have hstarts : (!s.capturing && s.current.isSome) = (!t.capturing && t.current.isSome) := by
      rw [hcurrent s t h, hcapturing s t h]
    unfold onDescriptionStart
    rw [hstarts]
    split
    · split
      · have hopen := hcapture s t true h
        dsimp only
        split
        · exact hopen
        · exact hdescribe _ _ _ hopen
      · exact h
    · exact h
  exact hstart (hline (hend h))

/-- What closing, opening and adding lines keep is kept by the description steps. -/
theorem describing_kept {P : State → Prop}
    (hcapture : ∀ s capturing, P s → P { s with capturing })
    (hdescribe : ∀ s text, P s → P (s.describe text)) {s : State} (h : P s)
    (settings : Settings) (line : List Char) : P (s.describing settings line) := by
  refine (describing_related (R := fun t u => t = u ∧ P t) ?_ ?_ ?_ ?_ ⟨rfl, h⟩ settings line).2
  · rintro t _ ⟨rfl, -⟩
    rfl
  · rintro t _ ⟨rfl, -⟩
    rfl
  · rintro t _ capturing ⟨rfl, ht⟩
    exact ⟨rfl, hcapture t capturing ht⟩
  · rintro t _ text ⟨rfl, ht⟩
    exact ⟨rfl, hdescribe t text ht⟩

/-- Attaching opens and closes no keys. -/
@[simp] theorem trail_attach (s : State) (p : Parameter) : (s.attach p).trail = s.trail := rfl

/-- Naming the waiting parameter opens and closes no keys. -/
@[simp] theorem trail_resolve (s : State) (path : List Char) :
    (s.resolve path).trail = s.trail := by
  rw [resolve]
  cases s.pending <;> rfl

/-- A line of description opens and closes no keys. -/
@[simp] theorem trail_describe (s : State) (text : List Char) :
    (s.describe text).trail = s.trail := by
  rw [describe]
  cases s.current <;> rfl

/-- A key line is entered into the open keys. -/
theorem trail_onKeyLine (settings : Settings) (line : List Char) (s : State) :
    (s.onKeyLine settings line).trail =
      match KeyLine.ofLine? settings.comment.toList line with
      | some key => s.trail.enter key
      | none => s.trail := by
  rw [onKeyLine]
  cases KeyLine.ofLine? settings.comment.toList line with
  | none => rfl
  | some key => simp

/-- A tag opens and closes no keys. -/
@[simp] theorem trail_onTag (settings : Settings) (kind : TagKind) (line : List Char)
    (next : Option (List Char)) (s : State) :
    (s.onTag settings kind line next).trail = s.trail := by
  rw [onTag]
  split
  · dsimp only
    split
    · simp
    · split <;> simp
  · rfl

/-- A section line opens and closes no keys. -/
@[simp] theorem trail_onSection (settings : Settings) (line : List Char) (s : State) :
    (s.onSection settings line).trail = s.trail := by
  rw [onSection]
  split <;> rfl

/-- The description steps open and close no keys. -/
@[simp] theorem trail_describing (settings : Settings) (line : List Char) (s : State) :
    (s.describing settings line).trail = s.trail :=
  describing_kept (P := fun t => t.trail = s.trail) (fun _ _ h => h)
    (fun t text h => (trail_describe t text).trans h) rfl settings line

/-- The steps of a line, with the description steps as one. -/
theorem step_eq (settings : Settings) (line : List Char) (next : Option (List Char)) (s : State) :
    s.step settings line next =
      ((((s.onKeyLine settings line).onTag settings .param line next).onSection settings
        line).describing settings line |>.onTag settings .skip line next
        |>.onTag settings .extra line next) := rfl

/-- Only key lines change the trail. -/
theorem trail_step (settings : Settings) (line : List Char) (next : Option (List Char))
    (s : State) :
    (s.step settings line next).trail =
      match KeyLine.ofLine? settings.comment.toList line with
      | some key => s.trail.enter key
      | none => s.trail := by
  rw [step_eq]
  simp [trail_onKeyLine]

/-- The description steps come before or after a change that they do not notice. -/
theorem Unnoticed.describing {change : State → State} (h : Unnoticed change) (settings : Settings)
    (line : List Char) (s : State) :
    (change s).describing settings line = change (s.describing settings line) := by
  refine describing_related (R := fun t s => t = change s) ?_ ?_ ?_ ?_ rfl settings line
  · rintro _ s rfl
    exact h.current s
  · rintro _ s rfl
    exact h.capturing s
  · rintro _ s capturing rfl
    exact h.capture s capturing
  · rintro _ s text rfl
    exact h.describe s text

/-- The description steps do not notice a parameter that is attached. -/
theorem unnoticed_attach (p : Parameter) : Unnoticed (attach · p) where
  current _ := rfl
  capturing _ := rfl
  capture _ _ := rfl
  describe s text := by
    cases hcurrent : s.current <;> simp [describe, hcurrent, attach, Catalog.addLine_attach]

/-- The description steps do not notice what waits. -/
theorem unnoticed_wait (p : Option Parameter) :
    Unnoticed fun s => { s with pending := p } where
  current _ := rfl
  capturing _ := rfl
  capture _ _ := rfl
  describe s text := by
    cases hcurrent : s.current <;> simp [describe, hcurrent]

/-- Where nothing waits, nothing gets a name. -/
theorem resolve_of_pending {s : State} (h : s.pending = none) (path : List Char) :
    s.resolve path = s := by
  rw [resolve, h]

/-- A parameter that has got its name waits no more. -/
theorem pending_resolve (s : State) (path : List Char) : (s.resolve path).pending = none := by
  rw [resolve]
  cases h : s.pending with
  | none => exact h
  | some p => rfl

/-- A line of description leaves what waits. -/
theorem pending_describe (s : State) (text : List Char) :
    (s.describe text).pending = s.pending := by
  rw [describe]
  cases s.current <;> rfl

/-- The description steps do not notice a parameter that gets its name. -/
theorem unnoticed_resolve (path : List Char) : Unnoticed (resolve · path) where
  current s := by cases h : s.pending <;> simp [resolve, h, attach]
  capturing s := by cases h : s.pending <;> simp [resolve, h, attach]
  capture s _ := by cases h : s.pending <;> simp [resolve, h, attach]
  describe s text := by
    cases h : s.pending with
    | none =>
      have hdescribe : (s.describe text).pending = none := by rw [pending_describe, h]
      rw [resolve_of_pending h, resolve_of_pending hdescribe]
    | some p =>
      have hdescribe : (s.describe text).pending = some p := by rw [pending_describe, h]
      rw [resolve, resolve, h, hdescribe]
      dsimp only
      rw [(unnoticed_attach _).describe, (unnoticed_wait none).describe]

/-- A key line ends the difference. -/
theorem onKeyLine_of_ahead {settings : Settings} {line : List Char} {s behind : State}
    (hordered : behind.trail.Ordered) (h : Ahead settings (some line) s behind) :
    s.onKeyLine settings line = behind.onKeyLine settings line := by
  rcases h with rfl | ⟨key, hkey, rfl⟩
  · rfl
  · have hread : KeyLine.ofLine? settings.comment.toList line = some key := hkey
    rw [onKeyLine, onKeyLine, hread]
    dsimp only
    rw [trail_resolve, Trail.pathTo_eq_path_enter hordered]
    cases hpending : behind.pending <;> simp [resolve, hpending, attach]

/-- A tag without a path leaves a scan ahead of the scan that does not look. -/
theorem ahead_onTag (settings : Settings) (kind : TagKind) (line : List Char)
    (next : Option (List Char)) (s : State) :
    Ahead settings next (s.onTag settings kind line next) (s.onTag settings kind line none) := by
  rw [onTag, onTag]
  cases TagLine.ofLine? settings.comment.toList (kind.word settings.tags).toList line with
  | none => exact Or.inl rfl
  | some tag =>
    dsimp only
    split
    · exact Or.inl rfl
    · cases hnext : next.bind (KeyLine.ofLine? settings.comment.toList) with
      | none => exact Or.inl rfl
      | some key => exact Or.inr ⟨key, hnext, rfl⟩

/-- The description steps keep a scan ahead. -/
theorem Ahead.describing {settings : Settings} {next : Option (List Char)} {s behind : State}
    (h : Ahead settings next s behind) (line : List Char) :
    Ahead settings next (s.describing settings line) (behind.describing settings line) := by
  rcases h with rfl | ⟨key, hkey, rfl⟩
  · exact Or.inl rfl
  · refine Or.inr ⟨key, hkey, ?_⟩
    rw [(unnoticed_resolve _).describing, trail_describing]

/-- A line without a tag changes nothing as a tag. -/
theorem onTag_of_none {settings : Settings} {kind : TagKind} {line : List Char}
    (h : tagFor? settings kind line = none) (next : Option (List Char)) (s : State) :
    s.onTag settings kind line next = s := by
  rw [tagFor?] at h
  rw [onTag, h]

/-- A line without a section changes nothing as a section line. -/
theorem onSection_of_none {settings : Settings} {line : List Char}
    (h : sectionName? settings line = none) (s : State) : s.onSection settings line = s := by
  rw [onSection, h]

/-- A line that is taken in leaves the difference as it is or makes it anew. -/
theorem Ahead.step {settings : Settings} {line : List Char} {s behind : State}
    (hex : Exclusive settings line) (hordered : behind.trail.Ordered)
    (h : Ahead settings (some line) s behind) (next : Option (List Char)) :
    Ahead settings next (s.step settings line next) (behind.step settings line none) := by
  rw [step_eq, step_eq, onKeyLine_of_ahead hordered h]
  cases hparam : tagFor? settings .param line with
  | some tag =>
    have hgroup := hex.group tag hparam
    have hskip := hex.tags .param .skip tag (by decide) hparam
    have hextra := hex.tags .param .extra tag (by decide) hparam
    rw [onSection_of_none hgroup, onSection_of_none hgroup, onTag_of_none hskip,
      onTag_of_none hskip, onTag_of_none hextra, onTag_of_none hextra]
    exact (ahead_onTag settings .param line next _).describing line
  | none =>
    rw [onTag_of_none hparam, onTag_of_none hparam]
    cases hskip : tagFor? settings .skip line with
    | some tag =>
      have hextra := hex.tags .skip .extra tag (by decide) hskip
      rw [onTag_of_none hextra, onTag_of_none hextra]
      exact ahead_onTag settings .skip line next _
    | none =>
      rw [onTag_of_none hskip, onTag_of_none hskip]
      exact ahead_onTag settings .extra line next _

/-- Every line keeps the trail ordered. -/
theorem ordered_step {s : State} (h : s.trail.Ordered) (settings : Settings) (line : List Char)
    (next : Option (List Char)) : (s.step settings line next).trail.Ordered := by
  rw [trail_step]
  cases KeyLine.ofLine? settings.comment.toList line with
  | none => exact h
  | some key => exact Trail.ordered_enter h key

/-- A scan with the look ahead ends where a scan without it ends. -/
theorem run_eq_runBlind {settings : Settings} {ls : List (List Char)}
    (hex : ∀ line ∈ ls, Exclusive settings line) {s behind : State}
    (hordered : behind.trail.Ordered) (h : Ahead settings ls.head? s behind) :
    run settings ls s = runBlind settings ls behind := by
  induction ls generalizing s behind with
  | nil =>
    rcases h with rfl | ⟨key, hkey, -⟩
    · rfl
    · simp at hkey
  | cons line ls ih =>
    have hline : Exclusive settings line := hex line List.mem_cons_self
    have hls : ∀ l ∈ ls, Exclusive settings l := fun l hl => hex l (List.mem_cons_of_mem _ hl)
    exact ih hls (ordered_step hordered settings line none) (h.step hline hordered ls.head?)

end State

/-- The look at the next line is only a shortcut. Under any settings, the catalog of a text is the
one that is read when every tag without a path waits for its key line, if no line holds tags of two
kinds or a parameter tag and the name of a section. -/
theorem ofText_eq_runBlind {settings : Settings} {text : String}
    (h : ∀ line ∈ lines text.toList, State.Exclusive settings line) :
    Catalog.ofText settings text = (State.runBlind settings (lines text.toList) {}).catalog := by
  rw [Catalog.ofText, State.run_eq_runBlind h Trail.ordered_nil (Or.inl rfl)]

/-- A text in which tag lines are key lines as well, where comments start with nothing. -/
def unmarkedText : String :=
  "@param one:\n@skip two:\n\nkey: 1\n"

/-- The first tag is named by the tag line below it, and the second one waits. -/
theorem ofText_eq_runBlind_unmarkedText :
    (∀ line ∈ lines unmarkedText.toList, State.Exclusive { comment := "" } line) ∧
      Catalog.ofText { comment := "" } unmarkedText =
        (State.runBlind { comment := "" } (lines unmarkedText.toList) {}).catalog ∧
      (Catalog.ofText { comment := "" } unmarkedText).parameters.map (·.name) =
        ["@skip two", "key"] := by
  have hlines : ∀ line ∈ lines unmarkedText.toList, State.Exclusive { comment := "" } line := by
    decide +kernel
  exact ⟨hlines, ofText_eq_runBlind hlines, by decide +kernel⟩

/-- A line that holds a parameter tag and starts a section can tell the two scans apart: the tag
belongs to the section above the line, or to the one that starts there. -/
example :
    (Catalog.ofText { tags := { group := "@param" } } "## @param One\na: 1\n").sections.map
        (·.members) = [[]] ∧
      (State.runBlind { tags := { group := "@param" } } (lines "## @param One\na: 1\n".toList)
        {}).catalog.sections.map (·.members) = [[0]] := by
  decide +kernel

end ChartDocs.Markup
