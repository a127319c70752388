import ChartDocs.Proofs.Catalog.Preparing
import ChartDocs.Proofs.Markup.Change
import ChartDocs.Proofs.Markup.Step

/-!
# Every parameter comes from a tag

The scan invents no parameter. Whatever the tag words and whatever the lines are, each parameter of
the catalog is what a tag on one of the lines makes, and so is the one that waits. Only its name and
its section may have been set later. So a scanned parameter is documentation only: its kind and its
value are left to the values.
-/

namespace ChartDocs.Markup

open Text

/-- A parameter that a tag on one of some lines makes, but for its name and its section. -/
def FromTag (settings : Settings) (ls : List (List Char)) (p : Parameter) : Prop :=
  ∃ line ∈ ls, ∃ (kind : TagKind) (tag : TagLine),
    TagLine.ofLine? settings.comment.toList (kind.word settings.tags).toList line = some tag ∧
      ∃ name sectionName, p = { kind.build tag with name, sectionName }

namespace FromTag

variable {settings : Settings} {ls : List (List Char)} {p : Parameter}

/-- What a tag makes may get another name. -/
theorem named (h : FromTag settings ls p) (name : String) :
    FromTag settings ls { p with name } := by
  obtain ⟨line, hline, kind, tag, htag, _, sectionName, rfl⟩ := h
  exact ⟨line, hline, kind, tag, htag, name, sectionName, rfl⟩

/-- What a tag makes may get to another section. -/
theorem placed (h : FromTag settings ls p) (sectionName : Option String) :
    FromTag settings ls { p with sectionName } := by
  obtain ⟨line, hline, kind, tag, htag, name, _, rfl⟩ := h
  exact ⟨line, hline, kind, tag, htag, name, sectionName, rfl⟩

/-- What a tag makes is documentation only. -/
theorem isDocumentation (h : FromTag settings ls p) : p.IsDocumentation := by
  obtain ⟨-, -, kind, tag, -, name, sectionName, rfl⟩ := h
  rw [TagKind.build_eq]
  cases kind with
  | param => exact ⟨rfl, rfl⟩
  | skip => exact ⟨rfl, rfl⟩
  | extra => exact ⟨rfl, rfl⟩

end FromTag

namespace State

-- The lines are those of the whole text and stay fixed, so that a run over some of them needs no
-- account of which lines are still to come.
/-- All parameters of a state, the waiting one included, come from tags on some lines. -/
structure Tagged (settings : Settings) (ls : List (List Char)) (s : State) : Prop where
  parameters : ∀ p ∈ s.catalog.parameters, FromTag settings ls p
  pending : ∀ p, s.pending = some p → FromTag settings ls p

namespace Tagged

variable {settings : Settings} {ls : List (List Char)} {s : State}

/-- At the beginning there are no parameters that could come from elsewhere. -/
theorem empty (settings : Settings) (ls : List (List Char)) : Tagged settings ls {} where
  parameters _ h := absurd h List.not_mem_nil
  pending _ h := absurd h (by simp)

/-- A parameter of a tag is attached. -/
theorem attach (h : s.Tagged settings ls) {p : Parameter} (hp : FromTag settings ls p) :
    (s.attach p).Tagged settings ls := by
  refine ⟨?_, h.pending⟩
  have hadd : ∀ q, FromTag settings ls q →
      ∀ r ∈ s.catalog.parameters ++ [q], FromTag settings ls r := fun q hq =>
    List.forall_mem_append.mpr ⟨h.parameters, List.forall_mem_singleton.mpr hq⟩
  unfold State.attach Catalog.attach
  split
  · exact hadd p hp
  · split
    · exact hadd p hp
    · exact hadd _ (hp.placed _)

/-- A parameter of a tag waits. -/
theorem wait (h : s.Tagged settings ls) {pending : Option Parameter}
    (hpending : ∀ p, pending = some p → FromTag settings ls p) :
    Tagged settings ls { s with pending } :=
  ⟨h.parameters, hpending⟩

/-- The waiting parameter is attached with a name. -/
theorem resolve (h : s.Tagged settings ls) (path : List Char) :
    (s.resolve path).Tagged settings ls := by
  unfold State.resolve
  split
  · next p hp =>
    have hwait : Tagged settings ls { s with pending := none } :=
      h.wait fun _ hnone => absurd hnone (by simp)
    exact hwait.attach ((h.pending p hp).named _)
  · exact h

/-- What one of the lines changes comes from its own tags. -/
theorem of_change {line : List Char} {t : State} (hline : line ∈ ls)
    (hchange : Change settings line s t) (h : s.Tagged settings ls) : t.Tagged settings ls := by
  have hbuild {kind : TagKind} {tag : TagLine} (htag : tagFor? settings kind line = some tag) :
      FromTag settings ls (kind.build tag) := ⟨line, hline, kind, tag, htag, _, _, rfl⟩
  cases hchange with
  | trail => exact ⟨h.parameters, h.pending⟩
  | resolve path => exact h.resolve path
  | attach htag => exact h.attach (hbuild htag)
  | wait htag => exact h.wait fun p hsome => Option.some.inj hsome ▸ hbuild htag
  | group => exact ⟨h.parameters, h.pending⟩
  | closing => exact ⟨h.parameters, h.pending⟩
  | opening => exact ⟨h.parameters, h.pending⟩
  | describe =>
    have hagrees := agrees_describe s
    exact ⟨(hagrees _).parameters ▸ h.parameters, (hagrees _).pending ▸ h.pending⟩

/-- All parameters after a run over some of the lines come from tags on the lines. -/
theorem run (h : s.Tagged settings ls) {rest : List (List Char)} (hrest : rest ⊆ ls) :
    (State.run settings rest s).Tagged settings ls :=
  run_of_change (fun _ hline _ _ hchange => of_change (hrest hline) hchange) h

end Tagged

end State

/-- Every parameter of the catalog of a text comes from a tag on one of its lines. -/
theorem fromTag_of_mem_ofText (settings : Settings) (text : String) :
    ∀ p ∈ (Catalog.ofText settings text).parameters,
      FromTag settings (lines text.toList) p := by
  have hempty := State.Tagged.empty settings (lines text.toList)
  exact (hempty.run (List.Subset.refl _)).parameters

end ChartDocs.Markup
