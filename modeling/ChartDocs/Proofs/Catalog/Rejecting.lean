import ChartDocs.Proofs.Catalog.Preparing
import ChartDocs.Survey

/-!
# When preparing fails

Preparing a catalog can only fail for a modifier that has no meaning, and only if it decides: it
stands last among the modifiers of a parameter that is not skipped, the words for nullable apart.
The parameters obey their modifiers one after the other, so the first such parameter is the one that
is reported. What was observed has no part in this.
-/

namespace ChartDocs

open Text

namespace ModifierWords

variable {words : ModifierWords} {modifier : String}

/-- A modifier that gives a default value: the word for defaults, then blanks, then a colon. -/
def GivesDefault (words : ModifierWords) (modifier : String) : Prop :=
  ∃ blanks text, (∀ c ∈ blanks, isBlank c = true) ∧
    modifier.toList = words.default.toList ++ (blanks ++ ':' :: text)

/-- A modifier that has a meaning where it decides. -/
def Knows (words : ModifierWords) (modifier : String) : Prop :=
  modifier = words.array ∨ modifier = words.object ∨ modifier = words.string ∨
    words.GivesDefault modifier

/-- A default is read exactly from the modifiers that give one. -/
theorem isSome_defaultText?_iff :
    (words.defaultText? modifier).isSome ↔ words.GivesDefault modifier := by
  constructor
  · intro h
    unfold defaultText? at h
    split at h
    · next rest hrest =>
      split at h
      · next text htext =>
        have hblanks : ∀ c ∈ rest.takeWhile isBlank, isBlank c = true :=
          List.all_eq_true.mp List.all_takeWhile
        refine ⟨rest.takeWhile isBlank, text, hblanks, ?_⟩
        rw [← htext, trimStart, List.takeWhile_append_dropWhile]
        exact dropLeading?_eq_some_iff.mp hrest
      · exact absurd h (by simp)
    · exact absurd h (by simp)
  · rintro ⟨blanks, text, hblanks, hmodifier⟩
    have hcolon : trimStart (blanks ++ ':' :: text) = ':' :: text := by
      rw [trimStart, List.dropWhile_append_of_pos hblanks]
      exact List.dropWhile_cons_of_neg (by decide)
    rw [defaultText?, hmodifier, dropLeading?_append]
    simp only [hcolon, Option.isSome_some]

/-- A modifier does something to a parameter exactly if it has a meaning. -/
theorem isSome_effect?_iff (p : Parameter) :
    (words.effect? modifier p).isSome ↔ words.Knows modifier := by
  unfold effect? Knows
  split
  · next harray => exact iff_of_true rfl (Or.inl harray)
  · next harray =>
    split
    · next hobject => exact iff_of_true rfl (Or.inr (Or.inl hobject))
    · next hobject =>
      split
      · next hstring => exact iff_of_true rfl (Or.inr (Or.inr (Or.inl hstring)))
      · next hstring =>
        rw [Option.isSome_map, isSome_defaultText?_iff]
        simp [harray, hobject, hstring]

end ModifierWords

namespace Parameter

variable {words : ModifierWords} {p : Parameter} {modifier : String} {unknown : UnknownModifier}

/-- A modifier decides if only words for nullable come after it. -/
def Decides (words : ModifierWords) (p : Parameter) (modifier : String) : Prop :=
  ∃ before after, p.modifiers = before ++ modifier :: after ∧ modifier ≠ words.nullable ∧
    ∀ other ∈ after, other = words.nullable

/-- A parameter that is not skipped, with a deciding modifier that has no meaning. -/
structure Rejects (words : ModifierWords) (p : Parameter) (modifier : String) : Prop where
  skip : p.skip = false
  decides : p.Decides words modifier
  unknown : ¬words.Knows modifier

/-- A parameter is not rejected if it is skipped or if what decides is known. -/
theorem forall_not_rejects_iff :
    (∀ modifier, ¬p.Rejects words modifier) ↔
      p.skip = true ∨ ∀ modifier, p.Decides words modifier → words.Knows modifier := by
  constructor
  · intro h
    cases hskip : p.skip with
    | true => exact Or.inl rfl
    | false =>
      exact Or.inr fun modifier hdecides =>
        Classical.byContradiction fun hunknown => h modifier ⟨hskip, hdecides, hunknown⟩
  · rintro (hskip | hknows) modifier hrejects
    · exact absurd (hskip.symm.trans hrejects.skip) (by simp)
    · exact hrejects.unknown (hknows modifier hrejects.decides)

/-- The search for a deciding modifier finds the one that decides. -/
theorem deciding?_eq_some_iff : p.deciding? words = some modifier ↔ p.Decides words modifier := by
  have hfind : p.deciding? words = p.modifiers.reverse.find? (· ≠ words.nullable) :=
    List.getLast?_filter
  rw [hfind, List.find?_eq_some_iff_append, Decides]
  constructor
  · rintro ⟨hne, after, before, hmodifiers, hafter⟩
    have hsplit := congrArg List.reverse hmodifiers
    rw [List.reverse_reverse, List.reverse_append, List.reverse_cons] at hsplit
    refine ⟨before.reverse, after.reverse, by simpa using hsplit, by simpa using hne, ?_⟩
    intro other hother
    simpa using hafter other (List.mem_reverse.mp hother)
  · rintro ⟨before, after, hmodifiers, hne, hafter⟩
    refine ⟨by simpa using hne, after.reverse, before.reverse, by simp [hmodifiers], ?_⟩
    intro other hother
    simpa using hafter other (List.mem_reverse.mp hother)

/-- Obeying fails for a deciding modifier that has no meaning, and for nothing else. -/
theorem modify_eq_error_iff :
    p.modify words = .error unknown ↔
      p.Decides words unknown.modifier ∧ ¬words.Knows unknown.modifier ∧
        unknown.parameter = p.name := by
  have heffect (modifier : String) :
      (words.effect? modifier (p.markNullable words)).isSome ↔ words.Knows modifier :=
    ModifierWords.isSome_effect?_iff (p.markNullable words)
  constructor
  · intro h
    unfold modify at h
    split at h
    · exact absurd h (by simp)
    · next modifier hdeciding =>
      split at h
      · exact absurd h (by simp)
      · next hnone =>
        obtain rfl := Except.error.inj h
        refine ⟨deciding?_eq_some_iff.mp hdeciding, fun hknows => ?_, rfl⟩
        have hsome := (heffect modifier).mpr hknows
        rw [hnone] at hsome
        exact absurd hsome (by simp)
  · rintro ⟨hdecides, hunknown, hname⟩
    have hnone : words.effect? unknown.modifier (p.markNullable words) = none := by
      rw [← Option.not_isSome_iff_eq_none, heffect]
      exact hunknown
    rw [modify, deciding?_eq_some_iff.mpr hdecides]
    simp only [hnone, ← hname]

/-- The unknown modifier that a parameter is rejected for when a catalog is prepared. -/
def unknown? (words : ModifierWords) (p : Parameter) : Option UnknownModifier :=
  match if p.skip then .ok p else p.modify words with
  | .error unknown => some unknown
  | .ok _ => none

/-- An unknown modifier is reported with the name of a parameter that is rejected for it. -/
theorem unknown?_eq_some_iff :
    p.unknown? words = some unknown ↔
      p.Rejects words unknown.modifier ∧ unknown.parameter = p.name := by
  have hrejects : p.Rejects words unknown.modifier ↔
      p.skip = false ∧ p.Decides words unknown.modifier ∧ ¬words.Knows unknown.modifier :=
    ⟨fun h => ⟨h.skip, h.decides, h.unknown⟩, fun ⟨hskip, hdecides, h⟩ => ⟨hskip, hdecides, h⟩⟩
  have herror : p.unknown? words = some unknown ↔
      (if p.skip then .ok p else p.modify words) = .error unknown := by
    rw [unknown?]
    split <;> simp_all
  rw [herror, hrejects, and_assoc, and_assoc, ← modify_eq_error_iff]
  cases p.skip <;> simp

/-- Nothing is reported for a parameter that no modifier rejects. -/
theorem unknown?_eq_none_iff :
    p.unknown? words = none ↔ ∀ modifier, ¬p.Rejects words modifier := by
  rw [Option.eq_none_iff_forall_ne_some]
  constructor
  · intro h modifier hrejects
    exact h ⟨modifier, p.name⟩ (unknown?_eq_some_iff.mpr ⟨hrejects, rfl⟩)
  · intro h unknown hsome
    exact h unknown.modifier (unknown?_eq_some_iff.mp hsome).1

/-- What was observed does not change what a parameter is rejected for. -/
theorem unknown?_fillFrom (words : ModifierWords) (observed : List Parameter) (p : Parameter) :
    (p.fillFrom observed).unknown? words = p.unknown? words := by
  obtain ⟨kind, value, inSchema, hfilled⟩ := exists_fillFrom_eq observed p
  refine Option.ext fun unknown => ?_
  rw [unknown?_eq_some_iff, unknown?_eq_some_iff, hfilled]
  -- Neither the mark for skipped parameters nor modifiers nor name are filled.
  exact and_congr_left' ⟨fun ⟨hskip, hdecides, h⟩ => ⟨hskip, hdecides, h⟩,
    fun ⟨hskip, hdecides, h⟩ => ⟨hskip, hdecides, h⟩⟩

end Parameter

namespace Catalog

variable {words : ModifierWords} {observed : List Parameter} {unknown : UnknownModifier}

/-- Of all unknown modifiers that parameters are rejected for, the first one is reported. -/
theorem modifyAll_eq_error_iff {ps : List Parameter} :
    modifyAll words ps = .error unknown ↔ ps.findSome? (·.unknown? words) = some unknown := by
  induction ps with
  | nil => simp [modifyAll]
  | cons p ps ih =>
    unfold modifyAll
    rw [List.findSome?_cons]
    split
    · next first hfirst => simp [Parameter.unknown?, hfirst]
    · next changed hfirst =>
      have hnone : p.unknown? words = none := by rw [Parameter.unknown?, hfirst]
      rw [hnone, ← ih]
      cases modifyAll words ps <;> simp

/-- Preparing fails for the first parameter of the catalog that is rejected, whatever was
observed. -/
theorem prepare_eq_error_iff {c : Catalog} :
    c.prepare words observed = .error unknown ↔
      c.parameters.findSome? (·.unknown? words) = some unknown := by
  have hfilled : (c.fill observed).parameters.findSome? (·.unknown? words) =
      c.parameters.findSome? (·.unknown? words) := by
    have hsame : (fun p : Parameter => p.unknown? words) ∘ Parameter.fillFrom observed =
        fun p => p.unknown? words :=
      funext (Parameter.unknown?_fillFrom words observed)
    rw [fill, List.findSome?_map, hsame]
  rw [← hfilled, ← modifyAll_eq_error_iff, prepare]
  cases modifyAll words (c.fill observed).parameters <;> simp

/-- Preparing fails exactly if a parameter is rejected. -/
theorem exists_error_prepare_iff {c : Catalog} :
    (∃ unknown, c.prepare words observed = .error unknown) ↔
      ∃ p ∈ c.parameters, ∃ modifier, p.Rejects words modifier := by
  have hrejects (p : Parameter) :
      (p.unknown? words).isSome ↔ ∃ modifier, p.Rejects words modifier := by
    rw [Option.isSome_iff_ne_none, ne_eq, Parameter.unknown?_eq_none_iff, Classical.not_forall_not]
  simp only [prepare_eq_error_iff, ← Option.isSome_iff_exists, List.findSome?_isSome_iff, hrejects]

end Catalog

namespace Survey

/-- Preparing fails exactly if a parameter is rejected: it is not skipped, and the last of its
modifiers, the words for nullable apart, is no word for an empty value and gives no default value.
The error then names this modifier and the first such parameter. So neither a modifier before the
deciding one nor a modifier of a skipped parameter makes preparing fail. -/
theorem prepare_fails_iff (settings : Settings) (survey : Survey) :
    ((∃ unknown, survey.prepare settings = .error unknown) ↔
      ∃ p ∈ survey.catalog.parameters, ∃ modifier, p.Rejects settings.modifiers modifier) ∧
    ((∃ prepared, survey.prepare settings = .ok prepared) ↔
      ∀ p ∈ survey.catalog.parameters, p.skip = true ∨
        ∀ modifier, p.Decides settings.modifiers modifier → settings.modifiers.Knows modifier) ∧
    ∀ unknown, survey.prepare settings = .error unknown ↔
      ∃ before p after, survey.catalog.parameters = before ++ p :: after ∧
        (∀ q ∈ before, ∀ modifier, ¬q.Rejects settings.modifiers modifier) ∧
        p.Rejects settings.modifiers unknown.modifier ∧ unknown.parameter = p.name := by
  have hfails : (∃ unknown, survey.prepare settings = .error unknown) ↔
      ∃ p ∈ survey.catalog.parameters, ∃ modifier, p.Rejects settings.modifiers modifier :=
    Catalog.exists_error_prepare_iff
  have hsucceeds : (∃ prepared, survey.prepare settings = .ok prepared) ↔
      ¬∃ unknown, survey.prepare settings = .error unknown := by
    cases survey.prepare settings <;> simp
  refine ⟨hfails, ?_, fun unknown => ?_⟩
  · rw [hsucceeds, hfails]
    simp only [not_exists, not_and, Parameter.forall_not_rejects_iff]
  · rw [prepare, Catalog.prepare_eq_error_iff, List.findSome?_eq_some_iff]
    simp only [Parameter.unknown?_eq_some_iff, Parameter.unknown?_eq_none_iff]
    constructor
    · rintro ⟨before, p, after, hsplit, ⟨hrejects, hname⟩, hbefore⟩
      exact ⟨before, p, after, hsplit, hbefore, hrejects, hname⟩
    · rintro ⟨before, p, after, hsplit, hbefore, hrejects, hname⟩
      exact ⟨before, p, after, hsplit, ⟨hrejects, hname⟩, hbefore⟩

/-- Of these unknown modifiers, the first is on a skipped parameter, the second does not decide, and
the third is reported. -/
example :
    Catalog.prepare
        { parameters := [{ name := "a", modifiers := ["list"], skip := true },
          { name := "b", modifiers := ["list", "default : 1", "nullable"] },
          { name := "c", modifiers := ["array", "list", "nullable"] },
          { name := "d", modifiers := ["defaults"] }] } {} [] =
      .error ⟨"list", "c"⟩ :=
  rfl

end Survey

end ChartDocs
