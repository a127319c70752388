import ChartDocs.Catalog.Modifier
import ChartDocs.Proofs.Value.Sighting

/-!
# What preparing makes of a parameter

A catalog is prepared parameter by parameter. Filling gives a parameter of the comments the kind of
the first observation of its name, and the value too unless the parameter is extra. Obeying the
modifiers then does one of three things besides the mark for nullable: nothing, if no modifier
decides; it gives an empty value with its kind; or it gives a default value and leaves the kind as
it was. So kind and value belong together except where the comments give a value without its kind.
-/

namespace ChartDocs

namespace ModifierWords

/-- The kind and the empty value that a modifier gives, if it gives such. -/
def blank? (words : ModifierWords) (modifier : String) : Option (Kind × Value) :=
  if modifier = words.array then some (.array, .sequence [])
  else if modifier = words.object then some (.object, .mapping [])
  else if modifier = words.string then some (.string, .string "")
  else none

/-- A known modifier gives an empty value with its kind or else a default value. -/
theorem effect?_eq (words : ModifierWords) (modifier : String) (p : Parameter) :
    words.effect? modifier p =
      match words.blank? modifier with
      | some (kind, value) => some { p with kind := some kind, value := some value }
      | none => (words.defaultText? modifier).map fun text =>
          { p with value := some (defaultValue text) } := by
  unfold effect? blank?
  split
  · rfl
  · split
    · rfl
    · split <;> rfl

/-- An empty value is given as it could be seen. -/
theorem sighting_of_blank? {words : ModifierWords} {modifier : String} {kind : Kind} {value : Value}
    (h : words.blank? modifier = some (kind, value)) : Sighting (some kind) (some value) := by
  have hsighting : ∀ v : Value, (∀ tag content, v ≠ .tagged tag content) → v.kind ≠ .nil →
      Sighting (some v.kind) (some v) := Sighting.value
  unfold blank? at h
  split at h
  · cases h
    exact hsighting (.sequence []) (by simp) (by decide)
  · split at h
    · cases h
      exact hsighting (.mapping []) (by simp) (by decide)
    · split at h
      · cases h
        exact hsighting (.string "") (by simp) (by decide)
      · cases h

end ModifierWords

namespace Parameter

variable {words : ModifierWords} {p q : Parameter}

/-- What a parameter can become when its modifiers are obeyed. -/
inductive Obeys (words : ModifierWords) (p : Parameter) : Parameter → Prop where
  | undecided (hdeciding : p.deciding? words = none) : Obeys words p (p.markNullable words)
  | blank {modifier : String} {kind : Kind} {value : Value}
    (hdeciding : p.deciding? words = some modifier)
    (hblank : words.blank? modifier = some (kind, value)) :
    Obeys words p { p.markNullable words with kind := some kind, value := some value }
  | default {modifier : String} {text : List Char}
    (hdeciding : p.deciding? words = some modifier) (hblank : words.blank? modifier = none)
    (htext : words.defaultText? modifier = some text) :
    Obeys words p
      { p.markNullable words with value := some (ModifierWords.defaultValue text) }

/-- A parameter whose deciding modifier gives a default value. -/
def TakesDefault (words : ModifierWords) (p : Parameter) : Prop :=
  ∃ modifier text, p.deciding? words = some modifier ∧ words.blank? modifier = none ∧
    words.defaultText? modifier = some text

/-- Obeying the modifiers succeeds in three ways. -/
theorem modify_eq_ok_iff : p.modify words = .ok q ↔ p.Obeys words q := by
  constructor
  · intro h
    unfold modify at h
    split at h
    · next hdeciding => exact Except.ok.inj h ▸ .undecided hdeciding
    · next modifier hdeciding =>
      rw [ModifierWords.effect?_eq] at h
      cases hblank : words.blank? modifier with
      | some given =>
        obtain ⟨kind, value⟩ := given
        rw [hblank] at h
        exact Except.ok.inj h ▸ .blank hdeciding hblank
      | none =>
        rw [hblank] at h
        cases htext : words.defaultText? modifier with
        | none => simp [htext] at h
        | some text =>
          rw [htext] at h
          exact Except.ok.inj h ▸ .default hdeciding hblank htext
  · intro h
    unfold modify
    cases h with
    | undecided hdeciding => rw [hdeciding]
    | blank hdeciding hblank => rw [hdeciding]; simp only [ModifierWords.effect?_eq, hblank]
    | default hdeciding hblank htext =>
      rw [hdeciding]
      simp only [ModifierWords.effect?_eq, hblank, htext, Option.map_some]

/-- Only kind, value and the mark for nullable change. -/
theorem Obeys.exists_eq (h : p.Obeys words q) :
    ∃ kind value nullable, q = { p with kind, value, nullable } := by
  cases h with
  | undecided => exact ⟨_, _, _, rfl⟩
  | blank => exact ⟨_, _, _, rfl⟩
  | default => exact ⟨_, _, _, rfl⟩

/-- No parameter loses its kind or its value. -/
theorem Obeys.isSome (h : p.Obeys words q) :
    (p.kind.isSome → q.kind.isSome) ∧ (p.value.isSome → q.value.isSome) := by
  cases h with
  | undecided => exact ⟨id, id⟩
  | blank => exact ⟨fun _ => rfl, fun _ => rfl⟩
  | default => exact ⟨id, fun _ => rfl⟩

/-- A parameter as comments give it: it has no kind, and no value unless it is extra. -/
structure IsDocumentation (p : Parameter) : Prop where
  kind : p.kind = none
  value : p.value = if p.extra then some (.string "") else none

/-- A parameter of the comments has no value of its own. -/
theorem IsDocumentation.hasValue (h : p.IsDocumentation) : p.hasValue = false := by
  unfold Parameter.hasValue
  rw [h.value]
  cases p.extra <;> rfl

/-- A parameter of the comments stays as it is, or it takes kind and place in the schema from an
observation of its name, and unless it is extra its value as well. -/
theorem IsDocumentation.fillFrom_cases (h : p.IsDocumentation) (observed : List Parameter) :
    (∀ seen ∈ observed, seen.name ≠ p.name) ∧ p.fillFrom observed = p ∨
      ∃ seen ∈ observed, seen.name = p.name ∧
        p.fillFrom observed =
          { p with
            kind := seen.kind
            inSchema := seen.inSchema
            value := if p.extra then p.value else seen.value } := by
  unfold fillFrom
  cases hfind : observed.find? (·.name = p.name) with
  | none => exact Or.inl ⟨by simpa using hfind, rfl⟩
  | some seen =>
    have hname : seen.name = p.name := by simpa using List.find?_some hfind
    refine Or.inr ⟨seen, List.mem_of_find?_eq_some hfind, hname, ?_⟩
    dsimp only
    rw [fill, h.hasValue, Bool.false_or]

/-- Only kind, value and place in the schema change. -/
theorem exists_fillFrom_eq (observed : List Parameter) (p : Parameter) :
    ∃ kind value inSchema, p.fillFrom observed = { p with kind, value, inSchema } := by
  unfold fillFrom
  split
  · exact ⟨_, _, _, rfl⟩
  · exact ⟨_, _, _, rfl⟩

/-- A parameter whose comments tell a value and no kind: it is extra and no modifier decides, or the
deciding one gives a default value. -/
def TellsValue (words : ModifierWords) (p : Parameter) : Prop :=
  p.extra = true ∧ p.deciding? words = none ∨ p.TakesDefault words

/-- Kind and value of a prepared parameter were seen together or are both missing, unless the
comments tell the value alone. -/
theorem IsDocumentation.sighting_of_obeys {observed : List Parameter} (h : p.IsDocumentation)
    (hseen : ∀ seen ∈ observed, Sighting seen.kind seen.value)
    (hobeys : (p.fillFrom observed).Obeys words q) :
    Sighting q.kind q.value ∨ q.kind = none ∧ q.value = none ∨ q.TellsValue words := by
  cases hobeys with
  | undecided hdeciding =>
    -- An extra parameter takes the kind of the observation but keeps its own value.
    cases hextra : (p.fillFrom observed).extra with
    | true => exact Or.inr (Or.inr (Or.inl ⟨hextra, hdeciding⟩))
    | false =>
      rcases h.fillFrom_cases observed with ⟨-, hsame⟩ | ⟨seen, hmem, -, hfilled⟩
      · rw [hsame] at hextra ⊢
        exact Or.inr (Or.inl ⟨h.kind, h.value.trans (by rw [hextra]; rfl)⟩)
      · rw [hfilled] at hextra ⊢
        have hvalue : (if p.extra then p.value else seen.value) = seen.value :=
          if_neg (Bool.eq_false_iff.mp hextra)
        rw [hvalue]
        exact Or.inl (hseen seen hmem)
  | blank hdeciding hblank => exact Or.inl (ModifierWords.sighting_of_blank? hblank)
  | default hdeciding hblank htext =>
    exact Or.inr (Or.inr (Or.inr ⟨_, _, hdeciding, hblank, htext⟩))

/-- A prepared parameter has a kind and a value if something was observed under its name, and an
extra one has a value in any case. -/
theorem IsDocumentation.isSome_of_obeys {observed : List Parameter} (h : p.IsDocumentation)
    (hseen : ∀ seen ∈ observed, Sighting seen.kind seen.value)
    (hobeys : (p.fillFrom observed).Obeys words q)
    (hname : p.extra = false → ∃ seen ∈ observed, seen.name = p.name) :
    q.value.isSome = true ∧ (q.extra = false → q.kind.isSome = true) := by
  obtain ⟨hkind, hvalue⟩ := hobeys.isSome
  have hextra : q.extra = p.extra := by
    obtain ⟨_, _, _, rfl⟩ := hobeys.exists_eq
    obtain ⟨_, _, _, heq⟩ := exists_fillFrom_eq observed p
    rw [heq]
  rw [hextra]
  rcases h.fillFrom_cases observed with ⟨hnone, hsame⟩ | ⟨seen, hmem, -, hfilled⟩
  · cases hp : p.extra with
    | true =>
      refine ⟨hvalue ?_, fun hfalse => absurd hfalse (by simp)⟩
      rw [hsame, h.value, hp]
      rfl
    | false =>
      obtain ⟨seen, hmem, heq⟩ := hname hp
      exact absurd heq (hnone seen hmem)
  · refine ⟨hvalue ?_, fun _ => hkind ?_⟩
    · rw [hfilled, h.value]
      cases p.extra with
      | true => rfl
      | false => exact (hseen seen hmem).isSome_value
    · rw [hfilled]
      exact (hseen seen hmem).isSome_kind

end Parameter

namespace Catalog

variable {c prepared : Catalog} {words : ModifierWords} {observed : List Parameter}

/-- Each parameter of the result comes from one that obeyed its modifiers or is skipped. -/
theorem exists_of_mem_modifyAll {ps qs : List Parameter} (h : modifyAll words ps = .ok qs)
    {q : Parameter} (hq : q ∈ qs) :
    ∃ p ∈ ps, (if p.skip then .ok p else p.modify words) = .ok q := by
  induction ps generalizing qs with
  | nil =>
    obtain rfl := Except.ok.inj h
    exact absurd hq List.not_mem_nil
  | cons p ps ih =>
    unfold modifyAll at h
    split at h
    · exact absurd h (by simp)
    · next first hfirst =>
      split at h
      · exact absurd h (by simp)
      · next rest hrest =>
        obtain rfl := Except.ok.inj h
        rcases List.mem_cons.mp hq with rfl | hq
        · exact ⟨p, List.mem_cons_self, hfirst⟩
        · obtain ⟨p', hp', hmodify⟩ := ih hrest hq
          exact ⟨p', List.mem_cons_of_mem _ hp', hmodify⟩

/-- A prepared parameter that is not skipped is a documented one that has been filled and has obeyed
its modifiers. -/
theorem exists_of_mem_prepare (h : c.prepare words observed = .ok prepared) {q : Parameter}
    (hq : q ∈ prepared.parameters) (hskip : q.skip = false) :
    ∃ p ∈ c.parameters, p.skip = false ∧ (p.fillFrom observed).Obeys words q := by
  unfold prepare at h
  split at h
  · exact absurd h (by simp)
  · next qs hqs =>
    rw [← Except.ok.inj h] at hq
    obtain ⟨filled, hfilled, hmodify⟩ := exists_of_mem_modifyAll hqs hq
    obtain ⟨p, hp, rfl⟩ := List.mem_map.mp hfilled
    obtain ⟨_, _, _, heq⟩ := Parameter.exists_fillFrom_eq observed p
    have hsame : (p.fillFrom observed).skip = p.skip := by rw [heq]
    rw [hsame] at hmodify
    cases hp' : p.skip with
    | true =>
      rw [hp', if_pos rfl] at hmodify
      rw [← Except.ok.inj hmodify, hsame, hp'] at hskip
      exact absurd hskip (by simp)
    | false =>
      rw [hp', if_neg Bool.false_ne_true] at hmodify
      exact ⟨p, hp, hp', Parameter.modify_eq_ok_iff.mp hmodify⟩

end Catalog

end ChartDocs
