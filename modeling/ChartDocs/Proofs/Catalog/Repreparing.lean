import ChartDocs.Proofs.Catalog.Preparing

/-!
# Preparing twice

A prepared catalog can be prepared again, and nothing changes. Filling may put back a value that a
modifier has emptied, and it sets the kind anew; but the modifiers are still there, and the deciding
one gives its value again. Where it gives no kind, the kind is the observed one both times. This
does not depend on which words the modifiers are, or on whether two of them are the same.
-/

namespace ChartDocs

namespace Parameter

variable {words : ModifierWords} {observed : List Parameter} {p q : Parameter}

/-- Filling twice from the same observation is filling once. -/
theorem fill_fill (p seen : Parameter) : (p.fill seen).fill seen = p.fill seen := by
  have hvalue : ∀ kind inSchema, ({ p with kind, inSchema } : Parameter).hasValue = p.hasValue :=
    fun _ _ => rfl
  unfold fill
  cases hkeeps : p.hasValue || p.extra with
  | true => simp [hvalue, hkeeps]
  | false => simp

/-- Filling from the same observations again changes nothing. -/
theorem fillFrom_fillFrom (observed : List Parameter) (p : Parameter) :
    (p.fillFrom observed).fillFrom observed = p.fillFrom observed := by
  unfold fillFrom
  cases hfind : observed.find? (·.name = p.name) with
  | none => simp only [hfind]
  | some seen =>
    have hname : (p.fill seen).name = p.name := rfl
    simp only [hname, hfind, fill_fill]

/-- The mark for nullable can be set before or after filling. -/
theorem fillFrom_markNullable (words : ModifierWords) (observed : List Parameter) (p : Parameter) :
    (p.markNullable words).fillFrom observed = (p.fillFrom observed).markNullable words := by
  have hname : (p.markNullable words).name = p.name := rfl
  unfold fillFrom
  rw [hname]
  cases observed.find? (·.name = p.name) <;> rfl

/-- Filling again finds the same place in the schema, and the same kind unless it was changed in
between; the value may be another one. -/
theorem exists_refill (hname : q.name = p.name)
    (hschema : q.inSchema = (p.fillFrom observed).inSchema) :
    ∃ kind value, q.fillFrom observed = { q with kind, value } ∧
      (q.kind = (p.fillFrom observed).kind → kind = q.kind) := by
  have hsearch : observed.find? (·.name = q.name) = observed.find? (·.name = p.name) := by
    rw [hname]
  unfold fillFrom at hschema ⊢
  rw [hsearch]
  cases hfind : observed.find? (·.name = p.name) with
  | none => exact ⟨q.kind, q.value, rfl, fun _ => rfl⟩
  | some seen =>
    rw [hfind] at hschema
    have hseen : seen.inSchema = q.inSchema := hschema.symm
    refine ⟨seen.kind, if q.hasValue || q.extra then q.value else seen.value, ?_, Eq.symm⟩
    simp only [fill, hseen]

/-- A parameter that has obeyed its modifiers is marked already. -/
theorem Obeys.markNullable_eq (h : p.Obeys words q) : q.markNullable words = q := by
  cases h <;> simp [markNullable]

/-- A modifier that gives an empty value gives it whatever kind and value there are. -/
theorem obeys_of_blank (hmarked : q.markNullable words = q) {modifier : String}
    (hdeciding : q.deciding? words = some modifier) {given : Kind × Value}
    (hblank : words.blank? modifier = some given) (hkind : q.kind = some given.1)
    (hvalue : q.value = some given.2) (kind : Option Kind) (value : Option Value) :
    ({ q with kind, value } : Parameter).Obeys words q := by
  have hobeys : ({ q with kind, value } : Parameter).Obeys words
      { ({ q with kind, value } : Parameter).markNullable words with
        kind := some given.1, value := some given.2 } := .blank hdeciding hblank
  rw [← hkind, ← hvalue] at hobeys
  have hagain : ({ q with kind, value } : Parameter).Obeys words (q.markNullable words) := hobeys
  rwa [hmarked] at hagain

/-- A modifier that gives a default value gives it whatever value there is. -/
theorem obeys_of_default (hmarked : q.markNullable words = q) {modifier : String}
    (hdeciding : q.deciding? words = some modifier) (hblank : words.blank? modifier = none)
    {text : List Char} (htext : words.defaultText? modifier = some text)
    (hvalue : q.value = some (ModifierWords.defaultValue text)) (value : Option Value) :
    ({ q with value } : Parameter).Obeys words q := by
  have hobeys : ({ q with value } : Parameter).Obeys words
      { ({ q with value } : Parameter).markNullable words with
        value := some (ModifierWords.defaultValue text) } := .default hdeciding hblank htext
  rw [← hvalue] at hobeys
  have hagain : ({ q with value } : Parameter).Obeys words (q.markNullable words) := hobeys
  rwa [hmarked] at hagain

/-- A parameter that was filled and has obeyed its modifiers is what it becomes when it is filled
again and obeys them again. -/
theorem Obeys.refill (h : (p.fillFrom observed).Obeys words q) :
    (q.fillFrom observed).Obeys words q := by
  obtain ⟨_, _, _, hfilled⟩ := exists_fillFrom_eq observed p
  obtain ⟨_, _, _, hobeyed⟩ := h.exists_eq
  have hname : q.name = p.name := by rw [hobeyed, hfilled]
  have hschema : q.inSchema = (p.fillFrom observed).inSchema := by rw [hobeyed]
  obtain ⟨kind, value, hrefill, hkind⟩ := exists_refill hname hschema
  have hmarked := h.markNullable_eq
  cases h with
  | undecided hdeciding =>
    have hagain : ((p.fillFrom observed).markNullable words).Obeys words
        (((p.fillFrom observed).markNullable words).markNullable words) := .undecided hdeciding
    rw [hmarked] at hagain
    rwa [fillFrom_markNullable, fillFrom_fillFrom]
  | blank hdeciding hblank =>
    rw [hrefill]
    exact obeys_of_blank hmarked hdeciding hblank rfl rfl kind value
  | default hdeciding hblank htext =>
    -- The modifier gives no kind, but filling has given the observed one both times.
    rw [hrefill, hkind rfl]
    exact obeys_of_default hmarked hdeciding hblank htext rfl value

end Parameter

namespace Catalog

variable {c prepared : Catalog} {words : ModifierWords} {observed : List Parameter}

/-- Where obeying leads back to each parameter, it leads back to the list. -/
theorem modifyAll_map_of_forall {change : Parameter → Parameter} {qs : List Parameter}
    (h : ∀ q ∈ qs, (if (change q).skip then .ok (change q) else (change q).modify words) = .ok q) :
    modifyAll words (qs.map change) = .ok qs := by
  induction qs with
  | nil => rfl
  | cons q qs ih =>
    rw [List.map_cons, modifyAll, h q List.mem_cons_self]
    simp only [ih fun r hr => h r (List.mem_cons_of_mem q hr)]

/-- What the preparing of one parameter has led to stays when it is prepared again. -/
theorem refilled_of_mem_modifyAll {qs : List Parameter}
    (h : modifyAll words (c.fill observed).parameters = .ok qs) {q : Parameter} (hq : q ∈ qs) :
    (if (q.fillFrom observed).skip then .ok (q.fillFrom observed)
      else (q.fillFrom observed).modify words) = .ok q := by
  obtain ⟨filled, hfilled, hmodify⟩ := exists_of_mem_modifyAll h hq
  obtain ⟨p, -, rfl⟩ := List.mem_map.mp hfilled
  obtain ⟨_, _, _, hq'⟩ := Parameter.exists_fillFrom_eq observed q
  have hskip : (q.fillFrom observed).skip = q.skip := by rw [hq']
  cases hp : (p.fillFrom observed).skip with
  | true =>
    rw [hp, if_pos rfl] at hmodify
    obtain rfl := Except.ok.inj hmodify
    rw [Parameter.fillFrom_fillFrom, hp, if_pos rfl]
  | false =>
    rw [hp, if_neg Bool.false_ne_true] at hmodify
    have hobeys := Parameter.modify_eq_ok_iff.mp hmodify
    obtain ⟨_, _, _, hsame⟩ := hobeys.exists_eq
    have hunskipped : q.skip = false := by rw [hsame, ← hp]
    rw [hskip, hunskipped, if_neg Bool.false_ne_true]
    exact Parameter.modify_eq_ok_iff.mpr hobeys.refill

/-- If a catalog can be prepared, then the prepared catalog can be prepared with the same words and
observations, and it stays the same. -/
theorem prepare_prepared (h : c.prepare words observed = .ok prepared) :
    prepared.prepare words observed = .ok prepared := by
  unfold prepare at h
  split at h
  · exact absurd h (by simp)
  · next qs hqs =>
    obtain rfl := Except.ok.inj h
    have hagain : modifyAll words (qs.map (Parameter.fillFrom observed)) = .ok qs :=
      modifyAll_map_of_forall fun q hq => refilled_of_mem_modifyAll hqs hq
    rw [prepare, fill]
    simp only [hagain]

/-- Words for modifiers of which two are the same, and two others as well. -/
def sharedWords : ModifierWords :=
  { array := "list", object := "list", string := "any", nullable := "any" }

/-- Parameters whose values are emptied or replaced, one of them documented twice, and a skipped one
with an unknown modifier. -/
def emptied : Catalog where
  parameters := [{ name := "size", modifiers := ["default: ~"] },
    { name := "size", modifiers := ["any"] }, { name := "args", modifiers := ["list", "any"] },
    { name := "note", extra := true, value := some (.string ""), modifiers := ["default : 5"] },
    { name := "old", skip := true, modifiers := ["unknown"] }]

/-- Observations of these parameters. -/
def sizes : List Parameter :=
  [{ name := "size", kind := some .number, value := some (.number (.int 5)) },
    { name := "args", kind := some .string, value := some (.string "-v"), inSchema := false },
    { name := "size", kind := some .string, value := some (.string "late") },
    { name := "note", kind := some .boolean, value := some (.bool true) },
    { name := "old", kind := some .nil, value := some (.string "nil") }]

/-- Preparing has replaced three of the five values, and doing it again changes nothing. -/
theorem prepare_prepared_emptied :
    ∃ prepared, emptied.prepare sharedWords sizes = .ok prepared ∧
      prepared.parameters.map (fun p => (p.kind, p.value, p.nullable)) =
        [(some .number, some .null, false), (some .number, some (.number (.int 5)), true),
          (some .array, some (.sequence []), true),
          (some .boolean, some (.number (.int 5)), false),
          (some .nil, some (.string "nil"), false)] ∧
      prepared.prepare sharedWords sizes = .ok prepared := by
  have hprepared : (emptied.prepare sharedWords sizes).toOption.any (fun prepared =>
      prepared.parameters.map (fun p => (p.kind, p.value, p.nullable)) =
        [(some .number, some .null, false), (some .number, some (.number (.int 5)), true),
          (some .array, some (.sequence []), true),
          (some .boolean, some (.number (.int 5)), false),
          (some .nil, some (.string "nil"), false)]) = true := by decide +kernel
  cases h : emptied.prepare sharedWords sizes with
  | error unknown => simp [h, Except.toOption] at hprepared
  | ok prepared =>
    rw [h, Except.toOption, Option.any_some, decide_eq_true_eq] at hprepared
    exact ⟨prepared, rfl, hprepared, prepare_prepared h⟩

end Catalog

end ChartDocs
