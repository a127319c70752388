import ChartDocs.Tables
import ChartDocs.Proofs.Schema.Paths
import ChartDocs.Proofs.Survey.Prepared

/-!
# Types and defaults of a schema

Type and default of a property are collected one by one, so they may come from different parameters
and from what is put below the property. But only a documented parameter gives a default, and the
one that is documented last gives its type as well if it has one. So type and default belong
together as far as kind and value of that parameter do. Where the comments tell a value without its
kind, they need not.
-/

namespace ChartDocs

namespace Json

/-- The name of the type of a JSON tree, as schemas write it. -/
def type? : Json → Option String
  | null => some "null"
  | bool _ => some "boolean"
  | number _ => some "number"
  | string _ => some "string"
  | array _ => some "array"
  | object _ => some "object"
  | unpaired => none

end Json

namespace Value

/-- The JSON tree of a value has the type of the value, or it is null. -/
theorem type?_sorted_of_toJson {v : Value} {json : Json}
    (huntagged : ∀ tag content, v ≠ .tagged tag content) (h : v.toJson = .ok json) :
    json.sorted = .null ∨ json.sorted.type? = some v.kind.name := by
  cases v with
  | null => exact Or.inl (Except.ok.inj h ▸ rfl)
  | bool b => exact Or.inr (Except.ok.inj h ▸ rfl)
  | number n =>
    cases n with
    | int i => exact Or.inr (Except.ok.inj h ▸ rfl)
    | float x =>
      have hjson : (Decimal.jsonText? x).elim .null .number = json := Except.ok.inj h
      cases htext : Decimal.jsonText? x with
      | none => exact Or.inl (by rw [← hjson, htext]; rfl)
      | some text => exact Or.inr (by rw [← hjson, htext]; rfl)
  | string text => exact Or.inr (Except.ok.inj h ▸ rfl)
  | sequence items =>
    rw [toJson] at h
    cases hitems : itemsToJson items with
    | error fault => rw [hitems] at h; cases h
    | ok jsons => rw [hitems] at h; cases h; exact Or.inr rfl
  | mapping entries =>
    rw [toJson] at h
    cases hentries : entriesToJson entries with
    | error fault => rw [hentries] at h; cases h
    | ok fields => rw [hentries] at h; cases h; exact Or.inr rfl
  | tagged tag content => exact absurd rfl (huntagged tag content)

end Value

namespace Parameter

variable {p : Parameter} {ps : List Parameter} {path : List String}

/-- The last of some parameters whose name spells a path. -/
def lastAt? (path : List String) (ps : List Parameter) : Option Parameter :=
  (ps.filter (·.propertyPath = path)).getLast?

/-- One more parameter is the last one at its path and changes nothing at others. -/
theorem lastAt?_concat (path : List String) (ps : List Parameter) (p : Parameter) :
    lastAt? path (ps ++ [p]) = if p.propertyPath = path then some p else lastAt? path ps := by
  unfold lastAt?
  by_cases h : p.propertyPath = path
  · rw [if_pos h, List.filter_append, List.filter_singleton, decide_eq_true h, cond_true,
      List.getLast?_concat]
  · rw [if_neg h, List.filter_append, List.filter_singleton, decide_eq_false h, cond_false,
      List.append_nil]

/-- The last parameter at a path is one of them and spells the path. -/
theorem mem_of_lastAt? (h : lastAt? path ps = some p) : p ∈ ps ∧ p.propertyPath = path := by
  simpa using List.mem_filter.mp (List.mem_of_getLast? h)

/-- A parameter that a schema includes is not skipped. -/
theorem skip_of_inProperties (h : p.inProperties = true) : p.skip = false := by
  unfold inProperties at h
  rw [Bool.and_eq_true, Bool.and_eq_true, Bool.not_eq_true'] at h
  exact h.1.1

/-- A parameter whose comments tell a value under a tag, or one of another kind than was observed
under its name. -/
def TellsOtherKind (words : ModifierWords) (p : Parameter) : Prop :=
  p.TellsValue words ∧
    ∃ value, p.value = some value ∧
      ((∃ tag content, value = .tagged tag content) ∨ p.kind ≠ some value.kind)

end Parameter

namespace Schema.Properties

variable {properties : Properties} {ps : List Parameter} {path : List String} {p : Parameter}

-- Both inductions follow the parameters from the end, as the fold does: the last one decides, or
-- the facts at the path are those from before.
/-- What the last parameter at a path says is kept. -/
theorem exists_factsAt_of_lastAt? (h : Ordered properties)
    (hlast : Parameter.lastAt? path ps = some p) :
    ∃ facts, factsAt path (insertAll ps properties) = some facts ∧ facts.Contains p.facts := by
  have hpath : path ≠ [] := (Parameter.mem_of_lastAt? hlast).2 ▸ p.propertyPath_ne_nil
  induction ps using List.reverseRecOn with
  | nil => simp [Parameter.lastAt?] at hlast
  | append_singleton ps q ih =>
    have hordered := ordered_insertAll h ps
    rw [insertAll_concat]
    rw [Parameter.lastAt?_concat] at hlast
    split at hlast
    · next hself =>
      obtain rfl := Option.some.inj hlast
      rw [← hself]
      exact exists_factsAt_insert_self hordered q.facts q.propertyPath_ne_nil
    · next hother =>
      obtain ⟨facts, hfacts, hcontains⟩ := ih hlast
      refine ⟨facts, ?_, hcontains⟩
      rw [factsAt_insert hordered _ q.propertyPath_ne_nil hpath, if_neg (Ne.symm hother), hfacts,
        Option.getD_some, ite_self]

/-- A default comes from a parameter at the path. -/
theorem exists_lastAt?_of_default {facts : Facts}
    (hfacts : factsAt path (insertAll ps []) = some facts) (hpath : path ≠ [])
    (hdefault : facts.default.isSome) : ∃ p, Parameter.lastAt? path ps = some p := by
  induction ps using List.reverseRecOn with
  | nil =>
    have hnone : factsAt path (insertAll [] []) = none := factsAt_nil path
    rw [hnone] at hfacts
    exact absurd hfacts (by simp)
  | append_singleton ps q ih =>
    rw [Parameter.lastAt?_concat]
    split
    · exact ⟨q, rfl⟩
    · next hother =>
      -- A property that comes into being above the new one has no default.
      have hempty : Ordered [] := trivial
      have hordered := ordered_insertAll hempty ps
      rw [insertAll_concat, factsAt_insert hordered _ q.propertyPath_ne_nil hpath,
        if_neg (Ne.symm hother)] at hfacts
      split at hfacts
      · cases hbefore : factsAt path (insertAll ps []) with
        | none =>
          rw [hbefore] at hfacts
          obtain rfl := Option.some.inj hfacts
          exact absurd hdefault (by decide)
        | some before =>
          rw [hbefore, Option.getD_some] at hfacts
          exact ih (hbefore.trans hfacts)
      · exact ih hfacts

end Schema.Properties

namespace Catalog

open Schema

variable {c : Catalog} {path : List String} {p : Parameter}

/-- The included parameter that is documented last at a path. -/
def documentedAt? (c : Catalog) (path : List String) : Option Parameter :=
  Parameter.lastAt? path (c.parameters.filter (·.inProperties))

/-- The parameter that is documented at a path is included and spells the path. -/
theorem mem_of_documentedAt? (h : c.documentedAt? path = some p) :
    p ∈ c.parameters ∧ p.inProperties = true ∧ p.propertyPath = path := by
  obtain ⟨hmem, hpath⟩ := Parameter.mem_of_lastAt? h
  obtain ⟨hparameters, hincluded⟩ := List.mem_filter.mp hmem
  exact ⟨hparameters, hincluded, hpath⟩

/-- A parameter that is documented once is the last one documented at its path. -/
theorem documentedAt?_of_countP_eq_one (hp : p ∈ c.parameters) (hincluded : p.inProperties = true)
    (honce : c.parameters.countP (·.name = p.name) = 1) :
    c.documentedAt? p.propertyPath = some p := by
  have hnamed : c.parameters.filter (·.name = p.name) = [p] := by
    rw [List.countP_eq_length_filter] at honce
    obtain ⟨q, hq⟩ := List.length_eq_one_iff.mp honce
    have hmem : p ∈ c.parameters.filter (·.name = p.name) := List.mem_filter.mpr ⟨hp, by simp⟩
    rw [hq] at hmem ⊢
    rw [List.mem_singleton.mp hmem]
  have hsame (q : Parameter) : q.propertyPath = p.propertyPath ↔ q.name = p.name := by
    refine ⟨Parameter.name_eq_of_propertyPath_eq, fun h => ?_⟩
    unfold Parameter.propertyPath
    rw [h]
  unfold documentedAt? Parameter.lastAt?
  simp only [hsame]
  rw [List.filter_comm, hnamed, List.filter_singleton, hincluded, cond_true]
  rfl

/-- The schema says at a path what the parameter says that is documented there last. -/
theorem exists_documents_of_documentedAt? (h : c.documentedAt? path = some p) :
    ∃ property, c.schema.property? path = some property ∧ property.Documents p := by
  have hordered : Properties.Ordered [] := trivial
  have hpath : path ≠ [] := (mem_of_documentedAt? h).2.2 ▸ p.propertyPath_ne_nil
  obtain ⟨facts, hfacts, hcontains⟩ := Properties.exists_factsAt_of_lastAt? hordered h
  obtain ⟨node, hnode, rfl⟩ := Option.map_eq_some_iff.mp hfacts
  refine ⟨node.toJson, ?_, Node.documents_toJson hcontains⟩
  rw [property?_schema c hpath, ← Option.map_some]
  exact congrArg (Option.map Node.toJson) hnode

/-- Where a schema gives a default, a parameter is documented. -/
theorem exists_documentedAt?_of_default {property default : Json}
    (hproperty : c.schema.property? path = some property)
    (hdefault : property.member? "default" = some default) :
    ∃ p, c.documentedAt? path = some p := by
  cases path with
  | nil =>
    have hroot : c.schema.member? "default" = none := rfl
    obtain rfl := Option.some.inj hproperty
    rw [hroot] at hdefault
    cases hdefault
  | cons name rest =>
    have hpath : name :: rest ≠ [] := List.cons_ne_nil name rest
    rw [property?_schema c hpath] at hproperty
    obtain ⟨node, hnode, rfl⟩ := Option.map_eq_some_iff.mp hproperty
    rw [Node.member?_toJson, if_pos rfl] at hdefault
    have hfacts : Properties.factsAt (name :: rest) c.properties = some node.facts := by
      rw [Properties.factsAt, hnode, Option.map_some]
    exact Properties.exists_lastAt?_of_default hfacts hpath (Option.isSome_of_eq_some hdefault)

end Catalog

/-- A default other than null is the value of the documented parameter in JSON. -/
theorem Json.Documents.exists_of_default {schema default : Json} {p : Parameter}
    (h : schema.Documents p) (hdefault : schema.member? "default" = some default)
    (hne : default ≠ .null) :
    ∃ value json, p.value = some value ∧ p.kind ≠ some .nil ∧ value.toJson = .ok json ∧
      default = json.sorted := by
  have hnull : schema.member? "default" ≠ some .null := fun hnull =>
    hne (Option.some.inj (hdefault.symm.trans hnull))
  cases hvalue : p.value with
  | none => exact absurd (h.default_null (Or.inl hvalue)) hnull
  | some value =>
    have hkind : p.kind ≠ some .nil := fun hkind => hnull (h.default_null (Or.inr hkind))
    cases hjson : value.toJson with
    | error fault => exact absurd (h.default_unwritable value fault hvalue hjson) hnull
    | ok json =>
      have hsorted := h.default_value value json hvalue hkind hjson
      exact ⟨value, json, rfl, hkind, hjson, Option.some.inj (hdefault.symm.trans hsorted)⟩

namespace Survey

variable {settings : Settings} {source text : String} {survey : Survey} {prepared : Catalog}

/-- A value that is not null was seen with its kind, or the comments tell it. -/
theorem kind_of_mem_prepare (h : ofText settings source text = .ok survey)
    (hprepare : survey.prepare settings = .ok prepared) {q : Parameter}
    (hq : q ∈ prepared.parameters) (hskip : q.skip = false) {value : Value}
    (hvalue : q.value = some value) (hkind : q.kind ≠ some .nil) :
    (∀ tag content, value ≠ .tagged tag content) ∧ q.kind = some value.kind ∨
      q.TellsValue settings.modifiers := by
  rcases sighting_of_mem_prepare h hprepare hq hskip with hseen | ⟨-, hnone⟩ | htold
  · left
    rw [hvalue] at hseen
    generalize hk : q.kind = kind at hseen hkind
    cases hseen with
    | null => exact absurd rfl hkind
    | value _ huntagged _ => exact ⟨huntagged, rfl⟩
  · rw [hnone] at hvalue
    cases hvalue
  · exact Or.inr htold

/-- The default of a parameter that is documented once is the value that tables show, and null if
JSON has no form for it. Left open is only what becomes of a value that the comments tell for a key
that is null. -/
theorem default_of_display_ne_nil (h : ofText settings source text = .ok survey)
    (hprepare : survey.prepare settings = .ok prepared) :
    ∀ p ∈ prepared.parameters, p.inProperties = true →
      prepared.parameters.countP (·.name = p.name) = 1 →
      ∀ value, p.value = some value → p.display ≠ "nil".toList →
        ¬(p.kind = some .nil ∧ p.TellsValue settings.modifiers) →
        ∃ property, prepared.schema.property? p.propertyPath = some property ∧
          (∀ json, value.toJson = .ok json → property.member? "default" = some json.sorted) ∧
          ∀ fault, value.toJson = .error fault → property.member? "default" = some .null := by
  intro p hp hincluded honce value hvalue hdisplay htold
  obtain ⟨property, hproperty, hdocuments⟩ := Catalog.exists_documents_of_documentedAt?
    (Catalog.documentedAt?_of_countP_eq_one hp hincluded honce)
  have hskip := Parameter.skip_of_inProperties hincluded
  have hkind : p.kind ≠ some .nil := by
    intro hnil
    rcases sighting_of_mem_prepare h hprepare hp hskip with hseen | ⟨hnone, -⟩ | htells
    · rw [hnil] at hseen
      apply hdisplay
      rw [Parameter.display, hseen.value_of_nil]
      exact if_pos ⟨hnil, rfl⟩
    · rw [hnil] at hnone
      cases hnone
    · exact htold ⟨hnil, htells⟩
  refine ⟨property, hproperty, fun json hjson => ?_, fun fault hfault => ?_⟩
  · exact hdocuments.default_value value json hvalue hkind hjson
  · exact hdocuments.default_unwritable value fault hvalue hfault

/-- A text with a default value. -/
def replicasText : String :=
  "## @param replicas [default: 3] Replicas\nreplicas: 1\n"

/-- The only parameter of this text. -/
def replicas : Parameter :=
  { name := "replicas", description := "Replicas", modifiers := ["default: 3"],
    kind := some .number, value := some (.number (.int 3)) }

/-- The default value is also the default in the schema. -/
theorem default_of_display_replicasText :
    ∃ survey prepared, ofText {} "values.yaml" replicasText = .ok survey ∧
      survey.prepare {} = .ok prepared ∧ prepared.parameters = [replicas] ∧
      replicas.display = "3".toList ∧
      ∃ property, prepared.schema.property? ["replicas"] = some property ∧
        property.member? "default" = some (.number "3".toList) := by
  obtain ⟨survey, prepared, hsurvey, hprepare, htest⟩ :=
    exists_of_any_prepare {} "values.yaml" replicasText
      (fun _ prepared => decide (prepared.parameters = [replicas])) (by decide +kernel)
  have hparameters : prepared.parameters = [replicas] := of_decide_eq_true htest
  have hmem : replicas ∈ prepared.parameters := hparameters ▸ List.mem_singleton_self replicas
  have honce : prepared.parameters.countP (·.name = replicas.name) = 1 := by
    rw [hparameters]
    decide
  have hkind : ¬(replicas.kind = some .nil ∧ replicas.TellsValue {}) := fun hnil =>
    absurd hnil.1 (by decide)
  obtain ⟨property, hproperty, hdefault, -⟩ := default_of_display_ne_nil hsurvey hprepare replicas
    hmem (by decide) honce (.number (.int 3)) rfl (by decide) hkind
  exact ⟨survey, prepared, hsurvey, hprepare, hparameters, by decide, property, hproperty,
    hdefault (.number "3".toList) rfl⟩

/-- A text with a key that is null and has a default value, and with a key whose path also leads to
a mapping with a null key. -/
def portsText : String :=
  "ports:\n  \"80\":\n    ~: http\n  ## @param (ports.80) Port\n  80: https\n" ++
    "## @param port [default: 8080] Port\nport:\n"

/-- The parameters of this text. -/
def portsParameters : List Parameter := [
  { name := "ports.80", description := "Port", kind := some .object,
    value := some (.mapping [(.null, .string "http")]) },
  { name := "port", description := "Port", modifiers := ["default: 8080"], kind := some .nil,
    value := some (.number (.int 8080)) }]

/-- Tables show a value for each of these parameters, and the schema shows null, although null is
not that value in JSON. -/
theorem exists_default_null_of_display_ne_nil :
    ∃ survey prepared, ofText {} "values.yaml" portsText = .ok survey ∧
      survey.prepare {} = .ok prepared ∧ prepared.parameters = portsParameters ∧
      ∀ p ∈ portsParameters, p.inProperties = true ∧
        portsParameters.countP (·.name = p.name) = 1 ∧
        ∃ value, p.value = some value ∧ p.display ≠ "nil".toList ∧
          ∃ property, prepared.schema.property? p.propertyPath = some property ∧
            property.member? "default" = some .null ∧
            ¬∃ json, value.toJson = .ok json ∧ json.sorted = .null := by
  obtain ⟨survey, prepared, hsurvey, hprepare, htest⟩ :=
    exists_of_any_prepare {} "values.yaml" portsText
      (fun _ prepared => decide (prepared.parameters = portsParameters)) (by decide +kernel)
  have hparameters : prepared.parameters = portsParameters := of_decide_eq_true htest
  refine ⟨survey, prepared, hsurvey, hprepare, hparameters, fun p hp => ?_⟩
  have hincluded : p.inProperties = true := by revert p; decide
  have honce : portsParameters.countP (·.name = p.name) = 1 := by revert p; decide
  have hdisplay : p.display ≠ "nil".toList := by revert p; decide +kernel
  obtain ⟨property, hproperty, hdocuments⟩ := Catalog.exists_documents_of_documentedAt?
    (Catalog.documentedAt?_of_countP_eq_one (hparameters ▸ hp) hincluded (hparameters ▸ honce))
  refine ⟨hincluded, honce, ?_⟩
  rcases List.mem_pair.mp hp with rfl | rfl
  · exact ⟨_, rfl, hdisplay, property, hproperty, hdocuments.default_unwritable _ .notText rfl rfl,
      fun ⟨_, hjson, _⟩ => nomatch hjson⟩
  · exact ⟨_, rfl, hdisplay, property, hproperty, hdocuments.default_null (Or.inr rfl),
      fun ⟨_, hjson, hnull⟩ => by cases hjson; cases hnull⟩

/-- A default other than null has the type of its property, unless the parameter that is documented
there last tells a value of another kind. -/
theorem type_of_default (h : ofText settings source text = .ok survey)
    (hprepare : survey.prepare settings = .ok prepared) :
    ∀ path property type default, prepared.schema.property? path = some property →
      property.member? "type" = some type → property.member? "default" = some default →
      default ≠ .null →
      (∃ name, type = .string name ∧ default.type? = some name) ∨
        ∃ p, prepared.documentedAt? path = some p ∧ p.TellsOtherKind settings.modifiers := by
  intro path property type default hproperty htype hdefault hne
  obtain ⟨p, hp⟩ := Catalog.exists_documentedAt?_of_default hproperty hdefault
  obtain ⟨hmem, hincluded, -⟩ := Catalog.mem_of_documentedAt? hp
  have hdocuments : property.Documents p := by
    obtain ⟨other, hother, hdocuments⟩ := Catalog.exists_documents_of_documentedAt? hp
    rwa [Option.some.inj (hproperty.symm.trans hother)]
  have hskip := Parameter.skip_of_inProperties hincluded
  obtain ⟨value, json, hvalue, hkind, hjson, rfl⟩ := hdocuments.exists_of_default hdefault hne
  -- The type may come from elsewhere only if the parameter has no kind, and then it has no value
  -- but one that the comments tell.
  by_cases hseen : (∀ tag content, value ≠ .tagged tag content) ∧ p.kind = some value.kind
  · obtain ⟨huntagged, hsame⟩ := hseen
    left
    have hnotNil : value.kind ≠ .nil := fun hnil => hkind (by rw [hsame, hnil])
    have hname := hdocuments.type value.kind hsame hnotNil
    refine ⟨value.kind.name, Option.some.inj (htype.symm.trans hname), ?_⟩
    exact (Value.type?_sorted_of_toJson huntagged hjson).resolve_left hne
  · right
    have htold := (kind_of_mem_prepare h hprepare hmem hskip hvalue hkind).resolve_left hseen
    refine ⟨p, hp, htold, value, hvalue, ?_⟩
    by_cases htagged : ∃ tag content, value = .tagged tag content
    · exact Or.inl htagged
    · exact Or.inr fun hsame => hseen ⟨fun tag content heq => htagged ⟨tag, content, heq⟩, hsame⟩

/-- The default value is a number, as the type says. -/
theorem type_of_default_replicasText :
    ∃ survey prepared, ofText {} "values.yaml" replicasText = .ok survey ∧
      survey.prepare {} = .ok prepared ∧ prepared.documentedAt? ["replicas"] = some replicas ∧
      ¬replicas.TellsOtherKind {} ∧
      ∃ property type default, prepared.schema.property? ["replicas"] = some property ∧
        property.member? "type" = some type ∧ property.member? "default" = some default ∧
        default ≠ .null ∧ ∃ name, type = .string name ∧ default.type? = some name := by
  obtain ⟨survey, prepared, hsurvey, hprepare, htest⟩ :=
    exists_of_any_prepare {} "values.yaml" replicasText
      (fun _ prepared => decide (prepared.documentedAt? ["replicas"] = some replicas))
      (by decide +kernel)
  have hlast : prepared.documentedAt? ["replicas"] = some replicas := of_decide_eq_true htest
  have hkind : ¬replicas.TellsOtherKind {} := by
    rintro ⟨-, value, hvalue, htagged | hother⟩
    · obtain ⟨tag, content, rfl⟩ := htagged
      cases hvalue
    · cases hvalue
      exact hother rfl
  obtain ⟨property, hproperty, hdocuments⟩ := Catalog.exists_documents_of_documentedAt? hlast
  have htype := hdocuments.type .number rfl (by decide)
  have hdefault := hdocuments.default_value (.number (.int 3)) _ rfl (by decide) rfl
  have hne : (Json.number "3".toList).sorted ≠ .null := by simp [Json.sorted]
  refine ⟨survey, prepared, hsurvey, hprepare, hlast, hkind, property, _, _, hproperty, htype,
    hdefault, hne, ?_⟩
  rcases type_of_default hsurvey hprepare _ _ _ _ hproperty htype hdefault hne with
    hsame | ⟨p, hp, hother⟩
  · exact hsame
  · rw [hlast] at hp
    exact absurd (Option.some.inj hp ▸ hother) hkind

/-- A text with an extra parameter that is a number in the values, and with a number as the default
value of a string. -/
def noteText : String :=
  "## @extra note Note\nnote: 5\n## @param host [default: 1] Host\nhost: local\n"

/-- Both defaults in the schema of this text have another type than their property. -/
theorem exists_default_of_other_type :
    ∃ survey prepared, ofText {} "values.yaml" noteText = .ok survey ∧
      survey.prepare {} = .ok prepared ∧
      ∀ path ∈ [["note"], ["host"]], ∃ property type default,
        prepared.schema.property? path = some property ∧
          property.member? "type" = some (.string type) ∧
          property.member? "default" = some default ∧ default ≠ .null ∧
          default.type? ≠ some type := by
  obtain ⟨survey, prepared, hsurvey, hprepare, htest⟩ :=
    exists_of_any_prepare {} "values.yaml" noteText
      (fun _ prepared =>
        decide (prepared.documentedAt? ["note"] = some
          { name := "note", description := "Note", extra := true, kind := some .number,
            value := some (.string "") }) &&
        decide (prepared.documentedAt? ["host"] = some
          { name := "host", description := "Host", modifiers := ["default: 1"],
            kind := some .string, value := some (.number (.int 1)) }))
      (by decide +kernel)
  obtain ⟨hnote, hhost⟩ := Bool.and_eq_true_iff.mp htest
  refine ⟨survey, prepared, hsurvey, hprepare, fun path hpath => ?_⟩
  rcases List.mem_pair.mp hpath with rfl | rfl
  · obtain ⟨property, hproperty, hdocuments⟩ :=
      Catalog.exists_documents_of_documentedAt? (of_decide_eq_true hnote)
    exact ⟨property, _, _, hproperty, hdocuments.type .number rfl (by decide),
      hdocuments.default_value (.string "") _ rfl (by decide) rfl, by simp [Json.sorted], by decide⟩
  · obtain ⟨property, hproperty, hdocuments⟩ :=
      Catalog.exists_documents_of_documentedAt? (of_decide_eq_true hhost)
    exact ⟨property, _, _, hproperty, hdocuments.type .string rfl (by decide),
      hdocuments.default_value (.number (.int 1)) (.number "1".toList) rfl (by decide) rfl,
      by simp [Json.sorted], by decide⟩

end Survey

end ChartDocs
