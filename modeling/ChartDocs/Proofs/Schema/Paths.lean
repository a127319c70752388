import ChartDocs.Proofs.Schema.Insertion

/-!
# The paths of a schema

A schema has a property at a path exactly if the path leads to an included parameter or to something
above one. At the path of a parameter it says what the parameter says that is documented there last;
what is documented above, below or beside it, before or after, takes nothing away.
-/

namespace ChartDocs

open Text

namespace Json

/-- A member of an object. -/
def member? (name : String) : Json → Option Json
  | object fields => fields.lookup name
  | _ => none

/-- What a schema says about the property at a path; every name of the path is looked up in the
`properties` of the schema found before. -/
def property? : List String → Json → Option Json
  | [], schema => some schema
  | name :: rest, schema =>
    ((schema.member? "properties").bind (member? name)).bind (property? rest)

/-- A schema says about a property what a parameter documents. -/
structure Documents (schema : Json) (p : Parameter) : Prop where
  description : schema.member? "description" = some (.string p.description)
  default_null : p.value = none ∨ p.kind = some .nil → schema.member? "default" = some .null
  default_value : ∀ value json, p.value = some value → p.kind ≠ some .nil →
    value.toJson = .ok json → schema.member? "default" = some json.sorted
  /-- A value that JSON has no form for has no default either. -/
  default_unwritable : ∀ value fault, p.value = some value → value.toJson = .error fault →
    schema.member? "default" = some .null
  type : ∀ kind, p.kind = some kind → kind ≠ .nil →
    schema.member? "type" = some (.string kind.name)
  nullable : p.nullable = true → schema.member? "nullable" = some (.bool true)
  items : p.holdsStrings = true →
    schema.member? "items" = some (.object [("type", .string "string")])

end Json

namespace Parameter

/-- Every parameter spells a path of at least one name. -/
theorem propertyPath_ne_nil (p : Parameter) : p.propertyPath ≠ [] := by
  simpa [propertyPath] using splitAt_ne_nil '.' p.name.toList

/-- Different names spell different paths. -/
theorem name_eq_of_propertyPath_eq {p q : Parameter} (h : p.propertyPath = q.propertyPath) :
    p.name = q.name := by
  have hpieces : splitAt '.' p.name.toList = splitAt '.' q.name.toList :=
    List.map_injective_iff.mpr (fun _ _ => String.ofList_injective) h
  have htexts : p.name.toList = q.name.toList := by
    rw [← join_splitAt '.' p.name.toList, hpieces, join_splitAt]
  exact String.toList_injective htexts

end Parameter

namespace Schema

/-- Facts that contain others: whatever the others say, they say too. -/
structure Facts.Contains (all part : Facts) : Prop where
  kind : ∀ kind, part.kind = some kind → all.kind = some kind
  description : ∀ text, part.description = some text → all.description = some text
  default : ∀ json, part.default = some json → all.default = some json
  nullable : part.nullable = true → all.nullable = true
  stringItems : part.stringItems = true → all.stringItems = true

/-- Facts contain themselves. -/
theorem Facts.Contains.refl (facts : Facts) : facts.Contains facts :=
  ⟨fun _ h => h, fun _ h => h, fun _ h => h, id, id⟩

/-- Updated facts contain the newer ones. -/
theorem Facts.contains_update (old new : Facts) : (old.update new).Contains new where
  kind _ h := by rw [update, h]; rfl
  description _ h := by rw [update, h]; rfl
  default _ h := by rw [update, h]; rfl
  nullable h := by rw [update, h, Bool.or_true]
  stringItems h := by rw [update, h, Bool.or_true]

/-- A property is found in the schema exactly as in the tree of properties. -/
theorem lookup_propertiesToJson (properties : Properties) (name : String) :
    (propertiesToJson properties).lookup name = (properties.lookup name).map Node.toJson := by
  induction properties with
  | nil => rfl
  | cons entry rest ih =>
    obtain ⟨first, node⟩ := entry
    rw [propertiesToJson, List.lookup_cons, List.lookup_cons, ih]
    cases name == first <;> rfl

/-- A field is found under its own name only. -/
theorem lookup_field? (name other : String) (value : Option Json) :
    (field? name value).lookup other = if other = name then value else none := by
  cases value with
  | none => simp [field?]
  | some json =>
    rw [field?, List.lookup_cons, List.lookup_nil]
    by_cases h : other = name
    · rw [if_pos h, beq_iff_eq.mpr h]
    · rw [if_neg h, beq_false_of_ne h]

/-- The members of the schema of a property. -/
theorem Node.member?_toJson (node : Node) (name : String) :
    node.toJson.member? name =
      if name = "default" then node.facts.default
      else if name = "description" then node.facts.description.map .string
      else if name = "items" then
        if node.facts.stringItems then some (typeOnly .string) else none
      else if name = "nullable" then
        if node.facts.nullable then some (.bool true) else none
      else if name = "properties" then
        node.properties.map fun below => .object (propertiesToJson below)
      else if name = "type" then node.facts.kind.map fun kind => .string kind.name
      else none := by
  obtain ⟨facts, properties⟩ := node
  have hjson : (Node.node facts properties).toJson =
      .object (field? "default" facts.default ++
        field? "description" (facts.description.map .string) ++
        field? "items" (if facts.stringItems then some (typeOnly .string) else none) ++
        field? "nullable" (if facts.nullable then some (.bool true) else none) ++
        field? "properties" (properties.map fun below => .object (propertiesToJson below)) ++
        field? "type" (facts.kind.map fun kind => .string kind.name)) := by
    cases properties <;> simp [toJson, field?]
  have hfacts : (Node.node facts properties).facts = facts := rfl
  rw [hjson, hfacts]
  simp only [Json.member?, List.lookup_append, lookup_field?]
  by_cases hdefault : name = "default"
  · simp [hdefault]
  by_cases hdescription : name = "description"
  · simp [hdescription]
  by_cases hitems : name = "items"
  · simp [hitems]
  by_cases hnullable : name = "nullable"
  · simp [hnullable]
  by_cases hbelow : name = "properties"
  · simp [hbelow, Node.properties]
  simp [hdefault, hdescription, hitems, hnullable, hbelow]

/-- Following the paths of a schema is finding the nodes of the tree. -/
theorem property?_object (name : String) (rest : List String) (properties : Properties) :
    ((Json.object (propertiesToJson properties)).member? name).bind (Json.property? rest) =
      (properties.find? (name :: rest)).map Node.toJson := by
  induction rest generalizing name properties with
  | nil =>
    rw [Json.member?, lookup_propertiesToJson, Properties.find?]
    cases properties.lookup name <;> rfl
  | cons next rest ih =>
    rw [Json.member?, lookup_propertiesToJson, Properties.find?]
    · cases properties.lookup name with
      | none => rfl
      | some node =>
        have hbelow : node.toJson.member? "properties" =
            node.properties.map fun below => .object (propertiesToJson below) := by
          rw [Node.member?_toJson]
          rfl
        rw [Option.map_some, Option.bind_some, Json.property?, hbelow]
        dsimp only
        cases node.properties with
        | none => cases rest <;> rfl
        | some below => exact ih next below
    · simp

namespace Properties

variable {properties : Properties} {query : List String}

/-- Document parameters one after the other. -/
def insertAll (ps : List Parameter) (properties : Properties) : Properties :=
  ps.foldl (fun found p => found.insert p.facts p.propertyPath) properties

/-- The last parameter is documented after the others. -/
theorem insertAll_concat (ps : List Parameter) (p : Parameter) (properties : Properties) :
    insertAll (ps ++ [p]) properties =
      (insertAll ps properties).insert p.facts p.propertyPath := by
  unfold insertAll
  rw [List.foldl_append, List.foldl_cons, List.foldl_nil]

/-- Documenting parameters keeps properties in order. -/
theorem ordered_insertAll (h : Ordered properties) (ps : List Parameter) :
    Ordered (insertAll ps properties) := by
  induction ps generalizing properties with
  | nil => exact h
  | cons p ps ih => exact ih (ordered_insert h p.facts p.propertyPath)

/-- Documenting a parameter brings the paths up to its own into being and no others. -/
theorem isSome_factsAt_insert (h : Ordered properties) (new : Facts) {path : List String}
    (hpath : path ≠ []) (hquery : query ≠ []) :
    (factsAt query (insert new path properties)).isSome ↔
      (factsAt query properties).isSome ∨ query <+: path := by
  rw [factsAt_insert h new hpath hquery]
  split
  · next heq => simp [heq]
  · split
    · next habove => simp [habove]
    · next habove => simp [habove]

/-- There are facts at a path if and only if there were some or a parameter spells a path through
it. -/
theorem isSome_factsAt_insertAll (h : Ordered properties) (ps : List Parameter)
    (hquery : query ≠ []) :
    (factsAt query (insertAll ps properties)).isSome ↔
      (factsAt query properties).isSome ∨ ∃ p ∈ ps, query <+: p.propertyPath := by
  induction ps generalizing properties with
  | nil => simp [insertAll]
  | cons p ps ih =>
    have hstep := isSome_factsAt_insert h p.facts p.propertyPath_ne_nil hquery
    have hrest := ih (ordered_insert h p.facts p.propertyPath)
    rw [insertAll, List.foldl_cons]
    rw [insertAll] at hrest
    rw [hrest, hstep, or_assoc, List.exists_mem_cons_iff]

/-- The facts at a path contain what was documented there last. -/
theorem exists_factsAt_insert_self (h : Ordered properties) (new : Facts) {path : List String}
    (hpath : path ≠ []) :
    ∃ facts, factsAt path (insert new path properties) = some facts ∧ facts.Contains new := by
  rw [factsAt_insert h new hpath hpath, if_pos rfl]
  cases factsAt path properties with
  | none => exact ⟨new, rfl, .refl new⟩
  | some old => exact ⟨old.update new, rfl, Facts.contains_update old new⟩

/-- Facts stay as they are while parameters are documented at other paths. -/
theorem factsAt_insertAll_of_ne (h : Ordered properties) {ps : List Parameter}
    (hne : ∀ p ∈ ps, query ≠ p.propertyPath) (hquery : query ≠ []) {facts : Facts}
    (hfacts : factsAt query properties = some facts) :
    factsAt query (insertAll ps properties) = some facts := by
  induction ps generalizing properties with
  | nil => exact hfacts
  | cons p ps ih =>
    refine ih (ordered_insert h p.facts p.propertyPath)
      (fun q hq => hne q (List.mem_cons_of_mem p hq)) ?_
    rw [factsAt_insert h p.facts p.propertyPath_ne_nil hquery, if_neg (hne p List.mem_cons_self),
      hfacts, Option.getD_some, ite_self]

/-- The facts at the path of a parameter contain what the last parameter with that name says. -/
theorem exists_factsAt_insertAll (h : Ordered properties) (before : List Parameter)
    {after : List Parameter} {p : Parameter} (hlast : ∀ q ∈ after, q.name ≠ p.name) :
    ∃ facts, factsAt p.propertyPath (insertAll (before ++ p :: after) properties) = some facts ∧
      facts.Contains p.facts := by
  have hbefore : Ordered (insertAll before properties) := ordered_insertAll h before
  obtain ⟨facts, hfacts, hcontains⟩ :=
    exists_factsAt_insert_self hbefore p.facts p.propertyPath_ne_nil
  have hafter : ∀ q ∈ after, p.propertyPath ≠ q.propertyPath :=
    fun q hq heq => hlast q hq (Parameter.name_eq_of_propertyPath_eq heq).symm
  refine ⟨facts, ?_, hcontains⟩
  rw [insertAll, List.foldl_append, List.foldl_cons]
  exact factsAt_insertAll_of_ne (ordered_insert hbefore _ _) hafter p.propertyPath_ne_nil hfacts

end Properties

/-- The schema of a property whose facts contain those of a parameter. -/
theorem Node.documents_toJson {node : Node} {p : Parameter} (h : node.facts.Contains p.facts) :
    node.toJson.Documents p where
  description := by
    rw [member?_toJson, if_neg (by decide), if_pos rfl, h.description _ rfl]
    rfl
  default_null hnull := by
    have hdefault : p.schemaDefault = .null := by
      rw [Parameter.schemaDefault]
      rcases hnull with hnone | hnil
      · rw [hnone]
      · cases p.value with
        | none => rfl
        | some value => exact if_pos hnil
    rw [member?_toJson, if_pos rfl, h.default _ rfl, hdefault]
  default_value value json hvalue hkind hjson := by
    have hdefault : p.schemaDefault = json.sorted := by
      simp only [Parameter.schemaDefault, hvalue, if_neg hkind, hjson]
    rw [member?_toJson, if_pos rfl, h.default _ rfl, hdefault]
  default_unwritable value fault hvalue hfault := by
    have hdefault : p.schemaDefault = .null := by
      simp only [Parameter.schemaDefault, hvalue, hfault, ite_self]
    rw [member?_toJson, if_pos rfl, h.default _ rfl, hdefault]
  type kind hkind hne := by
    have hfacts : p.facts.kind = some kind := by
      rw [Parameter.facts, hkind, Option.filter_some, if_pos (by simpa using hne)]
    simp [member?_toJson, h.kind kind hfacts]
  nullable hnullable := by simp [member?_toJson, h.nullable hnullable]
  items hitems := by
    rw [member?_toJson, if_neg (by decide), if_neg (by decide), if_pos rfl,
      h.stringItems hitems]
    rfl

end Schema

namespace Catalog

open Schema

/-- The properties of a catalog document its included parameters one after the other. -/
theorem properties_eq_insertAll (c : Catalog) :
    c.properties = Properties.insertAll (c.parameters.filter (·.inProperties)) [] :=
  rfl

/-- Following a path in the schema of a catalog is finding its node. -/
theorem property?_schema (c : Catalog) {path : List String} (h : path ≠ []) :
    c.schema.property? path = (c.properties.find? path).map Node.toJson := by
  obtain ⟨name, rest, rfl⟩ := List.exists_cons_of_ne_nil h
  exact property?_object name rest c.properties

/-- The paths of a schema are those that lead to an included parameter or to something above one,
and at its path each included parameter that no later one repeats is documented, whatever else is
documented there, above or below. -/
theorem schema_documents_included (c : Catalog) :
    (∀ path, path ≠ [] → ((c.schema.property? path).isSome ↔
      ∃ p ∈ c.parameters, p.inProperties ∧ path <+: p.propertyPath)) ∧
    ∀ before p after, c.parameters = before ++ p :: after → p.inProperties →
      (∀ q ∈ after, q.inProperties → q.name ≠ p.name) →
      ∃ property, c.schema.property? p.propertyPath = some property ∧ property.Documents p := by
  have hempty : Properties.Ordered [] := trivial
  constructor
  · intro path hpath
    have hpaths := Properties.isSome_factsAt_insertAll hempty
      (c.parameters.filter (·.inProperties)) hpath
    rw [← properties_eq_insertAll, Properties.factsAt_nil] at hpaths
    rw [property?_schema c hpath, Option.isSome_map]
    rw [Properties.factsAt, Option.isSome_map] at hpaths
    simpa [and_assoc] using hpaths
  · intro before p after hparameters hincluded hlast
    -- Parameters that are left out may stand anywhere between, so the split is filtered too.
    have hlast' : ∀ q ∈ after.filter (·.inProperties), q.name ≠ p.name := fun q hq =>
      hlast q (List.mem_filter.mp hq).1 (List.mem_filter.mp hq).2
    have hfilter : c.parameters.filter (·.inProperties) =
        before.filter (·.inProperties) ++ p :: after.filter (·.inProperties) := by
      rw [hparameters, List.filter_append, List.filter_cons_of_pos hincluded]
    obtain ⟨facts, hfacts, hcontains⟩ := Properties.exists_factsAt_insertAll hempty
      (before.filter (·.inProperties)) hlast'
    rw [← hfilter, ← properties_eq_insertAll, Properties.factsAt, Option.map_eq_some_iff] at hfacts
    obtain ⟨node, hnode, rfl⟩ := hfacts
    refine ⟨node.toJson, ?_, Node.documents_toJson hcontains⟩
    rw [property?_schema c p.propertyPath_ne_nil, hnode, Option.map_some]

/-- A catalog in which a parameter is documented twice and its parent between the two. -/
def overlapping : Catalog where
  sections := []
  parameters := [
    { name := "image.tag", kind := some .string, value := some (.string "1") },
    { name := "image", kind := some .object, description := "Image" },
    { name := "image.tag", description := "New", nullable := true },
    { name := "args[0]" }]

/-- The later of two parameters with a name below a documented parent. -/
theorem documents_overlapping :
    ∃ property, overlapping.schema.property? ["image", "tag"] = some property ∧
      property.member? "description" = some (.string "New") ∧
      property.member? "nullable" = some (.bool true) := by
  obtain ⟨property, hproperty, hdocuments⟩ := (schema_documents_included overlapping).2
    (overlapping.parameters.take 2) { name := "image.tag", description := "New", nullable := true }
    [{ name := "args[0]" }] rfl (by decide) (by decide)
  exact ⟨property, hproperty, hdocuments.description, hdocuments.nullable rfl⟩

end Catalog

end ChartDocs
