import ChartDocs.Proofs.Schema.Paths
import Mathlib.Data.List.Induction
import Mathlib.Data.List.Nodup

/-!
# The order of documentation

A schema is determined by the facts at each of its paths, and most of these do not depend on the
order in which parameters are documented. One does: a property that is documented without a type is
an object if something below it was documented before, and has no type otherwise. So two orders of
the same parameters give the same schema exactly if they agree, for each parameter without a type,
on whether something below it comes first.
-/

namespace ChartDocs

namespace Schema

mutual

/-- No property has an empty list of properties below it, at every depth. -/
def Node.Full : Node → Prop
  | .node _ properties =>
    match properties with
    | some properties => properties ≠ [] ∧ Properties.Full properties
    | none => True

/-- No property has an empty list of properties below it, at every depth. -/
def Properties.Full : List (String × Node) → Prop
  | [] => True
  | (_, node) :: rest => node.Full ∧ Properties.Full rest

end

/-- A property is determined by its facts and by what is below it. -/
theorem Node.eq_of_children {a b : Node} (ha : a.Full) (hb : b.Full) (hfacts : a.facts = b.facts)
    (hchildren : children (some a) = children (some b)) : a = b := by
  obtain ⟨facts, below⟩ := a
  obtain ⟨other, otherBelow⟩ := b
  obtain rfl : facts = other := hfacts
  cases below with
  | none =>
    cases otherBelow with
    | none => rfl
    | some qs => exact absurd hchildren.symm hb.1
  | some ps =>
    cases otherBelow with
    | none => exact absurd hchildren ha.1
    | some qs => exact congrArg (node facts ∘ some) hchildren

/-- The properties below a full property are full. -/
theorem Node.full_children {found : Option Node} (h : ∀ node, found = some node → node.Full) :
    Properties.Full (children found) := by
  cases found with
  | none => exact trivial
  | some node =>
    obtain ⟨facts, properties⟩ := node
    cases properties with
    | none => exact trivial
    | some properties => exact (h _ rfl).2

/-- Documenting a full property keeps it full. -/
theorem Node.full_document (new : Facts) {found : Option Node}
    (h : ∀ node, found = some node → node.Full) : (document new found).Full := by
  cases found with
  | none => exact trivial
  | some node =>
    obtain ⟨old, properties⟩ := node
    have hnode : (node old properties).Full := h _ rfl
    exact hnode

/-- A property with full properties below it, at least one, is full. -/
theorem Node.full_descend {change : Properties → Properties} {found : Option Node}
    (hne : change (children found) ≠ []) (hfull : Properties.Full (change (children found))) :
    (descend change found).Full := by
  cases found <;> exact ⟨hne, hfull⟩

namespace Properties

variable {properties ps qs : Properties} {name : String} {change : Option Node → Node}

/-- A property that is found among full ones is full. -/
theorem full_of_lookup (h : Full properties) {node : Node}
    (hfound : properties.lookup name = some node) : node.Full := by
  induction properties with
  | nil => simp at hfound
  | cons entry rest ih =>
    obtain ⟨first, other⟩ := entry
    rw [List.lookup_cons] at hfound
    split at hfound
    · exact Option.some.inj hfound ▸ h.1
    · exact ih h.2 hfound

/-- The properties below a property are smaller than those that it stands among. -/
theorem sizeOf_children_lt {node : Node} (hfound : properties.lookup name = some node) :
    sizeOf (Node.children (some node)) < sizeOf properties := by
  induction properties with
  | nil => simp at hfound
  | cons entry rest ih =>
    obtain ⟨first, other⟩ := entry
    have hchildren : sizeOf (Node.children (some other)) ≤ sizeOf other := by
      obtain ⟨facts, below⟩ := other
      cases below <;> simp only [Node.children, Node.properties, Option.bind_some,
        Option.getD_none, Option.getD_some, Node.node.sizeOf_spec, Option.some.sizeOf_spec,
        List.nil.sizeOf_spec] <;> omega
    rw [List.lookup_cons] at hfound
    split at hfound
    · obtain rfl := Option.some.inj hfound
      simp only [List.cons.sizeOf_spec, Prod.mk.sizeOf_spec]
      omega
    · have hrest := ih hfound
      simp only [List.cons.sizeOf_spec]
      omega

/-- The first names of two lists that find the same are not in order. -/
theorem not_lt_of_lookup {first other : String} {a b : Node}
    (hqs : Ordered ((other, b) :: qs))
    (h : ∀ name, ((first, a) :: ps).lookup name = ((other, b) :: qs).lookup name) :
    ¬first < other := by
  intro hlt
  have habsent : ((other, b) :: qs).lookup first = none := by
    refine lookup_eq_none_of_lt fun entry hentry => ?_
    rcases List.mem_cons.mp hentry with rfl | hentry
    · exact hlt
    · exact String.lt_trans hlt (hqs.1 entry hentry)
  have hfound := h first
  rw [List.lookup_cons_self, habsent] at hfound
  exact absurd hfound (by simp)

/-- Ordered properties are determined by what is found under each name. -/
theorem eq_of_lookup (hps : Ordered ps) (hqs : Ordered qs)
    (h : ∀ name, ps.lookup name = qs.lookup name) : ps = qs := by
  induction ps generalizing qs with
  | nil =>
    cases qs with
    | nil => rfl
    | cons entry others =>
      have hfound := h entry.1
      rw [List.lookup_nil, List.lookup_cons_self] at hfound
      exact absurd hfound (by simp)
  | cons entry rest ih =>
    obtain ⟨first, a⟩ := entry
    cases qs with
    | nil =>
      have hfound := h first
      rw [List.lookup_nil, List.lookup_cons_self] at hfound
      exact absurd hfound (by simp)
    | cons entry others =>
      obtain ⟨other, b⟩ := entry
      obtain rfl : first = other :=
        String.le_antisymm (String.not_lt.mp (not_lt_of_lookup hps fun name => (h name).symm))
          (String.not_lt.mp (not_lt_of_lookup hqs h))
      have hnode := h first
      rw [List.lookup_cons_self, List.lookup_cons_self] at hnode
      have hrest : ∀ name, rest.lookup name = others.lookup name := by
        intro name
        by_cases hname : name = first
        · rw [hname, lookup_eq_none_of_lt hps.1, lookup_eq_none_of_lt hqs.1]
        · have hbelow := h name
          rwa [List.lookup_cons, List.lookup_cons, beq_false_of_ne hname] at hbelow
      rw [Option.some.inj hnode, ih hps.2.2 hqs.2.2 hrest]

/-- Trees with the same facts at every path are the same. -/
theorem eq_of_factsAt {ps qs : Properties} (hps : Ordered ps) (hqs : Ordered qs)
    (hpsFull : Full ps) (hqsFull : Full qs)
    (h : ∀ path, factsAt path ps = factsAt path qs) : ps = qs := by
  refine eq_of_lookup hps hqs fun name => ?_
  have hname := h [name]
  rw [factsAt_singleton, factsAt_singleton] at hname
  cases ha : ps.lookup name with
  | none =>
    rw [ha] at hname
    exact (Option.map_eq_none_iff.mp hname.symm).symm
  | some a =>
    rw [ha] at hname
    obtain ⟨b, hb, hfacts⟩ := Option.map_eq_some_iff.mp hname.symm
    have hsmaller := sizeOf_children_lt ha
    have hbelow : Node.children (some a) = Node.children (some b) := by
      have hordered : ∀ {properties : Properties} {node : Node}, Ordered properties →
          properties.lookup name = some node → Ordered (Node.children (some node)) :=
        fun hall hfound => Node.ordered_children fun _ heq =>
          ordered_of_lookup hall (hfound.trans heq)
      have hfull : ∀ {properties : Properties} {node : Node}, Full properties →
          properties.lookup name = some node → Full (Node.children (some node)) :=
        fun hall hfound => Node.full_children fun _ heq => full_of_lookup hall (hfound.trans heq)
      refine eq_of_factsAt (hordered hps ha) (hordered hqs hb) (hfull hpsFull ha)
        (hfull hqsFull hb) fun path => ?_
      cases path with
      | nil => rfl
      | cons next others =>
        have hpath := h (name :: next :: others)
        rwa [factsAt_cons_cons, factsAt_cons_cons, ha, hb] at hpath
    rw [hb, Node.eq_of_children (full_of_lookup hpsFull ha) (full_of_lookup hqsFull hb) hfacts.symm
      hbelow]
termination_by sizeOf ps

/-- Changing a property leaves at least this one. -/
theorem alter_ne_nil (name : String) (change : Option Node → Node) (properties : Properties) :
    alter name change properties ≠ [] := by
  cases properties with
  | nil => simp [alter]
  | cons entry rest =>
    obtain ⟨first, node⟩ := entry
    rw [alter]
    split
    · simp
    · split <;> simp

/-- What changes a full property into a full one leaves full properties. -/
theorem full_alter (h : Full properties)
    (hchange : ∀ found, (∀ node, found = some node → node.Full) → (change found).Full) :
    Full (alter name change properties) := by
  have hnew : (change none).Full := hchange none (by simp)
  induction properties with
  | nil => exact ⟨hnew, trivial⟩
  | cons entry rest ih =>
    obtain ⟨first, node⟩ := entry
    rw [alter]
    split
    · exact ⟨hchange (some node) fun _ heq => Option.some.inj heq ▸ h.1, h.2⟩
    · split
      · exact ⟨hnew, h⟩
      · exact ⟨h.1, ih h.2⟩

/-- Documenting something leaves at least one property. -/
theorem insert_ne_nil (new : Facts) {path : List String} (hpath : path ≠ [])
    (properties : Properties) : insert new path properties ≠ [] := by
  obtain ⟨first, rest, rfl⟩ := List.exists_cons_of_ne_nil hpath
  cases rest with
  | nil => exact alter_ne_nil _ _ _
  | cons next rest =>
    rw [insert_cons_cons]
    exact alter_ne_nil _ _ _

/-- Documenting a parameter leaves no property with an empty list below it. -/
theorem full_insert (h : Full properties) (new : Facts) (path : List String) :
    Full (insert new path properties) := by
  induction path generalizing properties with
  | nil => exact h
  | cons name rest ih =>
    cases rest with
    | nil => exact full_alter h fun found hfound => Node.full_document new hfound
    | cons next rest =>
      rw [insert_cons_cons]
      refine full_alter h fun found hfound => ?_
      exact Node.full_descend (insert_ne_nil new (List.cons_ne_nil _ _) _)
        (ih (Node.full_children hfound))

/-- Documenting parameters keeps properties full. -/
theorem full_insertAll (h : Full properties) (ps : List Parameter) :
    Full (insertAll ps properties) := by
  induction ps generalizing properties with
  | nil => exact h
  | cons p ps ih => exact ih (full_insert h p.facts p.propertyPath)

variable {query : List String}

/-- What is only known by what is below it is an object, whatever the order. -/
theorem factsAt_insertAll_of_forall_ne {ps : List Parameter} (hquery : query ≠ [])
    (hne : ∀ p ∈ ps, query ≠ p.propertyPath) :
    factsAt query (insertAll ps []) =
      if ∃ p ∈ ps, query <+: p.propertyPath then some Node.object.facts else none := by
  induction ps using List.reverseRecOn with
  | nil => simp [insertAll, factsAt_nil]
  | append_singleton ps p ih =>
    have hempty : Ordered [] := trivial
    have hordered := ordered_insertAll hempty ps
    rw [insertAll_concat, factsAt_insert hordered _ p.propertyPath_ne_nil hquery,
      if_neg (hne p (by simp)), ih fun q hq => hne q (List.mem_append_left _ hq)]
    by_cases hp : query <+: p.propertyPath
    · have hexists : ∃ q ∈ ps ++ [p], query <+: q.propertyPath := ⟨p, by simp, hp⟩
      rw [if_pos hp, if_pos hexists]
      split <;> rfl
    · simp [hp, List.mem_append, or_and_right, exists_or]

/-- Where one parameter alone is documented the facts are its own, put over those of an object if
something below was documented before. -/
theorem factsAt_insertAll_self {before after : List Parameter} {p : Parameter}
    (hbefore : ∀ q ∈ before, q.name ≠ p.name) (hafter : ∀ q ∈ after, q.name ≠ p.name) :
    factsAt p.propertyPath (insertAll (before ++ p :: after) []) =
      some (if ∃ q ∈ before, p.propertyPath <+: q.propertyPath then
        Node.object.facts.update p.facts else p.facts) := by
  have hne : ∀ {ps : List Parameter}, (∀ q ∈ ps, q.name ≠ p.name) →
      ∀ q ∈ ps, p.propertyPath ≠ q.propertyPath :=
    fun h q hq heq => h q hq (Parameter.name_eq_of_propertyPath_eq heq).symm
  have hempty : Ordered [] := trivial
  have hordered := ordered_insertAll hempty before
  rw [insertAll, List.foldl_append, List.foldl_cons]
  refine factsAt_insertAll_of_ne (ordered_insert hordered _ _) (hne hafter) p.propertyPath_ne_nil ?_
  rw [factsAt_insert hordered _ p.propertyPath_ne_nil p.propertyPath_ne_nil, if_pos rfl,
    factsAt_insertAll_of_forall_ne p.propertyPath_ne_nil (hne hbefore)]
  split <;> rfl

end Properties

end Schema

namespace Parameter

/-- The comments and the values give no type that a schema could write. -/
def Untyped (p : Parameter) : Prop :=
  p.kind = none ∨ p.kind = some .nil

instance (p : Parameter) : Decidable p.Untyped :=
  inferInstanceAs (Decidable (_ ∨ _))

/-- No type is documented for a parameter if and only if it is untyped. -/
theorem facts_kind_eq_none (p : Parameter) : p.facts.kind = none ↔ p.Untyped := by
  simp only [facts, Untyped, Option.filter_eq_none_iff]
  cases p.kind <;> simp

/-- A parameter with a type says of itself whether it is an object. -/
theorem object_update_facts {p : Parameter} (h : ¬p.Untyped) :
    Schema.Node.object.facts.update p.facts = p.facts := by
  obtain ⟨kind, hkind⟩ := Option.ne_none_iff_exists'.mp (mt p.facts_kind_eq_none.mp h)
  have hupdate : Schema.Node.object.facts.update p.facts = { p.facts with kind := some kind } := by
    simp [Schema.Facts.update, Schema.Node.object, Schema.Node.facts, hkind]
  rw [hupdate, ← hkind]

end Parameter

namespace Catalog

open Schema

variable {c d : Catalog} {p : Parameter}

/-- The parameters of a schema that are documented before the one with the name of another. -/
def documentedBefore (c : Catalog) (p : Parameter) : List Parameter :=
  (c.parameters.filter (·.inProperties)).takeWhile (·.name ≠ p.name)

/-- Something below a parameter is documented before it. -/
def ReachedFirst (c : Catalog) (p : Parameter) : Prop :=
  ∃ q ∈ c.documentedBefore p, p.propertyPath <+: q.propertyPath

instance (c : Catalog) (p : Parameter) : Decidable (c.ReachedFirst p) :=
  inferInstanceAs (Decidable (∃ _ ∈ _, _))

/-- What is documented before a parameter stands in front of the first one of its name. -/
theorem documentedBefore_eq {before after : List Parameter}
    (h : c.parameters.filter (·.inProperties) = before ++ p :: after)
    (hbefore : ∀ q ∈ before, q.name ≠ p.name) : c.documentedBefore p = before := by
  rw [documentedBefore, h, List.takeWhile_append_of_pos (by simpa using hbefore),
    List.takeWhile_cons_of_neg (by simp), List.append_nil]

/-- What a schema knows about a parameter that is documented once. -/
theorem factsAt_properties (hnames : ((c.parameters.filter (·.inProperties)).map (·.name)).Nodup)
    (hp : p ∈ c.parameters.filter (·.inProperties)) :
    Properties.factsAt p.propertyPath c.properties =
      some (if c.ReachedFirst p then Node.object.facts.update p.facts else p.facts) := by
  obtain ⟨before, after, hsplit⟩ := List.append_of_mem hp
  rw [hsplit, List.map_append, List.map_cons, List.nodup_middle, List.nodup_cons,
    List.mem_append] at hnames
  have hbefore : ∀ q ∈ before, q.name ≠ p.name :=
    fun q hq heq => hnames.1 (Or.inl (List.mem_map.mpr ⟨q, hq, heq⟩))
  have hafter : ∀ q ∈ after, q.name ≠ p.name :=
    fun q hq heq => hnames.1 (Or.inr (List.mem_map.mpr ⟨q, hq, heq⟩))
  rw [properties_eq_insertAll, hsplit, Properties.factsAt_insertAll_self hbefore hafter]
  simp only [ReachedFirst, documentedBefore_eq hsplit hbefore]

/-- The properties of a catalog are in order. -/
theorem ordered_properties (c : Catalog) : Properties.Ordered c.properties :=
  have hempty : Properties.Ordered [] := trivial
  Properties.ordered_insertAll hempty _

/-- The properties of a catalog are full. -/
theorem full_properties (c : Catalog) : Properties.Full c.properties :=
  have hempty : Properties.Full [] := trivial
  Properties.full_insertAll hempty _

/-- The type in a schema is the kind among the facts. -/
theorem type_property?_schema (c : Catalog) {path : List String} (hpath : path ≠ []) :
    (c.schema.property? path).bind (·.member? "type") =
      ((Properties.factsAt path c.properties).bind (·.kind)).map fun kind => .string kind.name := by
  rw [property?_schema c hpath, Properties.factsAt]
  cases c.properties.find? path with
  | none => rfl
  | some node => simp [Node.member?_toJson]

/-- A parameter without a type has one in the schema exactly if something below it was documented
before. -/
theorem isSome_type_iff (hnames : ((c.parameters.filter (·.inProperties)).map (·.name)).Nodup)
    (hp : p ∈ c.parameters.filter (·.inProperties)) (huntyped : p.Untyped) :
    ((c.schema.property? p.propertyPath).bind (·.member? "type")).isSome ↔ c.ReachedFirst p := by
  have hkind : p.facts.kind = none := p.facts_kind_eq_none.mpr huntyped
  have hobject : (Node.object.facts.update p.facts).kind = some .object := by
    rw [Facts.update, hkind]
    rfl
  rw [type_property?_schema c p.propertyPath_ne_nil, factsAt_properties hnames hp]
  by_cases hreached : c.ReachedFirst p
  · simp [hreached, hobject]
  · simp [hreached, hkind]

/-- What a schema knows at the other paths does not depend on the order. -/
theorem factsAt_properties_of_forall_ne (hperm : c.parameters.Perm d.parameters)
    {path : List String} (hpath : path ≠ [])
    (hne : ∀ p ∈ c.parameters.filter (·.inProperties), path ≠ p.propertyPath) :
    Properties.factsAt path c.properties = Properties.factsAt path d.properties := by
  have hincluded := hperm.filter (·.inProperties)
  have hne' : ∀ p ∈ d.parameters.filter (·.inProperties), path ≠ p.propertyPath :=
    fun p hp => hne p (hincluded.mem_iff.mpr hp)
  rw [properties_eq_insertAll, properties_eq_insertAll,
    Properties.factsAt_insertAll_of_forall_ne hpath hne,
    Properties.factsAt_insertAll_of_forall_ne hpath hne']
  simp only [hincluded.mem_iff]

/-- Documenting the same parameters in another order gives the same schema exactly if for each of
those without a type something below it is documented before it in both orders or in none. -/
theorem schema_eq_iff_of_perm (hperm : c.parameters.Perm d.parameters)
    (hnames : ((c.parameters.filter (·.inProperties)).map (·.name)).Nodup) :
    c.schema = d.schema ↔ ∀ p ∈ c.parameters, p.inProperties = true → p.Untyped →
      (c.ReachedFirst p ↔ d.ReachedFirst p) := by
  have hincluded := hperm.filter (·.inProperties)
  have hnames' := (hincluded.map (·.name)).nodup_iff.mp hnames
  constructor
  · intro heq p hp hin huntyped
    have hpc : p ∈ c.parameters.filter (·.inProperties) := List.mem_filter.mpr ⟨hp, hin⟩
    rw [← isSome_type_iff hnames hpc huntyped, heq,
      isSome_type_iff hnames' (hincluded.mem_iff.mp hpc) huntyped]
  · intro hreached
    have hproperties : c.properties = d.properties := by
      refine Properties.eq_of_factsAt c.ordered_properties d.ordered_properties c.full_properties
        d.full_properties fun path => ?_
      by_cases hpath : path = []
      · rw [hpath]
        rfl
      by_cases hown : ∃ p ∈ c.parameters.filter (·.inProperties), path = p.propertyPath
      · obtain ⟨p, hp, rfl⟩ := hown
        obtain ⟨hmem, hin⟩ := List.mem_filter.mp hp
        rw [factsAt_properties hnames hp, factsAt_properties hnames' (hincluded.mem_iff.mp hp)]
        by_cases huntyped : p.Untyped
        · simp only [hreached p hmem hin huntyped]
        · rw [Parameter.object_update_facts huntyped, ite_self, ite_self]
      · exact factsAt_properties_of_forall_ne hperm hpath fun p hp heq => hown ⟨p, hp, heq⟩
    rw [schema, schema, hproperties]

/-- An image without a type, documented after its tag, a skipped parameter and two servers. -/
def imageAfterTag : Catalog where
  parameters := [
    { name := "image.tag", kind := some .string, value := some (.string "1") },
    { name := "image", kind := some .nil, value := some .null, description := "Image" },
    { name := "image", skip := true },
    { name := "servers.a", kind := some .number, value := some (.number (.int 1)) },
    { name := "servers", kind := some .object, description := "Servers" }]

/-- The same with the servers before what is below them and the image still after its tag. -/
def serversFirst : Catalog where
  parameters := [
    { name := "servers", kind := some .object, description := "Servers" },
    { name := "image.tag", kind := some .string, value := some (.string "1") },
    { name := "servers.a", kind := some .number, value := some (.number (.int 1)) },
    { name := "image", skip := true },
    { name := "image", kind := some .nil, value := some .null, description := "Image" }]

/-- Servers may come before or after what is below them. -/
theorem schema_serversFirst :
    imageAfterTag.parameters.Perm serversFirst.parameters ∧
      ((imageAfterTag.parameters.filter (·.inProperties)).map (·.name)).Nodup ∧
      imageAfterTag.schema = serversFirst.schema := by
  have hperm : imageAfterTag.parameters.Perm serversFirst.parameters := by decide
  have hnames : ((imageAfterTag.parameters.filter (·.inProperties)).map (·.name)).Nodup := by
    decide
  exact ⟨hperm, hnames, (schema_eq_iff_of_perm hperm hnames).mpr (by decide)⟩

/-- An extra parameter, as comments alone give it, and a parameter below it. -/
def extraWithPart : Catalog where
  parameters := [
    { name := "a", description := "A", extra := true, value := some (.string "") },
    { name := "a.b", description := "B" }]

/-- The order can make a difference: the extra parameter is an object only if what is below it is
documented first. -/
theorem exists_perm_schema_ne :
    ∃ c d : Catalog, c.parameters.Perm d.parameters ∧
      ((c.parameters.filter (·.inProperties)).map (·.name)).Nodup ∧ c.schema ≠ d.schema := by
  refine ⟨extraWithPart, { parameters := extraWithPart.parameters.reverse },
    (List.reverse_perm _).symm, by decide, fun h => ?_⟩
  have htype := congrArg
    (fun schema => ((schema.property? ["a"]).bind (·.member? "type")).isSome) h
  exact absurd htype (by decide)

end Catalog

end ChartDocs
