import ChartDocs.Schema
import Mathlib.Data.List.Basic

/-!
# Documenting a parameter in a tree of properties

Seen through the facts at each path, documenting a parameter does three things: the facts at its own
path are updated, the paths above it exist afterwards and keep their facts if they had some, and all
other paths are as before. The tree keeps its properties in the order of their names, so that no
name occurs twice.
-/

namespace ChartDocs.Schema

mutual

/-- The properties below a property are in order, at every depth. -/
def Node.Ordered : Node → Prop
  | .node _ properties =>
    match properties with
    | some properties => Properties.Ordered properties
    | none => True

/-- Properties stand in the order of their names, at every depth. -/
def Properties.Ordered : List (String × Node) → Prop
  | [] => True
  | (name, node) :: rest =>
    (∀ entry ∈ rest, name < entry.1) ∧ node.Ordered ∧ Properties.Ordered rest

end

/-- The properties below a property that may not exist. -/
def Node.children (found : Option Node) : Properties :=
  (found.bind Node.properties).getD []

/-- The facts at a path. -/
def Properties.factsAt (path : List String) (properties : Properties) : Option Facts :=
  (properties.find? path).map Node.facts

/-- The properties below an ordered property are in order. -/
theorem Node.ordered_children {found : Option Node} (h : ∀ node, found = some node → node.Ordered) :
    Properties.Ordered (children found) := by
  cases found with
  | none => exact trivial
  | some node =>
    obtain ⟨facts, properties⟩ := node
    cases properties with
    | none => exact trivial
    | some properties =>
      have hnode := h _ rfl
      rwa [Node.Ordered] at hnode

/-- A property is ordered if the properties below it are. -/
theorem Node.ordered_of_children {node : Node} (h : Properties.Ordered (children (some node))) :
    node.Ordered := by
  obtain ⟨facts, properties⟩ := node
  cases properties with
  | none => exact trivial
  | some properties => exact h

/-- Documenting a property does not change what is below it. -/
@[simp] theorem Node.children_document (new : Facts) (found : Option Node) :
    children (some (document new found)) = children found := by
  cases found with
  | none => rfl
  | some node =>
    obtain ⟨facts, properties⟩ := node
    rfl

/-- A change below a property changes what is below it. -/
@[simp] theorem Node.children_descend (change : Properties → Properties) (found : Option Node) :
    children (some (descend change found)) = change (children found) := by
  cases found <;> rfl

/-- Documenting a property adds facts to those that it has. -/
theorem Node.map_facts_document (new : Facts) (found : Option Node) :
    (some (document new found)).map facts =
      some ((found.map facts).elim new (·.update new)) := by
  cases found with
  | none => rfl
  | some node =>
    obtain ⟨old, properties⟩ := node
    rfl

namespace Properties

variable {properties : Properties} {name other : String} {change : Option Node → Node}

/-- A name before all others is not found. -/
theorem lookup_eq_none_of_lt (h : ∀ entry ∈ properties, name < entry.1) :
    properties.lookup name = none := by
  induction properties with
  | nil => rfl
  | cons entry rest ih =>
    have hne : name ≠ entry.1 := by
      intro heq
      have hlt := h entry List.mem_cons_self
      rw [heq] at hlt
      exact String.lt_irrefl _ hlt
    rw [List.lookup_cons, beq_false_of_ne hne]
    exact ih fun e he => h e (List.mem_cons_of_mem entry he)

/-- The property that is changed is found with its change. -/
theorem lookup_alter_self (h : Ordered properties) :
    (alter name change properties).lookup name = some (change (properties.lookup name)) := by
  induction properties with
  | nil => simp [alter]
  | cons entry rest ih =>
    obtain ⟨first, node⟩ := entry
    obtain ⟨hfirst, -, hrest⟩ := h
    rw [alter]
    split
    · next heq => simp [heq]
    · next hne =>
      rw [List.lookup_cons (k := first), beq_false_of_ne hne]
      split
      · next hlt =>
        have habsent : rest.lookup name = none :=
          lookup_eq_none_of_lt fun e he => String.lt_trans hlt (hfirst e he)
        simp [habsent]
      · rw [List.lookup_cons, beq_false_of_ne hne]
        exact ih hrest

/-- Other properties are found as before. -/
theorem lookup_alter_of_ne (hne : other ≠ name) :
    (alter name change properties).lookup other = properties.lookup other := by
  induction properties with
  | nil => simp [alter, List.lookup_cons, beq_false_of_ne hne]
  | cons entry rest ih =>
    obtain ⟨first, node⟩ := entry
    rw [alter]
    split
    · next heq => rw [List.lookup_cons, List.lookup_cons, ← heq, beq_false_of_ne hne]
    · split
      · rw [List.lookup_cons, beq_false_of_ne hne]
      · rw [List.lookup_cons, List.lookup_cons, ih]

/-- Only one name can be new. -/
theorem eq_or_mem_of_mem_alter {entry : String × Node} (h : entry ∈ alter name change properties) :
    entry.1 = name ∨ entry ∈ properties := by
  induction properties with
  | nil =>
    rw [alter] at h
    exact Or.inl (congrArg Prod.fst (List.mem_singleton.mp h))
  | cons first rest ih =>
    obtain ⟨firstName, node⟩ := first
    rw [alter] at h
    split at h
    · rcases List.mem_cons.mp h with rfl | h
      · exact Or.inl rfl
      · exact Or.inr (List.mem_cons_of_mem _ h)
    · split at h
      · rcases List.mem_cons.mp h with rfl | h
        · exact Or.inl rfl
        · exact Or.inr h
      · rcases List.mem_cons.mp h with rfl | h
        · exact Or.inr List.mem_cons_self
        · exact (ih h).imp_right (List.mem_cons_of_mem _)

/-- A changed property stays in order. -/
theorem ordered_alter (h : Ordered properties)
    (hchange : (change (properties.lookup name)).Ordered) :
    Ordered (alter name change properties) := by
  induction properties with
  | nil => exact ⟨fun _ he => absurd he List.not_mem_nil, hchange, trivial⟩
  | cons entry rest ih =>
    obtain ⟨first, node⟩ := entry
    have hall := h
    obtain ⟨hfirst, hnode, hrest⟩ := h
    rw [alter]
    split
    · next heq =>
      rw [heq, List.lookup_cons_self] at hchange
      exact ⟨by rwa [heq], hchange, hrest⟩
    · next hne =>
      rw [List.lookup_cons, beq_false_of_ne hne] at hchange
      split
      · next hlt =>
        have habsent : rest.lookup name = none :=
          lookup_eq_none_of_lt fun e he => String.lt_trans hlt (hfirst e he)
        rw [habsent] at hchange
        refine ⟨fun e he => ?_, hchange, hall⟩
        rcases List.mem_cons.mp he with rfl | he
        · exact hlt
        · exact String.lt_trans hlt (hfirst e he)
      · next hnot =>
        have hlt : first < name := by
          by_contra hge
          exact hne (String.le_antisymm (String.not_lt.mp hge) (String.not_lt.mp hnot))
        refine ⟨fun e he => ?_, hnode, ih hrest hchange⟩
        rcases eq_or_mem_of_mem_alter he with heq | he
        · rwa [heq]
        · exact hfirst e he

/-- A property that is found among ordered ones is ordered. -/
theorem ordered_of_lookup (h : Ordered properties) {node : Node}
    (hfound : properties.lookup name = some node) : node.Ordered := by
  induction properties with
  | nil => simp at hfound
  | cons entry rest ih =>
    obtain ⟨first, other⟩ := entry
    obtain ⟨-, hother, hrest⟩ := h
    rw [List.lookup_cons] at hfound
    split at hfound
    · exact Option.some.inj hfound ▸ hother
    · exact ih hrest hfound

/-- A longer path is documented below the property of its first name. -/
theorem insert_cons_cons (new : Facts) (next : String) (rest : List String) :
    insert new (name :: next :: rest) properties =
      alter name (Node.descend (insert new (next :: rest))) properties := by
  rw [insert]
  simp

/-- Documenting a parameter keeps the tree in order. -/
theorem ordered_insert (h : Ordered properties) (new : Facts) (path : List String) :
    Ordered (insert new path properties) := by
  induction path generalizing properties with
  | nil => exact h
  | cons name rest ih =>
    have hchildren : Ordered (Node.children (properties.lookup name)) :=
      Node.ordered_children fun _ hfound => ordered_of_lookup h hfound
    cases rest with
    | nil =>
      refine ordered_alter h (Node.ordered_of_children ?_)
      rwa [Node.children_document]
    | cons next rest =>
      rw [insert_cons_cons]
      refine ordered_alter h (Node.ordered_of_children ?_)
      rw [Node.children_descend]
      exact ih hchildren

/-- Without properties there are no facts. -/
theorem factsAt_nil (path : List String) : factsAt path [] = none := by
  cases path with
  | nil => rfl
  | cons name rest => cases rest <;> rfl

/-- The facts at a path of one name are those of the property with the name. -/
theorem factsAt_singleton : factsAt [name] properties = (properties.lookup name).map Node.facts :=
  rfl

/-- The facts at a longer path are found below its first name. -/
theorem factsAt_cons_cons (next : String) (rest : List String) :
    factsAt (name :: next :: rest) properties =
      factsAt (next :: rest) (Node.children (properties.lookup name)) := by
  rw [factsAt, find?]
  · cases properties.lookup name with
    | none => exact (factsAt_nil _).symm
    | some node => rfl
  · simp

-- Path and query are followed together, so the induction is on the path with the properties and
-- the query free; where their first names differ the two never meet again.
/-- What documenting a parameter does to the facts at every path. -/
theorem factsAt_insert (h : Ordered properties) (new : Facts) {path query : List String}
    (hpath : path ≠ []) (hquery : query ≠ []) :
    factsAt query (insert new path properties) =
      if query = path then some ((factsAt query properties).elim new (·.update new))
      else if query <+: path then some ((factsAt query properties).getD Node.object.facts)
      else factsAt query properties := by
  induction path generalizing properties query with
  | nil => exact absurd rfl hpath
  | cons name rest ih =>
    obtain ⟨first, others, rfl⟩ := List.exists_cons_of_ne_nil hquery
    by_cases hname : first = name
    · subst hname
      cases rest with
      | nil =>
        -- The path ends here, the query here or further down.
        rw [insert]
        cases others with
        | nil =>
          rw [factsAt_singleton, factsAt_singleton, lookup_alter_self h, if_pos rfl,
            Node.map_facts_document]
        | cons next others =>
          rw [factsAt_cons_cons, factsAt_cons_cons, lookup_alter_self h, Node.children_document]
          simp
      | cons next rest =>
        rw [insert_cons_cons]
        cases others with
        | nil =>
          -- The query ends above the path: the node there keeps its facts or comes into being.
          rw [factsAt_singleton, factsAt_singleton, lookup_alter_self h]
          cases properties.lookup first <;> simp [Node.descend, Node.facts]
        | cons second others =>
          have hchildren : Ordered (Node.children (properties.lookup first)) :=
            Node.ordered_children fun _ hfound => ordered_of_lookup h hfound
          rw [factsAt_cons_cons, factsAt_cons_cons, lookup_alter_self h, Node.children_descend,
            ih hchildren (by simp) (by simp)]
          simp
    · have hquery : first :: others ≠ name :: rest :=
        fun heq => hname (List.cons_eq_cons.mp heq).1
      have habove : ¬first :: others <+: name :: rest :=
        fun hp => hname (List.cons_prefix_cons.mp hp).1
      have hlookup : (insert new (name :: rest) properties).lookup first =
          properties.lookup first := by
        cases rest with
        | nil => exact lookup_alter_of_ne hname
        | cons next rest => rw [insert_cons_cons, lookup_alter_of_ne hname]
      rw [if_neg hquery, if_neg habove]
      cases others with
      | nil => rw [factsAt_singleton, factsAt_singleton, hlookup]
      | cons second others => rw [factsAt_cons_cons, factsAt_cons_cons, hlookup]

end Properties

end ChartDocs.Schema
