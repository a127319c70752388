import ChartDocs.Yaml.Token

/-!
# Nodes of a document

A document is a tree of scalars, sequences, mappings and aliases, or nothing at all. The tree
keeps texts and tags as they are; aliases are not replaced.

An anchor gives its node a slot: the number of different names seen before, also when the name was
used earlier. An alias means the slot of the latest anchor of its name, and a slot means the last
node in the document that was given it.
-/

namespace ChartDocs.Yaml

/-- A node of a document. -/
inductive Node where
  | scalar (tag : Option Tag) (plain : Bool) (text : List Char)
  | sequence (tag : Option Tag) (items : List Node)
  | mapping (tag : Option Tag) (entries : List (Node × Node))
  | alias (slot : Nat)
deriving Repr, Inhabited

/-- The scalar that stands where a node is left out. -/
def Node.missing : Node :=
  .scalar none true []

/-- A document: its root, unless the text holds none, and what its aliases mean. -/
structure Document where
  root : Option Node
  /-- The anchored nodes with their slots and the places where they start. -/
  anchored : List (Nat × Nat × Node)
  /-- The number of scalars, aliases, and starts and ends of collections. -/
  size : Nat
deriving Repr, Inhabited

/-- What is carried along while nodes are read. -/
structure Builder where
  tokens : List Token
  handles : Handles := standardHandles
  /-- The anchor names with the slots of their latest anchors. -/
  names : List (String × Nat) := []
  anchored : List (Nat × Nat × Node) := []
  size : Nat := 0
deriving Repr

/-- A reader of tokens. -/
abbrev Build := StateT Builder (Except Fault)

namespace Build

/-- The next token. -/
def peek? : Build (Option Token) := do
  return (← get).tokens.head?

/-- Pass over a token. -/
def drop : Build Unit :=
  modify fun b => { b with tokens := b.tokens.drop 1 }

/-- Pass over the next token if it is the given one, and say so. -/
def dropIf (token : Token) : Build Bool := do
  if (← peek?) = some token then
    drop
    return true
  else
    return false

/-- Count parts of the document. -/
def count (n : Nat) : Build Unit :=
  modify fun b => { b with size := b.size + n }

/-- A node that is left out. -/
def missing : Build Node := do
  count 1
  return .missing

/-- Read an anchor, if one is next. -/
def anchor? : Build (Option String) := do
  match ← peek? with
  | some (.anchor name) =>
    drop
    return some name
  | _ => return none

/-- Read a tag, if one is next. -/
def tag? : Build (Option TagText) := do
  match ← peek? with
  | some (.tag text) =>
    drop
    return some text
  | _ => return none

/-- Give an anchor name a slot. -/
def openSlot (name : String) : Build Nat := do
  let b ← get
  let slot := b.names.length
  set { b with names := (name, slot) :: b.names.filter (·.1 ≠ name) }
  return slot

/-- Read an anchor and a tag in either order. -/
def properties : Build (Option String × Option TagText) := do
  match ← anchor? with
  | some name => return (some name, ← tag?)
  | none =>
    let tag ← tag?
    return (← anchor?, tag)

/-- Whether a node is left out before the next token. -/
def leftOut (ends : List Token) : Build Bool := do
  match ← peek? with
  | some token => return ends.contains token
  | none => return false

mutual

/-- Read a node. A block node may be a block collection; the value of a key may be a sequence whose
hyphens stand at the column of the key. -/
def node : (fuel : Nat) → (block indentless : Bool) → Build Node
  | 0, _, _ => throw .misplaced
  | fuel + 1, block, indentless => do
    match ← peek? with
    | some (.alias name) =>
      drop
      count 1
      match (← get).names.lookup name with
      | some slot => return .alias slot
      | none => throw .unknownAnchor
    | _ =>
      let (anchor, tagText) ← properties
      let tag ← match tagText with
        | some text =>
          match text.resolve? (← get).handles with
          | some tag => pure (some tag)
          | none => throw .tag
        | none => pure none
      let start := (← get).size
      let slot ← anchor.mapM openSlot
      let bare := anchor.isNone && tagText.isNone
      let result ← content fuel block indentless bare tag
      if let some slot := slot then
        modify fun b => { b with anchored := (slot, start, result) :: b.anchored }
      return result

/-- Read what follows the anchor and the tag of a node. -/
def content : (fuel : Nat) → (block indentless bare : Bool) → Option Tag → Build Node
  | 0, _, _, _, _ => throw .misplaced
  | fuel + 1, block, indentless, bare, tag => do
    match ← peek? with
    | some (.scalar plain text) =>
      drop
      count 1
      return .scalar tag plain text
    | some .flowSequence =>
      drop
      count 2
      return .sequence tag (← flowItems fuel true)
    | some .flowMapping =>
      drop
      count 2
      return .mapping tag (← flowEntries fuel true)
    | some .entry =>
      if indentless then
        count 2
        return .sequence tag (← indentlessItems fuel)
      else emptyOr bare tag
    | some .blockSequence =>
      if block then
        drop
        count 2
        return .sequence tag (← blockItems fuel)
      else emptyOr bare tag
    | some .blockMapping =>
      if block then
        drop
        count 2
        return .mapping tag (← blockEntries fuel)
      else emptyOr bare tag
    | _ => emptyOr bare tag

/-- A node may have no content if it has an anchor or a tag. -/
def emptyOr (bare : Bool) (tag : Option Tag) : Build Node := do
  if bare then throw .misplaced
  count 1
  return .scalar tag true []

/-- Read a node unless it is left out before one of the given tokens. -/
def nodeOr : (fuel : Nat) → (ends : List Token) → (block indentless : Bool) → Build Node
  | 0, _, _, _ => throw .misplaced
  | fuel + 1, ends, block, indentless => do
    if ← leftOut ends then missing else node fuel block indentless

/-- Read the entries of a block sequence and its end. -/
def blockItems : (fuel : Nat) → Build (List Node)
  | 0 => throw .misplaced
  | fuel + 1 => do
    if ← dropIf .entry then
      let item ← nodeOr fuel [.entry, .blockEnd] true false
      return item :: (← blockItems fuel)
    else if ← dropIf .blockEnd then return []
    else throw .misplaced

/-- Read the entries of a sequence that is not indented further than the key before it. -/
def indentlessItems : (fuel : Nat) → Build (List Node)
  | 0 => throw .misplaced
  | fuel + 1 => do
    if ← dropIf .entry then
      let item ← nodeOr fuel [.entry, .key, .value, .blockEnd] true false
      return item :: (← indentlessItems fuel)
    else return []

/-- Read the entries of a block mapping and its end. -/
def blockEntries : (fuel : Nat) → Build (List (Node × Node))
  | 0 => throw .misplaced
  | fuel + 1 => do
    if ← dropIf .key then
      let key ← nodeOr fuel [.key, .value, .blockEnd] true true
      let value ←
        if ← dropIf .value then nodeOr fuel [.key, .value, .blockEnd] true true else missing
      return (key, value) :: (← blockEntries fuel)
    else if ← dropIf .blockEnd then return []
    else throw .misplaced

/-- Read the entries between brackets and the closing bracket. -/
def flowItems : (fuel : Nat) → (first : Bool) → Build (List Node)
  | 0, _ => throw .misplaced
  | fuel + 1, first => do
    if ← dropIf .flowSequenceEnd then return []
    if !first then
      if !(← dropIf .comma) then throw .misplaced
      if ← dropIf .flowSequenceEnd then return []
    let item ← if ← dropIf .key then pair fuel else node fuel false false
    return item :: (← flowItems fuel false)

/-- Read a key and a value between brackets, which make a mapping of one entry.

A key that is left out takes the token before which it stands with it. -/
def pair : (fuel : Nat) → Build Node
  | 0 => throw .misplaced
  | fuel + 1 => do
    count 2
    let key ←
      if ← leftOut [.value, .comma, .flowSequenceEnd] then
        drop
        missing
      else node fuel false false
    let value ←
      if ← dropIf .value then nodeOr fuel [.comma, .flowSequenceEnd] false false else missing
    return .mapping none [(key, value)]

/-- Read the entries between braces and the closing brace. -/
def flowEntries : (fuel : Nat) → (first : Bool) → Build (List (Node × Node))
  | 0, _ => throw .misplaced
  | fuel + 1, first => do
    if ← dropIf .flowMappingEnd then return []
    if !first then
      if !(← dropIf .comma) then throw .misplaced
      if ← dropIf .flowMappingEnd then return []
    if ← dropIf .key then
      let key ← nodeOr fuel [.value, .comma, .flowMappingEnd] false false
      let value ←
        if ← dropIf .value then nodeOr fuel [.comma, .flowMappingEnd] false false else missing
      return (key, value) :: (← flowEntries fuel false)
    else
      let key ← node fuel false false
      let value ← missing
      return (key, value) :: (← flowEntries fuel false)

end

/-- Read the directives at the start of a document. -/
def directives : (fuel : Nat) → (versioned : Bool) → Handles → Build Handles
  | 0, _, _ => throw .misplaced
  | fuel + 1, versioned, handles => do
    match ← peek? with
    | some (.version major minor) =>
      if versioned || major ≠ 1 || (minor ≠ 1 && minor ≠ 2) then throw .directive
      drop
      directives fuel true handles
    | some (.handle name beginning) =>
      if (handles.lookup name).isSome then throw .directive
      drop
      directives fuel versioned ((name, beginning) :: handles)
    | _ => return handles

/-- Whether a token belongs to the frame of a document and not to its content. -/
def isFrame : Token → Bool
  | .version .. | .handle .. | .documentStart | .documentEnd => true
  | _ => false

/-- Read the root of a document that starts with directives or a separating line. -/
def framedRoot (fuel : Nat) : Build Node := do
  let declared ← directives fuel false []
  modify fun b => { b with handles := declared ++ standardHandles }
  if !(← dropIf .documentStart) then throw .misplaced
  match ← peek? with
  | some token => if isFrame token then missing else node fuel true false
  | none => missing

/-- Read the one document that the tokens hold. -/
def document : Build Document := do
  let fuel := 4 * (← get).tokens.length + 8
  let root ←
    match ← peek? with
    | none => pure none
    | some token =>
      if isFrame token && token ≠ .documentEnd then some <$> framedRoot fuel
      else some <$> node fuel true false
  let b ← get
  if b.tokens.all (· = .documentEnd) then return ⟨root, b.anchored, b.size⟩
  else throw .secondDocument

end Build

/-- The document that a text holds. -/
def document (text : List Char) : Except Fault Document := do
  let (document, _) ← Build.document.run { tokens := ← tokens text }
  return document

/-- What an alias means: the anchored node of its slot that starts last. -/
def Document.target? (d : Document) (slot : Nat) : Option Node :=
  let candidates := d.anchored.filter (·.1 = slot)
  let latest := candidates.foldl (fun n c => max n c.2.1) 0
  (candidates.find? (·.2.1 = latest)).map (·.2.2)

end ChartDocs.Yaml
