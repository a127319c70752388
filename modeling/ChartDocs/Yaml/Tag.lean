import ChartDocs.Yaml.QuotedText
import ChartDocs.Text.Split

/-!
# Tags

A tag is written verbatim between `!<` and `>`, or as a handle and a suffix; a handle stands for
the beginning that a directive declares for it. What the whole text says is sorted by its meaning:
tags that start with an exclamation mark are local and name a tagged value, four global tags name
a type of scalar, and every other global tag only says that a scalar is text. A lone exclamation
mark is a local tag too.
-/

namespace ChartDocs.Yaml

open Text

/-- What a tag says about the node that carries it. -/
inductive Tag where
  /-- A local tag, without the exclamation mark. -/
  | named (name : String)
  | bool
  | int
  | float
  | null
  /-- A global tag that names no type of scalar. -/
  | foreign
  /-- A local tag whose escapes spell no text. -/
  | unreadable
deriving DecidableEq, Repr

/-- A local tag without its exclamation mark; one that has nothing else keeps it. -/
def bareTag : List Char → List Char
  | '!' :: c :: rest => c :: rest
  | text => text

/-- A part of a tag, character by character; an escape may spell no character. -/
abbrev Spelling := List (Option Char)

namespace Spelling

/-- The text that is spelled, if every escape spells a character. -/
def text? (s : Spelling) : Option (List Char) :=
  s.mapM id

/-- What comes before the first null character; nothing after it counts. -/
def upToNull (s : Spelling) : Spelling :=
  s.takeWhile (· ≠ some '\x00')

end Spelling

/-- The meaning of the whole spelling of a tag. -/
def Tag.ofSpelling (s : Spelling) : Tag :=
  if s.head? = some (some '!') then
    match s.text? with
    | some text => .named (String.ofList (bareTag (bareTag text)))
    | none => .unreadable
  else match s.text?.bind (dropLeading? "tag:yaml.org,2002:".toList) with
    | some ['b', 'o', 'o', 'l'] => .bool
    | some ['i', 'n', 't'] => .int
    | some ['f', 'l', 'o', 'a', 't'] => .float
    | some ['n', 'u', 'l', 'l'] => .null
    | _ => .foreign

/-- A tag as it is written: a handle, which may be empty, and the rest. -/
structure TagText where
  handle : List Char
  suffix : Spelling
deriving DecidableEq, Repr

/-- Declared handles with the beginnings that they stand for. -/
abbrev Handles := List (List Char × Spelling)

/-- The handles that need no declaration. -/
def standardHandles : Handles :=
  [(['!'], [some '!']), (['!', '!'], "tag:yaml.org,2002:".toList.map some)]

/-- The meaning of a written tag, if its handle is declared. -/
def TagText.resolve? (handles : Handles) (t : TagText) : Option Tag :=
  if t.handle = [] then some (.ofSpelling t.suffix)
  else (handles.lookup t.handle).map fun beginning => .ofSpelling (beginning ++ t.suffix)

/-- Whether a character may occur unescaped in the suffix of a tag. -/
def isTagChar (verbatim : Bool) (c : Char) : Bool :=
  isNameChar c || ";/?:@&=+$.!~*'()".toList.contains c ||
    (verbatim && (c = ',' || c = '[' || c = ']'))

/-- The octet that a percent sign and two hexadecimal digits denote. -/
def percentOctet? : List Char → Option Nat
  | '%' :: a :: b :: _ => Text.hexNumber? 0 [a, b]
  | _ => none

/-- How many octets a character has that starts with the given octet. -/
def octetCount? (octet : Nat) : Option Nat :=
  if octet < 0x80 then some 1
  else if octet / 0x20 = 0x6 then some 2
  else if octet / 0x10 = 0xE then some 3
  else if octet / 0x8 = 0x1E then some 4
  else none

/-- Read the octets of one escaped character after the first. -/
def laterOctets : Nat → Cursor → Except Fault (List Nat × Cursor)
  | 0, c => .ok ([], c)
  | count + 1, c =>
    match percentOctet? c.rest with
    | some octet => do
      if octet / 0x40 ≠ 0x2 then .error .tag
      let (octets, c) ← laterOctets count (c.skip 3)
      return (octet :: octets, c)
    | none => .error .tag

/-- Read one escaped character. -/
def escapedChar (c : Cursor) : Except Fault (Option Char × Cursor) :=
  match percentOctet? c.rest with
  | some octet =>
    match octetCount? octet with
    | some count => do
      let (octets, c) ← laterOctets (count - 1) (c.skip 3)
      return (charAt? ((octet :: octets).map Nat.toUInt8), c)
    | none => .error .tag
  | none => .error .tag

/-- Read the characters of a suffix; those read before come last first. -/
def tagChars (verbatim : Bool) :
    (fuel : Nat) → Spelling → Cursor → Except Fault (Spelling × Cursor)
  | 0, found, c => .ok (found.reverse, c)
  | fuel + 1, found, c =>
    match c.next? with
    | some '%' => do
      let (d?, c) ← escapedChar c
      tagChars verbatim fuel (d? :: found) c
    | some d =>
      if isTagChar verbatim d then tagChars verbatim fuel (some d :: found) c.skip
      else .ok (found.reverse, c)
    | none => .ok (found.reverse, c)

/-- Read an exclamation mark, name characters, and one more exclamation mark if there is one. -/
def tagHandle (c : Cursor) : Except Fault (List Char × Cursor) :=
  match c.next? with
  | some '!' =>
    let name := (c.skip.rest).takeWhile isNameChar
    let c := c.skip (name.length + 1)
    if c.next? = some '!' then .ok ('!' :: name ++ ['!'], c.skip) else .ok ('!' :: name, c)
  | _ => .error .tag

/-- A tag with the handle of local tags; one with nothing after it is a lone exclamation mark. -/
def TagText.primary (suffix : Spelling) : TagText :=
  if suffix = [] then { handle := [], suffix := [some '!'] } else { handle := ['!'], suffix }

/-- Read a written tag. -/
def tagText (inFlow : Bool) (c : Cursor) : Except Fault (TagText × Cursor) := do
  let (t, c) ←
    if c.ahead? 1 = some '<' then do
      let (suffix, c) ← tagChars true c.left [] (c.skip 2)
      if suffix = [] || c.next? ≠ some '>' then .error .tag
      pure (({ handle := [], suffix := suffix.upToNull } : TagText), c.skip)
    else do
      let (handle, c) ← tagHandle c
      if 1 < handle.length && handle.getLast? = some '!' then do
        let (suffix, c) ← tagChars false c.left [] c
        if suffix = [] then .error .tag
        pure (({ handle, suffix := suffix.upToNull } : TagText), c)
      else do
        let (rest, c) ← tagChars false c.left [] c
        pure (.primary ((handle.drop 1).map some ++ rest.upToNull), c)
  if endsWord c.next? || (inFlow && c.next? = some ',') then return (t, c) else .error .tag

/-- Read the name of an anchor or an alias after its indicator. -/
def anchorName (c : Cursor) : Except Fault (String × Cursor) :=
  let name := c.skip.rest.takeWhile isNameChar
  let c := c.skip (name.length + 1)
  if name ≠ [] && (endsWord c.next? || c.next?.any "?:,]\x7d%@\x60".toList.contains) then
    .ok (String.ofList name, c)
  else .error .anchor

end ChartDocs.Yaml
