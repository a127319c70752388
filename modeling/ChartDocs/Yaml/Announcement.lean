import ChartDocs.Value.Basic

/-!
# Announcements of a value

A value is announced part by part in the order in which it is written: scalars, and the starts and
ends of collections. A tag is announced like a mapping of one entry, so the start of such a mapping
is held back until its first key is announced. A key that is a tag or a mapping of one entry itself
takes the place of the start that was held back, and then the end of the mapping has no start. A
tag directly in another tag cannot be announced at all. `writeFault?` is the first of these two
faults in the order of the announcements.
-/

namespace ChartDocs.Yaml

/-- Why a value cannot be written. -/
inductive WriteFault where
  /-- A tag directly in another tag. -/
  | nestedTags
  /-- The end of a mapping where none is wanted. -/
  | unannounced
deriving DecidableEq, Repr

namespace WriteFault

/-- The wording of a fault. -/
def message : WriteFault → String
  | nestedTags => "serializing nested enums in YAML is not supported yet"
  | unannounced => "expected SCALAR, SEQUENCE-START, MAPPING-START, or ALIAS"

end WriteFault

/-- A part of a value that is announced. -/
inductive Announcement where
  | scalar
  | sequence
  | sequenceEnd
  | mapping
  | mappingEnd
  /-- A tag directly in another tag. -/
  | nestedTag
deriving DecidableEq, Repr

/-- What is held back when a value is about to be announced. -/
inductive HeldBack where
  | nothing
  /-- The start of a mapping of one entry. -/
  | start
  /-- A tag, which goes with the value. -/
  | tag
deriving DecidableEq, Repr

/-- What has to be announced before a value that is no tag and no mapping of one entry. -/
def HeldBack.due : HeldBack → List Announcement
  | start => [.mapping]
  | _ => []

mutual

/-- The announcements of a value. -/
def announce (held : HeldBack) : Value → List Announcement
  | .tagged _ content =>
    if held = .tag then [.mapping, .nestedTag] else announce .tag content
  | .sequence items => held.due ++ .sequence :: announceItems items ++ [.sequenceEnd]
  | .mapping entries =>
    if entries.length = 1 ∧ held ≠ .tag then announceEntries .start entries ++ [.mappingEnd]
    else held.due ++ .mapping :: announceEntries .nothing entries ++ [.mappingEnd]
  | _ => held.due ++ [.scalar]

/-- The announcements of the items of a sequence. -/
def announceItems : List Value → List Announcement
  | [] => []
  | item :: rest => announce .nothing item ++ announceItems rest

/-- The announcements of the entries of a mapping; the first key may have something held back. -/
def announceEntries (held : HeldBack) : List (Value × Value) → List Announcement
  | [] => []
  | (key, value) :: rest =>
    announce held key ++ announce .nothing value ++ announceEntries .nothing rest

end

/-- An open collection and what it wants next. -/
inductive Frame where
  /-- A sequence: an item or its end. -/
  | item
  /-- A mapping: a key or its end. -/
  | key
  /-- A mapping: the value of the last key. -/
  | value
deriving DecidableEq, Repr

/-- The open collections, innermost first, after one more value is complete. -/
def Frame.advance : List Frame → List Frame
  | key :: outer => value :: outer
  | value :: outer => key :: outer
  | frames => frames

/-- The first fault of some announcements inside open collections. -/
def announcementFault? : List Frame → List Announcement → Option WriteFault
  | _, [] => none
  | _, .nestedTag :: _ => some .nestedTags
  | frames, .scalar :: rest => announcementFault? (Frame.advance frames) rest
  | frames, .sequence :: rest => announcementFault? (.item :: frames) rest
  | frames, .mapping :: rest => announcementFault? (.key :: frames) rest
  | .item :: outer, .sequenceEnd :: rest => announcementFault? (Frame.advance outer) rest
  | .key :: outer, .mappingEnd :: rest => announcementFault? (Frame.advance outer) rest
  | _, _ :: _ => some .unannounced

/-- Why a value cannot be written, if it cannot. -/
def writeFault? (v : Value) : Option WriteFault :=
  announcementFault? [] (announce .nothing v)

example : writeFault? (.mapping [(.tagged "a" .null, .tagged "a" (.tagged "b" .null))]) =
    some .nestedTags := by decide +kernel

example : writeFault? (.sequence [.mapping [(.tagged "a" .null, .null)],
    .tagged "a" (.tagged "b" .null)]) = some .unannounced := by decide +kernel

example : writeFault? (.tagged "a" (.mapping [(.tagged "b" .null, .null)])) = none := by
  decide +kernel

end ChartDocs.Yaml
