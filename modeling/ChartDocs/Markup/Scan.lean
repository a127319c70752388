import ChartDocs.Markup.KeyLine
import ChartDocs.Markup.TagLine
import ChartDocs.Catalog.Basic
import ChartDocs.Text.Lines

/-!
# Reading the catalog from annotated text

The lines of a values file are read one after the other. A key line names the tag that waits for a
key. A tag with a path of its own is attached to the current section at once; a tag without one
takes its path from the key line that follows directly, or else waits for the next key line. A new
tag without a path replaces one that still waits. Between the two description tags the comments of
a section are lines of its description.
-/

namespace ChartDocs.Markup

open Text

/-- The three kinds of parameter tags. -/
inductive TagKind where
  | param
  | skip
  | extra
deriving DecidableEq, Repr

namespace TagKind

/-- The word of a kind of tag. -/
def word (words : TagWords) : TagKind → String
  | param => words.param
  | skip => words.skip
  | extra => words.extra

/-- The parameter that a tag documents; the name is empty if the tag gives no path. -/
def build (kind : TagKind) (tag : TagLine) : Parameter :=
  let p : Parameter :=
    { name := String.ofList (tag.path.getD []), description := String.ofList tag.description }
  let modifiers := tag.modifiers.map String.ofList
  match kind with
  | param => p.withModifiers modifiers
  | skip => p.skipped
  | extra => (p.withModifiers modifiers).asExtra

end TagKind

/-- What is known after some lines. -/
structure State where
  catalog : Catalog := {}
  /-- The position of the section that takes parameters. -/
  current : Option Nat := none
  /-- Whether comments are lines of a description. -/
  capturing : Bool := false
  trail : Trail := []
  /-- A parameter that waits for its name. -/
  pending : Option Parameter := none
deriving DecidableEq, Repr

namespace State

/-- Attach a parameter to the current section. -/
def attach (s : State) (p : Parameter) : State :=
  { s with catalog := s.catalog.attach p s.current }

/-- Give the waiting parameter its name and attach it. -/
def resolve (s : State) (path : List Char) : State :=
  match s.pending with
  | some p => { s with pending := none }.attach { p with name := String.ofList path }
  | none => s

/-- Add a line to the description of the current section. -/
def describe (s : State) (text : List Char) : State :=
  match s.current with
  | some owner => { s with catalog := s.catalog.addLine owner (String.ofList text) }
  | none => s

/-- Take in a key line: it opens its key and names the waiting parameter. -/
def onKeyLine (settings : Settings) (line : List Char) (s : State) : State :=
  match KeyLine.ofLine? settings.comment.toList line with
  | some key =>
    let trail := s.trail.enter key
    { s with trail }.resolve trail.path
  | none => s

/-- Take in a tag line of a kind; the line after it may be the key line of the tag. -/
def onTag (settings : Settings) (kind : TagKind) (line : List Char) (next : Option (List Char))
    (s : State) : State :=
  match TagLine.ofLine? settings.comment.toList (kind.word settings.tags).toList line with
  | some tag =>
    let p := kind.build tag
    if tag.path.isSome then s.attach p
    else
      let s := { s with pending := some p }
      match next.bind (KeyLine.ofLine? settings.comment.toList) with
      | some key => s.resolve (s.trail.pathTo key)
      | none => s
  | none => s

/-- Take in a section line: the section becomes the current one, and no description is open. -/
def onSection (settings : Settings) (line : List Char) (s : State) : State :=
  match sectionName? settings line with
  | some name =>
    { s with
      catalog := s.catalog.addSection { name := String.ofList name }
      current := some s.catalog.sections.length
      capturing := false }
  | none => s

/-- Close the open description at its end. -/
def onDescriptionEnd (settings : Settings) (line : List Char) (s : State) : State :=
  if s.current.isSome && s.capturing && endsDescription settings line then
    { s with capturing := false }
  else s

/-- Take in a line of the open description. -/
def onDescriptionLine (settings : Settings) (line : List Char) (s : State) : State :=
  if s.capturing then
    match descriptionLine? settings line with
    | some text => s.describe text
    | none => s
  else s

/-- Open a description of the current section; the rest of the line is its first line. -/
def onDescriptionStart (settings : Settings) (line : List Char) (s : State) : State :=
  if !s.capturing && s.current.isSome then
    match descriptionStart? settings line with
    | some text =>
      let s := { s with capturing := true }
      if text = [] then s else s.describe text
    | none => s
  else s

/-- Take in one line, with the line after it. -/
def step (settings : Settings) (line : List Char) (next : Option (List Char)) (s : State) : State :=
  s |>.onKeyLine settings line
    |>.onTag settings .param line next
    |>.onSection settings line
    |>.onDescriptionEnd settings line
    |>.onDescriptionLine settings line
    |>.onDescriptionStart settings line
    |>.onTag settings .skip line next
    |>.onTag settings .extra line next

/-- Take in lines one after the other. -/
def run (settings : Settings) : List (List Char) → State → State
  | [], s => s
  | line :: rest, s => run settings rest (s.step settings line rest.head?)

end State

end ChartDocs.Markup

namespace ChartDocs

/-- The catalog that the annotations of a text describe. -/
def Catalog.ofText (settings : Settings) (text : String) : Catalog :=
  (Markup.State.run settings (Text.lines text.toList) {}).catalog

example : (Catalog.ofText {} "## @section S\n## @param [array] D\na:\n  b: 1\n").parameters =
    [{ name := "a", description := "D", modifiers := ["array"], sectionName := some "S" }] := by
  decide +kernel

end ChartDocs
