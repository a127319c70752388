/-!
# Settings

The words that mark documentation in a values file, the words for modifiers, and the heading under
which a README lists parameters. Every setting has a default.
-/

namespace ChartDocs

/-- The words that start a tag in a comment. -/
structure TagWords where
  param : String := "@param"
  /-- The word that opens a section. -/
  group : String := "@section"
  skip : String := "@skip"
  extra : String := "@extra"
  descriptionStart : String := "@descriptionStart"
  descriptionEnd : String := "@descriptionEnd"
deriving DecidableEq, Repr, Inhabited

/-- The words for modifiers. -/
structure ModifierWords where
  array : String := "array"
  object : String := "object"
  string : String := "string"
  nullable : String := "nullable"
  default : String := "default"
deriving DecidableEq, Repr, Inhabited

/-- All settings. -/
structure Settings where
  /-- What a comment that holds a tag starts with. -/
  comment : String := "##"
  tags : TagWords := {}
  modifiers : ModifierWords := {}
  /-- The title of the README heading above the tables. -/
  title : String := "Parameters"
deriving DecidableEq, Repr, Inhabited

end ChartDocs
