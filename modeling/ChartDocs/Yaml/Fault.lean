/-!
# Reasons why a text is no document of values

Each constructor is one cause. No cause carries a position: callers only learn that a text could
not be read, and why.
-/

namespace ChartDocs.Yaml

/-- Why a text could not be read as one document of values. -/
inductive Fault where
  /-- A control character, or a character that can start no token. -/
  | character
  /-- A directive that is unknown, malformed, repeated or of another version. -/
  | directive
  /-- A tab where indentation is counted. -/
  | indentation
  /-- An indicator where none may stand. -/
  | indicator
  /-- A quoted text without its closing quote. -/
  | unclosedQuote
  /-- An escape that denotes no character. -/
  | escape
  /-- A malformed header of a block text. -/
  | blockHeader
  /-- A malformed anchor or alias. -/
  | anchor
  /-- A malformed tag, or a tag whose handle is not declared. -/
  | tag
  /-- A key that needs a colon on its line and has none. -/
  | missingColon
  /-- A token that does not fit the structure. -/
  | misplaced
  /-- An alias without an anchor of its name before it. -/
  | unknownAnchor
  /-- Text after the end of the document. -/
  | secondDocument
  /-- Collections nested too deeply. -/
  | tooDeep
  /-- Too many uses of aliases. -/
  | repetition
  /-- Two equal keys in one mapping. -/
  | duplicateKey
  /-- A scalar that its tag or its size does not allow. -/
  | scalar
  /-- A node of a shape that is not expected at its place. -/
  | shape
  /-- Bytes that are no text. -/
  | encoding
deriving DecidableEq, Repr, Inhabited

end ChartDocs.Yaml
