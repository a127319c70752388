import ChartDocs.Path
import ChartDocs.Settings.Basic
import ChartDocs.Text.Blank
import ChartDocs.Text.Word

/-!
# Tag lines

A tag line is a comment that starts with one of the tag words. After the word of a parameter stand,
each optional and in this order, a path in parentheses or a bare label, modifiers in brackets, and
a description. The label is for readers only.

Blanks may stand before the comment and before the word. Where the comment or the word itself
starts with blanks, as many of the blanks as possible are passed over first.
-/

namespace ChartDocs.Markup

open Text ChartDocs.Path

/-- What a parameter tag says about its parameter. -/
structure TagLine where
  /-- The path in parentheses, unless it is blank. -/
  path : Option (List Char)
  /-- The pieces between the commas of the brackets. -/
  modifiers : List (List Char)
  description : List Char
deriving DecidableEq, Repr

/-- The texts that are left when some of the leading blanks are passed over, the shortest first. -/
def blankTails : List Char → List (List Char)
  | [] => [[]]
  | c :: rest => if isBlank c then blankTails rest ++ [c :: rest] else [c :: rest]

/-- What follows a word after blanks, for the first way to pass over blanks that is accepted. -/
def afterWord? {α : Type} (word : List Char) (accept : List Char → Option α)
    (text : List Char) : Option α :=
  (blankTails text).findSome? fun tail => (dropLeading? word tail).bind accept

/-- Whether a tag word is complete before a text: a word that ends in a letter, a number or an
underscore must end at a word boundary. -/
def completes (word rest : List Char) : Bool :=
  match word.getLast? with
  | some last => if isAlphanumeric last || last = '_' then boundaryAfter last rest else true
  | none => true

/-- What follows the start of a comment. -/
def afterComment? (comment line : List Char) : Option (List Char) :=
  afterWord? comment some line

/-- What follows a tag word in a comment. -/
def afterTag? (comment word line : List Char) : Option (List Char) :=
  afterWord? comment
    (afterWord? word fun rest => if completes word rest then some rest else none) line

/-- The text after a tag word, without blanks around it. -/
def tagText? (comment word line : List Char) : Option (List Char) :=
  (afterTag? comment word line).map trim

/-- Whether a character can belong to a label. -/
def isLabelChar (c : Char) : Bool :=
  !isBlank c && c ≠ '[' && c ≠ '('

/-- What is between parentheses after blanks, and what follows. -/
def takeParentheses? (text : List Char) : Option (List Char × List Char) :=
  match trimStart text with
  | '(' :: rest => cutAt? ')' rest
  | _ => none

/-- The text after a label, if there is one; a label stands after a blank. -/
def dropLabel : List Char → List Char
  | [] => []
  | c :: rest => if isBlank c then (trimStart rest).dropWhile isLabelChar else c :: rest

/-- The pieces between brackets after blanks, and what follows; without brackets there are none. -/
def takeModifiers (text : List Char) : List (List Char) × List Char :=
  match trimStart text with
  | '[' :: rest =>
    match cutAt? ']' rest with
    | some (inner, after) => (splitAt ',' (inner.dropWhile (· = '[')), after)
    | none => ([], '[' :: rest)
  | rest => ([], rest)

namespace TagLine

/-- A path, unless it is blank. -/
def pathOf (text : List Char) : Option (List Char) :=
  if trim text = [] then none else some (trim text)

/-- What a tag says after its word. -/
def ofRest (rest : List Char) : TagLine :=
  let (path, rest) := match takeParentheses? rest with
    | some (path, rest) => (pathOf path, rest)
    | none => (none, dropLabel rest)
  let (modifiers, rest) := takeModifiers rest
  { path, modifiers, description := trim rest }

/-- The tag of a line that starts with a tag word. -/
def ofLine? (comment word line : List Char) : Option TagLine :=
  (afterTag? comment word line).map ofRest

end TagLine

/-- A section line names the section. -/
def sectionName? (settings : Settings) (line : List Char) : Option (List Char) :=
  tagText? settings.comment.toList settings.tags.group.toList line

/-- The start of a description may hold its first line. -/
def descriptionStart? (settings : Settings) (line : List Char) : Option (List Char) :=
  tagText? settings.comment.toList settings.tags.descriptionStart.toList line

/-- The text of a comment, as a line of a description. -/
def descriptionLine? (settings : Settings) (line : List Char) : Option (List Char) :=
  (afterComment? settings.comment.toList line).map trim

/-- Whether a line ends a description. -/
def endsDescription (settings : Settings) (line : List Char) : Bool :=
  (afterTag? settings.comment.toList settings.tags.descriptionEnd.toList line).isSome

example : TagLine.ofLine? "##".toList "@param".toList " ## @param (a.b) [array, x] Text ".toList =
    some ⟨some "a.b".toList, ["array".toList, " x".toList], "Text".toList⟩ := by decide +kernel

example : TagLine.ofLine? "##".toList "@param".toList "## @param a.b[0] Text".toList =
    some ⟨none, ["0".toList], "Text".toList⟩ := by decide +kernel

example : TagLine.ofLine? "##".toList "@param".toList "## @params x".toList = none := by
  decide +kernel

end ChartDocs.Markup
