import ChartDocs.Text.Hexadecimal
import ChartDocs.Yaml.Announcement
import ChartDocs.Yaml.Scalar
import ChartDocs.Yaml.Cursor

/-!
# Writing a value as YAML

Collections are written as blocks, one entry a line, two columns further in than the collection
around them; a sequence that is the value of a key stays at the column of the key. Empty
collections are written as brackets or braces. A text with line feeds is written as a literal
block; any other text is plain if it reads back as the same text, then in single quotes if that is
possible, and otherwise in double quotes with escapes.

A value is written only if all its parts can be announced.
-/

namespace ChartDocs.Yaml

open Text

/-- How a scalar is written. -/
inductive Style where
  | plain
  | single
  | double
  | literal
deriving DecidableEq, Repr

/-- Whether a character can be written as it is. -/
def isPrintable (c : Char) : Bool :=
  let n := c.toNat
  n = 0xA || (0x20 ≤ n && n ≤ 0x7E) || (0xA0 ≤ n && n ≤ 0xD7FF) ||
    (0xE000 ≤ n && n ≤ 0xFFFD && n ≠ 0xFEFF) || 0x10000 ≤ n

/-- Whether two neighbouring characters satisfy two tests. -/
def hasNeighbours (left right : Char → Bool) : List Char → Bool
  | a :: b :: rest => (left a && right b) || hasNeighbours left right (b :: rest)
  | _ => false

/-- Whether a character or the end of a text does not continue a word. -/
def wordEnds (c : Option Char) : Bool :=
  endsWord c || c = some '\x00'

/-- Whether the first character of a text would be taken for an indicator. -/
def startsIndicator : List Char → Bool
  | [] => false
  | c :: rest =>
    "#,[]\x7b\x7d&*!|>'\"%@\x60".toList.contains c ||
      ((c = '?' || c = ':' || c = '-') && wordEnds rest.head?)

/-- Whether a colon or a number sign after the first character would be taken for an indicator. -/
def hasInnerIndicator : List Char → Bool
  | a :: b :: rest =>
    (b = ':' && wordEnds rest.head?) || (b = '#' && wordEnds (some a)) ||
      hasInnerIndicator (b :: rest)
  | _ => false

/-- Whether a text holds a character that only an escape can write, or a space before a break. -/
def needsEscapes (text : List Char) : Bool :=
  text.any (!isPrintable ·) || hasNeighbours (· = ' ') isBreak text

/-- Whether a text can be written plain. -/
def allowsPlain (text : List Char) : Bool :=
  let ends (c : Option Char) : Bool := c.any fun c => c = ' ' || isBreak c
  !(needsEscapes text || text.any isBreak || ends text.head? || ends text.getLast? ||
    startsWith "---".toList text || startsWith "...".toList text ||
    startsIndicator text || hasInnerIndicator text)

/-- Whether a text can be written in single quotes. -/
def allowsSingle (text : List Char) : Bool :=
  !(needsEscapes text || hasNeighbours isBreak (· = ' ') text)

/-- Whether a text can be written as a literal block. -/
def allowsLiteral (text : List Char) : Bool :=
  !(text = [] || needsEscapes text || text.getLast? = some ' ')

/-- Whether a plain text would be read as a string. -/
def readsAsString (text : List Char) : Bool :=
  !hasLeadingZero text && (plainValue? text).any Value.isString

/-- The style that a string asks for. -/
def wantedStyle (text : List Char) : Style :=
  if text.contains '\n' then .literal else if readsAsString text then .plain else .single

/-- The style that a scalar gets; a literal block cannot be a key on one line. -/
def style (wanted : Style) (asKey : Bool) (text : List Char) : Style :=
  let quoted := if allowsSingle text then .single else .double
  match wanted with
  | .plain => if allowsPlain text then .plain else quoted
  | .single => quoted
  | .double => .double
  | .literal => if allowsLiteral text && !asKey then .literal else .double

/-- So many spaces. -/
def spaces (n : Nat) : List Char :=
  List.replicate n ' '

/-- The characters of a single quoted text; a line after a break is indented. -/
def singleChars (column : Nat) : (broken : Bool) → List Char → List Char
  | broken, [] => if broken then spaces column else []
  | broken, c :: rest =>
    if isBreak c then c :: singleChars column true rest
    else (if broken then spaces column else []) ++
      (if c = '\'' then ['\'', '\''] else [c]) ++ singleChars column false rest

/-- The escape of a character between double quotes. -/
def escaped (c : Char) : List Char :=
  match c with
  | '\x00' => ['0']
  | '\x07' => ['a']
  | '\x08' => ['b']
  | '\t' => ['t']
  | '\n' => ['n']
  | '\x0b' => ['v']
  | '\x0c' => ['f']
  | '\r' => ['r']
  | '\x1b' => ['e']
  | '"' => ['"']
  | '\\' => ['\\']
  | '\u0085' => ['N']
  | '\u2028' => ['L']
  | '\u2029' => ['P']
  | _ =>
    let n := c.toNat
    if n ≤ 0xFF then 'x' :: hexDigits true 2 n
    else if n ≤ 0xFFFF then 'u' :: hexDigits true 4 n
    else 'U' :: hexDigits true 8 n

/-- A character between double quotes. -/
def doubleChar (c : Char) : List Char :=
  if !isPrintable c || isBreak c || c = '"' || c = '\\' then '\\' :: escaped c else [c]

/-- The lines of a literal block; a line that is not empty is indented. -/
def literalChars (column : Nat) : (broken : Bool) → List Char → List Char
  | _, [] => []
  | broken, c :: rest =>
    if isBreak c then c :: literalChars column true rest
    else (if broken then spaces column else []) ++ c :: literalChars column false rest

/-- The header of a literal block: an indentation if the text does not show it, and the chomping. -/
def literalHeader (text : List Char) : List Char :=
  let hint := if text.head?.any fun c => c = ' ' || isBreak c then ['2'] else []
  let chomping := match text.reverse with
    | c :: rest =>
      if !isBreak c then ['-']
      else if rest.head?.all isBreak then ['+'] else []
    | [] => ['-']
  '|' :: hint ++ chomping

/-- A scalar in a style; its further lines are indented to a column. -/
def scalarChars (column : Nat) (text : List Char) : Style → List Char
  | .plain => text
  | .single => '\'' :: singleChars column false text ++ ['\'']
  | .double => '"' :: text.flatMap doubleChar ++ ['"']
  | .literal => literalHeader text ++ '\n' :: literalChars column true text

/-- The text of a scalar and the style that it asks for. -/
def scalarText? : Value → Option (List Char × Style)
  | .null => some ("null".toList, .plain)
  | .bool b => some ((Value.boolText b).toList, .plain)
  | .number n => some (n.text, .plain)
  | .string s => some (s.toList, wantedStyle s.toList)
  | _ => none

/-- A character of a tag; what a tag cannot hold is written as escaped octets. -/
def tagChar (c : Char) : List Char :=
  if isNameChar c || ";/?:@&=+$,_.~*'()[]".toList.contains c then [c]
  else (String.singleton c).toUTF8.toList.flatMap fun octet => '%' :: hexDigits true 2 octet.toNat

/-- The text of a tag: an exclamation mark stands before it, unless it starts with one, and
nothing after a null character counts. -/
def tagTextOf (tag : String) : List Char :=
  let text := tag.toList.takeWhile (· ≠ '\x00')
  if text.head? = some '!' then text else '!' :: text

/-- A tag as it is written; a lone exclamation mark can only be written verbatim. -/
def writtenTag (tag : String) : List Char :=
  let text := tagTextOf tag
  if text = ['!'] then "!<".toList ++ tagChar '!' ++ ['>'] else '!' :: text.tail.flatMap tagChar

/-- A collection that is written on one line. -/
def emptyText? : Value → Option (List Char)
  | .sequence [] => some ['[', ']']
  | .mapping [] => some ['\x7b', '\x7d']
  | _ => none

/-- The key of an entry on one line, if it is short enough and has no line break. -/
def simpleKey? (key : Value) : Option (List Char) :=
  let (tag, content) := match key with
    | .tagged tag content => (some tag, content)
    | key => (none, key)
  let tagSize := tag.elim 0 fun tag => octetLength (tagTextOf tag)
  let lead := tag.elim [] fun tag => writtenTag tag ++ [' ']
  match scalarText? content, emptyText? content with
  | some (text, wanted), _ =>
    if !text.any isBreak && tagSize + octetLength text ≤ 128 then
      some (lead ++ scalarChars 0 text (style wanted true text))
    else none
  | none, some text => if tagSize ≤ 128 then some (lead ++ text) else none
  | none, none => none

/-- Where a node stands. -/
inductive Place where
  /-- At the start of the document. -/
  | root
  /-- After the hyphen of a sequence. -/
  | item
  /-- After the question mark or the colon of an entry whose key takes a line of its own. -/
  | part
  /-- After a key and its colon. -/
  | value
deriving DecidableEq, Repr

namespace Place

/-- What stands before a node on the same line. -/
def lead : Place → List Char
  | root => []
  | _ => [' ']

/-- The column of the entries of a block mapping. -/
def mappingColumn (column : Nat) : Place → Nat
  | root => 0
  | _ => column + 2

/-- The column of the entries of a block sequence, which may be under a tag. -/
def sequenceColumn (column : Nat) (tagged : Bool) : Place → Nat
  | root => 0
  | item => column + 2
  | part => if tagged then column else column + 2
  | value => column

/-- What stands before the first entry of a block collection, after a tag if there is one. -/
def blockLead (tag : Option String) (column : Nat) (place : Place) : List Char :=
  match tag with
  | some tag => place.lead ++ writtenTag tag ++ '\n' :: spaces column
  | none => if place = .value then '\n' :: spaces column else place.lead

/-- What stands before a node that is written on the line, after a tag if there is one. -/
def inlineLead (tag : Option String) (place : Place) : List Char :=
  match tag with
  | some tag => place.lead ++ writtenTag tag ++ [' ']
  | none => place.lead

/-- The column to which the further lines of a scalar are indented. -/
def textColumn (column : Nat) : Place → Nat
  | root => 2
  | _ => column + 2

end Place

/-- A text with a line end, unless it already ends with a break. -/
def endLine (text : List Char) : List Char :=
  if text.getLast?.any isBreak then text else text ++ ['\n']

/-- The entries of a block collection at a column. -/
def stack (column : Nat) : List (List Char) → List Char
  | [] => []
  | [entry] => entry
  | entry :: rest => endLine entry ++ spaces column ++ stack column rest

/-- An entry of a block mapping: the key on the line of its value, or both under marks. -/
def entryText (column : Nat) (simple : Option (List Char)) (key value : List Char) : List Char :=
  match simple with
  | some text => text ++ ':' :: value
  | none => '?' :: endLine key ++ spaces column ++ ':' :: value

mutual

/-- A node with what stands before it on its line. -/
def writeNode (place : Place) (column : Nat) (tag : Option String) : Value → List Char
  | .tagged name content => writeNode place column (some name) content
  | .sequence items =>
    if items.isEmpty then place.inlineLead tag ++ ['[', ']']
    else
      let inner := place.sequenceColumn column tag.isSome
      place.blockLead tag inner ++ stack inner (writeItems inner items)
  | .mapping entries =>
    if entries.isEmpty then place.inlineLead tag ++ ['\x7b', '\x7d']
    else
      let inner := place.mappingColumn column
      place.blockLead tag inner ++ stack inner (writeEntries inner entries)
  | scalar =>
    match scalarText? scalar with
    | some (text, wanted) =>
      place.inlineLead tag ++ scalarChars (place.textColumn column) text (style wanted false text)
    | none => []

/-- The items of a block sequence. -/
def writeItems (column : Nat) : List Value → List (List Char)
  | [] => []
  | item :: rest => ('-' :: writeNode .item column none item) :: writeItems column rest

/-- The entries of a block mapping. -/
def writeEntries (column : Nat) : List (Value × Value) → List (List Char)
  | [] => []
  | (key, value) :: rest =>
    let simple := simpleKey? key
    let place : Place := if simple.isSome then .value else .part
    entryText column simple (writeNode .part column none key) (writeNode place column none value) ::
      writeEntries column rest

end

/-- A value as a YAML document. -/
def write (v : Value) : Except WriteFault (List Char) :=
  match writeFault? v with
  | some fault => .error fault
  | none => .ok (endLine (writeNode .root 0 none v))

/-- What is written for a value, for checking examples. -/
def written (v : Value) : Option String :=
  (write v).toOption.map String.ofList

example : written (.record [("a", .sequence [.string "x", .string "007"]), ("b", .null)]) =
    some "a:\n- x\n- '007'\nb: null\n" := by decide +kernel

example : written (.sequence [.record [("k", .mapping [(.null, .number (.int 1))])]]) =
    some "- k:\n    null: 1\n" := by decide +kernel

end ChartDocs.Yaml
