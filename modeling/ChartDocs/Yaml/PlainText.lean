import ChartDocs.Yaml.Cursor

/-!
# Plain texts

A plain text has no quotes. It ends before a colon that a blank follows, before a comment, before
a line that separates documents, and before a line that is indented too little; inside brackets or
braces it also ends before a comma, a bracket or a brace.
-/

namespace ChartDocs.Yaml

/-- Whether a plain text may start with a character, given the character after it. -/
def startsPlain (inFlow : Bool) (c : Char) (after : Option Char) : Bool :=
  if c = '-' then !after.any isGap
  else if c = '?' || c = ':' then !inFlow && !endsWord after
  else !(isGap c || isBreak c || ",[]\x7b\x7d#&*!|>'\"%@\x60".toList.contains c)

/-- Whether a character ends a plain text inside brackets or braces. -/
def endsFlowPlain (c : Char) : Bool :=
  c = ',' || c = '[' || c = ']' || c = '\x7b' || c = '\x7d'

/-- Read up to a blank, a break or an indicator that ends a plain text. -/
def plainWord (inFlow : Bool) :
    (fuel : Nat) → List Char → Cursor → Except Fault (List Char × Cursor)
  | 0, word, c => .ok (word.reverse, c)
  | fuel + 1, word, c =>
    match c.rest with
    | [] => .ok (word.reverse, c)
    | d :: rest =>
      let after := rest.head?
      if isGap d || isBreak d then .ok (word.reverse, c)
      else if inFlow && d = ':' && after.any (fun e => endsFlowPlain e || e = '?') then
        .error .indicator
      else if (d = ':' && endsWord after) || (inFlow && endsFlowPlain d) then .ok (word.reverse, c)
      else plainWord inFlow fuel (d :: word) c.skip

/-- Read the words and gaps of a plain text.

The flag says whether the last gap, which does not belong to the text, has a line break. -/
def plainWords (inFlow : Bool) (indent : Nat) :
    (fuel : Nat) → List Char → Gap → Cursor → Except Fault (List Char × Bool × Cursor)
  | 0, text, gap, c => .ok (text, gap.broken, c)
  | fuel + 1, text, gap, c => do
    if c.atDocumentMark || c.next? = some '#' then return (text, gap.broken, c)
    let (word, c) ← plainWord inFlow c.left [] c
    let text := if word = [] then text else text ++ gap.folded ++ word
    let gap := if word = [] then gap else {}
    if !c.next?.any fun d => isGap d || isBreak d then return (text, gap.broken, c)
    let (gap, c) ← Gap.read indent c.left {} c
    if !inFlow && c.column < indent then return (text, gap.broken, c)
    plainWords inFlow indent fuel text gap c

/-- Read a plain text; its further lines have at least the given indentation. -/
def plainText (inFlow : Bool) (indent : Nat) (c : Cursor) :
    Except Fault (List Char × Bool × Cursor) :=
  plainWords inFlow indent (c.left + 1) [] {} c

end ChartDocs.Yaml
