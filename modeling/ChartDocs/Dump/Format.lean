import ChartDocs.Dump.Record
import ChartDocs.Tables
import ChartDocs.Text.Split

/-!
# Dumps of catalogs, observed values and reports

Each of the three can be written in four formats: as a JSON record, as a YAML record, in Markdown,
and as a plain table for a terminal. In plain tables names are padded to the width that the longest
name has in octets.
-/

namespace ChartDocs

open Text Decimal

namespace Dump

/-- The formats of a dump. -/
inductive Format where
  | json
  | yaml
  | markdown
  | table
deriving DecidableEq, Repr, Inhabited

namespace Format

/-- The written name of a format. -/
def name : Format → String
  | json => "json"
  | yaml => "yaml"
  | markdown => "markdown"
  | table => "table"

/-- All formats. -/
def all : List Format := [json, yaml, markdown, table]

/-- The format with a written name. -/
def ofName? (text : String) : Option Format :=
  all.find? fun format => format.name = text

end Format

/-- Why something cannot be dumped. -/
inductive Fault where
  /-- A mapping key that JSON has no form for. -/
  | json (fault : Value.KeyFault)
  /-- A value that cannot be written in YAML. -/
  | yaml (fault : Yaml.WriteFault)
deriving DecidableEq, Repr

/-- The wording of a fault. -/
def Fault.message : Fault → String
  | json fault => "JSON serialization failed: " ++ fault.message
  | yaml fault => "YAML serialization failed: " ++ fault.message

/-- The text of a dump. -/
abbrev Dumped := Except Fault (List Char)

/-- A record as JSON over several lines. -/
def jsonText (record : Value) : Dumped :=
  match record.toJson with
  | .ok json => .ok json.pretty
  | .error fault => .error (.json fault)

/-- A record as a YAML document. -/
def yamlDocument (record : Value) : Dumped :=
  match Yaml.write record with
  | .ok text => .ok text
  | .error fault => .error (.yaml fault)

/-- A text with spaces after it, up to a number of characters. -/
def padTo (width : Nat) (text : List Char) : List Char :=
  text ++ List.replicate (width - text.length) ' '

/-- The largest size of some names in octets, or four if there are none. -/
def widthOf (names : List String) : Nat :=
  if names = [] then 4 else (names.map String.utf8ByteSize).foldl max 0

/-- The row of an observed parameter in Markdown. -/
def valueRow (p : Parameter) : List Char :=
  "| \x60".toList ++ p.name.toList ++ "\x60 | ".toList ++
    (p.kind.elim "" Kind.name).toList ++ " | \x60".toList ++ p.display ++ "\x60 |\n".toList

/-- Observed parameters in Markdown. -/
def valuesMarkdown (parameters : List Parameter) : List Char :=
  "| Name | Type | Value |\n|------|------|-------|\n".toList ++ parameters.flatMap valueRow

/-- The marks of a parameter in a plain table. -/
def flags (p : Parameter) : List String :=
  (if p.skip then ["skip"] else []) ++ (if p.extra then ["extra"] else []) ++
    (if p.inSchema then [] else ["no-schema"])

/-- The marks of a parameter in brackets, if it has any. -/
def flagText (p : Parameter) : List Char :=
  if flags p = [] then []
  else "  [".toList ++ join [','] ((flags p).map String.toList) ++ [']']

/-- Kind and value of a parameter, or its description where the kind is unknown. -/
def detail (p : Parameter) : List Char :=
  match p.kind with
  | some kind => padTo 8 kind.name.toList ++ ' ' :: p.display
  | none => p.description.toList

/-- The row of a parameter in a plain table. -/
def plainRow (width : Nat) (p : Parameter) : List Char :=
  "  ".toList ++ padTo width p.name.toList ++ "  ".toList ++ detail p ++ flagText p ++ ['\n']

/-- Parameters as a plain table. -/
def plainTable (parameters : List Parameter) : List Char :=
  parameters.flatMap (plainRow (widthOf (parameters.map (·.name))))

/-- How success is shown. -/
def yesNo (b : Bool) : List Char :=
  if b then "yes".toList else "no".toList

/-- A line of a list of counts in Markdown. -/
def listLine (label : String) (content : List Char) : List Char :=
  "- **".toList ++ label.toList ++ ":** ".toList ++ content ++ ['\n']

/-- The findings of a report in Markdown. -/
def findingsMarkdown (findings : List Finding) : List Char :=
  if findings = [] then []
  else
    "\n## Findings\n\n".toList ++ findings.flatMap fun finding =>
      "- \x60".toList ++ finding.path.toList ++ "\x60: ".toList ++
        finding.code.name.toList ++ ['\n']

/-- A report in Markdown. -/
def reportMarkdown (report : Report) : List Char :=
  "# Check Report: ".toList ++ report.source.toList ++ "\n\n".toList ++
    listLine "Success" (yesNo report.success) ++ listLine "Sections" (digits report.sections) ++
    listLine "Documented" (digits report.documented) ++
    listLine "Observed" (digits report.observed) ++ findingsMarkdown report.findings

/-- The findings of a report as plain lines. -/
def findingsTable (findings : List Finding) : List Char :=
  if findings = [] then []
  else
    let width := widthOf (findings.map (·.code.name))
    "\nFindings:\n".toList ++ findings.flatMap fun finding =>
      "  ".toList ++ padTo width finding.code.name.toList ++ "  ".toList ++ finding.path.toList ++
        ['\n']

/-- A report as plain lines. -/
def reportTable (report : Report) : List Char :=
  "Values: ".toList ++ report.source.toList ++ "  Success: ".toList ++ yesNo report.success ++
    "  Documented: ".toList ++ digits report.documented ++ "  Observed: ".toList ++
    digits report.observed ++ ['\n'] ++ findingsTable report.findings

end Dump

/-- A catalog in a format. -/
def Catalog.dump (c : Catalog) : Dump.Format → Dump.Dumped
  | .json => Dump.jsonText c.toValue
  | .yaml => Dump.yamlDocument c.toValue
  | .markdown => .ok c.tables
  | .table => .ok (Dump.plainTable c.parameters)

/-- Observed parameters in a format. -/
def Parameter.dumpList (parameters : List Parameter) : Dump.Format → Dump.Dumped
  | .json => Dump.jsonText (listToValue parameters)
  | .yaml => Dump.yamlDocument (listToValue parameters)
  | .markdown => .ok (Dump.valuesMarkdown parameters)
  | .table => .ok (Dump.plainTable parameters)

/-- A report in a format. -/
def Report.dump (report : Report) : Dump.Format → Dump.Dumped
  | .json => Dump.jsonText report.toValue
  | .yaml => Dump.yamlDocument report.toValue
  | .markdown => .ok (Dump.reportMarkdown report)
  | .table => .ok (Dump.reportTable report)

end ChartDocs
