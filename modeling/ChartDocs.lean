import ChartDocs.Catalog.Basic
import ChartDocs.Catalog.Filling
import ChartDocs.Catalog.Finding
import ChartDocs.Catalog.Modifier
import ChartDocs.Command.Basic
import ChartDocs.Command.Help
import ChartDocs.Command.Run
import ChartDocs.Decimal.Binary64
import ChartDocs.Decimal.Literal
import ChartDocs.Decimal.Notation
import ChartDocs.Decimal.Shortest
import ChartDocs.Dump.Format
import ChartDocs.Dump.Record
import ChartDocs.Files
import ChartDocs.Json.Basic
import ChartDocs.Json.Numeral
import ChartDocs.Json.Octets
import ChartDocs.Json.Reading
import ChartDocs.Json.Record
import ChartDocs.Json.Writing
import ChartDocs.Main
import ChartDocs.Markup.KeyLine
import ChartDocs.Markup.Scan
import ChartDocs.Markup.TagLine
import ChartDocs.Observation
import ChartDocs.Parameter
import ChartDocs.Path
import ChartDocs.Proofs.Block.Agreement
import ChartDocs.Proofs.Block.Basic
import ChartDocs.Proofs.Block.Scan
import ChartDocs.Proofs.Catalog.Accounting
import ChartDocs.Proofs.Catalog.Attaching
import ChartDocs.Proofs.Catalog.Filling
import ChartDocs.Proofs.Catalog.Grouping
import ChartDocs.Proofs.Catalog.Growing
import ChartDocs.Proofs.Catalog.History
import ChartDocs.Proofs.Catalog.Mismatches
import ChartDocs.Proofs.Catalog.Preparing
import ChartDocs.Proofs.Catalog.Rejecting
import ChartDocs.Proofs.Catalog.Repreparing
import ChartDocs.Proofs.Command.Failure
import ChartDocs.Proofs.Dump.Restoring
import ChartDocs.Proofs.Dump.Rows
import ChartDocs.Proofs.Files.Writing
import ChartDocs.Proofs.Json.Data
import ChartDocs.Proofs.Json.Numerals
import ChartDocs.Proofs.Json.Quoting
import ChartDocs.Proofs.Json.Records
import ChartDocs.Proofs.Json.Trees
import ChartDocs.Proofs.Markup.Appending
import ChartDocs.Proofs.Markup.Change
import ChartDocs.Proofs.Markup.Document
import ChartDocs.Proofs.Markup.Entry
import ChartDocs.Proofs.Markup.Grouping
import ChartDocs.Proofs.Markup.Inert
import ChartDocs.Proofs.Markup.Keyword
import ChartDocs.Proofs.Markup.Label
import ChartDocs.Proofs.Markup.Line
import ChartDocs.Proofs.Markup.Lookahead
import ChartDocs.Proofs.Markup.Printing
import ChartDocs.Proofs.Markup.Resolution
import ChartDocs.Proofs.Markup.Scanned
import ChartDocs.Proofs.Markup.Step
import ChartDocs.Proofs.Markup.Tagged
import ChartDocs.Proofs.Markup.Tidying
import ChartDocs.Proofs.Markup.Trail
import ChartDocs.Proofs.Path.Ancestry
import ChartDocs.Proofs.Path.Reading
import ChartDocs.Proofs.Path.Rendering
import ChartDocs.Proofs.Readme.Fences
import ChartDocs.Proofs.Readme.Marking
import ChartDocs.Proofs.Readme.Overwriting
import ChartDocs.Proofs.Readme.Regenerating
import ChartDocs.Proofs.Readme.Replacing
import ChartDocs.Proofs.Readme.Surroundings
import ChartDocs.Proofs.Readme.Titles
import ChartDocs.Proofs.Schema.Arrangement
import ChartDocs.Proofs.Schema.Defaults
import ChartDocs.Proofs.Schema.Insertion
import ChartDocs.Proofs.Schema.Paths
import ChartDocs.Proofs.Survey.Prepared
import ChartDocs.Proofs.Tables.Cells
import ChartDocs.Proofs.Tables.CodeSpan
import ChartDocs.Proofs.Tables.Lines
import ChartDocs.Proofs.Tables.Showing
import ChartDocs.Proofs.Text.LineEnds
import ChartDocs.Proofs.Text.Pieces
import ChartDocs.Proofs.Text.Trimming
import ChartDocs.Proofs.Value.Ambiguity
import ChartDocs.Proofs.Value.Antichain
import ChartDocs.Proofs.Value.Finding
import ChartDocs.Proofs.Value.Listing
import ChartDocs.Proofs.Value.Lookups
import ChartDocs.Proofs.Value.Observed
import ChartDocs.Proofs.Value.Place
import ChartDocs.Proofs.Value.Sighting
import ChartDocs.Readme
import ChartDocs.Schema
import ChartDocs.Settings.Basic
import ChartDocs.Settings.File
import ChartDocs.Settings.Tree
import ChartDocs.Survey
import ChartDocs.Tables
import ChartDocs.Text.Alphabetic
import ChartDocs.Text.Blank
import ChartDocs.Text.Hexadecimal
import ChartDocs.Text.Lines
import ChartDocs.Text.Mark
import ChartDocs.Text.Numeric
import ChartDocs.Text.Octets
import ChartDocs.Text.Ranges
import ChartDocs.Text.Split
import ChartDocs.Text.Word
import ChartDocs.Value.Basic
import ChartDocs.Value.Equality
import ChartDocs.Value.Json
import ChartDocs.Value.Lookup
import ChartDocs.Yaml.Announcement
import ChartDocs.Yaml.BlockText
import ChartDocs.Yaml.Cursor
import ChartDocs.Yaml.Fault
import ChartDocs.Yaml.Node
import ChartDocs.Yaml.PlainText
import ChartDocs.Yaml.QuotedText
import ChartDocs.Yaml.Reading
import ChartDocs.Yaml.Scalar
import ChartDocs.Yaml.Tag
import ChartDocs.Yaml.Token
import ChartDocs.Yaml.Writing
