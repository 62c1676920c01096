import ProcBook.Catalog
import ProcBook.Catalog.Builtin
import ProcBook.Catalog.Page
import ProcBook.Catalog.Site
import ProcBook.Catalog.Source
import ProcBook.Command.Line
import ProcBook.Command.Run
import ProcBook.Decimal.Double
import ProcBook.Decimal.Shortest
import ProcBook.Disk.Path
import ProcBook.Disk.Pattern
import ProcBook.Disk.Tree
import ProcBook.Generation.Inputs
import ProcBook.Generation.Run
import ProcBook.Json.Fault
import ProcBook.Json.Number
import ProcBook.Json.Reader
import ProcBook.Json.Record
import ProcBook.Json.Skip
import ProcBook.Json.Text
import ProcBook.Json.Writer
import ProcBook.Main
import ProcBook.Page.Format
import ProcBook.Page.Html
import ProcBook.Page.Markdown
import ProcBook.Procedure
import ProcBook.Procedure.Record
import ProcBook.Proofs.Catalog
import ProcBook.Proofs.Comment
import ProcBook.Proofs.Components
import ProcBook.Proofs.Directories
import ProcBook.Proofs.Disk
import ProcBook.Proofs.Document
import ProcBook.Proofs.JsonGrammar
import ProcBook.Proofs.JsonWriter
import ProcBook.Proofs.Parameters
import ProcBook.Proofs.Phrase
import ProcBook.Proofs.Policy
import ProcBook.Proofs.Run
import ProcBook.Proofs.Text
import ProcBook.Report.Event
import ProcBook.Report.Failure
import ProcBook.Report.Filter
import ProcBook.Settings
import ProcBook.Sql.Comment
import ProcBook.Sql.DocsBlock
import ProcBook.Sql.Document
import ProcBook.Sql.Fault
import ProcBook.Sql.Header
import ProcBook.Sql.Parameters
import ProcBook.Sql.Reference
import ProcBook.Text.Blank
import ProcBook.Text.Cut
import ProcBook.Text.Digit
import ProcBook.Text.HiddenTable
import ProcBook.Text.Phrase
import ProcBook.Text.Quoted
import ProcBook.Text.Utf8
import ProcBook.Text.Word
import ProcBook.Text.WordTable
import ProcBook.Toml.Document
import ProcBook.Toml.Item
import ProcBook.Toml.Scalar
import ProcBook.Toml.Text
import ProcBook.Proofs.Site
import ProcBook.Proofs.Confinement
import ProcBook.Proofs.Links
import ProcBook.Proofs.Navigation
import ProcBook.Proofs.Markup
import ProcBook.Proofs.Input
import ProcBook.Proofs.FrontMatter
import ProcBook.Proofs.Sections
import ProcBook.Proofs.JsonValue
import ProcBook.Proofs.JsonContent
import ProcBook.Proofs.JsonMembers
import ProcBook.Proofs.RecordKeys
import ProcBook.Proofs.OpenComment
import ProcBook.Proofs.DocsReferences
import ProcBook.Proofs.Untouched
import ProcBook.Proofs.Browsing
import ProcBook.Proofs.Parts
import ProcBook.Proofs.Header
import ProcBook.Proofs.HeaderGrammar
import ProcBook.Proofs.DocsLayout
import ProcBook.Proofs.Bracketed
import ProcBook.Proofs.Stripping
import ProcBook.Proofs.Stages
import ProcBook.Proofs.JsonSound
import ProcBook.Proofs.DocsRecord
import ProcBook.Proofs.Banner
import ProcBook.Proofs.Splitting
import ProcBook.Proofs.PathOrder
import ProcBook.Proofs.Listing
import ProcBook.Proofs.Matching
import ProcBook.Proofs.Arguments
import ProcBook.Proofs.RecordFiles
