import SnippetAudit.Batch
import SnippetAudit.Batch.Document
import SnippetAudit.Catalogue.Basic
import SnippetAudit.Catalogue.Directory
import SnippetAudit.Catalogue.Documents
import SnippetAudit.CommandLine.Arguments
import SnippetAudit.CommandLine.Response
import SnippetAudit.Component.Factory
import SnippetAudit.Component.Finding
import SnippetAudit.Component.Literal
import SnippetAudit.Component.Markup
import SnippetAudit.Component.Usage
import SnippetAudit.Component.Walk
import SnippetAudit.Contract.Package
import SnippetAudit.Contract.Resolver
import SnippetAudit.Contract.Retail
import SnippetAudit.Contract.Shape
import SnippetAudit.Contract.Web
import SnippetAudit.Data.Distinct
import SnippetAudit.Data.Equality
import SnippetAudit.Data.Members
import SnippetAudit.Data.Order
import SnippetAudit.Data.Sorted
import SnippetAudit.Data.Value
import SnippetAudit.Extraction.Collapse
import SnippetAudit.Extraction.Comment
import SnippetAudit.Extraction.Extract
import SnippetAudit.Extraction.Fence
import SnippetAudit.Extraction.Operation
import SnippetAudit.Extraction.Options
import SnippetAudit.Files.Access
import SnippetAudit.Files.Path
import SnippetAudit.Files.Tree
import SnippetAudit.GraphQL.Document
import SnippetAudit.GraphQL.Introspection
import SnippetAudit.GraphQL.Lexer
import SnippetAudit.GraphQL.Parser.Basic
import SnippetAudit.GraphQL.Parser.Document
import SnippetAudit.GraphQL.Parser.Executable
import SnippetAudit.GraphQL.Parser.TypeSystem
import SnippetAudit.GraphQL.Parser.Value
import SnippetAudit.GraphQL.Reference
import SnippetAudit.GraphQL.Rules.Argument
import SnippetAudit.GraphQL.Rules.Delivery
import SnippetAudit.GraphQL.Rules.Field
import SnippetAudit.GraphQL.Rules.Fragment
import SnippetAudit.GraphQL.Rules.Operation
import SnippetAudit.GraphQL.Rules.Overlap
import SnippetAudit.GraphQL.Rules.Value
import SnippetAudit.GraphQL.Schema
import SnippetAudit.GraphQL.StringLiteral
import SnippetAudit.GraphQL.Suggestion
import SnippetAudit.GraphQL.Token
import SnippetAudit.GraphQL.Validation
import SnippetAudit.Gzip.Bits
import SnippetAudit.Gzip.Checksum
import SnippetAudit.Gzip.Inflate
import SnippetAudit.Gzip.Stream
import SnippetAudit.Json.Reader
import SnippetAudit.Json.Writer
import SnippetAudit.Judge.Batch
import SnippetAudit.Judge.Component
import SnippetAudit.Judge.Environment
import SnippetAudit.Judge.Operation
import SnippetAudit.Judge.Pool
import SnippetAudit.Judge.Request
import SnippetAudit.Judge.Script
import SnippetAudit.Main
import SnippetAudit.Markdown.CodeKind
import SnippetAudit.Markdown.FencedBlock
import SnippetAudit.Markdown.Operations
import SnippetAudit.Metrics.Event
import SnippetAudit.Metrics.Tally
import SnippetAudit.Numeric.Binary64
import SnippetAudit.Numeric.Numeral
import SnippetAudit.Numeric.Shortest
import SnippetAudit.Outcome
import SnippetAudit.Proofs.Batch.Report
import SnippetAudit.Proofs.Catalogue.Directory
import SnippetAudit.Proofs.Catalogue.Listing
import SnippetAudit.Proofs.Component.Alike
import SnippetAudit.Proofs.Component.AttributeNode
import SnippetAudit.Proofs.Component.CrowdedLiteral
import SnippetAudit.Proofs.Component.Expression
import SnippetAudit.Proofs.Component.Finding
import SnippetAudit.Proofs.Component.NamedValue
import SnippetAudit.Proofs.Component.PrintedLiteral
import SnippetAudit.Proofs.Component.Rearranged
import SnippetAudit.Proofs.Component.Traversal
import SnippetAudit.Proofs.Component.Uncommented
import SnippetAudit.Proofs.Component.UncommentedWalk
import SnippetAudit.Proofs.Component.Walk
import SnippetAudit.Proofs.Component.WrittenNumber
import SnippetAudit.Proofs.Contract.ComponentName
import SnippetAudit.Proofs.Contract.Objection
import SnippetAudit.Proofs.Contract.Resolution
import SnippetAudit.Proofs.Data.Distinct
import SnippetAudit.Proofs.Data.Equality
import SnippetAudit.Proofs.Data.Members
import SnippetAudit.Proofs.Data.Pieces
import SnippetAudit.Proofs.Data.Sorted
import SnippetAudit.Proofs.Extraction.Collapse
import SnippetAudit.Proofs.Extraction.CommentLine
import SnippetAudit.Proofs.Extraction.Deletion
import SnippetAudit.Proofs.Extraction.Fencing
import SnippetAudit.Proofs.Extraction.Fragment
import SnippetAudit.Proofs.Extraction.Guarded
import SnippetAudit.Proofs.Extraction.Idempotence
import SnippetAudit.Proofs.Extraction.MarkupComment
import SnippetAudit.Proofs.Extraction.Match
import SnippetAudit.Proofs.Extraction.NormalForm
import SnippetAudit.Proofs.Extraction.Removal
import SnippetAudit.Proofs.Extraction.Scan
import SnippetAudit.Proofs.Extraction.Strict
import SnippetAudit.Proofs.Extraction.Termination
import SnippetAudit.Proofs.Files.Child
import SnippetAudit.Proofs.GraphQL.Cleaning
import SnippetAudit.Proofs.GraphQL.Following
import SnippetAudit.Proofs.GraphQL.Lexing
import SnippetAudit.Proofs.GraphQL.Parsing
import SnippetAudit.Proofs.GraphQL.Reading
import SnippetAudit.Proofs.GraphQL.StrictCleaning
import SnippetAudit.Proofs.GraphQL.Stringless
import SnippetAudit.Proofs.Judge.Breakdown
import SnippetAudit.Proofs.Judge.Cleaning
import SnippetAudit.Proofs.Judge.Component
import SnippetAudit.Proofs.Judge.Counting
import SnippetAudit.Proofs.Judge.Directory
import SnippetAudit.Proofs.Judge.EntryPoints
import SnippetAudit.Proofs.Judge.Explanation
import SnippetAudit.Proofs.Judge.Fencing
import SnippetAudit.Proofs.Judge.Isolation
import SnippetAudit.Proofs.Judge.Operation
import SnippetAudit.Proofs.Judge.Pool
import SnippetAudit.Proofs.Judge.Script
import SnippetAudit.Proofs.Judge.Skipping
import SnippetAudit.Proofs.Judge.Stock
import SnippetAudit.Proofs.Judge.Usages
import SnippetAudit.Proofs.Markdown.Discovery
import SnippetAudit.Proofs.Markdown.Rendering
import SnippetAudit.Proofs.Numeric.Spelling
import SnippetAudit.Proofs.Schema.Closing
import SnippetAudit.Proofs.Schema.MissingMember
import SnippetAudit.Proofs.Schema.Naming
import SnippetAudit.Proofs.Schema.Origin
import SnippetAudit.Proofs.Schema.Place
import SnippetAudit.Proofs.Schema.Reference
import SnippetAudit.Proofs.Schema.Shown
import SnippetAudit.Proofs.Schema.Violation
import SnippetAudit.Proofs.Schema.Wording
import SnippetAudit.Proofs.Syntax.Damage
import SnippetAudit.Proofs.Syntax.Position
import SnippetAudit.Proofs.Syntax.Preorder
import SnippetAudit.Proofs.Syntax.Reporting
import SnippetAudit.Proofs.Syntax.Span
import SnippetAudit.Proofs.Syntax.Tree
import SnippetAudit.Proofs.Text.Erasing
import SnippetAudit.Proofs.Text.Lines
import SnippetAudit.Proofs.Text.Trimming
import SnippetAudit.Proofs.Text.Untouched
import SnippetAudit.Proofs.Text.Utf8
import SnippetAudit.Regex.Basic
import SnippetAudit.Regex.Letter
import SnippetAudit.Regex.Matcher
import SnippetAudit.Regex.Reader
import SnippetAudit.Schema.Applicator
import SnippetAudit.Schema.Failure
import SnippetAudit.Schema.Keyword
import SnippetAudit.Schema.MetaSchema
import SnippetAudit.Schema.Reference
import SnippetAudit.Schema.Scope
import SnippetAudit.Schema.Structural
import SnippetAudit.Schema.Unevaluated
import SnippetAudit.Schema.Validator
import SnippetAudit.Syntax.Given
import SnippetAudit.Syntax.Grammar
import SnippetAudit.Syntax.Node
import SnippetAudit.Syntax.Problem
import SnippetAudit.Text.Basic
import SnippetAudit.Text.Digit
import SnippetAudit.Text.Erase
import SnippetAudit.Text.Lines
import SnippetAudit.Text.Lower
import SnippetAudit.Text.LowerTable
import SnippetAudit.Text.Percent
import SnippetAudit.Text.Printable
import SnippetAudit.Text.Quoted
import SnippetAudit.Text.Ranges
import SnippetAudit.Text.Utf8
import SnippetAudit.Text.Word
