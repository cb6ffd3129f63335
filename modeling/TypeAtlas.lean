import TypeAtlas.Batch.Outcome
import TypeAtlas.Batch.Run
import TypeAtlas.Calendar.Iso
import TypeAtlas.Calendar.Reading
import TypeAtlas.Calendar.Timestamp
import TypeAtlas.Command.Arguments
import TypeAtlas.Command.Console
import TypeAtlas.Command.Request
import TypeAtlas.Command.Run
import TypeAtlas.Decimal.Binary64
import TypeAtlas.Decimal.Shortest
import TypeAtlas.Entries
import TypeAtlas.Extraction.Builder
import TypeAtlas.Extraction.CallDepth
import TypeAtlas.Extraction.Entry
import TypeAtlas.Extraction.Extractor
import TypeAtlas.Extraction.Go
import TypeAtlas.Extraction.Java
import TypeAtlas.Extraction.Swift
import TypeAtlas.Extraction.TypeNames
import TypeAtlas.Extraction.TypeScript
import TypeAtlas.Extraction.Walk
import TypeAtlas.Failure
import TypeAtlas.Grammar.Cache
import TypeAtlas.Grammar.Installation
import TypeAtlas.Grammar.Loading
import TypeAtlas.Grammar.Once
import TypeAtlas.Grammar.ParserPool
import TypeAtlas.Graph.Assembly
import TypeAtlas.Graph.Basic
import TypeAtlas.Graph.Comparison
import TypeAtlas.Graph.Document
import TypeAtlas.Json.Fault
import TypeAtlas.Json.Message
import TypeAtlas.Json.Printer
import TypeAtlas.Json.Reader
import TypeAtlas.Json.Token
import TypeAtlas.Json.Value
import TypeAtlas.Language
import TypeAtlas.Log.Event
import TypeAtlas.Log.Printing
import TypeAtlas.Main
import TypeAtlas.Proofs.Batch.Accounting
import TypeAtlas.Proofs.Batch.Isolation
import TypeAtlas.Proofs.Batch.LanguageFilter
import TypeAtlas.Proofs.Batch.Patience
import TypeAtlas.Proofs.Batch.Schedules
import TypeAtlas.Proofs.Batch.Sequences
import TypeAtlas.Proofs.Batch.Shares
import TypeAtlas.Proofs.Batch.Verdict
import TypeAtlas.Proofs.Batch.Yields
import TypeAtlas.Proofs.Calendar.WrittenForm
import TypeAtlas.Proofs.Command.Baseline
import TypeAtlas.Proofs.Command.DamagedBaseline
import TypeAtlas.Proofs.Command.Grammars
import TypeAtlas.Proofs.Command.Saving
import TypeAtlas.Proofs.Entries
import TypeAtlas.Proofs.Extraction.CallDepth
import TypeAtlas.Proofs.Extraction.Calls
import TypeAtlas.Proofs.Extraction.CommentedSources
import TypeAtlas.Proofs.Extraction.Comments
import TypeAtlas.Proofs.Extraction.DeclarationOrder
import TypeAtlas.Proofs.Extraction.Declarations
import TypeAtlas.Proofs.Extraction.Fragments
import TypeAtlas.Proofs.Extraction.Heritage
import TypeAtlas.Proofs.Extraction.Keywords
import TypeAtlas.Proofs.Extraction.Languages
import TypeAtlas.Proofs.Extraction.NameOrder
import TypeAtlas.Proofs.Extraction.NestedDeclarations
import TypeAtlas.Proofs.Extraction.Nesting
import TypeAtlas.Proofs.Extraction.Owners
import TypeAtlas.Proofs.Extraction.PackageTypes
import TypeAtlas.Proofs.Extraction.Relocation
import TypeAtlas.Proofs.Extraction.SourceOrder
import TypeAtlas.Proofs.Extraction.Validity
import TypeAtlas.Proofs.Extraction.WrittenTypes
import TypeAtlas.Proofs.Grammar.Attempts
import TypeAtlas.Proofs.Grammar.Bindings
import TypeAtlas.Proofs.Grammar.Pool
import TypeAtlas.Proofs.Grammar.Preference
import TypeAtlas.Proofs.Grammar.Resolution
import TypeAtlas.Proofs.Graph.Assembly
import TypeAtlas.Proofs.Graph.Comparison
import TypeAtlas.Proofs.Graph.Consistency
import TypeAtlas.Proofs.Graph.DiffWrittenForm
import TypeAtlas.Proofs.Graph.Format
import TypeAtlas.Proofs.Graph.WrittenForm
import TypeAtlas.Proofs.Json.LineEnds
import TypeAtlas.Proofs.Json.Reading
import TypeAtlas.Proofs.Json.Tokens
import TypeAtlas.Proofs.Language
import TypeAtlas.Proofs.Language.Filters
import TypeAtlas.Proofs.Report.Balance
import TypeAtlas.Proofs.Report.Figures
import TypeAtlas.Proofs.Report.Layout
import TypeAtlas.Proofs.Report.Lines
import TypeAtlas.Proofs.Report.Ranking
import TypeAtlas.Proofs.Report.Sections
import TypeAtlas.Proofs.Results
import TypeAtlas.Proofs.Scan.Directory
import TypeAtlas.Proofs.Scan.FileChanges
import TypeAtlas.Proofs.Scan.Outcome
import TypeAtlas.Proofs.Scan.Rows
import TypeAtlas.Proofs.Source.Checkout
import TypeAtlas.Proofs.Source.Enumeration
import TypeAtlas.Proofs.Source.Leaves
import TypeAtlas.Proofs.Source.Names
import TypeAtlas.Proofs.Source.Readers
import TypeAtlas.Proofs.Source.Room
import TypeAtlas.Proofs.Source.Selection
import TypeAtlas.Proofs.Source.Unscanned
import TypeAtlas.Proofs.Source.Writing
import TypeAtlas.Proofs.Syntax.Comments
import TypeAtlas.Proofs.Syntax.Erasure
import TypeAtlas.Proofs.Syntax.Positions
import TypeAtlas.Proofs.Text.Digits
import TypeAtlas.Proofs.Text.Octets
import TypeAtlas.Proofs.Text.Spans
import TypeAtlas.Proofs.Validation.Acceptance
import TypeAtlas.Report.Changes
import TypeAtlas.Report.Statistics
import TypeAtlas.Report.Summary
import TypeAtlas.Report.Wording
import TypeAtlas.Scan.Fault
import TypeAtlas.Scan.Run
import TypeAtlas.Settings.Basic
import TypeAtlas.Settings.EnvFile
import TypeAtlas.Source.Directory
import TypeAtlas.Source.Disk
import TypeAtlas.Source.File
import TypeAtlas.Source.FileTree
import TypeAtlas.Source.History
import TypeAtlas.Source.Path
import TypeAtlas.Source.TextFile
import TypeAtlas.Syntax.Listing
import TypeAtlas.Syntax.Tree
import TypeAtlas.Text.Blank
import TypeAtlas.Text.Columns
import TypeAtlas.Text.Lines
import TypeAtlas.Text.Order
import TypeAtlas.Text.Printable
import TypeAtlas.Text.Quoted
import TypeAtlas.Text.Undecodable
import TypeAtlas.Text.Utf8
import TypeAtlas.Validation.Field
import TypeAtlas.Validation.Issue
