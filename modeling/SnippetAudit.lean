import SnippetAudit.Text.Search
import SnippetAudit.Text.Lines
import SnippetAudit.Text.Table.Case
import SnippetAudit.Python.Grammar
import SnippetAudit.Decimal.Places
import SnippetAudit.Json.Reader
import SnippetAudit.Json.Printer
import SnippetAudit.Json.Record
import SnippetAudit.Language
import SnippetAudit.Complexity
import SnippetAudit.Text.Utf8
import SnippetAudit.Linter.Registry
import SnippetAudit.Finding.Scan
import SnippetAudit.Config.Environment
import SnippetAudit.Config.Writer
import SnippetAudit.Score
import SnippetAudit.Style.Recommend
import SnippetAudit.Fix.Auto
import SnippetAudit.Embedding.Slot
import SnippetAudit.Embedding.Callers
import SnippetAudit.Service
import SnippetAudit.Session
import SnippetAudit.Report.Terminal
import SnippetAudit.Command.Disk
import SnippetAudit.Command.Run
import SnippetAudit.Shell.Script
import SnippetAudit.Shell.Arithmetic
import SnippetAudit.Shell.Run
import SnippetAudit.Main
import SnippetAudit.Proofs.Finding.Pattern
import SnippetAudit.Proofs.Text.Lines
import SnippetAudit.Proofs.Finding.LooseEquality
import SnippetAudit.Proofs.Fix.Rewrite
import SnippetAudit.Proofs.Finding.Scan
import SnippetAudit.Proofs.Fix.Auto
import SnippetAudit.Proofs.Fix.OnePass
import SnippetAudit.Proofs.Fix.Fit
import SnippetAudit.Proofs.Fix.Title
import SnippetAudit.Proofs.Fix.UnusedImport
import SnippetAudit.Proofs.Fix.NoneComparison
import SnippetAudit.Proofs.Fix.Number
import SnippetAudit.Proofs.Json.Record
import SnippetAudit.Proofs.Json.RoundTrip
import SnippetAudit.Proofs.Decimal.Rounding
import SnippetAudit.Proofs.Style.Merge
import SnippetAudit.Proofs.Style.File
import SnippetAudit.Proofs.Embedding.Slot
import SnippetAudit.Proofs.Service.Submit
import SnippetAudit.Proofs.Service.Number
import SnippetAudit.Proofs.Service.Memory
import SnippetAudit.Proofs.Json.Lossless
import SnippetAudit.Proofs.Linter.Report
import SnippetAudit.Proofs.Service.Language
import SnippetAudit.Proofs.Fix.Coverage
import SnippetAudit.Proofs.Fix.Edit
import SnippetAudit.Proofs.Embedding.Callers
import SnippetAudit.Proofs.Fix.TrailingBlanks
import SnippetAudit.Proofs.Fix.NoneBeside
import SnippetAudit.Proofs.Text.Slice
import SnippetAudit.Proofs.Python.Module
import SnippetAudit.Proofs.Python.Walk
import SnippetAudit.Proofs.Python.Site
import SnippetAudit.Proofs.Python.Suite
import SnippetAudit.Proofs.Python.Indentation
import SnippetAudit.Proofs.Python.Documentation
import SnippetAudit.Proofs.Python.Stand
import SnippetAudit.Proofs.Python.Statement
import SnippetAudit.Proofs.Python.Compound
import SnippetAudit.Proofs.Python.Grammar
import SnippetAudit.Proofs.Fix.ImportRow
import SnippetAudit.Proofs.Fix.Docstring
import SnippetAudit.Proofs.Fix.Diff
import SnippetAudit.Proofs.Finding.Occurrence
import SnippetAudit.Proofs.Fix.Weakness
import SnippetAudit.Proofs.Fix.Strict
import SnippetAudit.Proofs.Complexity.Additive
import SnippetAudit.Proofs.Style.Naming
import SnippetAudit.Proofs.Style.Indentation
import SnippetAudit.Proofs.Style.Recommend
import SnippetAudit.Proofs.Style.Quotes
import SnippetAudit.Proofs.Style.Imports
import SnippetAudit.Proofs.Linter.Position
import SnippetAudit.Proofs.Embedding.Eviction
import SnippetAudit.Proofs.Text.Lower
import SnippetAudit.Proofs.Config.Environment
import SnippetAudit.Proofs.Embedding.Token
import SnippetAudit.Proofs.Embedding.Answer
