import Conform.CommandLine
import Conform.Document.Basic
import Conform.Document.Build
import Conform.Document.Decode
import Conform.Document.Text
import Conform.Double.Basic
import Conform.Double.Layout
import Conform.Double.Read
import Conform.Double.Round
import Conform.Double.Shortest
import Conform.Entries
import Conform.Evaluation.Basic
import Conform.Evaluation.Typed
import Conform.Files
import Conform.Json.Basic
import Conform.Json.Printer
import Conform.Json.Reader
import Conform.Json.Typed
import Conform.Json.Writer
import Conform.Load
import Conform.Main
import Conform.Markup
import Conform.Parser
import Conform.Proofs.Acceptance
import Conform.Proofs.Agreement
import Conform.Proofs.Build
import Conform.Proofs.Context
import Conform.Proofs.Evidence
import Conform.Proofs.Grammar
import Conform.Proofs.Induction
import Conform.Proofs.Loading
import Conform.Proofs.Location
import Conform.Proofs.Path
import Conform.Proofs.Pruning
import Conform.Proofs.Revalidation
import Conform.Proofs.Stability
import Conform.Proofs.Trace
import Conform.Proofs.Verdict
import Conform.Report
import Conform.Schema.Basic
import Conform.Schema.Text
import Conform.Text.Class
import Conform.Text.Numeral
import Conform.Text.Position
import Conform.Text.Quoted
import Conform.Text.Terminal
import Conform.Validation
import Conform.Value.Basic
import Conform.Value.Json
import Conform.Walk
import Conform.Yaml.Cursor
import Conform.Yaml.Node
import Conform.Yaml.Resolve
import Conform.Yaml.Scalar
import Conform.Yaml.Stream
import Conform.Yaml.Tag
import Conform.Yaml.Token
import Conform.Yaml.Tree
import Conform.Proofs.Loosening
import Conform.Proofs.Locality
import Conform.Proofs.Positions
import Conform.Proofs.Drilling
import Conform.Proofs.Noninterference
import Conform.Proofs.Faults
import Conform.Proofs.Equality
import Conform.Proofs.KeyOrder
import Conform.Proofs.Failure
import Conform.Proofs.Matching
import Conform.Proofs.ReadBack
import Conform.Proofs.Checking
import Conform.Proofs.Rounding
import Conform.Proofs.Interchange
import Conform.Proofs.Numerals
import Conform.Proofs.Plain
import Conform.Proofs.Representable
import Conform.Proofs.Unions
import Conform.Proofs.ClosedRecords
import Conform.Proofs.Bookkeeping
import Conform.Proofs.Decoding
import Conform.Proofs.Exactness
import Conform.Proofs.Writing
import Conform.Proofs.ByteOrder
import Conform.Proofs.Lines
import Conform.Proofs.Registration
import Conform.Proofs.Reporting
