import VolBacktest.Action.Basic
import VolBacktest.Action.Document
import VolBacktest.Backtest.Document
import VolBacktest.Backtest.Request
import VolBacktest.Backtest.Result
import VolBacktest.Backtest.Submission
import VolBacktest.Browser
import VolBacktest.Calendar.Date
import VolBacktest.Calendar.DateText
import VolBacktest.Compilation
import VolBacktest.Config.Basic
import VolBacktest.Config.Document
import VolBacktest.Diagnostic
import VolBacktest.Instrument.Basic
import VolBacktest.Instrument.Document
import VolBacktest.Journal
import VolBacktest.Json.Fault
import VolBacktest.Json.Fields
import VolBacktest.Json.Literal
import VolBacktest.Json.Numeral
import VolBacktest.Json.Reader
import VolBacktest.Json.Token
import VolBacktest.Json.Tree
import VolBacktest.Json.Value
import VolBacktest.Json.Variant
import VolBacktest.Json.Writer
import VolBacktest.Lowering
import VolBacktest.Numeric.Binary64
import VolBacktest.Numeric.Decimal
import VolBacktest.Proofs.Compilation.Agreement
import VolBacktest.Proofs.Compilation.Entries
import VolBacktest.Proofs.Compilation.InitialValue
import VolBacktest.Proofs.Compilation.SignalDates
import VolBacktest.Proofs.Journal
import VolBacktest.Proofs.Lowering.ClosedForm
import VolBacktest.Proofs.Lowering.LastWrite
import VolBacktest.Proofs.Rules.Accepted
import VolBacktest.Proofs.Rules.Leaves
import VolBacktest.Rules.Breach
import VolBacktest.Rules.Leaf
import VolBacktest.Rules.Shape
import VolBacktest.SortedMap
import VolBacktest.Strategy.Basic
import VolBacktest.Strategy.Document
import VolBacktest.Strategy.Edit
import VolBacktest.Strategy.Leaf
import VolBacktest.Strategy.Location
import VolBacktest.Text.Blank
import VolBacktest.Text.Quoted
import VolBacktest.Text.Unprintable
import VolBacktest.Trigger.Basic
import VolBacktest.Trigger.Document
import VolBacktest.Trigger.Signal
import VolBacktest.Proofs.Numeric.Rounding
import VolBacktest.Proofs.Numeric.Shortest
import VolBacktest.Proofs.Rules.Grammar
import VolBacktest.Proofs.Json.Numerals
import VolBacktest.Proofs.Calendar.DateText
import VolBacktest.Proofs.Json.Literals
import VolBacktest.Proofs.Json.Tokens
import VolBacktest.Proofs.Json.Written
import VolBacktest.Proofs.Json.Restoring
import VolBacktest.Proofs.Json.Structures
import VolBacktest.Proofs.Documents.Actions
import VolBacktest.Proofs.Documents.Triggers
import VolBacktest.Proofs.Documents.Configs
import VolBacktest.Proofs.Documents.Strategies
import VolBacktest.Proofs.Documents.Results
import VolBacktest.Proofs.Documents.Compiled
import VolBacktest.Proofs.Documents.Requests
import VolBacktest.Proofs.Documents.Browser
import VolBacktest.Proofs.Compilation.Reliance
import VolBacktest.Proofs.Compilation.Reordering
import VolBacktest.Proofs.Resemblance.Fields
import VolBacktest.Proofs.Resemblance.Strategies
import VolBacktest.Proofs.Resemblance.FreeFields
import VolBacktest.Proofs.Rules.Codes
import VolBacktest.Proofs.Resemblance.UnreadParts
import VolBacktest.Proofs.Backtest.Submission
import VolBacktest.Proofs.Lowering.Reference
import VolBacktest.Proofs.Rules.Paths
import VolBacktest.Proofs.Rules.Faults
import VolBacktest.Proofs.Rules.Coverage
import VolBacktest.Proofs.Rules.Report
import VolBacktest.Proofs.SortedMap
import VolBacktest.Proofs.Json.Spacing
import VolBacktest.Proofs.Json.Rearrangement
import VolBacktest.Proofs.Json.Layout
import VolBacktest.Proofs.Json.StructureLayout
import VolBacktest.Proofs.Documents.Layout
import VolBacktest.Proofs.Rules.Passes
import VolBacktest.Proofs.Rules.Concatenation
import VolBacktest.Proofs.Rules.Permutation
import VolBacktest.Proofs.Lowering.LeafWalk
import VolBacktest.Proofs.Json.Juxtaposition
import VolBacktest.Proofs.Json.Containers
import VolBacktest.Proofs.Json.Depth
import VolBacktest.Proofs.Json.Modes
import VolBacktest.Proofs.Json.Gaps
import VolBacktest.Proofs.Documents.Depth
import VolBacktest.Proofs.Documents.Gaps
import VolBacktest.Proofs.Documents.Parts
import VolBacktest.Proofs.Backtest.Histories
import VolBacktest.Proofs.Backtest.Series
import VolBacktest.Proofs.Compilation.Log
import VolBacktest.Proofs.Documents.Instruments
import VolBacktest.Proofs.Rules.Tally
import VolBacktest.Proofs.Rules.Repetition
import VolBacktest.Proofs.Lowering.Roles
import VolBacktest.Proofs.Rules.Resolution
