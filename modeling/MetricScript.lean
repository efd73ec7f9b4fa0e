import MetricScript.CommandLine.Directive
import MetricScript.CommandLine.Host
import MetricScript.CommandLine.Log
import MetricScript.CommandLine.LogFilter
import MetricScript.CommandLine.Perform
import MetricScript.CommandLine.Request
import MetricScript.CommandLine.Settings
import MetricScript.CommandLine.Words
import MetricScript.Fault
import MetricScript.Files.Disk
import MetricScript.Files.Path
import MetricScript.Http.Basic
import MetricScript.Http.Form
import MetricScript.Json.Basic
import MetricScript.Json.Read
import MetricScript.Json.Record
import MetricScript.Json.Source
import MetricScript.Main
import MetricScript.Method.Binding
import MetricScript.Method.Catalog
import MetricScript.Method.Lookup
import MetricScript.Method.OnData
import MetricScript.Number.Binary
import MetricScript.Number.Decimal
import MetricScript.Number.Layout
import MetricScript.Number.Shortest
import MetricScript.Pattern.Basic
import MetricScript.Pattern.Bracket
import MetricScript.Pattern.CharSet
import MetricScript.Pattern.Escape
import MetricScript.Pattern.Options
import MetricScript.Pattern.Read
import MetricScript.Pattern.Search
import MetricScript.Provider.Basic
import MetricScript.Provider.Memory
import MetricScript.Provider.Saved
import MetricScript.Provider.Store
import MetricScript.Run.Basic
import MetricScript.Run.Calls
import MetricScript.Run.Eval
import MetricScript.Run.Exec
import MetricScript.Run.Operators
import MetricScript.Run.Resolve
import MetricScript.Script.Expr
import MetricScript.Script.Parse
import MetricScript.Script.Phrase
import MetricScript.Script.Scan
import MetricScript.Script.Token
import MetricScript.Series.Aggregate
import MetricScript.Series.Basic
import MetricScript.Series.Interval
import MetricScript.Table
import MetricScript.Text.Classes
import MetricScript.Text.Lowercase
import MetricScript.Text.Quoted
import MetricScript.Text.Split
import MetricScript.Text.Utf8
import MetricScript.Value.Basic
import MetricScript.Value.Coerce
import MetricScript.Value.Document
import MetricScript.Proofs.Script.Reading
import MetricScript.Proofs.Script.Grammar
import MetricScript.Proofs.Script.Scanning
import MetricScript.Proofs.Script.Soundness
import MetricScript.Proofs.Script.ExpressionReading
import MetricScript.Proofs.Script.CommandReading
import MetricScript.Proofs.Script.Rendering
import MetricScript.Proofs.Script.Derivation
import MetricScript.Proofs.Script.Layout
import MetricScript.Proofs.Script.RoundTrip
import MetricScript.Proofs.Script.Anchoring
import MetricScript.Proofs.Script.Lexemes
import MetricScript.Proofs.Table
import MetricScript.Proofs.Series.Samples
import MetricScript.Proofs.Provider.Refinement
import MetricScript.Proofs.Run.Plain
import MetricScript.Proofs.Run.Keeping
import MetricScript.Proofs.Run.Calls
import MetricScript.Proofs.Run.NestedData
import MetricScript.Proofs.Script.Stream
import MetricScript.Proofs.Script.Tiling
import MetricScript.Proofs.Run.Dialogue
import MetricScript.Proofs.Run.Faithful
import MetricScript.Proofs.Run.Conversation
import MetricScript.Proofs.Run.ProviderFailure
import MetricScript.Proofs.Json.Printed
import MetricScript.Proofs.Json.Documents
import MetricScript.Proofs.Provider.Saved
import MetricScript.Proofs.Files.Disk
import MetricScript.Proofs.Provider.Upkeep
import MetricScript.Proofs.CommandLine.StateFile
import MetricScript.Proofs.Provider.Sharing
import MetricScript.Proofs.Script.Moved
import MetricScript.Proofs.Script.Rounds
import MetricScript.Proofs.Script.Phrases
import MetricScript.Proofs.Script.Expressions
import MetricScript.Proofs.Script.Reports
import MetricScript.Proofs.Script.Commands
import MetricScript.Proofs.CommandLine.Invocation
import MetricScript.Proofs.CommandLine.Restart
import MetricScript.Proofs.Script.Loops
import MetricScript.Proofs.Provider.Clients
import MetricScript.Proofs.Script.Parts
import MetricScript.Proofs.Run.Names
import MetricScript.Proofs.Run.Renaming
import MetricScript.Proofs.Run.SideBySide
import MetricScript.Proofs.Run.Correspondence
import MetricScript.Proofs.Run.ReadingScripts
import MetricScript.Proofs.Run.VariableNames
import MetricScript.Proofs.Run.OutputApart
import MetricScript.Proofs.Provider.Buckets
import MetricScript.Proofs.Script.Settled
import MetricScript.Proofs.Script.Spacing
import MetricScript.Proofs.Script.Places
import MetricScript.Proofs.Script.Lines
import MetricScript.Proofs.Script.Nesting
import MetricScript.Proofs.Script.Breaks
import MetricScript.Proofs.Script.Breaking
import MetricScript.Proofs.Script.Bracketed
import MetricScript.Proofs.Method.Binding
import MetricScript.Proofs.Run.AcceptedCalls
import MetricScript.Proofs.Run.FailingCalls
import MetricScript.Proofs.Run.StoredMaps
import MetricScript.Proofs.Json.Encodings
import MetricScript.Proofs.Text.Utf8
import MetricScript.Proofs.Http.Escapes
import MetricScript.Proofs.Http.Form
import MetricScript.Proofs.Number.Grammar
import MetricScript.Proofs.Number.Value
import MetricScript.Proofs.Series.Rounding
import MetricScript.Proofs.Series.Interval
import MetricScript.Proofs.Provider.Windows
import MetricScript.Proofs.Value.Equality
import MetricScript.Proofs.Script.Messages
import MetricScript.Proofs.Run.FaultPlaces
import MetricScript.Proofs.Run.WrittenBack
import MetricScript.Proofs.Script.SeparateLines
import MetricScript.Proofs.Script.Completions
import MetricScript.Proofs.Script.FirstMessage
import MetricScript.Proofs.Provider.Counting
import MetricScript.Proofs.Script.StringBodies
