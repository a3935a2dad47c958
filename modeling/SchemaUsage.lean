import SchemaUsage.CommandLine.Arguments
import SchemaUsage.CommandLine.Collect
import SchemaUsage.CommandLine.Failure
import SchemaUsage.CommandLine.Help
import SchemaUsage.CommandLine.Inputs
import SchemaUsage.CommandLine.Program
import SchemaUsage.CommandLine.Report
import SchemaUsage.Corn.Reader
import SchemaUsage.Delivery.Address
import SchemaUsage.Delivery.Breaker
import SchemaUsage.Delivery.Exchange
import SchemaUsage.Delivery.Sender
import SchemaUsage.Delivery.Target
import SchemaUsage.Files.Tree
import SchemaUsage.Graphql.Alike
import SchemaUsage.Graphql.Declaration
import SchemaUsage.Graphql.Document
import SchemaUsage.Graphql.Document.Printer
import SchemaUsage.Graphql.Document.Reader
import SchemaUsage.Graphql.Extension
import SchemaUsage.Graphql.Grammar
import SchemaUsage.Graphql.Introspection
import SchemaUsage.Graphql.Normal
import SchemaUsage.Graphql.Schema
import SchemaUsage.Graphql.Schema.Reader
import SchemaUsage.Graphql.StringLiteral
import SchemaUsage.Graphql.Token
import SchemaUsage.Graphql.Value
import SchemaUsage.Graphql.ValueText
import SchemaUsage.Ini.Reader
import SchemaUsage.Json.Basic
import SchemaUsage.Json.Json5
import SchemaUsage.Json.Text
import SchemaUsage.Log.Event
import SchemaUsage.Log.Filter
import SchemaUsage.Main
import SchemaUsage.Number.Binary
import SchemaUsage.Number.Literal
import SchemaUsage.Number.Power
import SchemaUsage.Number.Shortest
import SchemaUsage.Proofs.Graphql.Hidden
import SchemaUsage.Proofs.Graphql.NormalMembers
import SchemaUsage.Proofs.Reporting.Assembly
import SchemaUsage.Proofs.Reporting.Batching
import SchemaUsage.Proofs.Reporting.Conservation
import SchemaUsage.Proofs.Reporting.Shutdown
import SchemaUsage.Proofs.Usage.Exact
import SchemaUsage.Proofs.Usage.Expansion
import SchemaUsage.Proofs.Usage.Meaning
import SchemaUsage.Proofs.Usage.Naming
import SchemaUsage.Proofs.Usage.NormalForm
import SchemaUsage.Proofs.Usage.Pruning
import SchemaUsage.Proofs.Usage.Secrecy
import SchemaUsage.Proofs.Usage.Stackless
import SchemaUsage.Proofs.Usage.Supplied
import SchemaUsage.Proofs.Usage.Uses
import SchemaUsage.Proofs.Usage.Written
import SchemaUsage.Reporting.Batcher
import SchemaUsage.Reporting.Buffer
import SchemaUsage.Reporting.Interleaving
import SchemaUsage.Reporting.Recorder
import SchemaUsage.Reporting.Report
import SchemaUsage.Reporting.SampleRate
import SchemaUsage.Reporting.Wire
import SchemaUsage.Ron.Reader
import SchemaUsage.Ron.Scalar
import SchemaUsage.Settings.Basic
import SchemaUsage.Settings.Coercion
import SchemaUsage.Settings.Decoding
import SchemaUsage.Settings.Duration
import SchemaUsage.Settings.Layers
import SchemaUsage.Settings.Overrides
import SchemaUsage.Settings.Sources
import SchemaUsage.Text.Blank
import SchemaUsage.Text.Digits
import SchemaUsage.Text.Lines
import SchemaUsage.Text.Md5
import SchemaUsage.Text.Named
import SchemaUsage.Text.Scan
import SchemaUsage.Text.Shown
import SchemaUsage.Text.Symbol
import SchemaUsage.Text.Unshown
import SchemaUsage.Text.Utf8
import SchemaUsage.Toml.Reader
import SchemaUsage.Toml.Scalar
import SchemaUsage.Toml.Table
import SchemaUsage.Usage.Collection
import SchemaUsage.Usage.Expansion
import SchemaUsage.Usage.Mark
import SchemaUsage.Usage.Position
import SchemaUsage.Usage.Processor
import SchemaUsage.Usage.Reach
import SchemaUsage.Usage.Standing
import SchemaUsage.Usage.Variables
import SchemaUsage.Usage.Walk
import SchemaUsage.Yaml.Block
import SchemaUsage.Yaml.Cursor
import SchemaUsage.Yaml.Document
import SchemaUsage.Yaml.Layout
import SchemaUsage.Yaml.Node
import SchemaUsage.Yaml.Property
import SchemaUsage.Yaml.Scalar
import SchemaUsage.Yaml.Token
import SchemaUsage.Proofs.Usage.Remembering
import SchemaUsage.Proofs.Usage.Agreement
import SchemaUsage.Proofs.Usage.Identifiers
import SchemaUsage.Proofs.Usage.Precision
import SchemaUsage.Graphql.Variant
import SchemaUsage.Graphql.Growth
import SchemaUsage.Proofs.Graphql.StableSort
import SchemaUsage.Proofs.Graphql.Canonical
import SchemaUsage.Proofs.Graphql.Growth
import SchemaUsage.Proofs.Usage.Variants
import SchemaUsage.Proofs.Usage.Union
import SchemaUsage.Proofs.Usage.Growth
import SchemaUsage.Proofs.Reporting.Sessions
import SchemaUsage.Proofs.Reporting.Recording
import SchemaUsage.Proofs.Usage.SuppliedMarks
import SchemaUsage.Proofs.Reporting.RoundTrip
import SchemaUsage.Delivery.Traffic
import SchemaUsage.Proofs.Delivery.Traffic
import SchemaUsage.CommandLine.Pace
import SchemaUsage.Proofs.CommandLine.Documents
import SchemaUsage.Proofs.CommandLine.Replays
import SchemaUsage.Proofs.CommandLine.Agreement
import SchemaUsage.Graphql.Sorted
import SchemaUsage.Graphql.Reordered
import SchemaUsage.Proofs.Graphql.SortedCopies
import SchemaUsage.Proofs.Graphql.Normalized
import SchemaUsage.Proofs.Graphql.Declaration
import SchemaUsage.Proofs.Usage.Reordered
import SchemaUsage.Proofs.Usage.LiteralMarks
import SchemaUsage.Proofs.Usage.Prepared
import SchemaUsage.Proofs.Usage.Skipping
import SchemaUsage.Proofs.Usage.Orders
import SchemaUsage.Proofs.Usage.Tellings
import SchemaUsage.Proofs.Usage.Scalars
import SchemaUsage.Proofs.Reporting.References
import SchemaUsage.Proofs.Reporting.Freshness
import SchemaUsage.Proofs.Number.Order
import SchemaUsage.Proofs.Delivery.Shielding
import SchemaUsage.Graphql.Stripped
import SchemaUsage.Proofs.Usage.Stripped
import SchemaUsage.Proofs.Text.Trimmed
import SchemaUsage.Proofs.Delivery.Targets
import SchemaUsage.Proofs.Delivery.Construction
import SchemaUsage.Proofs.CommandLine.Collections
import SchemaUsage.Proofs.CommandLine.Accounts
import SchemaUsage.Usage.Visits
import SchemaUsage.Proofs.Usage.Balance
import SchemaUsage.Settings.Given
import SchemaUsage.Proofs.Settings.Merging
import SchemaUsage.Proofs.Settings.DefaultFiles
