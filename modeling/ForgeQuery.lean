import ForgeQuery.Command.Conclusion
import ForgeQuery.Command.Options
import ForgeQuery.Configuration.Basic
import ForgeQuery.Configuration.Seed
import ForgeQuery.Configuration.Shape
import ForgeQuery.Configuration.Source
import ForgeQuery.Configuration.Text
import ForgeQuery.Decimal.Binary64
import ForgeQuery.Execution.Error
import ForgeQuery.Execution.Event
import ForgeQuery.Execution.Executor
import ForgeQuery.Execution.Resolver
import ForgeQuery.Execution.RootField
import ForgeQuery.Forge.Caller
import ForgeQuery.Forge.Record
import ForgeQuery.Forge.Sessions
import ForgeQuery.Forge.Store
import ForgeQuery.Json.Basic
import ForgeQuery.Json.Printer
import ForgeQuery.Json.Reader
import ForgeQuery.Json.Record
import ForgeQuery.Log.Directive
import ForgeQuery.Log.Filter
import ForgeQuery.Log.Line
import ForgeQuery.Main
import ForgeQuery.Message.Request
import ForgeQuery.Message.Response
import ForgeQuery.Ordered
import ForgeQuery.Pattern.Basic
import ForgeQuery.Pattern.CharSet
import ForgeQuery.Pattern.Reader
import ForgeQuery.Query.Argument
import ForgeQuery.Query.Document
import ForgeQuery.Query.Field
import ForgeQuery.Query.NestedCut
import ForgeQuery.Query.Projection
import ForgeQuery.Query.Selection
import ForgeQuery.Schema
import ForgeQuery.Text.Blank
import ForgeQuery.Text.Cut
import ForgeQuery.Text.Letter
import ForgeQuery.Text.Numeral
import ForgeQuery.Text.Symbol
import ForgeQuery.Yaml.Node
import ForgeQuery.Yaml.Property
import ForgeQuery.Yaml.Scalar
import ForgeQuery.Yaml.Scan
import ForgeQuery.Yaml.Token
import ForgeQuery.Yaml.Tokens
import ForgeQuery.Yaml.Value
import ForgeQuery.Proofs.Agreement
import ForgeQuery.Proofs.ArgumentScan
import ForgeQuery.Proofs.Authority
import ForgeQuery.Proofs.Calls
import ForgeQuery.Proofs.CommandStages
import ForgeQuery.Proofs.Commuting
import ForgeQuery.Proofs.Conformance
import ForgeQuery.Proofs.CutPositions
import ForgeQuery.Proofs.Cutting
import ForgeQuery.Proofs.DataShape
import ForgeQuery.Proofs.DocumentGrammar
import ForgeQuery.Proofs.Failure
import ForgeQuery.Proofs.FieldGrammar
import ForgeQuery.Proofs.Grants
import ForgeQuery.Proofs.Heading
import ForgeQuery.Proofs.History
import ForgeQuery.Proofs.Indexing
import ForgeQuery.Proofs.Layout
import ForgeQuery.Proofs.LeftmostArguments
import ForgeQuery.Proofs.LineCut
import ForgeQuery.Proofs.Lookups
import ForgeQuery.Proofs.OperationHeader
import ForgeQuery.Proofs.OrderedLaws
import ForgeQuery.Proofs.Ownership
import ForgeQuery.Proofs.PrintedLines
import ForgeQuery.Proofs.Privileges
import ForgeQuery.Proofs.Projecting
import ForgeQuery.Proofs.Reading
import ForgeQuery.Proofs.Rejoining
import ForgeQuery.Proofs.Repetitions
import ForgeQuery.Proofs.Replay
import ForgeQuery.Proofs.RequestRoundTrip
import ForgeQuery.Proofs.ResponseRoundTrip
import ForgeQuery.Proofs.Restriction
import ForgeQuery.Proofs.SessionRuns
import ForgeQuery.Proofs.SessionTable
import ForgeQuery.Proofs.Splitting
import ForgeQuery.Proofs.StandingFields
import ForgeQuery.Proofs.Stepping
import ForgeQuery.Proofs.StoredRecords
import ForgeQuery.Proofs.Units
import ForgeQuery.Proofs.Utf8
import ForgeQuery.Proofs.WritableData
import ForgeQuery.Proofs.WrittenArgument
import ForgeQuery.Proofs.WrittenField
import ForgeQuery.Proofs.WrittenJson
import ForgeQuery.Proofs.WrittenScalar
import ForgeQuery.Proofs.WrittenSelection
