import SchemaLedger.Action
import SchemaLedger.Backfill.Rows
import SchemaLedger.Backfill.Settings
import SchemaLedger.Backfill.Statement
import SchemaLedger.Backfill.Sweep
import SchemaLedger.Clients
import SchemaLedger.Command.Arguments
import SchemaLedger.Command.Help
import SchemaLedger.Command.History
import SchemaLedger.Command.Maintenance
import SchemaLedger.Command.Report
import SchemaLedger.Environment
import SchemaLedger.Inference.Attribution
import SchemaLedger.Inference.Recorder
import SchemaLedger.Installation
import SchemaLedger.Json.Document
import SchemaLedger.Json.Printer
import SchemaLedger.Json.Stored
import SchemaLedger.Json.Token
import SchemaLedger.Ledger.Database
import SchemaLedger.Ledger.Dump
import SchemaLedger.Ledger.Error
import SchemaLedger.Ledger.History
import SchemaLedger.Ledger.Memory
import SchemaLedger.Ledger.Record
import SchemaLedger.Ledger.Store
import SchemaLedger.Ledger.Table
import SchemaLedger.Lifecycle
import SchemaLedger.Main
import SchemaLedger.Number.Binary64
import SchemaLedger.Number.Read
import SchemaLedger.Number.Shortest
import SchemaLedger.Payload
import SchemaLedger.PayloadFile
import SchemaLedger.Proofs.Ledger.Chain
import SchemaLedger.Proofs.Ledger.Intact
import SchemaLedger.Proofs.Ledger.MemoryHistory
import SchemaLedger.Proofs.Ledger.TableHistory
import SchemaLedger.Proofs.Ledger.TableQuestions
import SchemaLedger.Proofs.Run
import SchemaLedger.Session.Basic
import SchemaLedger.Session.Suppression
import SchemaLedger.Session.Transaction
import SchemaLedger.Sql.Body
import SchemaLedger.Sql.CaptureHook
import SchemaLedger.Sql.Parameter
import SchemaLedger.Sql.Quote
import SchemaLedger.Sql.Reading
import SchemaLedger.Sql.SnapshotFunction
import SchemaLedger.Sql.StateSchema
import SchemaLedger.SyncTrigger.Basic
import SchemaLedger.SyncTrigger.Definition
import SchemaLedger.SyncTrigger.Installation
import SchemaLedger.SyncTrigger.Projection
import SchemaLedger.Text.Base64
import SchemaLedger.Text.Blank
import SchemaLedger.Text.CodeUnit
import SchemaLedger.Text.Digit
import SchemaLedger.Text.Line
import SchemaLedger.Text.Quoted
import SchemaLedger.Text.Sorted
import SchemaLedger.Text.Visible
import SchemaLedger.Text.Word
import SchemaLedger.Time.Calendar
import SchemaLedger.Time.Moment
import SchemaLedger.Value.Basic
import SchemaLedger.Value.Display
import SchemaLedger.Version
import SchemaLedger.Yaml.Document
import SchemaLedger.Yaml.Glyph
import SchemaLedger.Yaml.Node
import SchemaLedger.Yaml.Scalar
import SchemaLedger.Yaml.ScalarText
import SchemaLedger.Yaml.Tag
import SchemaLedger.Yaml.Token
import SchemaLedger.Proofs.Json.Kept
import SchemaLedger.Proofs.Ledger.Agreement
import SchemaLedger.Proofs.Ledger.Duplicates
import SchemaLedger.Proofs.Ledger.InFlight
import SchemaLedger.Proofs.Ledger.Clients
import SchemaLedger.Proofs.Ledger.Race
import SchemaLedger.Proofs.Ledger.LostCompletion
import SchemaLedger.Proofs.Ledger.Growth
import SchemaLedger.Proofs.Backfill.Coverage
import SchemaLedger.Proofs.Backfill.Filling
import SchemaLedger.Proofs.Inference.Batch
import SchemaLedger.Proofs.Ledger.Isolation
import SchemaLedger.Proofs.Session.Nesting
import SchemaLedger.Proofs.Session.Exit
import SchemaLedger.Proofs.Version.Search
import SchemaLedger.Proofs.Version.Distinct
import SchemaLedger.Proofs.SyncTrigger.FiringOrder
import SchemaLedger.Proofs.SyncTrigger.Projection
import SchemaLedger.Proofs.SyncTrigger.FunctionText
import SchemaLedger.Proofs.SyncTrigger.Installation
import SchemaLedger.Proofs.Ledger.Verdict
import SchemaLedger.Proofs.Ledger.Unforked
import SchemaLedger.Proofs.Ledger.Audit
import SchemaLedger.Proofs.Ledger.Effects
import SchemaLedger.Proofs.Ledger.Extension
import SchemaLedger.Proofs.Ledger.Refusal
import SchemaLedger.Proofs.Ledger.Failure
import SchemaLedger.Proofs.Inference.Report
import SchemaLedger.Proofs.Sql.FunctionBody
import SchemaLedger.Proofs.SyncTrigger.Declarations
import SchemaLedger.Proofs.SyncTrigger.Unambiguous
import SchemaLedger.Proofs.Sql.Quoting
import SchemaLedger.Proofs.Sql.Parameter
import SchemaLedger.Proofs.Backfill.Trace
import SchemaLedger.Proofs.Backfill.Parameters
import SchemaLedger.Proofs.Inference.Attribution
import SchemaLedger.Proofs.Inference.TouchedSchemas
import SchemaLedger.Proofs.Payload.Grammar
import SchemaLedger.Proofs.Payload.Storage
import SchemaLedger.Proofs.Payload.Naming
import SchemaLedger.Proofs.Version.Separation
import SchemaLedger.Proofs.Time.Stamp
import SchemaLedger.Proofs.Inference.StepNames
import SchemaLedger.Proofs.Command.Status
import SchemaLedger.Proofs.Ledger.Walk
import SchemaLedger.Proofs.Ledger.Tip
import SchemaLedger.Proofs.Inference.FreshLabel
