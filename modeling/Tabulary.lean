import Tabulary.Attempt
import Tabulary.Catalog.Database
import Tabulary.Catalog.Manifest
import Tabulary.Catalog.Registry
import Tabulary.Command.Basic
import Tabulary.Command.Frontend
import Tabulary.Command.Part
import Tabulary.Command.Reader
import Tabulary.Engine
import Tabulary.Error.Command
import Tabulary.Error.Engine
import Tabulary.Error.Fault
import Tabulary.Error.Schema
import Tabulary.Execution
import Tabulary.Files.Basic
import Tabulary.Files.Path
import Tabulary.Interface.CommandLine
import Tabulary.Interface.Http
import Tabulary.Interface.Session
import Tabulary.Json.Basic
import Tabulary.Json.Check
import Tabulary.Json.Printer
import Tabulary.Json.Reader
import Tabulary.Keyed
import Tabulary.Lock
import Tabulary.Main
import Tabulary.Name
import Tabulary.Operator.Cursor
import Tabulary.Operator.Plan
import Tabulary.Proofs.Attempt
import Tabulary.Proofs.Catalog.Closing
import Tabulary.Proofs.Catalog.Confinement
import Tabulary.Proofs.Catalog.Course
import Tabulary.Proofs.Catalog.Creation
import Tabulary.Proofs.Catalog.Database
import Tabulary.Proofs.Catalog.Definition
import Tabulary.Proofs.Catalog.Directories
import Tabulary.Proofs.Catalog.Discovery
import Tabulary.Proofs.Catalog.Isolation
import Tabulary.Proofs.Catalog.Leftover
import Tabulary.Proofs.Catalog.Loading
import Tabulary.Proofs.Catalog.Manifest
import Tabulary.Proofs.Catalog.ManifestFile
import Tabulary.Proofs.Catalog.ManifestText
import Tabulary.Proofs.Catalog.Query
import Tabulary.Proofs.Catalog.Reached
import Tabulary.Proofs.Catalog.Registry
import Tabulary.Proofs.Catalog.Residence
import Tabulary.Proofs.Catalog.Rollback
import Tabulary.Proofs.Catalog.Sanity
import Tabulary.Proofs.Catalog.Table
import Tabulary.Proofs.Catalog.Tidy
import Tabulary.Proofs.Catalog.Unchanged
import Tabulary.Proofs.Catalog.Upkeep
import Tabulary.Proofs.Command.Accepted
import Tabulary.Proofs.Command.Own
import Tabulary.Proofs.Command.Parts
import Tabulary.Proofs.Command.Qualifier
import Tabulary.Proofs.Command.Reading
import Tabulary.Proofs.Command.Sentence
import Tabulary.Proofs.Command.Written
import Tabulary.Proofs.Conversion
import Tabulary.Proofs.Conversion.Retraction
import Tabulary.Proofs.Engine.Answers
import Tabulary.Proofs.Engine.Basic
import Tabulary.Proofs.Engine.Columns
import Tabulary.Proofs.Engine.Consistency
import Tabulary.Proofs.Engine.Isolation
import Tabulary.Proofs.Engine.Join
import Tabulary.Proofs.Engine.Life
import Tabulary.Proofs.Engine.Operation
import Tabulary.Proofs.Engine.Qualifier
import Tabulary.Proofs.Engine.Raising
import Tabulary.Proofs.Engine.Reopen
import Tabulary.Proofs.Engine.Restart
import Tabulary.Proofs.Engine.Starting
import Tabulary.Proofs.Engine.Unchanged
import Tabulary.Proofs.Engine.Views
import Tabulary.Proofs.Execution
import Tabulary.Proofs.Files
import Tabulary.Proofs.Files.Bare
import Tabulary.Proofs.Files.Confined
import Tabulary.Proofs.Files.Edit
import Tabulary.Proofs.Files.Effect
import Tabulary.Proofs.Files.Local
import Tabulary.Proofs.Files.Place
import Tabulary.Proofs.Json.Line
import Tabulary.Proofs.Json.RoundTrip
import Tabulary.Proofs.Keyed
import Tabulary.Proofs.Lock.Exclusion
import Tabulary.Proofs.Lock.Monitor
import Tabulary.Proofs.Lock.Preference
import Tabulary.Proofs.Lock.Program
import Tabulary.Proofs.Lock.Scope
import Tabulary.Proofs.Memory.Basic
import Tabulary.Proofs.Memory.Join
import Tabulary.Proofs.Memory.Names
import Tabulary.Proofs.Memory.Raising
import Tabulary.Proofs.Memory.Reopen
import Tabulary.Proofs.Memory.Seeding
import Tabulary.Proofs.Name
import Tabulary.Proofs.Operator.Drain
import Tabulary.Proofs.Operator.Lookup
import Tabulary.Proofs.Operator.Opening
import Tabulary.Proofs.Operator.Query
import Tabulary.Proofs.Operator.Relation
import Tabulary.Proofs.Operator.Snapshot
import Tabulary.Proofs.Record.Cut
import Tabulary.Proofs.Record.Image
import Tabulary.Proofs.Record.Layout
import Tabulary.Proofs.Record.Leading
import Tabulary.Proofs.Record.Reads
import Tabulary.Proofs.Record.RoundTrip
import Tabulary.Proofs.Record.Word
import Tabulary.Proofs.Record.Yields
import Tabulary.Proofs.Result.Columns
import Tabulary.Proofs.Result.Text
import Tabulary.Proofs.Row
import Tabulary.Proofs.Schema
import Tabulary.Proofs.Schema.Layout
import Tabulary.Proofs.Sql.Expression
import Tabulary.Proofs.Sql.Spelling
import Tabulary.Proofs.Store.Commit
import Tabulary.Proofs.Store.Disk
import Tabulary.Proofs.Store.Draft
import Tabulary.Proofs.Store.Failure
import Tabulary.Proofs.Store.History
import Tabulary.Proofs.Store.Interrupted
import Tabulary.Proofs.Store.Lifecycle
import Tabulary.Proofs.Store.Opened
import Tabulary.Proofs.Store.Opening
import Tabulary.Proofs.Store.Operation
import Tabulary.Proofs.Store.Reading
import Tabulary.Proofs.Store.Rebuild
import Tabulary.Proofs.Store.Separate
import Tabulary.Proofs.Store.Several
import Tabulary.Proofs.Store.Telemetry
import Tabulary.Proofs.Store.Torn
import Tabulary.Proofs.Store.Validation
import Tabulary.Proofs.Store.Writing
import Tabulary.Proofs.Table.Change
import Tabulary.Proofs.Table.Index
import Tabulary.Proofs.Table.Replay
import Tabulary.Proofs.Table.Rows
import Tabulary.Proofs.Table.Separate
import Tabulary.Proofs.Table.Stage
import Tabulary.Proofs.Text.Decimal
import Tabulary.Proofs.Text.Numeral
import Tabulary.Record.Decoder
import Tabulary.Record.Encoder
import Tabulary.Record.Scan
import Tabulary.Record.Word
import Tabulary.Result.Basic
import Tabulary.Result.Row
import Tabulary.Row
import Tabulary.Schema.Basic
import Tabulary.Schema.Column
import Tabulary.Schema.ColumnType
import Tabulary.Settings
import Tabulary.Sql.Frontend
import Tabulary.Sql.Grammar.Basic
import Tabulary.Sql.Grammar.Definition
import Tabulary.Sql.Grammar.Expression
import Tabulary.Sql.Grammar.Query
import Tabulary.Sql.Grammar.Statement
import Tabulary.Sql.Grammar.Words
import Tabulary.Sql.Lexer
import Tabulary.Sql.Parser
import Tabulary.Sql.Printer
import Tabulary.Sql.Token
import Tabulary.Sql.Tree
import Tabulary.Store.Basic
import Tabulary.Store.Disk
import Tabulary.Store.Handle
import Tabulary.Store.Tables
import Tabulary.Table.Basic
import Tabulary.Table.Index
import Tabulary.Telemetry.Event
import Tabulary.Telemetry.Metrics
import Tabulary.Telemetry.Span
import Tabulary.Text.Blank
import Tabulary.Text.Decimal
import Tabulary.Text.Digit
import Tabulary.Text.Hex
import Tabulary.Text.Initial
import Tabulary.Text.Order
import Tabulary.Text.Percent
import Tabulary.Text.Printable
import Tabulary.Text.Quoted
import Tabulary.Text.Upper
import Tabulary.Text.Utf8
import Tabulary.Value
import Tabulary.World
