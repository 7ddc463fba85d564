import MonitorCoverage.Binary64.Basic
import MonitorCoverage.Binary64.Layout
import MonitorCoverage.Binary64.Reader
import MonitorCoverage.Binary64.Shortest
import MonitorCoverage.ByteSize
import MonitorCoverage.ByteStream
import MonitorCoverage.Bytes
import MonitorCoverage.ClassFile.Access
import MonitorCoverage.ClassFile.Assembly
import MonitorCoverage.ClassFile.Basic
import MonitorCoverage.ClassFile.ConstantPool
import MonitorCoverage.ClassFile.Decoder
import MonitorCoverage.ClassFile.Error
import MonitorCoverage.ClassFile.Instruction
import MonitorCoverage.ClassFile.Opcode
import MonitorCoverage.Command.Flag
import MonitorCoverage.Command.Invocation
import MonitorCoverage.Command.Run
import MonitorCoverage.Command.Schema
import MonitorCoverage.Decimal.Exact
import MonitorCoverage.Decimal.Integer
import MonitorCoverage.Decimal.Literal
import MonitorCoverage.Dotenv
import MonitorCoverage.Files
import MonitorCoverage.Input
import MonitorCoverage.Json.Basic
import MonitorCoverage.Json.Reader
import MonitorCoverage.Json.Writer
import MonitorCoverage.Lock.Analysis
import MonitorCoverage.Lock.Event
import MonitorCoverage.Lock.State
import MonitorCoverage.Lock.Tally
import MonitorCoverage.Lock.Workers
import MonitorCoverage.Log.Handler
import MonitorCoverage.Log.Level
import MonitorCoverage.Log.Moment
import MonitorCoverage.Log.Record
import MonitorCoverage.Lz4.Block
import MonitorCoverage.Lz4.Checksum
import MonitorCoverage.Lz4.Frame
import MonitorCoverage.Main
import MonitorCoverage.Proofs.Assembling
import MonitorCoverage.Proofs.BoundaryCount
import MonitorCoverage.Proofs.ClassCounting
import MonitorCoverage.Proofs.ClassFileLayout
import MonitorCoverage.Proofs.ConstantSlots
import MonitorCoverage.Proofs.CountBounds
import MonitorCoverage.Proofs.DecimalText
import MonitorCoverage.Proofs.InputExtension
import MonitorCoverage.Proofs.InstructionDecoding
import MonitorCoverage.Proofs.InstructionSet
import MonitorCoverage.Proofs.LockCounting
import MonitorCoverage.Proofs.OperandLayout
import MonitorCoverage.Proofs.Outcome
import MonitorCoverage.Proofs.PoolDrafting
import MonitorCoverage.Proofs.Recognition
import MonitorCoverage.Proofs.ReportValidity
import MonitorCoverage.Proofs.RoundingOrder
import MonitorCoverage.Proofs.Utf8Reading
import MonitorCoverage.Proofs.JsonGrammar
import MonitorCoverage.Proofs.ShortestDecimals
import MonitorCoverage.Proofs.SchemaMeaning
import MonitorCoverage.Proofs.ReportReading
import MonitorCoverage.Proofs.WholeInput
import MonitorCoverage.Proofs.RunTranscripts
import MonitorCoverage.Proofs.ValidSettings
import MonitorCoverage.Proofs.WorkerSchedules
import MonitorCoverage.Range
import MonitorCoverage.Release
import MonitorCoverage.Report.Basic
import MonitorCoverage.Report.Render
import MonitorCoverage.Report.Table
import MonitorCoverage.Report.Validation
import MonitorCoverage.Schema.Basic
import MonitorCoverage.Schema.Shape
import MonitorCoverage.Schema.Tag
import MonitorCoverage.Settings.Basic
import MonitorCoverage.Settings.Source
import MonitorCoverage.Settings.Value
import MonitorCoverage.Telemetry.Headers
import MonitorCoverage.Telemetry.Metrics
import MonitorCoverage.Telemetry.Providers
import MonitorCoverage.Telemetry.Sampler
import MonitorCoverage.Telemetry.Span
import MonitorCoverage.Text.Base64
import MonitorCoverage.Text.Blank
import MonitorCoverage.Text.Digit
import MonitorCoverage.Text.Directive
import MonitorCoverage.Text.DisplayWidth
import MonitorCoverage.Text.LowerCase
import MonitorCoverage.Text.Printable
import MonitorCoverage.Text.Quoted
import MonitorCoverage.Text.Ranges
import MonitorCoverage.Text.Utf8
import MonitorCoverage.Toml.Reader
import MonitorCoverage.Toml.Scalar
import MonitorCoverage.Toml.Table
import MonitorCoverage.Yaml.Block
import MonitorCoverage.Yaml.Character
import MonitorCoverage.Yaml.Flow
import MonitorCoverage.Yaml.Node
import MonitorCoverage.Yaml.Scalar
import MonitorCoverage.Yaml.Timestamp
import MonitorCoverage.Yaml.Writer
import MonitorCoverage.Proofs.MonitorNesting
import MonitorCoverage.Proofs.SizeLimits
import MonitorCoverage.Proofs.SlotOverflow
import MonitorCoverage.Proofs.FaultKinds
import MonitorCoverage.Proofs.ReaderCongruence
import MonitorCoverage.Proofs.CodeTruncation
import MonitorCoverage.Proofs.CodeRelocation
import MonitorCoverage.Proofs.LockMonotonicity
import MonitorCoverage.Proofs.MethodIndependence
import MonitorCoverage.Proofs.LineFields
import MonitorCoverage.Proofs.Trimming
import MonitorCoverage.Proofs.HeaderLists
import MonitorCoverage.Proofs.LogPlacement
import MonitorCoverage.Proofs.RefusedWrites
import MonitorCoverage.Proofs.SlotAlignment
import MonitorCoverage.Proofs.ByteRequests
import MonitorCoverage.Proofs.ReaderScripts
import MonitorCoverage.Proofs.CursorSafety
