import JitTrace.Code.Block
import JitTrace.Code.Decompile
import JitTrace.Code.Instruction
import JitTrace.Code.Label
import JitTrace.Code.Rename
import JitTrace.Command.Basic
import JitTrace.Command.Run
import JitTrace.CommandLine.Draft
import JitTrace.CommandLine.Invocation
import JitTrace.CommandLine.Switch
import JitTrace.Config
import JitTrace.Duration
import JitTrace.Event
import JitTrace.Fault
import JitTrace.FileSystem
import JitTrace.FloatRange
import JitTrace.Index
import JitTrace.Insight.Basic
import JitTrace.Insight.Summary
import JitTrace.Instrument
import JitTrace.Journal
import JitTrace.Json.Decode
import JitTrace.Json.Node
import JitTrace.Json.Read
import JitTrace.Json.Value
import JitTrace.Location
import JitTrace.Moment
import JitTrace.Path
import JitTrace.Program
import JitTrace.Record
import JitTrace.Report.Basic
import JitTrace.Report.File
import JitTrace.Report.Read
import JitTrace.Report.Write
import JitTrace.Session
import JitTrace.Store.Basic
import JitTrace.Store.Ingest
import JitTrace.Store.Selection
import JitTrace.Stream.Basic
import JitTrace.Stream.LineReader
import JitTrace.Terminal.Render
import JitTrace.Terminal.Style
import JitTrace.Text.Blank
import JitTrace.Text.Decimal
import JitTrace.Text.Layout
import JitTrace.Text.Split
import JitTrace.Text.Utf8
import JitTrace.Toml.Read
import JitTrace.Toml.Table
import JitTrace.Transcript
import JitTrace.Workspace
import JitTrace.Main
import JitTrace.Proofs.Index
import JitTrace.Proofs.Store.Position
import JitTrace.Proofs.Store.Attach
import JitTrace.Proofs.Store.Apply
import JitTrace.Proofs.Store.Run
import JitTrace.Proofs.Store.Log
import JitTrace.Proofs.Code.Jumps
import JitTrace.Proofs.Code.Outline
import JitTrace.Proofs.Stream.Lines
import JitTrace.Proofs.Code.Meaning
import JitTrace.Proofs.Store.Status
import JitTrace.Proofs.Store.Ingestion
import JitTrace.Proofs.Code.Names
import JitTrace.Proofs.Code.ControlFlow
import JitTrace.Proofs.Code.Lookup
import JitTrace.Proofs.Code.Renaming
import JitTrace.Proofs.Session
import JitTrace.Proofs.Code.History
import JitTrace.Proofs.Code.Documents
import JitTrace.Proofs.Code.Separation
import JitTrace.Proofs.Code.Statistics
import JitTrace.Proofs.Code.Comparison
import JitTrace.Proofs.Store.LiveCode
import JitTrace.Proofs.Text.Blank
import JitTrace.Proofs.Text.Numeral
import JitTrace.Proofs.Text.Bytes
import JitTrace.Proofs.Location
import JitTrace.Proofs.Record
import JitTrace.Proofs.Code.Extraction
import JitTrace.Proofs.Code.CodeAddress
import JitTrace.Proofs.Json.Tokens
import JitTrace.Proofs.Json.Document
import JitTrace.Proofs.Workspace
import JitTrace.Proofs.Report.Decoding
import JitTrace.Proofs.Report.RoundTrip
import JitTrace.Proofs.Store.Sites
import JitTrace.Proofs.Store.Frame
import JitTrace.Proofs.Store.Naming
import JitTrace.Proofs.Stream.Buffer
import JitTrace.Proofs.Text.Words
import JitTrace.Proofs.Instrument
import JitTrace.Proofs.Store.Selection
import JitTrace.Proofs.Text.Layout
import JitTrace.Proofs.Code.Numbering
import JitTrace.Proofs.Duration
