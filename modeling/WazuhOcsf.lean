import WazuhOcsf.Library.Runs
import WazuhOcsf.Library.InfiniteRuns
import WazuhOcsf.Library.HashMap
import WazuhOcsf.Library.RustString
import WazuhOcsf.Library.Json
import WazuhOcsf.Util.Json
import WazuhOcsf.Config
import WazuhOcsf.Pipeline.FieldPaths
import WazuhOcsf.Pipeline.Classify
import WazuhOcsf.Pipeline.Vendors
import WazuhOcsf.Pipeline.Transform
import WazuhOcsf.Pipeline.Statements
import WazuhOcsf.Library.Collisions
import WazuhOcsf.Library.JsonReader
import WazuhOcsf.Coherence
import WazuhOcsf.Pipeline.Overlay
import WazuhOcsf.Precedence
import WazuhOcsf.Determinism
import WazuhOcsf.Output.Db
import WazuhOcsf.Readback
import WazuhOcsf.Main.EventLoop
import WazuhOcsf.Library.Traces
import WazuhOcsf.Output.FlushSpec
import WazuhOcsf.Delivery
import WazuhOcsf.CustomColumns
import WazuhOcsf.Library.Lines
import WazuhOcsf.Input.Tailer
import WazuhOcsf.Input.Drain
import WazuhOcsf.Resumption
import WazuhOcsf.Resume
import WazuhOcsf.Rotation
import WazuhOcsf.Main.System
import WazuhOcsf.Positions
import WazuhOcsf.Commit
import WazuhOcsf.Library.JsonAddress
import WazuhOcsf.Library.Utf8
import WazuhOcsf.Discovery
import WazuhOcsf.Tailing
import WazuhOcsf.Main.ConfigWatcher
import WazuhOcsf.HotReload
import WazuhOcsf.Util.Unmapped
import WazuhOcsf.UnmappedReport
import WazuhOcsf.Reads
import WazuhOcsf.UnusedFields
import WazuhOcsf.Backlog
import WazuhOcsf.Input.StateStore
import WazuhOcsf.Main.History
import WazuhOcsf.Progress
import WazuhOcsf.Restart
import WazuhOcsf.Retention
import WazuhOcsf.Util.Lookup
import WazuhOcsf.Flattening
import WazuhOcsf.NumericLookup
import WazuhOcsf.Library.Narrowing
import WazuhOcsf.Narrowing
import WazuhOcsf.Outcome
import WazuhOcsf.ProcessId
import WazuhOcsf.Output.Ddl
import WazuhOcsf.ReportOrder
import WazuhOcsf.NativeExtensions
import WazuhOcsf.Leaves
import WazuhOcsf.Main.StartUp
import WazuhOcsf.Library.Potential
import WazuhOcsf.Shutdown
import WazuhOcsf.Ingest
import WazuhOcsf.Ledger
import WazuhOcsf.Output.Server
import WazuhOcsf.SchemaFit
import WazuhOcsf.Input.Zmq
import WazuhOcsf.Subscription
import WazuhOcsf.Util.ReportFile
import WazuhOcsf.Reports
import WazuhOcsf.Library.JsonParser
import WazuhOcsf.JsonColumns
import WazuhOcsf.Registration
import WazuhOcsf.Lockstep
import WazuhOcsf.Reloading
import WazuhOcsf.Truncation
import WazuhOcsf.AddedMappings
import WazuhOcsf.RotatedRows
import WazuhOcsf.SchemaHistory
import WazuhOcsf.Disk
import WazuhOcsf.NormalStops
import WazuhOcsf.CatchingUp
import WazuhOcsf.Generations
