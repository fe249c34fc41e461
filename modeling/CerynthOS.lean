import CerynthOS.Bench.Audit
import CerynthOS.Bench.Calls
import CerynthOS.Bench.Completion
import CerynthOS.Bench.Experiment
import CerynthOS.Bench.Kernel
import CerynthOS.Bench.Matrix
import CerynthOS.Bench.Opening
import CerynthOS.Bench.Plan
import CerynthOS.Bench.Progress
import CerynthOS.Bench.Resume
import CerynthOS.Bench.Runs
import CerynthOS.Bench.Session
import CerynthOS.Bench.Steady
import CerynthOS.Daemon.Activation
import CerynthOS.Daemon.Backend
import CerynthOS.Daemon.Connection
import CerynthOS.Daemon.Exchange
import CerynthOS.Daemon.Gate
import CerynthOS.Daemon.Health
import CerynthOS.Daemon.Labels
import CerynthOS.Daemon.Os
import CerynthOS.Daemon.Process
import CerynthOS.Daemon.Scx
import CerynthOS.Daemon.Server
import CerynthOS.Daemon.Signals
import CerynthOS.Daemon.Startup
import CerynthOS.Daemon.State
import CerynthOS.Daemon.StateFile
import CerynthOS.Daemon.Tracked
import CerynthOS.Ipc.Framing
import CerynthOS.Ipc.Profile
import CerynthOS.Ipc.Protocol
import CerynthOS.Policy.Evidence
import CerynthOS.Policy.Holds
import CerynthOS.Policy.Load
import CerynthOS.Policy.Recording
import CerynthOS.Policy.Replay
import CerynthOS.Policy.Report
import CerynthOS.Policy.Reported
import CerynthOS.Policy.Rules
import CerynthOS.Policy.Stability
import CerynthOS.Schemes.Batches
import CerynthOS.Schemes.Binary64
import CerynthOS.Schemes.Debounce
import CerynthOS.Schemes.Files
import CerynthOS.Schemes.FloatOrder
import CerynthOS.Schemes.Json
import CerynthOS.Schemes.JsonBytes
import CerynthOS.Schemes.JsonCodec
import CerynthOS.Schemes.JsonCoding
import CerynthOS.Schemes.JsonDecimals
import CerynthOS.Schemes.JsonDocument
import CerynthOS.Schemes.JsonText
import CerynthOS.Schemes.JsonWidth
import CerynthOS.Schemes.KeyQueue
import CerynthOS.Schemes.Lifecycle
import CerynthOS.Schemes.Lines
import CerynthOS.Schemes.Machine
import CerynthOS.Schemes.Mutex
import CerynthOS.Schemes.Program
import CerynthOS.Schemes.Python
import CerynthOS.Schemes.RingBuffer
import CerynthOS.Schemes.Rounding
import CerynthOS.Schemes.StableSort
import CerynthOS.Schemes.Tally
import CerynthOS.Schemes.Trees
import CerynthOS.Schemes.Words
import CerynthOS.Scx.Counters
import CerynthOS.Scx.Datagrams
import CerynthOS.Scx.Dispatcher
import CerynthOS.Scx.Drain
import CerynthOS.Scx.Live
import CerynthOS.Scx.Loop
import CerynthOS.Scx.Order
import CerynthOS.Scx.Ordering
import CerynthOS.Scx.Overtaking
import CerynthOS.Scx.Passes
import CerynthOS.Scx.Policy
import CerynthOS.Scx.Preparation
import CerynthOS.Scx.Queues
import CerynthOS.Scx.Reporter
import CerynthOS.Scx.Reports
import CerynthOS.Scx.Snapshots
import CerynthOS.Scx.System
import CerynthOS.Telemetry.Lifetimes
import CerynthOS.Telemetry.Rates
import CerynthOS.Telemetry.Source
import CerynthOS.Telemetry.Usage
import CerynthOS.Tools.Monitors
import CerynthOS.Tools.ProcessEntry
import CerynthOS.Scx.Steps
import CerynthOS.Scx.Custody
import CerynthOS.Scx.Latency
import CerynthOS.Scx.Generations
import CerynthOS.Scx.Wakeups
import CerynthOS.Scx.Accounting
import CerynthOS.Scx.Atomic
import CerynthOS.Tools.Burst
import CerynthOS.Scx.Idle
import CerynthOS.Tools.Sessions
import CerynthOS.Schemes.Shell
import CerynthOS.Tools.Driver
import CerynthOS.Tools.Validation
