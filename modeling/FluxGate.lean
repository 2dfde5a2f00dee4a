import FluxGate.Session
import FluxGate.Lib.Pipe
import FluxGate.Lib.Run
import FluxGate.Relay
import FluxGate.HalfClose
import FluxGate.Kernel
import FluxGate.BusyLoop
import FluxGate.Health
import FluxGate.HealthThread
import FluxGate.BackendPool
import FluxGate.Lib.Count
import FluxGate.Lease
import FluxGate.Lib.Apportion
import FluxGate.Scheduling
import FluxGate.Config
import FluxGate.Lib.Text
import FluxGate.ConfigLoader
import FluxGate.Lib.Writes
import FluxGate.ConfigReading
import FluxGate.ConfigSections
import FluxGate.ConfigGrammar
import FluxGate.ConfigRender
import FluxGate.ConfigLayout
import FluxGate.Worker
import FluxGate.System
import FluxGate.Ownership
import FluxGate.Reactor
import FluxGate.EpollSet
import FluxGate.Process
import FluxGate.Shutdown
import FluxGate.Handover
import FluxGate.Accounting
import FluxGate.Outcomes
import FluxGate.OutcomeCounts
import FluxGate.Fifo
import FluxGate.Transfer
import FluxGate.Choice
import FluxGate.Dispatch
import FluxGate.Enqueue
import FluxGate.Lib.Watch
import FluxGate.Rollback
import FluxGate.Startup
import FluxGate.Lib.Variant
import FluxGate.Progress
import FluxGate.Termination
import FluxGate.Timeouts
import FluxGate.Isolation
import FluxGate.Lib.Scoped
import FluxGate.UniqueFd
import FluxGate.Net
import FluxGate.Upstream
import FluxGate.Lifetime
import FluxGate.ConfigFaults
