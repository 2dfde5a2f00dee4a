import Mathlib.Algebra.Ring.Nat
import Mathlib.Data.List.Basic

/-!
# State shared between threads: `Backend` and `Metrics`

Both classes are bundles of atomics. A fetch-and-add or fetch-and-sub is one
step here; a method that loads and then modifies (`Backend::release`,
`Metrics::onClosed`) is cut into its two steps by the modules that interleave
it. The byte counters are 64-bit and wrap. The event counters are naturals,
of which the 64-bit ones of the source are the remainders modulo 2^64: what is
said about them holds of the source as it stands until one of them has counted
2^64 events. Subtracting from zero wraps as it does in the code.

The resolved endpoint and the texts used for logging are left out: no
modelled function reads them.
-/

namespace FluxGate

/-- `fetch_sub(1)` on an unsigned 64-bit counter, as a natural. -/
def fetchSub (counter : Nat) : Nat := if counter = 0 then 2 ^ 64 - 1 else counter - 1

theorem fetchSub_of_pos {n : Nat} (h : 0 < n) : fetchSub n = n - 1 := by
  unfold fetchSub
  rw [if_neg (by omega)]

structure BackendConfig where
  name : String
  host : String
  port : Nat
  weight : Nat
  deriving DecidableEq, Repr

structure Backend where
  config : BackendConfig
  healthy : Bool
  activeConnections : Nat
  totalConnections : Nat
  failedConnections : Nat
  deriving DecidableEq, Repr

namespace Backend

def new (config : BackendConfig) : Backend := ⟨config, true, 0, 0, 0⟩

def weight (b : Backend) : Nat := b.config.weight

def setHealthy (b : Backend) (value : Bool) : Backend := { b with healthy := value }

def acquire (b : Backend) : Backend := { b with activeConnections := b.activeConnections + 1 }

/-- The second half of `release()`, after `current > 0` was found. -/
def releaseSub (b : Backend) : Backend :=
  { b with activeConnections := fetchSub b.activeConnections }

def recordConnectSuccess (b : Backend) : Backend :=
  { b with totalConnections := b.totalConnections + 1 }

def recordConnectFailure (b : Backend) : Backend :=
  { b with failedConnections := b.failedConnections + 1 }

end Backend

structure Metrics where
  accepted : Nat
  active : Nat
  rejected : Nat
  connectFailures : Nat
  clientToBackendBytes : UInt64
  backendToClientBytes : UInt64
  deriving DecidableEq, Repr

namespace Metrics

def new : Metrics := ⟨0, 0, 0, 0, 0, 0⟩

def onAccepted (m : Metrics) : Metrics := { m with accepted := m.accepted + 1 }

def onOpened (m : Metrics) : Metrics := { m with active := m.active + 1 }

/-- The second half of `onClosed()`, after `current > 0` was found. -/
def onClosedSub (m : Metrics) : Metrics := { m with active := fetchSub m.active }

def onRejected (m : Metrics) : Metrics := { m with rejected := m.rejected + 1 }

def onConnectFailure (m : Metrics) : Metrics := { m with connectFailures := m.connectFailures + 1 }

def addClientToBackend (m : Metrics) (bytes : Nat) : Metrics :=
  { m with clientToBackendBytes := m.clientToBackendBytes + UInt64.ofNat bytes }

def addBackendToClient (m : Metrics) (bytes : Nat) : Metrics :=
  { m with backendToClientBytes := m.backendToClientBytes + UInt64.ofNat bytes }

end Metrics

end FluxGate
