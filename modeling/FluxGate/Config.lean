import FluxGate.Shared

/-!
# The application's configuration
-/

namespace FluxGate

structure AppConfig where
  listenHost : String := "0.0.0.0"
  listenPort : Nat := 8080
  workers : Nat := 4
  backlog : Nat := 1024
  maxEvents : Nat := 2048
  bufferSize : Nat := 64 * 1024
  connectTimeoutMs : Nat := 3000
  idleTimeoutSeconds : Nat := 60
  statsIntervalSeconds : Nat := 10
  healthCheckIntervalMs : Nat := 3000
  healthCheckTimeoutMs : Nat := 800
  healthCheckFailureThreshold : Nat := 3
  healthCheckSuccessThreshold : Nat := 2
  logLevel : String := "info"
  backends : List BackendConfig := []
  deriving DecidableEq, Repr

end FluxGate
