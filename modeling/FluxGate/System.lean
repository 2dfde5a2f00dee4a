import FluxGate.Worker
import FluxGate.Lib.Run
import Mathlib.Data.Fin.Basic

/-!
# The process: acceptor, workers and the table of open descriptors

The acceptor (the main thread) accepts clients and hands each to a worker;
after its last client it stops the workers and joins them. The workers, the
acceptor and the rest of the process (the listening socket, the health
checker) share one table of descriptors: a new descriptor gets any number
that is not open, and closing one removes it from every epoll set.

The choice of the worker is left open: it only depends on counters that other
threads change at any time. Kept for the specification only: how often the
acceptor and the workers were given a descriptor and how often they closed
one, and which open descriptors came from `accept4`.
-/

namespace FluxGate

open Lib

/-- Where the main thread is. -/
inductive AcceptorPc where
  | accepting
  | configure (fd : Fd)
  | enqueueTest (fd : Fd) (worker : Nat)
  | enqueuePush (fd : Fd) (worker : Nat)
  | enqueueWrite (fd : Fd) (worker : Nat)
  | reject (fd : Fd)
  | stop (worker : Nat)
  | stopWrite (worker : Nat)
  | joined
  deriving DecidableEq, Repr

structure System (n : Nat) where
  workers : Fin n → Worker
  acceptor : AcceptorPc
  /-- the descriptors of the rest of the process -/
  others : List Fd
  isOpen : Fd → Bool
  shared : SharedState
  opened : Fd → Nat
  closed : Fd → Nat
  accepted : Fd → Bool

/-- Labels: the two failures that some results exclude are visible. -/
inductive SystemAct (n : Nat) where
  | worker (i : Fin n) (epollError : Bool)
  | acceptor (writeFailed : Bool)
  | others

namespace System

variable {n : Nat}

def setWorker (s : System n) (i : Fin n) (w : Worker) : System n :=
  { s with workers := Function.update s.workers i w }

/-- The kernel hands out a descriptor to the acceptor or a worker. -/
def openFd (s : System n) (fd : Fd) (client : Bool) : System n :=
  { s with
    isOpen := Function.update s.isOpen fd true
    opened := Function.update s.opened fd (s.opened fd + 1)
    accepted := Function.update s.accepted fd client }

/-- Closing a descriptor, whoever does it. -/
def release (s : System n) (fd : Fd) : System n :=
  { s with
    isOpen := Function.update s.isOpen fd false
    workers := fun i => (s.workers i).forget fd
    accepted := Function.update s.accepted fd false }

/-- `::close` by the acceptor or a worker. -/
def closeFd (s : System n) (fd : Fd) : System n :=
  { s.release fd with closed := Function.update s.closed fd (s.closed fd + 1) }

/-- The descriptors of a worker step. -/
def apply (s : System n) : FdEffect → System n
  | .none => s
  | .openUpstream fd => s.openFd fd false
  | .closeClient fd => s.closeFd fd
  | .closeUpstream fd => s.closeFd fd

/-- The number asked for is not open. -/
def Allows (s : System n) : FdEffect → Prop
  | .openUpstream fd => s.isOpen fd = false
  | _ => True

inductive Step (config : AppConfig) (s : System n) : SystemAct n → System n → Prop
  | worker {i : Fin n} {error : Bool} {eff : FdEffect} {sh : SharedState} {w : Worker}
      (hstep : Worker.Step config s.shared (s.workers i) error eff sh w) (hfd : s.Allows eff) :
      Step config s (.worker i error) ({ s.setWorker i w with shared := sh }.apply eff)
  -- the accept loop of main()
  | accept (fd : Fd) (hpc : s.acceptor = .accepting) (hfd : s.isOpen fd = false) :
      Step config s (.acceptor false)
        { s.openFd fd true with
          acceptor := .configure fd
          shared := s.shared.onMetrics Metrics.onAccepted }
  | configured (fd : Fd) (i : Fin n) (hpc : s.acceptor = .configure fd) :
      Step config s (.acceptor false) { s with acceptor := .enqueueTest fd i }
  | configureFailed (fd : Fd) (hpc : s.acceptor = .configure fd) :
      Step config s (.acceptor false) { s with acceptor := .reject fd }
  -- Worker::enqueue()
  | notRunning (fd : Fd) (i : Fin n) (hpc : s.acceptor = .enqueueTest fd i)
      (hrun : (s.workers i).running = false) :
      Step config s (.acceptor false) { s with acceptor := .reject fd }
  | running (fd : Fd) (i : Fin n) (hpc : s.acceptor = .enqueueTest fd i)
      (hrun : (s.workers i).running = true) :
      Step config s (.acceptor false) { s with acceptor := .enqueuePush fd i }
  | queueFull (fd : Fd) (i : Fin n) (hpc : s.acceptor = .enqueuePush fd i)
      (hlen : config.backlog * 4 ≤ (s.workers i).queue.length) :
      Step config s (.acceptor false) { s with acceptor := .reject fd }
  | push (fd : Fd) (i : Fin n) (hpc : s.acceptor = .enqueuePush fd i)
      (hlen : (s.workers i).queue.length < config.backlog * 4) :
      Step config s (.acceptor false)
        { s.setWorker i { s.workers i with
            queue := (s.workers i).queue ++ [fd]
            enqueued := (s.workers i).enqueued ++ [fd] } with
          acceptor := .enqueueWrite fd i }
  | notified (fd : Fd) (i : Fin n) (hpc : s.acceptor = .enqueueWrite fd i) :
      Step config s (.acceptor false)
        { s.setWorker i { s.workers i with wakeCount := (s.workers i).wakeCount + 1 } with
          acceptor := .accepting }
  | notifyAgain (fd : Fd) (i : Fin n) (hpc : s.acceptor = .enqueueWrite fd i)
      (hcount : 0 < (s.workers i).wakeCount) :
      Step config s (.acceptor false) { s with acceptor := .accepting }
  | notifyFailed (fd : Fd) (i : Fin n) (hpc : s.acceptor = .enqueueWrite fd i) :
      Step config s (.acceptor true) { s with acceptor := .reject fd }
  | reject (fd : Fd) (hpc : s.acceptor = .reject fd) :
      Step config s (.acceptor false)
        { s.closeFd fd with
          acceptor := .accepting
          shared := s.shared.onMetrics Metrics.onRejected }
  -- shutdown: stop() on every worker, then join()
  | shutdown (hpc : s.acceptor = .accepting) :
      Step config s (.acceptor false) { s with acceptor := .stop 0 }
  | stop (i : Fin n) (hpc : s.acceptor = .stop i) (hrun : (s.workers i).running = true) :
      Step config s (.acceptor false)
        { s.setWorker i { s.workers i with running := false } with acceptor := .stopWrite i }
  | stoppedBefore (i : Fin n) (hpc : s.acceptor = .stop i) (hrun : (s.workers i).running = false) :
      Step config s (.acceptor false) { s with acceptor := .stop (i + 1) }
  | stopNotified (i : Fin n) (hpc : s.acceptor = .stopWrite i) :
      Step config s (.acceptor false)
        { s.setWorker i { s.workers i with wakeCount := (s.workers i).wakeCount + 1 } with
          acceptor := .stop (i + 1) }
  | stopNotifyIgnored (i : Fin n) (hpc : s.acceptor = .stopWrite i) :
      Step config s (.acceptor false) { s with acceptor := .stop (i + 1) }
  | join (hpc : s.acceptor = .stop n) (hstopped : ∀ i, (s.workers i).pc = .stopped) :
      Step config s (.acceptor false) { s with acceptor := .joined }
  -- the rest of the process
  | othersOpen (fd : Fd) (hfd : s.isOpen fd = false) :
      Step config s .others
        { s with isOpen := Function.update s.isOpen fd true, others := fd :: s.others }
  | othersClose (fd : Fd) (hfd : fd ∈ s.others) :
      Step config s .others { s.release fd with others := s.others.erase fd }
  | setHealthy (b : Nat) (value : Bool) :
      Step config s .others { s with shared := s.shared.onBackend b (·.setHealthy value) }

/-- A worker as its constructor and `start()` leave it. -/
def newWorker (wakeFd epollFd : Fd) : Worker where
  wakeFd := wakeFd
  epollFd := epollFd
  running := true
  queue := []
  wakeCount := 0
  epoll := Function.update (fun _ => none) wakeFd (some (EPOLLIN, none))
  fdToSession := fun _ => none
  sessions := []
  heap := fun _ => none
  activeSessions := 0
  nextSessionId := 1
  lastSweep := 0
  pc := .loopTest
  enqueued := []
  taken := []
  issued := []

/-- The process when the accept loop begins: the descriptors of the workers
and of the rest of the process, all different, are open. -/
structure Start (s : System n) : Prop where
  workers : ∀ i, ∃ wakeFd epollFd, s.workers i = newWorker wakeFd epollFd
  acceptor : s.acceptor = .accepting
  isOpen : ∀ fd, s.isOpen fd = true ↔
    fd ∈ s.others ∨ ∃ i, fd = (s.workers i).wakeFd ∨ fd = (s.workers i).epollFd
  distinct : (s.others ++ (List.finRange n).flatMap
    fun i => [(s.workers i).wakeFd, (s.workers i).epollFd]).Nodup
  backends : ∀ b, s.shared.active b = 0
  opened : ∀ fd, s.opened fd = 0
  closed : ∀ fd, s.closed fd = 0
  accepted : ∀ fd, s.accepted fd = false

end System

end FluxGate
