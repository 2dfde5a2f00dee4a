import FluxGate.Config
import FluxGate.Relay

/-!
# `Worker`: one reactor

A worker is a state machine: `Pc` says where its thread is in `run()`,
`drainQueue`, `createSession`, `closeSession` and `sweepIdleSessions`, with
the local variables alive there. Opening and closing a descriptor, each step of
a counter that other threads also lower, the running flag, the eventfd and the
queue mutex are steps of their own, as are the calls of `epoll_ctl` that may
fail. What the thread does in between to data only it uses is lumped together:
a whole call of `handleEvent`, the publication of a session, its removal from
the epoll set and the maps, one pass over `sessions_`.

Session objects live in a heap and are referred to by the maps and by local
vectors, as the `shared_ptr`s of the code do. An object is destroyed when its
last reference goes: its lease is released, then the upstream socket is
closed, then the client socket.

The clock is read by the step that uses it, and a sweep reads it twice: `now`
decides whether the sweep is due, and `sweepNow` judges all the sessions. The
source reads `steady_clock` anew at every test of the pass, once or twice for a
session; one reading stands for them all, as the thread does nothing else in the
pass.

The epoll set also remembers, for the specification only, which object was
registered. Addresses of clients and log texts are left out. The counter of
session ids is a natural; the 64-bit one of the source wraps once a worker has
built 2^64 sessions, and `run_ids_unwrapped` says what holds until then.
-/

namespace FluxGate

open Lib

/-- An object on the heap, by the id it was built with. -/
abbrev Ref := Nat

/-- An event of a batch: what `epoll_wait` stored, and what was registered
under the fd when it returned. -/
structure Event where
  fd : Fd
  mask : EventMask
  who : Option Ref
  deriving DecidableEq, Repr

/-- What is still to be done to give up a client, an upstream socket or a lease. -/
inductive CleanOp where
  | closeClient (fd : Fd)
  | closeUpstream (fd : Fd)
  | connectFailed (backend : Nat)
  | releaseLoad (backend : Nat)
  | releaseTest (backend : Nat) (current : Nat)
  deriving DecidableEq, Repr

/-- Where `createSession` is. -/
inductive Job where
  | acquire (client : Fd)
  | socket (client : Fd) (backend : Nat)
  | connect (client : Fd) (backend : Nat) (upstream : Fd)
  | construct (client : Fd) (backend : Nat) (upstream : Fd) (connecting : Bool)
  | registerClient (p : Ref)
  | registerUpstream (p : Ref)
  | publish (p : Ref)
  | unregister (p : Ref)
  | cleanup (ops : List CleanOp)
  deriving DecidableEq, Repr

/-- Where `drainQueue` was called from. -/
inductive DrainCtx where
  | batch (rest : List Event)
  | final
  deriving DecidableEq, Repr

/-- Which vector of sessions is being closed or destroyed. -/
inductive CloseCtx where
  | closing
  | expired (outer : List Ref)
  | remaining
  deriving DecidableEq, Repr

inductive Pc where
  | loopTest
  | epollWait
  | batch (events : List Event)
  | modify (p : Ref) (side : Side) (events : List Event)
  | readWake (events : List Event)
  | drainSwap (ctx : DrainCtx)
  | drain (clients : List Fd) (ctx : DrainCtx)
  | create (job : Job) (clients : List Fd) (ctx : DrainCtx)
  | collect
  | close (todo refs : List Ref) (ctx : CloseCtx)
  | onClosed (current : Option Nat) (todo refs : List Ref) (ctx : CloseCtx)
  | sweepTest (closing : List Ref)
  | drop (refs : List Ref) (ctx : CloseCtx)
  | destroy (ops : List CleanOp) (refs : List Ref) (ctx : CloseCtx)
  | finalQueue
  | finalCollect
  | stopped
  deriving DecidableEq, Repr

structure Worker where
  wakeFd : Fd
  epollFd : Fd
  running : Bool
  queue : List Fd
  /-- the counter of the eventfd -/
  wakeCount : Nat
  epoll : Fd → Option (EventMask × Option Ref)
  fdToSession : Fd → Option Ref
  sessions : List (Nat × Ref)
  heap : Ref → Option ProxySession
  activeSessions : Nat
  nextSessionId : Nat
  lastSweep : Nat
  pc : Pc
  /-- the clients ever put into the queue, and those taken from it -/
  enqueued : List Fd
  taken : List Fd
  /-- the ids given to sessions so far -/
  issued : List Nat

/-- The atomics shared by all threads. -/
structure SharedState where
  backends : Nat → Backend
  metrics : Metrics

/-- What a step does to the table of open descriptors. -/
inductive FdEffect where
  | none
  | openUpstream (fd : Fd)
  | closeClient (fd : Fd)
  | closeUpstream (fd : Fd)
  deriving DecidableEq, Repr

namespace SharedState

def onBackend (sh : SharedState) (b : Nat) (f : Backend → Backend) : SharedState :=
  { sh with backends := Function.update sh.backends b (f (sh.backends b)) }

def onMetrics (sh : SharedState) (f : Metrics → Metrics) : SharedState :=
  { sh with metrics := f sh.metrics }

def active (sh : SharedState) (b : Nat) : Nat := (sh.backends b).activeConnections

/-- `recordConnectFailure` and `onConnectFailure`. -/
def connectFailed (sh : SharedState) (b : Nat) : SharedState :=
  (sh.onBackend b Backend.recordConnectFailure).onMetrics Metrics.onConnectFailure

end SharedState

namespace Worker

def goto (w : Worker) (pc : Pc) : Worker := { w with pc := pc }

def setSession (w : Worker) (p : Ref) (s : ProxySession) : Worker :=
  { w with heap := Function.update w.heap p (some s) }

/-- `epoll_ctl(ADD)` and `epoll_ctl(MOD)` on a descriptor of object `p`. -/
def setInterest (w : Worker) (p : Ref) (fd : Fd) (mask : EventMask) : Worker :=
  { w with epoll := Function.update w.epoll fd (some (mask, some p)) }

/-- `epoll_ctl(DEL)`; also what closing a descriptor does to an epoll set. -/
def forget (w : Worker) (fd : Fd) : Worker :=
  { w with epoll := Function.update w.epoll fd none }

/-- `nextSessionId_++` and `make_shared<ProxySession>`. -/
def construct (w : Worker) (client upstream : Fd) (connecting : Bool) (backend bufferSize now : Nat) :
    Worker :=
  { w with
    heap := Function.update w.heap w.nextSessionId
      (some (.new w.nextSessionId client upstream connecting backend bufferSize now))
    nextSessionId := w.nextSessionId + 1
    issued := w.issued ++ [w.nextSessionId] }

/-- Publication in the two maps. -/
def publish (w : Worker) (p : Ref) (s : ProxySession) : Worker :=
  { w with
    fdToSession :=
      Function.update (Function.update w.fdToSession s.clientFd (some p)) s.upstreamFd (some p)
    sessions := (s.id, p) :: w.sessions.filter (fun e => e.1 ≠ s.id)
    activeSessions := w.activeSessions + 1 }

/-- `closeSession` of a session found in `sessions_`, up to its metrics. -/
def unpublish (w : Worker) (s : ProxySession) : Worker :=
  { (w.forget s.clientFd).forget s.upstreamFd with
    fdToSession := Function.update (Function.update w.fdToSession s.clientFd none) s.upstreamFd none
    sessions := w.sessions.filter (fun e => e.1 ≠ s.id)
    activeSessions := fetchSub w.activeSessions }

/-- The last reference to an object is gone. -/
def free (w : Worker) (p : Ref) : Worker := { w with heap := Function.update w.heap p none }

/-- What the destructor of a session does. -/
def destructor (s : ProxySession) : List CleanOp :=
  [.releaseLoad s.backend, .closeUpstream s.upstreamFd, .closeClient s.clientFd]

def published (w : Worker) (p : Ref) : Prop := p ∈ w.sessions.map Prod.snd

/-- The published sessions with a property. -/
def select (w : Worker) (f : ProxySession → Bool) : List Ref :=
  (w.sessions.map Prod.snd).filter fun p => ((w.heap p).map f).getD false

/-- Another reference to `p` exists: in a map, or in a vector not yet dropped. -/
def referenced (w : Worker) (p : Ref) (s : ProxySession) (refs : List Ref) : Bool :=
  decide (p ∈ w.sessions.map Prod.snd) || w.fdToSession s.clientFd == some p ||
    w.fdToSession s.upstreamFd == some p || decide (p ∈ refs)

end Worker

/-- Where control goes after a drain. -/
def DrainCtx.next : DrainCtx → Pc
  | .batch rest => .batch rest
  | .final => .finalQueue

/-- Where control goes after the last `closeSession` of a vector. -/
def CloseCtx.closed (refs : List Ref) : CloseCtx → Pc
  | .closing => .sweepTest refs
  | ctx => .drop refs ctx

/-- Where control goes after a vector has been destroyed. -/
def CloseCtx.dropped : CloseCtx → Pc
  | .closing => .loopTest
  | .expired outer => .drop outer .closing
  | .remaining => .stopped

/-- The vectors still alive around the one being destroyed. -/
def CloseCtx.refs : CloseCtx → List Ref
  | .expired outer => outer
  | _ => []

/-- One clean-up operation: its effects, and what it leaves to be done. -/
def CleanOp.exec (sh : SharedState) : CleanOp → FdEffect × SharedState × List CleanOp
  | .closeClient fd => (.closeClient fd, sh, [])
  | .closeUpstream fd => (.closeUpstream fd, sh, [])
  | .connectFailed b => (.none, (sh.connectFailed b).onMetrics Metrics.onRejected, [])
  | .releaseLoad b => (.none, sh, [.releaseTest b (sh.active b)])
  | .releaseTest b current =>
    (.none, if 0 < current then sh.onBackend b Backend.releaseSub else sh, [])

/-- The sweep's effect on the counters: a failure for each expired session
whose connect has timed out. -/
def sweepFailures (config : AppConfig) (now : Nat) (heap : Ref → Option ProxySession) :
    List Ref → SharedState → SharedState
  | [], sh => sh
  | p :: rest, sh =>
    let sh := match heap p with
      | some s => if s.connectTimedOut config.connectTimeoutMs now then sh.connectFailed s.backend else sh
      | none => sh
    sweepFailures config now heap rest sh

/-- `connectTimedOut` or `idleFor`, the two reasons to sweep a session. -/
def expired (config : AppConfig) (now : Nat) (s : ProxySession) : Bool :=
  s.connectTimedOut config.connectTimeoutMs now || s.idleFor (config.idleTimeoutSeconds * 1000) now

/-- One step of a worker. The label says whether it is a failure of
`epoll_wait` other than `EINTR`. -/
inductive Worker.Step (config : AppConfig) (sh : SharedState) (w : Worker) :
    Bool → FdEffect → SharedState → Worker → Prop
  -- run(): the loop
  | enter (hpc : w.pc = .loopTest) (hrun : w.running = true) :
      Step config sh w false .none sh (w.goto .epollWait)
  | leave (hpc : w.pc = .loopTest) (hrun : w.running = false) :
      Step config sh w false .none sh (w.goto (.drainSwap .final))
  | waitEintr (hpc : w.pc = .epollWait) : Step config sh w false .none sh (w.goto .loopTest)
  | waitError (hpc : w.pc = .epollWait) :
      Step config sh w true .none sh (w.goto (.drainSwap .final))
  | waited (events : List Event) (hpc : w.pc = .epollWait) (hlen : events.length ≤ config.maxEvents)
      (hfds : (events.map Event.fd).Nodup)
      (hreg : ∀ e ∈ events, ∃ mask, w.epoll e.fd = some (mask, e.who)) :
      Step config sh w false .none sh (w.goto (.batch events))
  -- the batch
  | wake (e : Event) (events : List Event) (hpc : w.pc = .batch (e :: events))
      (hfd : e.fd = w.wakeFd) : Step config sh w false .none sh (w.goto (.readWake events))
  | unknown (e : Event) (events : List Event) (hpc : w.pc = .batch (e :: events))
      (hfd : e.fd ≠ w.wakeFd) (hfound : w.fdToSession e.fd = none) :
      Step config sh w false .none sh (w.goto (.batch events))
  | skipped (e : Event) (events : List Event) (p : Ref) (s : ProxySession)
      (hpc : w.pc = .batch (e :: events)) (hfd : e.fd ≠ w.wakeFd)
      (hfound : w.fdToSession e.fd = some p) (hp : w.heap p = some s) (hclosing : s.closing = true) :
      Step config sh w false .none sh (w.goto (.batch events))
  | handled (e : Event) (events : List Event) (p : Ref) (s : ProxySession) (now : Nat)
      (ans : Answers) (result : Bool) (env : Env) (hpc : w.pc = .batch (e :: events))
      (hfd : e.fd ≠ w.wakeFd) (hfound : w.fdToSession e.fd = some p) (hp : w.heap p = some s)
      (hclosing : s.closing = false)
      (hcall : (Env.mk s (sh.backends s.backend) sh.metrics []).handleEvent e.fd e.mask now ans =
        (.ret result, env)) (hrange : ∀ c ∈ env.log, c.InRange) :
      Step config sh w false .none
        ((sh.onBackend s.backend (fun _ => env.backend)).onMetrics (fun _ => env.metrics))
        (if result then (w.setSession p env.session).goto (.modify p .client events)
          else (w.setSession p env.session.markClosing).goto (.batch events))
  | modifiedClient (p : Ref) (s : ProxySession) (events : List Event)
      (hpc : w.pc = .modify p .client events) (hp : w.heap p = some s)
      (hreg : w.epoll s.clientFd ≠ none) :
      Step config sh w false .none sh
        ((w.setInterest p s.clientFd s.clientEvents).goto (.modify p .upstream events))
  | modifiedUpstream (p : Ref) (s : ProxySession) (events : List Event)
      (hpc : w.pc = .modify p .upstream events) (hp : w.heap p = some s)
      (hreg : w.epoll s.upstreamFd ≠ none) :
      Step config sh w false .none sh
        ((w.setInterest p s.upstreamFd s.upstreamEvents).goto (.batch events))
  | modifyFailed (p : Ref) (s : ProxySession) (side : Side) (events : List Event)
      (hpc : w.pc = .modify p side events) (hp : w.heap p = some s) :
      Step config sh w false .none sh ((w.setSession p s.markClosing).goto (.batch events))
  | batchDone (hpc : w.pc = .batch []) : Step config sh w false .none sh (w.goto .collect)
  -- the eventfd and drainQueue()
  | readWake (events : List Event) (hpc : w.pc = .readWake events) (hcount : 0 < w.wakeCount) :
      Step config sh w false .none sh { w with wakeCount := 0 }
  | wakeEmpty (events : List Event) (hpc : w.pc = .readWake events) (hcount : w.wakeCount = 0) :
      Step config sh w false .none sh (w.goto (.drainSwap (.batch events)))
  | swap (ctx : DrainCtx) (hpc : w.pc = .drainSwap ctx) :
      Step config sh w false .none sh { w with queue := [], pc := .drain w.queue ctx }
  | drained (ctx : DrainCtx) (hpc : w.pc = .drain [] ctx) :
      Step config sh w false .none sh (w.goto ctx.next)
  | refuse (c : Fd) (clients : List Fd) (ctx : DrainCtx) (hpc : w.pc = .drain (c :: clients) ctx)
      (hrun : w.running = false) :
      Step config sh w false .none sh
        { w with taken := w.taken ++ [c], pc := .create (.cleanup [.closeClient c]) clients ctx }
  | take (c : Fd) (clients : List Fd) (ctx : DrainCtx) (hpc : w.pc = .drain (c :: clients) ctx)
      (hrun : w.running = true) :
      Step config sh w false .none sh
        { w with taken := w.taken ++ [c], pc := .create (.acquire c) clients ctx }
  -- createSession()
  | noBackend (c : Fd) (clients : List Fd) (ctx : DrainCtx)
      (hpc : w.pc = .create (.acquire c) clients ctx) :
      Step config sh w false .none (sh.onMetrics Metrics.onRejected)
        (w.goto (.create (.cleanup [.closeClient c]) clients ctx))
  | acquired (c : Fd) (b : Nat) (clients : List Fd) (ctx : DrainCtx)
      (hpc : w.pc = .create (.acquire c) clients ctx) :
      Step config sh w false .none (sh.onBackend b Backend.acquire)
        (w.goto (.create (.socket c b) clients ctx))
  | noSocket (c : Fd) (b : Nat) (clients : List Fd) (ctx : DrainCtx)
      (hpc : w.pc = .create (.socket c b) clients ctx) :
      Step config sh w false .none sh
        (w.goto (.create (.cleanup [.connectFailed b, .closeClient c, .releaseLoad b]) clients ctx))
  | socket (c : Fd) (b : Nat) (u : Fd) (clients : List Fd) (ctx : DrainCtx)
      (hpc : w.pc = .create (.socket c b) clients ctx) :
      Step config sh w false (.openUpstream u) sh (w.goto (.create (.connect c b u) clients ctx))
  | connectThrew (c : Fd) (b : Nat) (u : Fd) (clients : List Fd) (ctx : DrainCtx)
      (hpc : w.pc = .create (.connect c b u) clients ctx) :
      Step config sh w false .none sh (w.goto (.create
        (.cleanup [.closeUpstream u, .connectFailed b, .closeClient c, .releaseLoad b]) clients ctx))
  | connect (c : Fd) (b : Nat) (u : Fd) (connecting : Bool) (clients : List Fd) (ctx : DrainCtx)
      (hpc : w.pc = .create (.connect c b u) clients ctx) :
      Step config sh w false .none sh (w.goto (.create (.construct c b u connecting) clients ctx))
  | construct (c : Fd) (b : Nat) (u : Fd) (connecting : Bool) (now : Nat) (clients : List Fd)
      (ctx : DrainCtx) (hpc : w.pc = .create (.construct c b u connecting) clients ctx) :
      Step config sh w false .none
        (if connecting then sh else sh.onBackend b Backend.recordConnectSuccess)
        ((w.construct c u connecting b config.bufferSize now).goto
          (.create (.registerClient w.nextSessionId) clients ctx))
  | registerClient (p : Ref) (s : ProxySession) (clients : List Fd) (ctx : DrainCtx)
      (hpc : w.pc = .create (.registerClient p) clients ctx) (hp : w.heap p = some s)
      (hreg : w.epoll s.clientFd = none) :
      Step config sh w false .none sh ((w.setInterest p s.clientFd s.clientEvents).goto
        (.create (.registerUpstream p) clients ctx))
  | registerUpstream (p : Ref) (s : ProxySession) (clients : List Fd) (ctx : DrainCtx)
      (hpc : w.pc = .create (.registerUpstream p) clients ctx) (hp : w.heap p = some s)
      (hreg : w.epoll s.upstreamFd = none) :
      Step config sh w false .none sh ((w.setInterest p s.upstreamFd s.upstreamEvents).goto
        (.create (.publish p) clients ctx))
  | registerClientFailed (p : Ref) (clients : List Fd) (ctx : DrainCtx)
      (hpc : w.pc = .create (.registerClient p) clients ctx) :
      Step config sh w false .none sh (w.goto (.create (.unregister p) clients ctx))
  | registerUpstreamFailed (p : Ref) (clients : List Fd) (ctx : DrainCtx)
      (hpc : w.pc = .create (.registerUpstream p) clients ctx) :
      Step config sh w false .none sh (w.goto (.create (.unregister p) clients ctx))
  | unregister (p : Ref) (s : ProxySession) (clients : List Fd) (ctx : DrainCtx)
      (hpc : w.pc = .create (.unregister p) clients ctx) (hp : w.heap p = some s) :
      Step config sh w false .none (sh.onMetrics Metrics.onRejected)
        ((((w.forget s.clientFd).forget s.upstreamFd).free p).goto
          (.create (.cleanup (Worker.destructor s)) clients ctx))
  | publish (p : Ref) (s : ProxySession) (clients : List Fd) (ctx : DrainCtx)
      (hpc : w.pc = .create (.publish p) clients ctx) (hp : w.heap p = some s) :
      Step config sh w false .none (sh.onMetrics Metrics.onOpened)
        ((w.publish p s).goto (.drain clients ctx))
  | clean (op : CleanOp) (ops : List CleanOp) (clients : List Fd) (ctx : DrainCtx)
      (hpc : w.pc = .create (.cleanup (op :: ops)) clients ctx) :
      Step config sh w false (op.exec sh).1 (op.exec sh).2.1
        (w.goto (.create (.cleanup ((op.exec sh).2.2 ++ ops)) clients ctx))
  | cleaned (clients : List Fd) (ctx : DrainCtx) (hpc : w.pc = .create (.cleanup []) clients ctx) :
      Step config sh w false .none sh (w.goto (.drain clients ctx))
  -- collecting, closing and destroying sessions
  | collect (refs : List Ref) (hpc : w.pc = .collect)
      (hrefs : refs.Perm (w.select ProxySession.closing)) :
      Step config sh w false .none sh (w.goto (.close refs refs .closing))
  | closeMissing (p : Ref) (s : ProxySession) (todo refs : List Ref) (ctx : CloseCtx)
      (hpc : w.pc = .close (p :: todo) refs ctx) (hp : w.heap p = some s)
      (hfound : s.id ∉ w.sessions.map Prod.fst) :
      Step config sh w false .none sh (w.goto (.close todo refs ctx))
  | closeSession (p : Ref) (s : ProxySession) (todo refs : List Ref) (ctx : CloseCtx)
      (hpc : w.pc = .close (p :: todo) refs ctx) (hp : w.heap p = some s)
      (hfound : s.id ∈ w.sessions.map Prod.fst) :
      Step config sh w false .none sh ((w.unpublish s).goto (.onClosed none todo refs ctx))
  | onClosedLoad (todo refs : List Ref) (ctx : CloseCtx) (hpc : w.pc = .onClosed none todo refs ctx) :
      Step config sh w false .none sh (w.goto (.onClosed (some sh.metrics.active) todo refs ctx))
  | onClosedSub (current : Nat) (todo refs : List Ref) (ctx : CloseCtx)
      (hpc : w.pc = .onClosed (some current) todo refs ctx) :
      Step config sh w false .none
        (if 0 < current then sh.onMetrics Metrics.onClosedSub else sh) (w.goto (.close todo refs ctx))
  | allClosed (refs : List Ref) (ctx : CloseCtx) (hpc : w.pc = .close [] refs ctx) :
      Step config sh w false .none sh (w.goto (ctx.closed refs))
  | sweepSoon (closing : List Ref) (now : Nat) (hpc : w.pc = .sweepTest closing)
      (hnow : now - w.lastSweep < 1000) :
      Step config sh w false .none sh (w.goto (.drop closing .closing))
  -- `sweepNow` stands for all the readings of the clock in the pass
  | sweep (closing refs : List Ref) (now sweepNow : Nat) (hpc : w.pc = .sweepTest closing)
      (hnow : 1000 ≤ now - w.lastSweep) (hrefs : refs.Perm (w.select (expired config sweepNow))) :
      Step config sh w false .none (sweepFailures config sweepNow w.heap refs sh)
        { w with lastSweep := now, pc := .close refs refs (.expired closing) }
  | dropShared (p : Ref) (s : ProxySession) (refs : List Ref) (ctx : CloseCtx)
      (hpc : w.pc = .drop (p :: refs) ctx) (hp : w.heap p = some s)
      (hshared : w.referenced p s (refs ++ ctx.refs) = true) :
      Step config sh w false .none sh (w.goto (.drop refs ctx))
  | dropLast (p : Ref) (s : ProxySession) (refs : List Ref) (ctx : CloseCtx)
      (hpc : w.pc = .drop (p :: refs) ctx) (hp : w.heap p = some s)
      (hshared : w.referenced p s (refs ++ ctx.refs) = false) :
      Step config sh w false .none sh
        ((w.free p).goto (.destroy (Worker.destructor s) refs ctx))
  | destroy (op : CleanOp) (ops : List CleanOp) (refs : List Ref) (ctx : CloseCtx)
      (hpc : w.pc = .destroy (op :: ops) refs ctx) :
      Step config sh w false (op.exec sh).1 (op.exec sh).2.1
        (w.goto (.destroy ((op.exec sh).2.2 ++ ops) refs ctx))
  | destroyed (refs : List Ref) (ctx : CloseCtx) (hpc : w.pc = .destroy [] refs ctx) :
      Step config sh w false .none sh (w.goto (.drop refs ctx))
  | dropped (ctx : CloseCtx) (hpc : w.pc = .drop [] ctx) :
      Step config sh w false .none sh (w.goto ctx.dropped)
  -- the end of run()
  | closeQueued (c : Fd) (queue : List Fd) (hpc : w.pc = .finalQueue) (hq : w.queue = c :: queue) :
      Step config sh w false (.closeClient c) sh
        { w with queue := queue, taken := w.taken ++ [c] }
  | queueEmpty (hpc : w.pc = .finalQueue) (hq : w.queue = []) :
      Step config sh w false .none sh (w.goto .finalCollect)
  | finalCollect (refs : List Ref) (hpc : w.pc = .finalCollect)
      (hrefs : refs.Perm (w.sessions.map Prod.snd)) :
      Step config sh w false .none sh (w.goto (.close refs refs .remaining))

end FluxGate
