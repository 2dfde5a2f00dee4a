import FluxGate.Net
import FluxGate.Process

/-!
# `main`: objects, threads and the ways out

The objects of `main` are made in one order and destroyed in the other, after
a return and after an exception alike. Some of them own threads, which use
other objects by reference. Here `main` is a program over the threads that are
running, the objects that own descriptors, and the descriptor table; every
call that can fail takes its answer from the environment. Of the accept loop
only the answers of `poll` matter here: nothing else in it lets an exception
out. `dangling` is set when an object is destroyed while a thread that uses it
has not been joined, `terminated` when `std::terminate` is called.
-/

namespace FluxGate

open Lib

/-! ## Threads and the objects they use -/

inductive Thread where
  | worker (index : Nat)
  | health
  | stats
  deriving DecidableEq, Repr

/-- The objects of `main` that other threads use. -/
inductive MainObject where
  | config
  | backendPool
  | metrics
  | healthChecker
  | worker (index : Nat)
  | statsRunning
  deriving DecidableEq, Repr

def Thread.uses : Thread → List MainObject
  | .worker index => [.config, .backendPool, .metrics, .worker index]
  | .health => [.backendPool, .healthChecker]
  | .stats => [.config, .backendPool, .metrics, .statsRunning]

/-- What a `Worker` owns besides its thread. -/
structure WorkerObject where
  index : Nat
  epollFd : UniqueFd
  wakeFd : UniqueFd
  deriving DecidableEq, Repr

structure MainState where
  /-- the threads that have not been joined -/
  threads : List Thread
  workers : List WorkerObject
  listenFd : UniqueFd
  /-- an object was destroyed before a thread that uses it was joined -/
  dangling : Bool
  /-- `std::terminate` -/
  terminated : Bool
  deriving DecidableEq, Repr

abbrev Main := Prog (MainState × NetState) Text

def MainState.spawn (m : MainState) (t : Thread) : MainState := { m with threads := m.threads ++ [t] }

def MainState.push (m : MainState) (w : WorkerObject) : MainState := { m with workers := m.workers ++ [w] }

/-! ## Destructors

After `std::terminate` nothing is destroyed any more. -/

def MainState.destroyed (o : MainObject) (m : MainState) : MainState :=
  if m.terminated then m
  else { m with dangling := m.dangling || m.threads.any fun t => decide (o ∈ t.uses) }

/-- `thread_.join()` of a joinable thread: it waits until the thread has ended. -/
def MainState.join (t : Thread) (m : MainState) : MainState := { m with threads := m.threads.erase t }

/-- `~Worker()`: `stop()` and `join()`, and then the members. -/
def destroyWorker (w : WorkerObject) (s : MainState × NetState) : MainState × NetState :=
  ((s.1.join (.worker w.index)).destroyed (.worker w.index), w.epollFd.destroy (w.wakeFd.destroy s.2))

/-- The destructor of the vector of workers. -/
def destroyWorkers (s : MainState × NetState) : MainState × NetState :=
  if s.1.terminated then s
  else
    let s' := s.1.workers.foldl (fun s w => destroyWorker w s) s
    ({ s'.1 with workers := [] }, s'.2)

/-- `~HealthChecker()`: `stop()` and `join()`. -/
def destroyHealthChecker (s : MainState × NetState) : MainState × NetState :=
  if s.1.terminated then s else ((s.1.join .health).destroyed .healthChecker, s.2)

/-- `~thread()` of `statsThread`: a joinable thread is fatal. -/
def destroyStatsThread (s : MainState × NetState) : MainState × NetState :=
  if .stats ∈ s.1.threads then ({ s.1 with terminated := true }, s.2) else s

/-- `~UniqueFd()` of `listenFd`. -/
def closeListener (s : MainState × NetState) : MainState × NetState :=
  if s.1.terminated then s else ({ s.1 with listenFd := .empty }, s.1.listenFd.destroy s.2)

/-- An object that owns neither a thread nor a descriptor. -/
def destroy (o : MainObject) (s : MainState × NetState) : MainState × NetState := (s.1.destroyed o, s.2)

/-! ## Starting -/

section Functions

variable (strerror : Errno → Text)

structure WorkerAnswers where
  epollCreate : Except Errno Fd
  eventfd : Except Errno Fd
  /-- `epoll_ctl(ADD)` of the eventfd -/
  register : Option Errno
  /-- the text of the exception when no thread can be made -/
  thread : Option Text

/-- The constructor of `Worker`: an exception destroys the two members. -/
def createWorker (ans : WorkerAnswers) : Net (UniqueFd × UniqueFd) := do
  let epollFd ← sysSocket 0 ans.epollCreate
  .withObject UniqueFd.destroy ⟨epollFd⟩ do
    let wakeFd ← .outer (sysSocket 0 ans.eventfd)
    .withObject (fun u s => (s.1, UniqueFd.destroy u s.2)) ⟨wakeFd⟩ do
      if !(UniqueFd.mk epollFd).valid then .outer (.outer (throwSystemError strerror "epoll_create1 failed".toList))
      else if !(UniqueFd.mk wakeFd).valid then .outer (.outer (throwSystemError strerror "eventfd failed".toList))
      else do
        .outer (.outer (orThrow strerror "epoll_ctl(ADD) failed".toList epollFd ans.register id))
        let wake ← .object UniqueFd.release
        let epoll ← .outer (.object UniqueFd.release)
        pure (⟨epoll⟩, ⟨wake⟩)

/-- `std::thread(…)`. -/
def startThread (t : Thread) (ans : Option Text) : Main Unit :=
  match ans with
  | some m => .throw m
  | none => .object fun m => ((), m.spawn t)

/-- The loop that makes the workers and starts them. -/
def startWorkers : Nat → List WorkerAnswers → Main Unit
  | _, [] => pure ()
  | index, ans :: rest => do
    let members ← .outer (createWorker strerror ans)
    .object fun m => ((), m.push ⟨index, members.1, members.2⟩)
    startThread (.worker index) ans.thread
    startWorkers (index + 1) rest

structure MainAnswers where
  /-- `installSignals` -/
  signals : Bool
  listen : ListenAnswers
  workers : Nat → WorkerAnswers
  healthThread : Option Text
  statsThread : Option Text
  /-- the answers of `poll` until a stop is requested -/
  polls : List (Option Errno)

/-- The answers to the workers of the configuration. -/
def MainAnswers.each (config : AppConfig) (ans : MainAnswers) : List WorkerAnswers :=
  (List.range config.workers).map ans.workers

def installSignals (ok : Bool) : Main Unit := if ok then pure () else .throw "sigaction failed".toList

/-- `UniqueFd listenFd(createListenSocket(…))`. -/
def openListener (resolver : Resolver) (config : AppConfig) (ans : ListenAnswers) : Main Unit := do
  let fd ← .outer (createListenSocket strerror resolver config.listenHost.toList config.listenPort config.backlog ans)
  .object fun m => ((), { m with listenFd := ⟨fd⟩ })

/-- `statsThread = std::thread(…)`, when statistics are wanted. -/
def startStats (config : AppConfig) (ans : Option Text) : Main Unit :=
  if 0 < config.statsIntervalSeconds then startThread .stats ans else pure ()

/-- The accept loop: an interrupted `poll` is repeated, another failure is thrown, and what is done after
a `poll` that worked catches its own exceptions. -/
def acceptLoop : List (Option Errno) → Main Unit
  | [] => pure ()
  | some e :: polls => if e = .eintr then acceptLoop polls else .throw ("poll failed: ".toList ++ strerror e)
  | none :: polls => acceptLoop polls

/-- The end of `main`: everything is stopped, and then joined. -/
def shutdown : Main Unit :=
  .object fun m => ((), (m.workers.foldl (fun m w => m.join (.worker w.index)) (m.join .health)).join .stats)

/-- The scope of `statsRunning` and `statsThread`. -/
def runStats (config : AppConfig) (ans : MainAnswers) : Main Unit :=
  .ensuring (.ensuring (do
    startStats config ans.statsThread
    acceptLoop strerror ans.polls
    shutdown) destroyStatsThread) (destroy .statsRunning)

/-- The scope of `listenFd`, `metrics`, `healthChecker` and `workers`. -/
def runWorkers (config : AppConfig) (ans : MainAnswers) : Main Unit :=
  .ensuring (.ensuring (.ensuring (.ensuring (do
    startWorkers strerror 0 (ans.each config)
    startThread .health ans.healthThread
    runStats strerror config ans) destroyWorkers) destroyHealthChecker) (destroy .metrics)) closeListener

/-- `main` from the signal handlers on; the configuration is loaded and the pool is made. -/
def main (resolver : Resolver) (config : AppConfig) (ans : MainAnswers) : Main Unit :=
  .ensuring (.ensuring (do
    installSignals ans.signals
    openListener strerror resolver config ans.listen
    runWorkers strerror config ans)
    (destroy .backendPool)) (destroy .config)

end Functions

/-! ## Descriptors of a scope -/

/-- The table is `t` and, besides, exactly the descriptors `fds`. -/
structure NetState.Holds (t : Fd → Option SocketState) (bad : Nat) (fds : List Fd) (s : NetState) : Prop where
  others : ∀ fd, fd ∉ fds → s.table fd = t fd
  held : ∀ fd ∈ fds, (s.table fd).isSome
  free : ∀ fd ∈ fds, t fd = none
  nodup : fds.Nodup
  closes : s.badCloses = bad

/-- The descriptor of an answer, and the number the call returns. -/
def answerFds : Except Errno Fd → List Fd
  | .ok fd => [fd]
  | .error _ => []

def answerInt : Except Errno Fd → Int
  | .ok fd => fd
  | .error _ => -1

section Holds

variable {t : Fd → Option SocketState} {bad : Nat} {fds fds' : List Fd} {s : NetState} {fd : Fd}

theorem NetState.Holds.table (h : s.Holds t bad []) : s.table = t :=
  funext fun fd => h.others fd List.not_mem_nil

theorem NetState.Holds.perm (h : s.Holds t bad fds) (hp : fds.Perm fds') : s.Holds t bad fds' where
  others fd hfd := h.others fd fun hin => hfd (hp.mem_iff.mp hin)
  held fd hfd := h.held fd (hp.mem_iff.mpr hfd)
  free fd hfd := h.free fd (hp.mem_iff.mpr hfd)
  nodup := hp.nodup_iff.mp h.nodup
  closes := h.closes

theorem NetState.Holds.opened (h : s.Holds t bad fds) (hfd : fd ∉ fds) (hfree : t fd = none) (d : SocketState) :
    NetState.Holds t bad (fd :: fds) { s with table := Function.update s.table fd (some d) } where
  others fd' hne := by
    rw [List.mem_cons, not_or] at hne
    show Function.update s.table fd (some d) fd' = t fd'
    rw [Function.update_of_ne hne.1, h.others fd' hne.2]
  held fd' hin := by
    by_cases he : fd' = fd
    · simp [he]
    · show (Function.update s.table fd (some d) fd').isSome
      rw [Function.update_of_ne he]
      exact h.held fd' ((List.mem_cons.mp hin).resolve_left he)
  free fd' hin := (List.mem_cons.mp hin).elim (fun he => he ▸ hfree) (h.free fd')
  nodup := List.nodup_cons.mpr ⟨hfd, h.nodup⟩
  closes := h.closes

/-- What is known stays known when an open descriptor is written to. -/
theorem NetState.Holds.wrote (h : s.Holds t bad fds) (hfd : fd ∈ fds) (d : SocketState) :
    NetState.Holds t bad fds { s with table := Function.update s.table fd (some d) } where
  others fd' hne := by
    have he : fd' ≠ fd := fun he => hne (he ▸ hfd)
    show Function.update s.table fd (some d) fd' = t fd'
    rw [Function.update_of_ne he, h.others fd' hne]
  held fd' hin := by
    by_cases he : fd' = fd
    · simp [he]
    · show (Function.update s.table fd (some d) fd').isSome
      rw [Function.update_of_ne he]
      exact h.held fd' hin
  free := h.free
  nodup := h.nodup
  closes := h.closes

theorem NetState.Holds.close (h : s.Holds t bad (fd :: fds)) : (s.close fd).Holds t bad fds := by
  obtain ⟨hnot, hnodup⟩ := List.nodup_cons.mp h.nodup
  obtain ⟨d, hd⟩ := Option.isSome_iff_exists.mp (h.held fd List.mem_cons_self)
  have hclose : s.close fd = { s with table := Function.update s.table fd none } := by
    simp [NetState.close, hd]
  rw [hclose]
  refine ⟨fun fd' hne => ?_, fun fd' hin => ?_, fun fd' hin => h.free fd' (List.mem_cons_of_mem _ hin), hnodup,
    h.closes⟩
  · show Function.update s.table fd none fd' = t fd'
    by_cases he : fd' = fd
    · rw [he, Function.update_self, h.free fd List.mem_cons_self]
    · rw [Function.update_of_ne he]
      exact h.others fd' fun hin => (List.mem_cons.mp hin).elim he hne
  · have he : fd' ≠ fd := fun he => hnot (he ▸ hin)
    show (Function.update s.table fd none fd').isSome
    rw [Function.update_of_ne he]
    exact h.held fd' (List.mem_cons_of_mem _ hin)

/-- A destructor closes what the object holds. -/
theorem NetState.Holds.destroy (ans : Except Errno Fd) (h : s.Holds t bad (answerFds ans ++ fds)) :
    (UniqueFd.destroy ⟨answerInt ans⟩ s).Holds t bad fds := by
  cases ans with
  | error e => exact h
  | ok fd =>
    simp only [UniqueFd.destroy, UniqueFd.reset, answerInt, UniqueFd.held_natCast]
    exact h.close

theorem NetState.Holds.errno (h : s.Holds t bad fds) (e : Errno) : NetState.Holds t bad fds { s with errno := e } :=
  ⟨h.others, h.held, h.free, h.nodup, h.closes⟩

theorem With.holds {d : SocketState} (h : s.With t bad fd d) (hfree : t fd = none) : s.Holds t bad [fd] where
  others fd' hne := by
    rw [h.1, Function.update_of_ne (List.ne_of_not_mem_cons hne)]
  held fd' hin := by
    rw [List.mem_singleton.mp hin, h.1, Function.update_self]
    rfl
  free fd' hin := by rw [List.mem_singleton.mp hin, hfree]
  nodup := List.nodup_singleton fd
  closes := h.2

theorem sysSocket_holds (family : Nat) (ans : Except Errno Fd) (hfresh : ∀ fd, ans = .ok fd → fd ∉ fds ∧ t fd = none)
    {E : Text → NetState → Prop} :
    Prog.Spec (NetState.Holds t bad fds) (sysSocket family ans)
      (fun i s => i = answerInt ans ∧ s.Holds t bad (answerFds ans ++ fds)) E := by
  intro s hs
  cases ans with
  | error e => exact Or.inl ⟨-1, (s.fail e).2, rfl, rfl, hs.errno e⟩
  | ok fd =>
    obtain ⟨hfd, hfree⟩ := hfresh fd rfl
    have hnone : s.table fd = none := by rw [hs.others fd hfd, hfree]
    refine Or.inl ⟨fd, { s with table := Function.update s.table fd (some (.new family)) }, ?_, rfl, ?_⟩
    · simp [sysSocket, hnone]
    · exact hs.opened hfd hfree _

/-- A call that fails leaves the descriptors as they are. -/
theorem throw_holds {α : Type} (strerror : Errno → Text) (action : Text) {Q : α → NetState → Prop} :
    Prog.Spec (NetState.Holds t bad fds) (throwSystemError strerror action) Q (fun _ s => s.Holds t bad fds) :=
  .bind (M := fun _ s => s.Holds t bad fds) (.step fun _ hs => hs) fun _ => .throw fun _ hs => hs

theorem orThrow_holds (strerror : Errno → Text) (action : Text) (hfd : fd ∈ fds) (ans : Option Errno)
    (f : SocketState → SocketState) :
    Prog.Spec (NetState.Holds t bad fds) (orThrow strerror action fd ans f)
      (fun _ s => ans = none ∧ s.Holds t bad fds) (fun _ s => ans ≠ none ∧ s.Holds t bad fds) := by
  refine .bind (M := fun status s => (0 ≤ status ↔ ans = none) ∧ s.Holds t bad fds) (.step fun s hs => ?_)
    fun status => .of_fact (P := NetState.Holds t bad fds) fun hstatus => .ite (fun hneg => ?_) fun hpos =>
    .pure fun s hs => ?_
  · obtain ⟨d, hd⟩ := Option.isSome_iff_exists.mp (hs.held fd hfd)
    cases ans with
    | none => simpa [NetState.onSocket, hd] using hs.wrote hfd (f d)
    | some e => simpa [NetState.onSocket, hd, NetState.fail] using hs.errno e
  · refine (throw_holds strerror action (Q := fun _ _ => False)).weaken (fun s hs => hs) (fun _ s hs => hs.elim)
      fun m s hs => ⟨fun hans => ?_, hs⟩
    have := hstatus.mpr hans
    omega
  · exact ⟨hstatus.mp (by omega), hs⟩

end Holds

/-! ## The constructor of a worker -/

namespace WorkerAnswers

/-- The constructor works. -/
def constructs (ans : WorkerAnswers) : Bool :=
  ans.epollCreate.isOk && ans.eventfd.isOk && ans.register.isNone

def fds (ans : WorkerAnswers) : List Fd := answerFds ans.eventfd ++ answerFds ans.epollCreate

end WorkerAnswers

/-- The kernel hands out numbers that are not in use. -/
structure Handed (t : Fd → Option SocketState) (fds new : List Fd) : Prop where
  nodup : (new ++ fds).Nodup
  free : ∀ fd ∈ new, t fd = none

theorem createWorker_spec {t : Fd → Option SocketState} {bad : Nat} {fds : List Fd} (strerror : Errno → Text)
    (ans : WorkerAnswers) (hnew : Handed t fds ans.fds) :
    Prog.Spec (NetState.Holds t bad fds) (createWorker strerror ans)
      (fun r s => ans.constructs = true ∧ r = (⟨answerInt ans.epollCreate⟩, ⟨answerInt ans.eventfd⟩) ∧
        s.Holds t bad (ans.fds ++ fds))
      (fun _ s => ans.constructs = false ∧ s.Holds t bad fds) := by
  have hepoll : ∀ fd, ans.epollCreate = .ok fd → fd ∉ fds ∧ t fd = none := by
    intro fd hfd
    have hin : fd ∈ ans.fds := by simp [WorkerAnswers.fds, hfd, answerFds]
    exact ⟨fun hold => (List.nodup_append.mp hnew.nodup).2.2 fd hin fd hold rfl, hnew.free fd hin⟩
  have hwake : ∀ fd, ans.eventfd = .ok fd → fd ∉ answerFds ans.epollCreate ++ fds ∧ t fd = none := by
    intro fd hfd
    have hin : fd ∈ ans.fds := by simp [WorkerAnswers.fds, hfd, answerFds]
    refine ⟨?_, hnew.free fd hin⟩
    have hnodup := hnew.nodup
    rw [WorkerAnswers.fds, List.append_assoc, hfd] at hnodup
    exact (List.nodup_cons.mp hnodup).1
  unfold createWorker
  -- both members are destroyed on every exception
  have hundo : ∀ s : UniqueFd × UniqueFd × NetState, s.1 = ⟨answerInt ans.eventfd⟩ ∧
      s.2.1 = ⟨answerInt ans.epollCreate⟩ ∧
      s.2.2.Holds t bad (answerFds ans.eventfd ++ (answerFds ans.epollCreate ++ fds)) →
      (UniqueFd.destroy s.2.1 (UniqueFd.destroy s.1 s.2.2)).Holds t bad fds := by
    rintro s ⟨hw, he, hs⟩
    rw [hw, he]
    exact (hs.destroy ans.eventfd).destroy ans.epollCreate
  refine .bind (sysSocket_holds 0 ans.epollCreate hepoll) fun i =>
    .of_fact (P := NetState.Holds t bad (answerFds ans.epollCreate ++ fds)) fun hi => .withObject ?_
  refine .bind (M := fun (j : Int) (s : UniqueFd × NetState) => j = answerInt ans.eventfd ∧ s.1 = ⟨i⟩ ∧
      s.2.Holds t bad (answerFds ans.eventfd ++ (answerFds ans.epollCreate ++ fds)))
    ((sysSocket_holds (E := fun _ _ => False) 0 ans.eventfd hwake).keep.weaken (fun s hs => hs)
      (fun _ s hs => ⟨hs.2.1, hs.1, hs.2.2⟩) fun m s hs => hs.2.elim) fun j => .of_fact
    (P := fun (s : UniqueFd × NetState) => s.1 = ⟨i⟩ ∧
      s.2.Holds t bad (answerFds ans.eventfd ++ (answerFds ans.epollCreate ++ fds)))
    fun hj => .withObject ?_
  rw [hi, hj]
  -- the two tests, and then the registration
  refine .ite (fun hinvalid => ?_) fun hvalid => .ite (fun hinvalid => ?_) fun hvalid' => ?_
  · refine ((throw_holds strerror _ (Q := fun _ _ => False)).keep.keep).weaken (fun s hs => hs)
      (fun _ s hs => hs.2.2.elim) fun m s hs => ⟨?_, hundo s hs⟩
    cases he : ans.epollCreate with
    | error e => simp [WorkerAnswers.constructs, he, Except.isOk, Except.toBool]
    | ok fd => simp [he, answerInt, UniqueFd.valid] at hinvalid
  · refine ((throw_holds strerror _ (Q := fun _ _ => False)).keep.keep).weaken (fun s hs => hs)
      (fun _ s hs => hs.2.2.elim) fun m s hs => ⟨?_, hundo s hs⟩
    cases hw : ans.eventfd with
    | error e => simp [WorkerAnswers.constructs, hw, Except.isOk, Except.toBool]
    | ok fd => simp [hw, answerInt, UniqueFd.valid] at hinvalid
  · obtain ⟨e, he⟩ : ∃ e, ans.epollCreate = .ok e := by
      cases he : ans.epollCreate with
      | error e => simp [he, answerInt, UniqueFd.valid] at hvalid
      | ok fd => exact ⟨fd, rfl⟩
    obtain ⟨w, hw⟩ : ∃ w, ans.eventfd = .ok w := by
      cases hw : ans.eventfd with
      | error e => simp [hw, answerInt, UniqueFd.valid] at hvalid'
      | ok fd => exact ⟨fd, rfl⟩
    have hin : e ∈ answerFds ans.eventfd ++ (answerFds ans.epollCreate ++ fds) := by simp [he, answerFds]
    have hepollInt : answerInt ans.epollCreate = (e : Int) := by rw [he]; rfl
    simp only [hepollInt] at hundo ⊢
    refine .bind (((orThrow_holds strerror _ hin ans.register id).keep.keep).weaken (fun s hs => hs)
      (fun _ s hs => hs) fun m s hs => ⟨?_, hundo s ⟨hs.1, hs.2.1, hs.2.2.2⟩⟩) fun _ => ?_
    · cases hr : ans.register with
      | none => exact absurd hr hs.2.2.1
      | some e => simp [WorkerAnswers.constructs, hr]
    -- both descriptors are handed to the caller, and the destructors have nothing to close
    refine .bind (M := fun (i : Int) (s : UniqueFd × UniqueFd × NetState) => i = answerInt ans.eventfd ∧
        s.1 = .empty ∧ s.2.1 = ⟨e⟩ ∧ ans.register = none ∧
        s.2.2.Holds t bad (answerFds ans.eventfd ++ (answerFds ans.epollCreate ++ fds)))
      (.object fun u s hs => ⟨?_, rfl, hs.2.1, hs.2.2.1, hs.2.2.2⟩) fun wake => ?_
    · rw [show u = _ from hs.1]
      rfl
    refine .bind (M := fun (i : Int) (s : UniqueFd × UniqueFd × NetState) => i = e ∧ wake = answerInt ans.eventfd ∧
        s.1 = .empty ∧ s.2.1 = .empty ∧ ans.register = none ∧
        s.2.2.Holds t bad (answerFds ans.eventfd ++ (answerFds ans.epollCreate ++ fds)))
      (.outer fun g => .object fun u s hs => ⟨?_, hs.1, hs.2.1, rfl, hs.2.2.2.1, hs.2.2.2.2⟩) fun epoll =>
      .pure fun s hs => ?_
    · rw [show u = _ from hs.2.2.1]
      rfl
    · obtain ⟨hepoll', hwake', hempty, hempty', hregister, hholds⟩ := hs
      rw [hempty, hempty', hepoll', hwake']
      refine ⟨?_, rfl, ?_⟩
      · simp [WorkerAnswers.constructs, he, hw, hregister, Except.isOk, Except.toBool]
      · rw [WorkerAnswers.fds, List.append_assoc]
        exact hholds

/-! ## What holds while `main` runs -/

def WorkerObject.fds (w : WorkerObject) : List Fd := w.wakeFd.held.toList ++ w.epollFd.held.toList

/-- The descriptors the objects of `main` own. -/
def MainState.fds (m : MainState) : List Fd := m.workers.flatMap WorkerObject.fds ++ m.listenFd.held.toList

theorem held_answerInt (ans : Except Errno Fd) : (UniqueFd.mk (answerInt ans)).held.toList = answerFds ans := by
  cases ans with
  | error e => rfl
  | ok fd => simp [answerInt, answerFds]

/-- No object is gone too early; threads of workers belong to workers that exist; and the descriptors are
those of the objects. -/
structure Tidy (t : Fd → Option SocketState) (bad : Nat) (s : MainState × NetState) : Prop where
  running : s.1.terminated = false
  sound : s.1.dangling = false
  nodup : s.1.threads.Nodup
  index : s.1.workers.map WorkerObject.index = List.range s.1.workers.length
  worker : ∀ i, .worker i ∈ s.1.threads → i < s.1.workers.length
  fds : s.2.Holds t bad s.1.fds

section Destructors

variable {t : Fd → Option SocketState} {bad : Nat} {s : MainState × NetState} {m : MainState} {o : MainObject}

theorem MainState.destroyed_of_unused (hrun : m.terminated = false)
    (hunused : ∀ t ∈ m.threads, o ∉ t.uses) : m.destroyed o = m := by
  have hnone : m.threads.any (fun t => decide (o ∈ t.uses)) = false := by
    rw [List.any_eq_false]
    intro t ht
    simpa using hunused t ht
  unfold MainState.destroyed
  rw [if_neg (by simp [hrun]), hnone, Bool.or_false]

/-- A worker is used by its own thread only. -/
theorem uses_worker {t : Thread} {i : Nat} (h : .worker i ∈ t.uses) : t = .worker i := by
  cases t with
  | worker j =>
    simp only [Thread.uses, List.mem_cons, reduceCtorEq, MainObject.worker.injEq, List.not_mem_nil, or_false,
      false_or] at h
    rw [h]
  | health => simp [Thread.uses] at h
  | stats => simp [Thread.uses] at h

theorem destroyWorker_eq {w : WorkerObject} (hrun : s.1.terminated = false) (hnodup : s.1.threads.Nodup) :
    destroyWorker w s = (s.1.join (.worker w.index), w.epollFd.destroy (w.wakeFd.destroy s.2)) := by
  unfold destroyWorker
  have hunused : ∀ t ∈ (s.1.join (.worker w.index)).threads, .worker w.index ∉ t.uses := by
    intro t ht hu
    rw [uses_worker hu] at ht
    exact (hnodup.mem_erase_iff.mp ht).1 rfl
  rw [MainState.destroyed_of_unused (m := s.1.join (.worker w.index)) hrun hunused]

theorem NetState.Holds.destroyFd {k : NetState} {u : UniqueFd} {fds : List Fd}
    (h : k.Holds t bad (u.held.toList ++ fds)) : (u.destroy k).Holds t bad fds := by
  unfold UniqueFd.destroy UniqueFd.reset
  cases hu : u.held with
  | none =>
    rw [hu] at h
    exact h
  | some fd =>
    rw [hu] at h
    exact h.close

/-- The destructor of the vector: every worker is joined, and its two descriptors are closed. -/
theorem destroyWorkers_fold (ws : List WorkerObject) {rest : List Fd} (hrun : s.1.terminated = false)
    (hsound : s.1.dangling = false) (hnodup : s.1.threads.Nodup)
    (hfds : s.2.Holds t bad (ws.flatMap WorkerObject.fds ++ rest)) :
    ∃ m k, ws.foldl (fun s w => destroyWorker w s) s = (m, k) ∧ m.terminated = false ∧ m.dangling = false ∧
      m.threads.Nodup ∧ m.listenFd = s.1.listenFd ∧
      (∀ t, t ∈ m.threads ↔ t ∈ s.1.threads ∧ ∀ w ∈ ws, t ≠ .worker w.index) ∧ k.Holds t bad rest := by
  induction ws generalizing s with
  | nil => exact ⟨s.1, s.2, rfl, hrun, hsound, hnodup, rfl, by simp, hfds⟩
  | cons w ws ih =>
    rw [List.foldl_cons, destroyWorker_eq hrun hnodup]
    have hfds' : (w.epollFd.destroy (w.wakeFd.destroy s.2)).Holds t bad (ws.flatMap WorkerObject.fds ++ rest) := by
      rw [List.flatMap_cons, WorkerObject.fds, List.append_assoc, List.append_assoc] at hfds
      exact hfds.destroyFd.destroyFd
    obtain ⟨m, k, hfold, h1, h2, h3, h4, h5, h6⟩ :=
      ih (s := (s.1.join (.worker w.index), w.epollFd.destroy (w.wakeFd.destroy s.2))) hrun hsound
        (hnodup.erase _) hfds'
    refine ⟨m, k, hfold, h1, h2, h3, h4, fun t => ?_, h6⟩
    rw [h5 t]
    simp only [MainState.join, List.forall_mem_cons]
    rw [hnodup.mem_erase_iff]
    tauto

/-- The scopes around the workers are left: `~workers`, `~HealthChecker`, `~Metrics` and `~listenFd`. -/
def leave (s : MainState × NetState) : MainState × NetState :=
  closeListener (destroy .metrics (destroyHealthChecker (destroyWorkers s)))

theorem leave_of_terminated (h : s.1.terminated = true) : leave s = s := by
  simp [leave, destroyWorkers, destroyHealthChecker, destroy, closeListener, MainState.destroyed, h]

/-- Nothing is left. -/
structure Gone (t : Fd → Option SocketState) (bad : Nat) (s : MainState × NetState) : Prop where
  running : s.1.terminated = false
  sound : s.1.dangling = false
  threads : s.1.threads = []
  workers : s.1.workers = []
  table : s.2.table = t
  closes : s.2.badCloses = bad

/-- **Leaving the scopes undoes everything**, unless the statistics thread is still there. -/
theorem Tidy.leave (h : Tidy t bad s) (hstats : .stats ∉ s.1.threads) : Gone t bad (leave s) := by
  obtain ⟨m, k, hfold, hrun, hsound, hnodup, hlisten, hthreads, hfds⟩ :=
    destroyWorkers_fold s.1.workers h.running h.sound h.nodup h.fds
  -- only the health checker's thread is left
  have honly : ∀ t ∈ m.threads, t = .health := by
    intro t ht
    obtain ⟨hold, hnot⟩ := (hthreads t).mp ht
    cases t with
    | health => rfl
    | stats => exact absurd hold hstats
    | worker i =>
      have hi : i ∈ s.1.workers.map WorkerObject.index := by
        rw [h.index]
        exact List.mem_range.mpr (h.worker i hold)
      obtain ⟨w, hw, rfl⟩ := List.mem_map.mp hi
      exact absurd rfl (hnot w hw)
  have hjoined : m.threads.erase .health = [] := by
    rw [List.eq_nil_iff_forall_not_mem]
    intro t ht
    have hin := hnodup.mem_erase_iff.mp ht
    exact hin.1 (honly t hin.2)
  have hworkers : destroyWorkers s = ({ m with workers := [] }, k) := by
    simp [destroyWorkers, h.running, hfold]
  have hhealth : destroyHealthChecker (destroyWorkers s) = ({ m with workers := [], threads := [] }, k) := by
    rw [hworkers]
    simp [destroyHealthChecker, hrun, MainState.join, hjoined, MainState.destroyed]
  have hmetrics : destroy .metrics (destroyHealthChecker (destroyWorkers s)) =
      ({ m with workers := [], threads := [] }, k) := by
    rw [hhealth]
    simp [destroy, hrun, MainState.destroyed]
  have hclosed : (m.listenFd.destroy k).Holds t bad [] := by
    refine NetState.Holds.destroyFd ?_
    rw [hlisten, List.append_nil]
    exact hfds
  have hleave : FluxGate.leave s =
      ({ m with workers := [], threads := [], listenFd := .empty }, m.listenFd.destroy k) := by
    rw [FluxGate.leave, hmetrics]
    simp [closeListener, hrun]
  rw [hleave]
  exact ⟨hrun, hsound, rfl, rfl, hclosed.table, hclosed.closes⟩

end Destructors

/-! ## Starting, step by step -/

def WorkerAnswers.ok (ans : WorkerAnswers) : Bool := ans.constructs && ans.thread.isNone

section Starting

variable {t : Fd → Option SocketState} {bad : Nat} {strerror : Errno → Text}

/-- A worker as its constructor leaves it. -/
def WorkerAnswers.object (ans : WorkerAnswers) (index : Nat) : WorkerObject :=
  ⟨index, ⟨answerInt ans.epollCreate⟩, ⟨answerInt ans.eventfd⟩⟩

theorem fds_push (m : MainState) (ans : WorkerAnswers) (index : Nat) :
    (m.push (ans.object index)).fds.Perm (ans.fds ++ m.fds) := by
  have hnew : (ans.object index).fds = ans.fds := by
    rw [WorkerObject.fds, WorkerAnswers.object, held_answerInt, held_answerInt, WorkerAnswers.fds]
  rw [MainState.fds, MainState.push, MainState.fds, List.flatMap_append, List.flatMap_singleton, hnew,
    List.append_assoc]
  exact List.perm_append_comm_assoc _ _ _

/-- A worker is made and joins the vector. -/
theorem Tidy.push {m : MainState} {k k' : NetState} (h : Tidy t bad (m, k)) {ans : WorkerAnswers}
    (hfds : k'.Holds t bad (ans.fds ++ m.fds)) : Tidy t bad (m.push (ans.object m.workers.length), k') where
  running := h.running
  sound := h.sound
  nodup := h.nodup
  index := by
    simp only [MainState.push, List.map_append, List.length_append, List.length_singleton, List.range_succ, h.index]
    rfl
  worker i hi := by
    simp only [MainState.push, List.length_append, List.length_singleton]
    exact Nat.lt_succ_of_lt (h.worker i hi)
  fds := hfds.perm (fds_push m ans _).symm

/-- A thread is started. -/
theorem Tidy.started {m : MainState} {k : NetState} (h : Tidy t bad (m, k)) {thread : Thread}
    (hnew : thread ∉ m.threads) (hworker : ∀ i, thread = .worker i → i < m.workers.length) :
    Tidy t bad (m.spawn thread, k) where
  running := h.running
  sound := h.sound
  nodup := by
    rw [MainState.spawn, List.nodup_append]
    refine ⟨h.nodup, List.nodup_singleton _, fun a ha b hb => ?_⟩
    rw [List.mem_singleton.mp hb]
    exact fun he => hnew (he ▸ ha)
  index := h.index
  worker i hi := by
    rcases List.mem_append.mp hi with hi | hi
    · exact h.worker i hi
    · exact hworker i (List.mem_singleton.mp hi).symm
  fds := h.fds

/-- The threads after `n` workers have been started. -/
def workerThreads (n : Nat) : List Thread := (List.range n).map .worker

theorem workerThreads_succ (n : Nat) : workerThreads (n + 1) = workerThreads n ++ [.worker n] := by
  rw [workerThreads, List.range_succ, List.map_append]
  rfl

theorem mem_workerThreads {n : Nat} {thread : Thread} (h : thread ∈ workerThreads n) :
    ∃ i < n, thread = .worker i := by
  obtain ⟨i, hi, rfl⟩ := List.mem_map.mp h
  exact ⟨i, List.mem_range.mp hi, rfl⟩

theorem Handed.first {fds new rest : List Fd} (h : Handed t fds (new ++ rest)) : Handed t fds new where
  nodup := by
    refine h.nodup.sublist ?_
    rw [List.append_assoc]
    exact List.Sublist.append (List.Sublist.refl _) (List.sublist_append_right _ _)
  free fd hfd := h.free fd (List.mem_append_left _ hfd)

theorem Handed.second {fds fds' new rest : List Fd} (h : Handed t fds (new ++ rest)) (hp : fds'.Perm (new ++ fds)) :
    Handed t fds' rest where
  nodup := by
    have hall : (new ++ rest ++ fds).Perm (rest ++ fds') := by
      rw [List.append_assoc]
      exact (List.perm_append_comm_assoc new rest fds).trans (hp.symm.append_left rest)
    exact hall.nodup_iff.mp h.nodup
  free fd hfd := h.free fd (List.mem_append_right _ hfd)

/-- A worker has both of its descriptors. -/
def WorkerObject.Valid (w : WorkerObject) : Prop := w.wakeFd.valid = true ∧ w.epollFd.valid = true

theorem WorkerAnswers.object_valid {ans : WorkerAnswers} (h : ans.constructs = true) (index : Nat) :
    (ans.object index).Valid := by
  obtain ⟨epollCreate, eventfd, register, thread⟩ := ans
  cases epollCreate with
  | error e => simp [WorkerAnswers.constructs, Except.isOk, Except.toBool] at h
  | ok fd =>
    cases eventfd with
    | error e => simp [WorkerAnswers.constructs, Except.isOk, Except.toBool] at h
    | ok fd' => simp [WorkerObject.Valid, WorkerAnswers.object, answerInt, UniqueFd.valid]

/-- So many workers have been made and started, and no other thread. -/
structure Manned (t : Fd → Option SocketState) (bad : Nat) (n : Nat) (s : MainState × NetState) : Prop where
  tidy : Tidy t bad s
  workers : s.1.workers.length = n
  valid : ∀ w ∈ s.1.workers, w.Valid
  threads : s.1.threads = workerThreads n

theorem Manned.not_mem {n : Nat} {s : MainState × NetState} (h : Manned t bad n s) {thread : Thread}
    (hnew : ∀ i < n, thread ≠ .worker i) : thread ∉ s.1.threads := by
  intro hin
  rw [h.threads] at hin
  obtain ⟨i, hi, he⟩ := mem_workerThreads hin
  exact hnew i hi he

/-- One more worker is made, and its thread is started. -/
theorem Manned.next {m : MainState} {k k' : NetState} {n : Nat} (h : Manned t bad n (m, k)) {ans : WorkerAnswers}
    (hok : ans.constructs = true) (hfds : k'.Holds t bad (ans.fds ++ m.fds)) :
    Manned t bad (n + 1) ((m.push (ans.object n)).spawn (.worker n), k') := by
  have hlen : m.workers.length = n := h.workers
  have htidy := h.tidy.push hfds
  rw [hlen] at htidy
  refine ⟨htidy.started (h.not_mem fun i hi he => ?_) fun i hi => ?_, ?_, fun w hw => ?_, ?_⟩
  · cases he
    exact Nat.lt_irrefl _ hi
  · cases hi
    simp [MainState.push, hlen]
  · simp [MainState.push, MainState.spawn, hlen]
  · rcases List.mem_append.mp hw with hw | hw
    · exact h.valid w hw
    · rw [List.mem_singleton.mp hw]
      exact WorkerAnswers.object_valid hok n
  · rw [workerThreads_succ, ← h.threads]
    rfl

/-- The loop over the workers: all of them run, or some answer was bad and those made so far are there. -/
theorem startWorkers_spec (index : Nat) (answers : List WorkerAnswers) :
    Prog.Spec (fun s => Manned t bad index s ∧ Handed t s.1.fds (answers.flatMap WorkerAnswers.fds))
      (startWorkers strerror index answers)
      (fun _ s => answers.all WorkerAnswers.ok = true ∧ Manned t bad (index + answers.length) s)
      (fun _ s => answers.all WorkerAnswers.ok = false ∧ Tidy t bad s ∧ .stats ∉ s.1.threads) := by
  induction answers generalizing index with
  | nil => exact .pure fun s hs => ⟨rfl, hs.1⟩
  | cons ans rest ih =>
    rintro ⟨m, k⟩ ⟨hmanned, hnew⟩
    rw [List.flatMap_cons] at hnew
    have hlen : m.workers.length = index := hmanned.workers
    have hstats : .stats ∉ m.threads := hmanned.not_mem fun i _ => by simp
    unfold startWorkers
    rcases createWorker_spec strerror ans hnew.first k hmanned.tidy.fds with
      ⟨r, k', hrun, hconstructs, rfl, hfds⟩ | ⟨e, k', hrun, hconstructs, hfds⟩
    · rw [Prog.bind_ok (Prog.outer_ok m hrun),
        Prog.bind_ok (show Prog.object _ (m, k') = some (.ok (), (m.push (ans.object index), k')) from rfl)]
      cases hthread : ans.thread with
      | some text =>
        rw [Prog.bind_error (show startThread _ (some text) _ = some (.error text, _) from rfl)]
        have htidy := hmanned.tidy.push hfds
        rw [hlen] at htidy
        exact Or.inr ⟨text, _, rfl, by simp [WorkerAnswers.ok, hthread], htidy, hstats⟩
      | none =>
        rw [Prog.bind_ok (show startThread _ none _ =
          some (.ok (), ((m.push (ans.object index)).spawn (.worker index), k')) from rfl)]
        have hok : ans.ok = true := by simp [WorkerAnswers.ok, hconstructs, hthread]
        have hnext := hmanned.next hconstructs hfds
        rcases ih (index + 1) _ ⟨hnext, hnew.second (fds_push m ans index)⟩ with
          ⟨u, s', hrest, hall, hmanned'⟩ | ⟨e, s', hrest, hall, htidy'⟩
        · refine Or.inl ⟨u, s', hrest, by simp [hok, hall], ?_⟩
          rwa [List.length_cons, Nat.add_comm rest.length 1, ← Nat.add_assoc]
        · exact Or.inr ⟨e, s', hrest, by simp [hok, hall], htidy'⟩
    · rw [Prog.bind_error (Prog.outer_error m hrun)]
      have h := hmanned.tidy
      exact Or.inr ⟨e, _, rfl, by simp [WorkerAnswers.ok, hconstructs],
        ⟨h.running, h.sound, h.nodup, h.index, h.worker, hfds⟩, hstats⟩

/-! ## Inside the innermost scope -/

/-- The workers and the health checker run. -/
structure Staffed (t : Fd → Option SocketState) (bad : Nat) (n : Nat) (s : MainState × NetState) : Prop where
  tidy : Tidy t bad s
  workers : s.1.workers.length = n
  valid : ∀ w ∈ s.1.workers, w.Valid
  threads : s.1.threads = workerThreads n ++ [.health]

theorem Manned.health {m : MainState} {k : NetState} {n : Nat} (h : Manned t bad n (m, k)) :
    Staffed t bad n (m.spawn .health, k) := by
  refine ⟨h.tidy.started (h.not_mem fun i _ => by simp) fun i hi => (by cases hi), h.workers, h.valid, ?_⟩
  rw [← h.threads]
  rfl

theorem Staffed.stats_not_mem {n : Nat} {s : MainState × NetState} (h : Staffed t bad n s) :
    .stats ∉ s.1.threads := by
  rw [h.threads, List.mem_append, not_or]
  refine ⟨fun hin => ?_, by simp⟩
  obtain ⟨i, -, he⟩ := mem_workerThreads hin
  cases he

/-- Joining the workers one after another. -/
theorem join_fold (ws : List WorkerObject) (m : MainState) (hnodup : m.threads.Nodup) :
    ∃ threads, ws.foldl (fun m w => m.join (.worker w.index)) m = { m with threads := threads } ∧ threads.Nodup ∧
      ∀ t, t ∈ threads ↔ t ∈ m.threads ∧ ∀ w ∈ ws, t ≠ .worker w.index := by
  induction ws generalizing m with
  | nil => exact ⟨m.threads, rfl, hnodup, by simp⟩
  | cons w ws ih =>
    obtain ⟨threads, hfold, hnodup', hmem⟩ := ih (m.join (.worker w.index)) (hnodup.erase _)
    refine ⟨threads, by rw [List.foldl_cons, hfold]; rfl, hnodup', fun t => ?_⟩
    rw [hmem t, MainState.join, hnodup.mem_erase_iff, List.forall_mem_cons]
    tauto

/-- The regular end: every thread is joined. -/
theorem Tidy.shutdown {m : MainState} {k : NetState} (h : Tidy t bad (m, k)) :
    ∃ m', shutdown (m, k) = some (.ok (), (m', k)) ∧ Tidy t bad (m', k) ∧ m'.threads = [] := by
  obtain ⟨threads, hfold, hnodup, hmem⟩ := join_fold m.workers (m.join .health) (h.nodup.erase _)
  have hnone : threads.erase .stats = [] := by
    rw [List.eq_nil_iff_forall_not_mem]
    intro t ht
    obtain ⟨hnstats, hin⟩ := hnodup.mem_erase_iff.mp ht
    obtain ⟨hold, hworker⟩ := (hmem t).mp hin
    obtain ⟨hnhealth, hold⟩ := h.nodup.mem_erase_iff.mp hold
    cases t with
    | health => exact hnhealth rfl
    | stats => exact hnstats rfl
    | worker i =>
      have hi : i ∈ m.workers.map WorkerObject.index := by
        rw [h.index]
        exact List.mem_range.mpr (h.worker i hold)
      obtain ⟨w, hw, rfl⟩ := List.mem_map.mp hi
      exact hworker w hw rfl
  refine ⟨{ m with threads := [] }, ?_,
    ⟨h.running, h.sound, List.nodup_nil, h.index, fun i hi => (by cases hi), h.fds⟩, rfl⟩
  have hend : (m.workers.foldl (fun m w => m.join (.worker w.index)) (m.join .health)).join .stats =
      { m with threads := [] } := by
    rw [hfold, MainState.join, hnone]
    rfl
  exact congrArg (fun m' => some ((Except.ok () : Except Text Unit), (m', k))) hend

/-- The statistics thread can be started, where one is wanted. -/
def MainAnswers.statsOk (config : AppConfig) (ans : MainAnswers) : Bool :=
  config.statsIntervalSeconds == 0 || ans.statsThread.isNone

/-- The failure of `poll` that ends the accept loop, if one does. -/
def MainAnswers.pollFailed (ans : MainAnswers) : Option Errno := (ans.polls.filterMap id).find? fun e => e ≠ .eintr

theorem acceptLoop_eq (polls : List (Option Errno)) :
    acceptLoop strerror polls = match (polls.filterMap id).find? fun e => e ≠ .eintr with
      | some e => .throw ("poll failed: ".toList ++ strerror e)
      | none => pure () := by
  induction polls with
  | nil => rfl
  | cons poll polls ih =>
    cases poll with
    | none => exact ih
    | some e =>
      by_cases he : e = .eintr
      · rw [acceptLoop, if_pos he, ih]
        simp [he]
      · rw [acceptLoop, if_neg he]
        simp [he]

/-- The statistics thread runs when `poll` fails. -/
def MainAnswers.fatal (config : AppConfig) (ans : MainAnswers) : Bool :=
  decide (0 < config.statsIntervalSeconds) && ans.statsThread.isNone && ans.pollFailed.isSome

/-- A thread that runs could be started. -/
theorem statsOk_and_fatal (config : AppConfig) (ans : MainAnswers) :
    (ans.statsOk config && ans.fatal config) = ans.fatal config := by
  rw [MainAnswers.statsOk, MainAnswers.fatal]
  cases ans.statsThread <;> simp

/-- How a scope is left: by `std::terminate`, or with the threads of the objects that are still there. -/
def LeftBy (t : Fd → Option SocketState) (bad : Nat) (fatal : Bool) (s : MainState × NetState) : Prop :=
  if fatal then s.1.terminated = true ∧ s.1.dangling = false else Tidy t bad s ∧ .stats ∉ s.1.threads

/-- `~thread` and `statsRunning`, when the thread is not there. -/
theorem leave_stats {s : MainState × NetState} (h : Tidy t bad s) (hstats : .stats ∉ s.1.threads) :
    destroy .statsRunning (destroyStatsThread s) = s := by
  have hunused : ∀ thread ∈ s.1.threads, .statsRunning ∉ thread.uses := by
    intro thread hin
    cases thread with
    | stats => exact absurd hin hstats
    | health => simp [Thread.uses]
    | worker i => simp [Thread.uses]
  rw [destroyStatsThread, if_neg hstats, destroy, MainState.destroyed_of_unused h.running hunused]

/-- The same, when the thread is there. -/
theorem leave_stats_running {s : MainState × NetState} (hstats : .stats ∈ s.1.threads) :
    destroy .statsRunning (destroyStatsThread s) = ({ s.1 with terminated := true }, s.2) := by
  rw [destroyStatsThread, if_pos hstats]
  simp [destroy, MainState.destroyed]

theorem startHealth_spec (ans : MainAnswers) {n : Nat} :
    Prog.Spec (Manned t bad n) (startThread .health ans.healthThread)
      (fun _ s => ans.healthThread.isNone = true ∧ Staffed t bad n s)
      (fun _ s => ans.healthThread.isNone = false ∧ LeftBy t bad false s) := by
  rintro ⟨m, k⟩ h
  cases hthread : ans.healthThread with
  | some text => exact Or.inr ⟨text, (m, k), rfl, rfl, h.tidy, h.not_mem fun i _ => by simp⟩
  | none => exact Or.inl ⟨(), _, rfl, rfl, h.health⟩

theorem startStats_spec (config : AppConfig) (ans : MainAnswers) {n : Nat} :
    Prog.Spec (Staffed t bad n) (startStats config ans.statsThread)
      (fun _ s => ans.statsOk config = true ∧ Tidy t bad s ∧
        (.stats ∈ s.1.threads ↔ 0 < config.statsIntervalSeconds) ∧ s.1.workers.length = n ∧ ∀ w ∈ s.1.workers, w.Valid)
      (fun _ s => ans.statsOk config = false ∧ LeftBy t bad false s) := by
  unfold startStats
  refine .ite (fun hwanted => ?_) fun hwanted => .pure fun s h => ⟨?_, h.tidy, ?_, h.workers, h.valid⟩
  · rintro ⟨m, k⟩ h
    cases hthread : ans.statsThread with
    | some text =>
      refine Or.inr ⟨text, (m, k), rfl, ?_, h.tidy, h.stats_not_mem⟩
      simp [MainAnswers.statsOk, hthread]
      omega
    | none =>
      refine Or.inl ⟨(), _, rfl, by simp [MainAnswers.statsOk, hthread], ?_, ?_, h.workers, h.valid⟩
      · exact h.tidy.started h.stats_not_mem fun i hi => (by cases hi)
      · simp [MainState.spawn, hwanted]
  · simp [MainAnswers.statsOk]
    omega
  · simp [h.stats_not_mem, hwanted]

/-- The accept loop and the end of `main`. -/
theorem acceptLoop_spec (ans : MainAnswers) {wanted : Prop} :
    Prog.Spec (fun s => Tidy t bad s ∧ (.stats ∈ s.1.threads ↔ wanted))
      (do acceptLoop strerror ans.polls; shutdown)
      (fun _ s => ans.pollFailed.isNone = true ∧ Tidy t bad s ∧ s.1.threads = [])
      (fun _ s => ans.pollFailed.isNone = false ∧ Tidy t bad s ∧ (.stats ∈ s.1.threads ↔ wanted)) := by
  rintro ⟨m, k⟩ ⟨htidy, hstats⟩
  have hloop := @acceptLoop_eq strerror ans.polls
  rw [← MainAnswers.pollFailed] at hloop
  cases hpoll : ans.pollFailed with
  | some e =>
    rw [hpoll] at hloop
    refine Or.inr ⟨"poll failed: ".toList ++ strerror e, (m, k), ?_, rfl, htidy, hstats⟩
    rw [hloop, Prog.bind_error (show Prog.throw _ (m, k) = some (.error _, (m, k)) from rfl)]
  | none =>
    rw [hpoll] at hloop
    rw [hloop]
    obtain ⟨m', hrun, htidy', hnone⟩ := htidy.shutdown
    exact Or.inl ⟨(), (m', k), hrun, rfl, htidy', hnone⟩

/-- The end of the scope of the statistics thread, when it may be running. -/
theorem leave_stats_of {config : AppConfig} {ans : MainAnswers} {s : MainState × NetState} (h : Tidy t bad s)
    (hok : ans.statsOk config = true) (hpoll : ans.pollFailed.isNone = false)
    (hstats : .stats ∈ s.1.threads ↔ 0 < config.statsIntervalSeconds) :
    LeftBy t bad (ans.fatal config) (destroy .statsRunning (destroyStatsThread s)) := by
  have hsome : ans.pollFailed.isSome = true := by
    rw [← Option.not_isNone, hpoll]
    rfl
  rw [MainAnswers.statsOk, Bool.or_eq_true, beq_iff_eq] at hok
  by_cases hwanted : 0 < config.statsIntervalSeconds
  · have hfatal : ans.fatal config = true := by
      simp [MainAnswers.fatal, hwanted, hok.resolve_left (by omega), hsome]
    rw [hfatal, leave_stats_running (hstats.mpr hwanted)]
    exact ⟨rfl, h.sound⟩
  · have hfatal : ans.fatal config = false := by simp [MainAnswers.fatal, hwanted]
    have hnot : .stats ∉ s.1.threads := fun hin => hwanted (hstats.mp hin)
    rw [hfatal, leave_stats h hnot]
    exact ⟨h, hnot⟩

theorem runStats_spec (config : AppConfig) (ans : MainAnswers) {n : Nat} :
    Prog.Spec (Staffed t bad n) (runStats strerror config ans)
      (fun _ s => (ans.statsOk config && ans.pollFailed.isNone) = true ∧ LeftBy t bad false s)
      (fun _ s => (ans.statsOk config && ans.pollFailed.isNone) = false ∧ LeftBy t bad (ans.fatal config) s) := by
  refine .ensuring (.ensuring ?_)
  refine .bind ((startStats_spec config ans).weaken (fun s hs => hs) (fun _ s hs => ⟨hs.1, hs.2.1, hs.2.2.1⟩)
    fun m s hs => ⟨by simp [hs.1], ?_⟩) fun _ => .of_fact
    (P := fun s => Tidy t bad s ∧ (.stats ∈ s.1.threads ↔ 0 < config.statsIntervalSeconds)) fun hok => ?_
  · obtain ⟨htidy, hnot⟩ : Tidy t bad s ∧ Thread.stats ∉ s.1.threads := hs.2
    have hfatal : ans.fatal config = false := by
      rw [← statsOk_and_fatal, hs.1, Bool.false_and]
    rw [hfatal, leave_stats htidy hnot]
    exact ⟨htidy, hnot⟩
  · refine (acceptLoop_spec ans).weaken (fun s hs => hs) (fun _ s hs => ⟨by simp [hok, hs.1], ?_⟩)
      fun m s hs => ⟨by simp [hs.1], leave_stats_of hs.2.1 hok hs.1 hs.2.2⟩
    have hnot : .stats ∉ s.1.threads := by simp [hs.2.2]
    rw [leave_stats hs.2.1 hnot]
    exact ⟨hs.2.1, hnot⟩

/-! ## The whole of `main` -/

/-- How `main` is left: by `std::terminate`, or with nothing left behind. -/
def Ended (t : Fd → Option SocketState) (bad : Nat) (fatal : Bool) (s : MainState × NetState) : Prop :=
  if fatal then s.1.terminated = true ∧ s.1.dangling = false else Gone t bad s

theorem LeftBy.leave {fatal : Bool} {s : MainState × NetState} (h : LeftBy t bad fatal s) :
    Ended t bad fatal (leave s) := by
  cases fatal with
  | true =>
    rw [leave_of_terminated h.1]
    exact h
  | false => exact Tidy.leave h.1 h.2

/-- An object that no thread is left to use. -/
theorem Ended.destroy {fatal : Bool} {s : MainState × NetState} (h : Ended t bad fatal s) (o : MainObject) :
    Ended t bad fatal (destroy o s) := by
  cases fatal with
  | true =>
    have hterm : s.1.terminated = true := h.1
    have hsame : FluxGate.destroy o s = s := by simp [FluxGate.destroy, MainState.destroyed, hterm]
    rw [hsame]
    exact h
  | false =>
    have hgone : Gone t bad s := h
    have hsame : FluxGate.destroy o s = s := by
      rw [FluxGate.destroy, MainState.destroyed_of_unused hgone.running]
      intro thread hin
      rw [hgone.threads] at hin
      cases hin
    rw [hsame]
    exact h

/-- All threads can be started. -/
def MainAnswers.threadsOk (config : AppConfig) (ans : MainAnswers) : Bool :=
  (ans.each config).all WorkerAnswers.ok && ans.healthThread.isNone

theorem runWorkers_spec (config : AppConfig) (ans : MainAnswers) :
    Prog.Spec (fun s => Manned t bad 0 s ∧ Handed t s.1.fds ((ans.each config).flatMap WorkerAnswers.fds))
      (runWorkers strerror config ans)
      (fun _ s => (ans.threadsOk config && (ans.statsOk config && ans.pollFailed.isNone)) = true ∧
        Ended t bad false s)
      (fun _ s => (ans.threadsOk config && (ans.statsOk config && ans.pollFailed.isNone)) = false ∧
        Ended t bad (ans.threadsOk config && ans.fatal config) s) := by
  refine .ensuring (.ensuring (.ensuring (.ensuring ?_)))
  refine .bind ((startWorkers_spec 0 (ans.each config)).weaken (fun s hs => hs) (fun _ s hs => hs) fun m s hs => ?_)
    fun _ => .of_fact (P := Manned t bad (0 + (ans.each config).length)) fun hworkers => ?_
  · have hbad : ans.threadsOk config = false := by simp [MainAnswers.threadsOk, hs.1]
    rw [hbad]
    exact ⟨rfl, (show LeftBy t bad false s from hs.2).leave⟩
  · refine .bind ((startHealth_spec ans).weaken (fun s hs => hs) (fun _ s hs => hs) fun m s hs => ?_)
      fun _ => .of_fact (P := Staffed t bad (0 + (ans.each config).length)) fun hhealth => ?_
    · have hbad : ans.threadsOk config = false := by simp [MainAnswers.threadsOk, hs.1]
      rw [hbad]
      exact ⟨rfl, hs.2.leave⟩
    · have hok : ans.threadsOk config = true := by simp [MainAnswers.threadsOk, hworkers, hhealth]
      rw [hok, Bool.true_and, Bool.true_and]
      exact (runStats_spec config ans).weaken (fun s hs => hs) (fun _ s hs => ⟨hs.1, hs.2.leave⟩)
        fun m s hs => ⟨hs.1, hs.2.leave⟩

/-- `main` has no object yet. -/
def MainState.start : MainState := ⟨[], [], .empty, false, false⟩

def MainAnswers.fds (config : AppConfig) (ans : MainAnswers) : List Fd :=
  answerFds ans.listen.socket ++ (ans.each config).flatMap WorkerAnswers.fds

/-- The listening socket can be made. -/
def MainAnswers.listenOk (resolver : Resolver) (config : AppConfig) (ans : MainAnswers) : Bool :=
  (resolveTcpEndpoint resolver config.listenHost.toList config.listenPort).isOk &&
    (firstFailure ans.listen.calls).isNone

/-- Everything before the accept loop works. -/
def MainAnswers.startOk (resolver : Resolver) (config : AppConfig) (ans : MainAnswers) : Bool :=
  ans.signals && (ans.listenOk resolver config && (ans.threadsOk config && ans.statsOk config))

theorem startOk_and_fatal (resolver : Resolver) (config : AppConfig) (ans : MainAnswers) :
    (ans.startOk resolver config && ans.fatal config) = true ↔
      ans.startOk resolver config = true ∧ 0 < config.statsIntervalSeconds ∧ ans.pollFailed ≠ none := by
  rw [Bool.and_eq_true]
  refine and_congr_right fun hstart => ?_
  have hstats : ans.statsOk config = true := by
    simp only [MainAnswers.startOk, Bool.and_eq_true] at hstart
    exact hstart.2.2.2
  rw [MainAnswers.statsOk, Bool.or_eq_true, beq_iff_eq] at hstats
  simp only [MainAnswers.fatal, Bool.and_eq_true, decide_eq_true_eq, Option.isSome_iff_ne_none]
  constructor
  · rintro ⟨⟨hpos, -⟩, hpoll⟩
    exact ⟨hpos, hpoll⟩
  · rintro ⟨hpos, hpoll⟩
    exact ⟨⟨hpos, hstats.resolve_left (by omega)⟩, hpoll⟩

/-- With the listening socket, before the first worker. -/
theorem manned_zero {k : NetState} {fd : Fd} (h : k.Holds t bad [fd]) :
    Manned t bad 0 ({ MainState.start with listenFd := ⟨fd⟩ }, k) where
  tidy := by
    refine ⟨rfl, rfl, List.nodup_nil, rfl, fun i hi => (by cases hi), ?_⟩
    simpa [MainState.fds, MainState.start] using h
  workers := rfl
  valid w hw := (by cases hw)
  threads := rfl

theorem openListener_spec (resolver : Resolver) (config : AppConfig) (ans : MainAnswers)
    (hnew : Handed t [] (ans.fds config)) :
    Prog.Spec (fun s => s.1 = .start ∧ s.2.table = t ∧ s.2.badCloses = bad)
      (openListener strerror resolver config ans.listen)
      (fun _ s => ans.listenOk resolver config = true ∧ Manned t bad 0 s ∧
        Handed t s.1.fds ((ans.each config).flatMap WorkerAnswers.fds))
      (fun _ s => ans.listenOk resolver config = false ∧ Ended t bad false s) := by
  rintro ⟨m, k⟩ ⟨rfl, htable, hbad⟩
  have hgone : ∀ k' : NetState, k'.table = t → k'.badCloses = bad → Ended t bad false (MainState.start, k') :=
    fun k' h1 h2 => ⟨rfl, rfl, rfl, rfl, h1, h2⟩
  unfold openListener createListenSocket
  cases hresolve : resolveTcpEndpoint resolver config.listenHost.toList config.listenPort with
  | error text =>
    rw [Prog.bind_error (Prog.outer_error _ rfl)]
    refine Or.inr ⟨text, _, rfl, ?_, hgone k htable hbad⟩
    simp [MainAnswers.listenOk, hresolve, Except.isOk, Except.toBool]
  | ok endpoint =>
    have hfresh : Fresh t ans.listen.socket := by
      intro fd hfd
      exact hnew.free fd (by simp [MainAnswers.fds, hfd, answerFds])
    rcases @listenOn_spec strerror t bad endpoint config.backlog ans.listen hfresh k ⟨htable, hbad⟩ with
      ⟨r, k', hrun, hok, fd, hsocket, rfl, hwith⟩ | ⟨text, k', hrun, ⟨failure, hfailure, -⟩, htable', hbad'⟩
    · rw [Prog.bind_ok (Prog.outer_ok _ hrun)]
      refine Or.inl ⟨(), _, rfl, by simp [MainAnswers.listenOk, hresolve, hok, Except.isOk, Except.toBool], ?_, ?_⟩
      · exact manned_zero (With.holds hwith (hfresh fd hsocket))
      · have hfirst : Handed t [] ([fd] ++ (ans.each config).flatMap WorkerAnswers.fds) := by
          have h := hnew
          rw [MainAnswers.fds, hsocket] at h
          exact h
        have hfds : (({ MainState.start with listenFd := ⟨fd⟩ } : MainState)).fds = [fd] := by
          simp [MainState.fds, MainState.start]
        exact hfirst.second (by rw [hfds, List.append_nil])
    · rw [Prog.bind_error (Prog.outer_error _ hrun)]
      exact Or.inr ⟨text, _, rfl, by simp [MainAnswers.listenOk, hfailure], hgone k' htable' hbad'⟩

theorem main_spec (resolver : Resolver) (config : AppConfig) (ans : MainAnswers)
    (hnew : Handed t [] (ans.fds config)) :
    Prog.Spec (fun s => s.1 = .start ∧ s.2.table = t ∧ s.2.badCloses = bad) (main strerror resolver config ans)
      (fun _ s => (ans.startOk resolver config && ans.pollFailed.isNone) = true ∧ Ended t bad false s)
      (fun _ s => (ans.startOk resolver config && ans.pollFailed.isNone) = false ∧
        Ended t bad (ans.startOk resolver config && ans.fatal config) s) := by
  refine .ensuring (.ensuring ?_)
  refine Prog.Spec.weaken (P := fun s => s.1 = .start ∧ s.2.table = t ∧ s.2.badCloses = bad)
    (Q := fun _ s => (ans.startOk resolver config && ans.pollFailed.isNone) = true ∧ Ended t bad false s)
    (E := fun _ s => (ans.startOk resolver config && ans.pollFailed.isNone) = false ∧
      Ended t bad (ans.startOk resolver config && ans.fatal config) s) ?_ (fun s hs => hs)
    (fun _ s hs => ⟨hs.1, (hs.2.destroy .backendPool).destroy .config⟩)
    fun m s hs => ⟨hs.1, (hs.2.destroy .backendPool).destroy .config⟩
  have hgone : ∀ s : MainState × NetState, s.1 = .start ∧ s.2.table = t ∧ s.2.badCloses = bad →
      Ended t bad false s := by
    rintro ⟨m, k⟩ ⟨rfl, htable, hbad⟩
    exact ⟨rfl, rfl, rfl, rfl, htable, hbad⟩
  cases hsignals : ans.signals with
  | false =>
    intro s hs
    rw [Prog.bind_error (show installSignals false s = some (.error _, s) from rfl)]
    refine Or.inr ⟨_, s, rfl, by simp [MainAnswers.startOk, hsignals], ?_⟩
    simpa [MainAnswers.startOk, hsignals] using hgone s hs
  | true =>
    refine .bind (M := fun _ s => s.1 = .start ∧ s.2.table = t ∧ s.2.badCloses = bad) (.pure fun s hs => hs)
      fun _ => ?_
    refine .bind ((openListener_spec resolver config ans hnew).weaken (fun s hs => hs) (fun _ s hs => hs)
      fun m s hs => ?_) fun _ => .of_fact (P := fun s => Manned t bad 0 s ∧
        Handed t s.1.fds ((ans.each config).flatMap WorkerAnswers.fds)) fun hlisten => ?_
    · refine ⟨by simp [MainAnswers.startOk, hs.1], ?_⟩
      simpa [MainAnswers.startOk, hs.1] using hs.2
    · refine (runWorkers_spec config ans).weaken (fun s hs => hs) (fun _ s hs => ⟨?_, hs.2⟩) fun m s hs => ⟨?_, ?_⟩
      · rw [MainAnswers.startOk, hsignals, hlisten, Bool.true_and, Bool.true_and, Bool.and_assoc]
        exact hs.1
      · rw [MainAnswers.startOk, hsignals, hlisten, Bool.true_and, Bool.true_and, Bool.and_assoc]
        exact hs.1
      · rw [MainAnswers.startOk, hsignals, hlisten, Bool.true_and, Bool.true_and, Bool.and_assoc, statsOk_and_fatal]
        exact hs.2

end Starting

/-- **`main` cleans up after every failure but one.** Whatever fails, in whatever call of the start-up or in
the accept loop: no object is destroyed while a thread that uses it has not been joined. `main` returns
normally iff everything could be started and the accept loop was ended by a stop request. `std::terminate`
is called iff everything could be started, statistics are on, and `poll` fails: the exception then destroys
the statistics thread before it is joined. In all other cases every thread has been joined, every descriptor
that was opened is closed again, and no other one is touched. -/
theorem main_unwinds (strerror : Errno → Text) (resolver : Resolver) (config : AppConfig) (ans : MainAnswers)
    (s : NetState) (hnew : Handed s.table [] (ans.fds config)) :
    ∃ r m s', main strerror resolver config ans (.start, s) = some (r, (m, s')) ∧ m.dangling = false ∧
      (r = .ok () ↔ ans.startOk resolver config = true ∧ ans.pollFailed = none) ∧
      (m.terminated = true ↔
        ans.startOk resolver config = true ∧ 0 < config.statsIntervalSeconds ∧ ans.pollFailed ≠ none) ∧
      (m.terminated = false → m.threads = [] ∧ m.workers = [] ∧ s'.table = s.table ∧ s'.badCloses = s.badCloses) := by
  have hfatal := startOk_and_fatal resolver config ans
  rcases @main_spec s.table s.badCloses strerror resolver config ans hnew (.start, s) ⟨rfl, rfl, rfl⟩ with
    ⟨u, ⟨m, s'⟩, hrun, hok, hgone⟩ | ⟨text, ⟨m, s'⟩, hrun, hok, hended⟩
  · have hgone : Gone s.table s.badCloses (m, s') := hgone
    rw [Bool.and_eq_true, Option.isNone_iff_eq_none] at hok
    refine ⟨.ok (), m, s', hrun, hgone.sound, ⟨fun _ => hok, fun _ => rfl⟩, ?_, fun _ => ?_⟩
    · rw [show m.terminated = false from hgone.running]
      simp [hok.2]
    · exact ⟨hgone.threads, hgone.workers, hgone.table, hgone.closes⟩
  · have hnot : ¬ (ans.startOk resolver config = true ∧ ans.pollFailed = none) := by
      rintro ⟨h1, h2⟩
      simp [h1, h2] at hok
    rw [← hfatal]
    cases hb : ans.startOk resolver config && ans.fatal config with
    | true =>
      rw [hb] at hended
      obtain ⟨hterm, hsound⟩ : m.terminated = true ∧ m.dangling = false := hended
      exact ⟨.error text, m, s', hrun, hsound, by simpa using hnot, by simp [hterm], by simp [hterm]⟩
    | false =>
      rw [hb] at hended
      have hgone : Gone s.table s.badCloses (m, s') := hended
      have hterm : m.terminated = false := hgone.running
      refine ⟨.error text, m, s', hrun, hgone.sound, by simpa using hnot, by simp [hterm], fun _ => ?_⟩
      exact ⟨hgone.threads, hgone.workers, hgone.table, hgone.closes⟩

namespace Demo

def oneWorker : AppConfig := { workers := 1 }

def backend : BackendConfig := ⟨"app", "127.0.0.1", 9001, 1⟩

/-- Everything starts; `poll` is interrupted once, works once and then fails. -/
def pollFails : MainAnswers where
  signals := true
  listen := ⟨.ok 3, ⟨none, none⟩, ⟨none, none⟩, none, none, none⟩
  workers := fun _ => ⟨.ok 4, .ok 5, none, none⟩
  healthThread := none
  statsThread := none
  polls := [some .eintr, none, some (.other 12)]

theorem pollFails_handed : Handed idle.table [] (pollFails.fds oneWorker) := ⟨by decide, fun _ _ => rfl⟩

theorem pollFails_startOk : pollFails.startOk resolver oneWorker = true := rfl

end Demo

/-- A failing `poll` with statistics on ends in `std::terminate`. -/
theorem main_unwinds_terminated : ∃ r m s',
    main Demo.strerror Demo.resolver Demo.oneWorker Demo.pollFails (.start, Demo.idle) = some (r, (m, s')) ∧
      r ≠ .ok () ∧ m.terminated = true ∧ m.dangling = false := by
  obtain ⟨r, m, s', hrun, hsound, hr, hterm, -⟩ :=
    main_unwinds Demo.strerror Demo.resolver Demo.oneWorker Demo.pollFails Demo.idle Demo.pollFails_handed
  refine ⟨r, m, s', hrun, fun hok => ?_, hterm.mpr ⟨Demo.pollFails_startOk, by decide, by decide⟩, hsound⟩
  exact absurd (hr.mp hok).2 (by decide)

/-! ## What the start-up leaves

The statements of `main` before the accept loop, and the process they leave: a
start of `System`, to which all results about its runs apply. -/

/-- `main` from the signal handlers to the accept loop. -/
def startUp (strerror : Errno → Text) (resolver : Resolver) (config : AppConfig) (ans : MainAnswers) : Main Unit := do
  installSignals ans.signals
  openListener strerror resolver config ans.listen
  startWorkers strerror 0 (ans.each config)
  startThread .health ans.healthThread
  startStats config ans.statsThread

/-- All the destructors at the end of `main`. -/
def leaveMain (s : MainState × NetState) : MainState × NetState :=
  destroy .config (destroy .backendPool (leave (destroy .statsRunning (destroyStatsThread s))))

/-- The process, with the descriptors `others` that were open before. -/
def MainState.system (m : MainState) (k : NetState) (others : List Fd) (configs : Nat → BackendConfig) :
    System m.workers.length where
  workers i := System.newWorker (m.workers.get i).wakeFd.fd.toNat (m.workers.get i).epollFd.fd.toNat
  acceptor := .accepting
  others := m.listenFd.held.toList ++ others
  isOpen fd := (k.table fd).isSome
  shared := ⟨fun b => .new (configs b), .new⟩
  opened _ := 0
  closed _ := 0
  accepted _ := false

section StartUp

variable {t : Fd → Option SocketState} {bad : Nat} {strerror : Errno → Text}

theorem startUp_spec (resolver : Resolver) (config : AppConfig) (ans : MainAnswers)
    (hnew : Handed t [] (ans.fds config)) :
    Prog.Spec (fun s => s.1 = .start ∧ s.2.table = t ∧ s.2.badCloses = bad) (startUp strerror resolver config ans)
      (fun _ s => ans.startOk resolver config = true ∧ Tidy t bad s ∧ s.1.workers.length = config.workers ∧
        ∀ w ∈ s.1.workers, w.Valid)
      (fun _ _ => ans.startOk resolver config = false) := by
  have hall : (ans.each config).length = config.workers := by simp [MainAnswers.each]
  unfold startUp
  cases hsignals : ans.signals with
  | false =>
    intro s hs
    rw [Prog.bind_error (show installSignals false s = some (.error _, s) from rfl)]
    exact Or.inr ⟨_, s, rfl, by simp [MainAnswers.startOk, hsignals]⟩
  | true =>
    refine .bind (M := fun _ s => s.1 = .start ∧ s.2.table = t ∧ s.2.badCloses = bad) (.pure fun s hs => hs)
      fun _ => ?_
    refine .bind ((openListener_spec resolver config ans hnew).weaken (fun s hs => hs) (fun _ s hs => hs)
      fun m s hs => by simp [MainAnswers.startOk, hs.1]) fun _ => .of_fact
      (P := fun s => Manned t bad 0 s ∧ Handed t s.1.fds ((ans.each config).flatMap WorkerAnswers.fds))
      fun hlisten => ?_
    refine .bind ((startWorkers_spec 0 (ans.each config)).weaken (fun s hs => hs) (fun _ s hs => hs)
      fun m s hs => by simp [MainAnswers.startOk, MainAnswers.threadsOk, hs.1]) fun _ => .of_fact
      (P := Manned t bad (0 + (ans.each config).length)) fun hworkers => ?_
    refine .bind ((startHealth_spec ans).weaken (fun s hs => hs) (fun _ s hs => hs)
      fun m s hs => by simp [MainAnswers.startOk, MainAnswers.threadsOk, hs.1]) fun _ => .of_fact
      (P := Staffed t bad (0 + (ans.each config).length)) fun hhealth => ?_
    rw [Nat.zero_add, hall]
    refine (startStats_spec config ans).weaken (fun s hs => hs) (fun _ s hs => ⟨?_, hs.2.1, hs.2.2.2⟩)
      fun m s hs => ?_
    · simp [MainAnswers.startOk, MainAnswers.threadsOk, hsignals, hlisten, hworkers, hhealth, hs.1]
    · simp [MainAnswers.startOk, hs.1]

/-- What is done after the start-up, and the destructors. -/
theorem main_of_startUp (resolver : Resolver) (config : AppConfig) (ans : MainAnswers) {s s₁ : MainState × NetState}
    (h : startUp strerror resolver config ans s = some (.ok (), s₁)) :
    main strerror resolver config ans s =
      Prog.ensuring (do acceptLoop strerror ans.polls; shutdown) leaveMain s₁ := by
  obtain ⟨_, t₁, h₁, h⟩ := Prog.ok_of_bind h
  obtain ⟨_, t₂, h₂, h⟩ := Prog.ok_of_bind h
  obtain ⟨_, t₃, h₃, h⟩ := Prog.ok_of_bind h
  obtain ⟨_, t₄, h₄, h₅⟩ := Prog.ok_of_bind h
  rw [main, Prog.ensuring_ensuring, Prog.ensuring_bind_ok h₁, Prog.ensuring_bind_ok h₂, runWorkers,
    Prog.ensuring_ensuring, Prog.ensuring_ensuring, Prog.ensuring_ensuring, Prog.ensuring_ensuring,
    Prog.ensuring_bind_ok h₃, Prog.ensuring_bind_ok h₄, runStats, Prog.ensuring_ensuring, Prog.ensuring_ensuring,
    Prog.ensuring_bind_ok h₅]
  rfl

/-- The descriptors of a worker, as the system has them. -/
theorem WorkerObject.Valid.fds {w : WorkerObject} (h : w.Valid) :
    w.fds = [w.wakeFd.fd.toNat, w.epollFd.fd.toNat] := by
  simp [WorkerObject.fds, UniqueFd.held, h.1, h.2]

theorem flatMap_system (m : MainState) (k : NetState) (others : List Fd) (configs : Nat → BackendConfig)
    (hvalid : ∀ w ∈ m.workers, w.Valid) :
    (List.finRange m.workers.length).flatMap (fun i => [((m.system k others configs).workers i).wakeFd,
      ((m.system k others configs).workers i).epollFd]) = m.workers.flatMap WorkerObject.fds := by
  have hget : m.workers = (List.finRange m.workers.length).map m.workers.get := (List.map_get_finRange m.workers).symm
  calc (List.finRange m.workers.length).flatMap (fun i => [((m.system k others configs).workers i).wakeFd,
        ((m.system k others configs).workers i).epollFd])
      = (List.finRange m.workers.length).flatMap (fun i => (m.workers.get i).fds) := by
        refine List.flatMap_congr fun i _ => ?_
        rw [(hvalid _ (List.get_mem _ i)).fds]
        rfl
    _ = ((List.finRange m.workers.length).map m.workers.get).flatMap WorkerObject.fds := by
        rw [List.flatMap_map]
    _ = m.workers.flatMap WorkerObject.fds := by rw [← hget]

/-- The objects of `main` are a start of the system. -/
theorem Tidy.start {m : MainState} {k : NetState} (h : Tidy t bad (m, k)) (hvalid : ∀ w ∈ m.workers, w.Valid)
    {others : List Fd} (hothers : ∀ fd, (t fd).isSome = true ↔ fd ∈ others) (hnodup : others.Nodup)
    (configs : Nat → BackendConfig) : System.Start (m.system k others configs) where
  workers i := ⟨_, _, rfl⟩
  acceptor := rfl
  isOpen fd := by
    have hmem : (∃ i, fd = ((m.system k others configs).workers i).wakeFd ∨
        fd = ((m.system k others configs).workers i).epollFd) ↔ fd ∈ m.workers.flatMap WorkerObject.fds := by
      rw [← flatMap_system m k others configs hvalid]
      simp
    have hfds : fd ∈ m.fds ↔ fd ∈ m.workers.flatMap WorkerObject.fds ∨ fd ∈ m.listenFd.held.toList := List.mem_append
    have hopen : (k.table fd).isSome = true ↔ fd ∈ m.fds ∨ fd ∈ others := by
      by_cases hin : fd ∈ m.fds
      · simp [hin, h.fds.held fd hin]
      · rw [h.fds.others fd hin, hothers]
        simp [hin]
    have hrest : fd ∈ (m.system k others configs).others ↔ fd ∈ m.listenFd.held.toList ∨ fd ∈ others :=
      List.mem_append
    rw [hmem, hrest]
    refine hopen.trans ?_
    rw [hfds]
    tauto
  distinct := by
    rw [flatMap_system m k others configs hvalid]
    -- what is new was not open before
    have hapart : ∀ fd ∈ others, fd ∉ m.fds := by
      intro fd hfd hin
      have hsome := (hothers fd).mpr hfd
      rw [h.fds.free fd hin] at hsome
      cases hsome
    have hall : (others ++ m.fds).Nodup := by
      rw [List.nodup_append]
      exact ⟨hnodup, h.fds.nodup, fun a ha b hb hab => hapart a ha (hab ▸ hb)⟩
    refine List.Perm.nodup ?_ hall
    show (others ++ (m.workers.flatMap WorkerObject.fds ++ m.listenFd.held.toList)).Perm
      (m.listenFd.held.toList ++ others ++ m.workers.flatMap WorkerObject.fds)
    rw [← List.append_assoc, List.append_assoc m.listenFd.held.toList]
    exact List.perm_append_comm
  backends b := rfl
  opened fd := rfl
  closed fd := rfl
  accepted fd := rfl

end StartUp

/-- **The start-up leaves a process as the system begins.** Whatever the calls answer, the part of `main`
before the accept loop returns iff all of them work. What it leaves is then a start of the system with the
configured number of workers: every worker has an eventfd and an epoll descriptor, these and the listening
socket are open and differ from each other and from all that was open before, and nothing else is open. So
every run of the process from there keeps the system's invariant; and what is left of `main` is the accept
loop, the shutdown and the destructors. -/
theorem startUp_starts (strerror : Errno → Text) (resolver : Resolver) (config : AppConfig) (ans : MainAnswers)
    (s : NetState) (others : List Fd) (hothers : ∀ fd, (s.table fd).isSome = true ↔ fd ∈ others)
    (hnodup : others.Nodup) (hnew : Handed s.table [] (ans.fds config)) (configs : Nat → BackendConfig) :
    ∃ r m s', startUp strerror resolver config ans (.start, s) = some (r, (m, s')) ∧
      (r = .ok () ↔ ans.startOk resolver config = true) ∧
      (r = .ok () → m.workers.length = config.workers ∧ System.Start (m.system s' others configs) ∧
        (∀ acts sys, Run (Guarded System.NotifyOk (System.Step config)) (m.system s' others configs) acts sys →
          sys.Consistent config) ∧
        main strerror resolver config ans (.start, s) =
          Prog.ensuring (do acceptLoop strerror ans.polls; shutdown) leaveMain (m, s')) := by
  rcases @startUp_spec s.table s.badCloses strerror resolver config ans hnew (.start, s) ⟨rfl, rfl, rfl⟩ with
    ⟨_, ⟨m, s'⟩, hrun, hok, htidy, hlen, hvalid⟩ | ⟨text, ⟨m, s'⟩, hrun, hok⟩
  · have hstart := htidy.start hvalid hothers hnodup configs
    refine ⟨.ok (), m, s', hrun, by simp [hok], fun _ => ⟨hlen, hstart, fun acts sys hsys => ?_, ?_⟩⟩
    · exact System.run_consistent hstart hsys
    · exact main_of_startUp resolver config ans hrun
  · exact ⟨.error text, m, s', hrun, by simp [hok], fun h => (by cases h)⟩

/-- One worker: the process of the small example. -/
theorem startUp_starts_one : ∃ m s',
    startUp Demo.strerror Demo.resolver Demo.oneWorker Demo.pollFails (.start, Demo.idle) = some (.ok (), (m, s')) ∧
      m.workers.length = 1 ∧ System.Start (m.system s' [] fun _ => Demo.backend) := by
  obtain ⟨r, m, s', hrun, hr, hstart⟩ := startUp_starts Demo.strerror Demo.resolver Demo.oneWorker Demo.pollFails
    Demo.idle [] (fun fd => by simp [Demo.idle]) List.nodup_nil Demo.pollFails_handed
    fun _ => Demo.backend
  have hok := hr.mpr Demo.pollFails_startOk
  rw [hok] at hrun
  exact ⟨m, s', hrun, (hstart hok).1, (hstart hok).2.1⟩

end FluxGate
