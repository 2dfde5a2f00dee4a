import FluxGate.EpollSet

/-!
# The process, over whole runs

Every step of the process keeps the ownership of descriptors and the data of
every reactor consistent (`Consistent`). A descriptor that is closed was in
nobody's epoll set any more, so closing it changes no epoll set, whatever the
number is used for next. From this follow, for every run: at each call of
`epoll_wait` the maps, the epoll set and the session counter describe the same
sessions; every event of a batch reaches the session it was reported for; and
no direction is left without a subscription that can wake it.

In the runs considered a write to an eventfd succeeds or fails with `EAGAIN`,
which is what the kernel promises for a non-blocking eventfd.
-/

namespace FluxGate

open Lib

namespace System

variable {n : Nat} {config : AppConfig} {s s' : System n}

/-- A write to an eventfd succeeds or fails with `EAGAIN`. -/
def NotifyOk (_ : System n) (act : SystemAct n) : Prop := act ≠ .acceptor true

/-- `epoll_wait` fails with `EINTR` only, an eventfd write with `EAGAIN` only. -/
def Regular (_ : System n) : SystemAct n → Prop
  | .worker _ epollError => epollError = false
  | .acceptor writeFailed => writeFailed = false
  | .others => True

theorem Regular.notifyOk {act : SystemAct n} (h : Regular s act) : NotifyOk s act := by
  rintro rfl
  cases h

structure Consistent (config : AppConfig) (s : System n) : Prop where
  owned : s.Owned
  workers : ∀ i, (s.workers i).Reactor config.bufferSize

theorem wake_le_fixed (s : System n) (i : Fin n) (fd : Fd) :
    [(s.workers i).wakeFd].count fd ≤ s.fixed fd := by
  have hle := le_total (Finset.mem_univ i) (fun i => [(s.workers i).wakeFd, (s.workers i).epollFd].count fd)
  simp only [fixed, List.count_cons, List.count_nil] at hle ⊢
  omega

theorem Owned.exclusive (h : s.Owned) (i : Fin n) : (s.workers i).Exclusive := by
  apply Worker.exclusive_of_count (h.fresh i)
  intro fd
  have hopen := (h.fds fd).isOpen
  have hone : (s.isOpen fd).toNat ≤ 1 := Bool.toNat_le _
  have hc := s.held_le_owners i (.client fd)
  have hu := s.held_le_owners i (.upstream fd)
  have hw := s.wake_le_fixed i fd
  omega

/-- The descriptors of an object are open. -/
theorem Owned.isOpen_of_fd? (h : s.Owned) {i : Fin n} {p : Ref} {side : Side} {fd : Fd}
    (hfd : (s.workers i).fd? p side = some fd) : s.isOpen fd = true := by
  have hheld := Worker.one_le_held (h.fresh i) hfd
  have hle := s.held_le_owners i (side.resource fd)
  have hopen := (h.fds fd).isOpen
  cases ho : s.isOpen fd with
  | true => rfl
  | false =>
    rw [ho, Bool.toNat_false] at hopen
    cases side <;> simp only [Side.resource] at hheld hle <;> omega

theorem Owned.isOpen_wake (h : s.Owned) (i : Fin n) : s.isOpen (s.workers i).wakeFd = true := by
  have hw := s.wake_le_fixed i (s.workers i).wakeFd
  rw [List.count_singleton_self] at hw
  have hopen := (h.fds (s.workers i).wakeFd).isOpen
  cases ho : s.isOpen (s.workers i).wakeFd with
  | true => rfl
  | false =>
    rw [ho, Bool.toNat_false] at hopen
    omega

/-- Closing a descriptor changes no epoll set: it was not in it. -/
theorem Owned.forget_eq (h : s.Owned) {fd : Fd} (hclosed : s.isOpen fd = false) {i : Fin n} {w : Worker}
    (hw : s.workers i = w.forget fd) (hp : w.Polled) : s.workers i = w := by
  have hnone : w.epoll fd = none := by
    by_contra hsome
    have hopen : s.isOpen fd = true := by
      rcases hp.registered fd hsome with hwake | ⟨p, side, hfd, -⟩
      · have := h.isOpen_wake i
        rwa [hw, show (w.forget fd).wakeFd = fd from hwake.symm] at this
      · have hfd' : (s.workers i).fd? p side = some fd := by
          rw [hw]
          exact hfd
        exact h.isOpen_of_fd? hfd'
    rw [hclosed] at hopen
    cases hopen
  rw [hw, Worker.forget, ← hnone, Function.update_eq_self]

/-- The reactors after a descriptor was closed. -/
theorem Owned.released (h : s.Owned) {fd : Fd} (hclosed : s.isOpen fd = false) {ws : Fin n → Worker}
    (hws : ∀ i, s.workers i = (ws i).forget fd) {cap : Nat} (hr : ∀ i, (ws i).Reactor cap) (i : Fin n) :
    (s.workers i).Reactor cap := by
  rw [h.forget_eq hclosed (hws i) (hr i).polled]
  exact hr i

/-- The acceptor changes what it may change in a worker. -/
theorem quiet_touched (w : Worker) (queue enqueued : List Fd) (running : Bool)
    (count : Nat) : Worker.Quiet w
      { w with queue := queue, enqueued := enqueued, running := running, wakeCount := count } where
  wakeFd := rfl
  epoll := rfl
  fdToSession := rfl
  sessions := rfl
  heap := rfl
  activeSessions := rfl
  nextSessionId := rfl
  issued := rfl
  refs _ hp := Or.inl hp
  kept _ hp := Or.inl hp
  todo h := h
  building _ hp := hp
  registered _ hr := hr
  mayRegister _ hr := hr
  stale _ hr := hr
  events _ he := Or.inl he
  swept _ _ _ _ h := h

theorem setWorker_reactor {cap : Nat} (h : ∀ i, (s.workers i).Reactor cap) {i : Fin n} {w : Worker}
    (hw : w.Reactor cap) (j : Fin n) : ((s.setWorker i w).workers j).Reactor cap := by
  by_cases hj : j = i
  · subst hj
    simpa [setWorker] using hw
  · simpa [setWorker, hj] using h j

theorem Consistent.step {act : SystemAct n} (h : s.Consistent config) (hact : NotifyOk s act)
    (hstep : Step config s act s') : s'.Consistent config := by
  have howned : s'.Owned := h.owned.step hact hstep
  have htouch : ∀ i queue enqueued running count, ({ s.workers i with
      queue := queue, enqueued := enqueued, running := running, wakeCount := count } :
        Worker).Reactor config.bufferSize := fun i queue enqueued running count =>
    (h.workers i).quiet (quiet_touched (s.workers i) queue enqueued running count)
  refine ⟨howned, ?_⟩
  cases hstep with
  | @worker i error eff sh w hstep hfd =>
    have hw := (h.workers i).step (h.owned.fresh i) (h.owned.exclusive i) hstep
    have hws := setWorker_reactor (i := i) h.workers hw
    cases eff with
    | none => exact hws
    | openUpstream fd => exact hws
    | closeClient fd => exact howned.released (Function.update_self ..) (fun _ => rfl) hws
    | closeUpstream fd => exact howned.released (Function.update_self ..) (fun _ => rfl) hws
  | accept fd hpc hfd => exact h.workers
  | configured fd i hpc => exact h.workers
  | configureFailed fd hpc => exact h.workers
  | notRunning fd i hpc hrun => exact h.workers
  | running fd i hpc hrun => exact h.workers
  | queueFull fd i hpc hlen => exact h.workers
  | push fd i hpc hlen => exact setWorker_reactor h.workers (htouch i _ _ _ _)
  | notified fd i hpc => exact setWorker_reactor h.workers (htouch i _ _ _ _)
  | notifyAgain fd i hpc hcount => exact h.workers
  | notifyFailed fd i hpc => exact h.workers
  | reject fd hpc => exact howned.released (Function.update_self ..) (fun _ => rfl) h.workers
  | shutdown hpc => exact h.workers
  | stop i hpc hrun => exact setWorker_reactor h.workers (htouch i _ _ _ _)
  | stoppedBefore i hpc hrun => exact h.workers
  | stopNotified i hpc => exact setWorker_reactor h.workers (htouch i _ _ _ _)
  | stopNotifyIgnored i hpc => exact h.workers
  | join hpc hstopped => exact h.workers
  | othersOpen fd hfd => exact h.workers
  | othersClose fd hfd => exact howned.released (Function.update_self ..) (fun _ => rfl) h.workers
  | setHealthy b value => exact h.workers

theorem newWorker_reactor (wakeFd epollFd : Fd) (cap : Nat) : (newWorker wakeFd epollFd).Reactor cap where
  indexed := by
    constructor <;> simp [newWorker, Worker.published, Pc.refs, Pc.todo, Pc.building, Worker.fd?]
  polled := by
    constructor
    case wake => simp [newWorker]
    case interest => exact fun p s side hp => by cases hp
    case registered =>
      intro fd hfd
      left
      by_contra hne
      have hne' : fd ≠ wakeFd := hne
      simp [newWorker, hne'] at hfd
    case events => exact fun e he => by cases he
  swept := fun p s hpub => by cases hpub
  sized := fun p s hp => by cases hp

theorem Start.consistent (h : Start s) (config : AppConfig) : s.Consistent config where
  owned := h.owned
  workers i := by
    obtain ⟨wakeFd, epollFd, hw⟩ := h.workers i
    rw [hw]
    exact newWorker_reactor wakeFd epollFd _

/-- **Every reachable state of the process is consistent.** -/
theorem run_consistent {s₀ : System n} {acts : List (SystemAct n)} (hstart : Start s₀)
    (hrun : Run (Guarded NotifyOk (Step config)) s₀ acts s) : s.Consistent config :=
  Run.invariant (fun _ _ _ h hstep => h.step hstep.1 hstep.2) (hstart.consistent config) hrun

end System

/-! ## A small process

One worker with one connection, for the concrete runs below. -/

namespace Demo

open FluxGate.System

/-- Two bytes of buffer in each direction. -/
def config : AppConfig := { bufferSize := 2 }

/-- A worker with eventfd 4 and epoll 3, and a listening socket 5. -/
def start : System 1 where
  workers := fun _ => newWorker 4 3
  acceptor := .accepting
  others := [5]
  isOpen := fun fd => decide (fd ∈ [5, 4, 3])
  shared := ⟨fun _ => .new ⟨"app", "127.0.0.1", 9001, 1⟩, .new⟩
  opened := fun _ => 0
  closed := fun _ => 0
  accepted := fun _ => false

theorem start_start : Start start where
  workers _ := ⟨4, 3, rfl⟩
  acceptor := rfl
  isOpen fd := by simp [start, newWorker]
  distinct := by decide
  backends _ := rfl
  opened _ := rfl
  closed _ := rfl
  accepted _ := rfl

/-- Client 6 and upstream 7, still connecting. -/
def session : ProxySession := .new 1 6 7 true 0 2 0

def worker : Worker :=
  { newWorker 4 3 with
    epoll := Function.update (Function.update (newWorker 4 3).epoll 6 (some (session.clientEvents, some 1)))
      7 (some (session.upstreamEvents, some 1))
    fdToSession := Function.update (Function.update (fun _ => none) 6 (some 1)) 7 (some 1)
    sessions := [(1, 1)]
    heap := Function.update (fun _ => none) 1 (some session)
    activeSessions := 1
    nextSessionId := 2
    pc := .epollWait
    enqueued := [6]
    taken := [6]
    issued := [1] }

/-- The worker waits for events of its session. -/
def serving : System 1 :=
  { start with
    workers := fun _ => worker
    isOpen := Function.update (Function.update start.isOpen 6 true) 7 true
    shared := ((start.shared.onMetrics Metrics.onAccepted).onBackend 0 Backend.acquire).onMetrics
      Metrics.onOpened
    opened := Function.update (Function.update (fun _ => 0) 6 1) 7 1
    accepted := Function.update (Function.update (fun _ => false) 6 true) 7 false }

def Reaches (s : System 1) : Prop := ∃ acts, Run (Guarded Regular (Step config)) start acts s

variable {s s' : System 1}

/-- A step of the only worker. -/
theorem step_worker {error : Bool} {eff : FdEffect} {sh : SharedState} {w : Worker}
    (hstep : Worker.Step config s.shared (s.workers 0) error eff sh w) (hfd : s.Allows eff) :
    Step config s (.worker 0 error) ({ s with workers := fun _ => w, shared := sh }.apply eff) := by
  have hw : (fun _ => w) = Function.update s.workers 0 w := by
    funext i
    rw [Subsingleton.elim i 0, Function.update_self]
  rw [hw]
  exact .worker hstep hfd

theorem Reaches.worker {eff : FdEffect} {sh : SharedState} {w : Worker} (h : Reaches s)
    (hstep : Worker.Step config s.shared (s.workers 0) false eff sh w) (hfd : s.Allows eff) :
    Reaches ({ s with workers := fun _ => w, shared := sh }.apply eff) := by
  obtain ⟨acts, hr⟩ := h
  have hreg : Regular s (.worker 0 false) := rfl
  exact ⟨_, hr.snoc ⟨hreg, step_worker hstep hfd⟩⟩

theorem Reaches.acceptor (h : Reaches s) (hstep : Step config s (.acceptor false) s') : Reaches s' := by
  obtain ⟨acts, hr⟩ := h
  have hreg : Regular s (.acceptor false) := rfl
  exact ⟨_, hr.snoc ⟨hreg, hstep⟩⟩

theorem Reaches.notifyOk (h : Reaches s) :
    ∃ acts, Run (Guarded NotifyOk (Step config)) start acts s := by
  obtain ⟨acts, hr⟩ := h
  exact ⟨acts, hr.mono fun _ _ _ hstep => ⟨hstep.1.notifyOk, hstep.2⟩⟩

/-- The worker is about to create a session for client 6. -/
def taken : System 1 :=
  { start with
    workers := fun _ =>
      { newWorker 4 3 with pc := .create (.acquire 6) [] (.batch []), enqueued := [6], taken := [6] }
    isOpen := Function.update start.isOpen 6 true
    shared := start.shared.onMetrics Metrics.onAccepted
    opened := Function.update (fun _ => 0) 6 1
    accepted := Function.update (fun _ => false) 6 true }

/-- The client is accepted and handed over. -/
theorem reaches_taken : Reaches taken := by
  have r : Reaches start := ⟨[], .nil⟩
  have r := r.acceptor (.accept 6 rfl rfl)
  have r := r.acceptor (.configured 6 0 rfl)
  have r := r.acceptor (.running 6 0 rfl rfl)
  have r := r.acceptor (.push 6 0 rfl (by decide))
  have r := r.acceptor (.notified 6 0 rfl)
  have r := r.worker (.enter rfl rfl) trivial
  have r := r.worker (.waited [⟨4, EPOLLIN, none⟩] rfl (by decide) (by decide) (by simpa using ⟨_, rfl⟩))
    trivial
  have r := r.worker (.wake _ _ rfl rfl) trivial
  have r := r.worker (.readWake _ rfl (by decide)) trivial
  have r := r.worker (.wakeEmpty _ rfl rfl) trivial
  have r := r.worker (.swap _ rfl) trivial
  exact r.worker (.take _ _ _ rfl rfl) trivial

/-- Its session is published. -/
theorem reaches_serving : Reaches serving := by
  have r := reaches_taken
  -- createSession()
  have r := r.worker (.acquired _ 0 _ _ rfl) trivial
  have r := r.worker (.socket _ _ 7 _ _ rfl) rfl
  have r := r.worker (.connect _ _ _ true _ _ rfl) trivial
  have r := r.worker (.construct _ _ _ _ 0 _ _ rfl) trivial
  have r := r.worker (.registerClient 1 _ _ _ rfl rfl rfl) trivial
  have r := r.worker (.registerUpstream 1 _ _ _ rfl rfl rfl) trivial
  have r := r.worker (.publish 1 _ _ _ rfl rfl) trivial
  -- back to epoll_wait
  have r := r.worker (.drained _ rfl) trivial
  have r := r.worker (.batchDone rfl) trivial
  have r := r.worker (.collect [] rfl (by decide)) trivial
  have r := r.worker (.allClosed _ _ rfl) trivial
  have r := r.worker (.sweepSoon _ 0 rfl (by decide)) trivial
  have r := r.worker (.dropped _ rfl) trivial
  exact r.worker (.enter rfl rfl) trivial

end Demo

/-! ## The maps at `epoll_wait` -/

/-- The two maps, the epoll set and the counter describe the same sessions. -/
structure Worker.Described (w : Worker) : Prop where
  /-- a session is keyed by its id and has an entry under each of its two descriptors -/
  sessions : ∀ e ∈ w.sessions, ∃ s, w.heap e.2 = some s ∧ s.id = e.1 ∧ s.closing = false ∧
    s.clientFd ≠ s.upstreamFd ∧ w.fdToSession s.clientFd = some e.2 ∧
    w.fdToSession s.upstreamFd = some e.2
  keys : (w.sessions.map Prod.fst).Nodup
  objects : (w.sessions.map Prod.snd).Nodup
  /-- there are no other entries -/
  entries : ∀ fd p, w.fdToSession fd = some p → ∃ s, (s.id, p) ∈ w.sessions ∧ w.heap p = some s ∧
    (fd = s.clientFd ∨ fd = s.upstreamFd)
  epoll : ∀ fd, w.epoll fd ≠ none ↔ fd = w.wakeFd ∨ w.fdToSession fd ≠ none
  wake : w.fdToSession w.wakeFd = none
  counter : w.activeSessions = w.sessions.length
  /-- an id is given out once -/
  issued : w.issued.Nodup
  ids : ∀ e ∈ w.sessions, e.1 ∈ w.issued

namespace Worker

variable {w : Worker} {cap : Nat}

theorem Reactor.heap_of_published (h : w.Reactor cap) {p : Ref} (hpub : w.published p) :
    ∃ s, w.heap p = some s :=
  Option.ne_none_iff_exists'.mp (h.indexed.alive p hpub)

/-- A published session is subscribed on both sides when `epoll_wait` is called. -/
theorem Reactor.subscribed (h : w.Reactor cap) (hpc : w.pc = .epollWait) {p : Ref} {s : ProxySession}
    (hpub : w.published p) (hp : w.heap p = some s) (side : Side) :
    w.epoll (s.fdOf side) = some (s.events side, some p) := by
  refine h.polled.interest p s side hp (Or.inl ⟨hpub, h.swept.not_closing hpc hpub hp⟩) ?_
  rw [hpc]
  exact List.not_mem_nil

theorem Reactor.described (h : w.Reactor cap) (hx : w.Exclusive) (hpc : w.pc = .epollWait) :
    w.Described := by
  have hi := h.indexed
  have hmem : ∀ e ∈ w.sessions, w.published e.2 := fun e he => List.mem_map_of_mem he
  have hkey : w.sessions.map Prod.fst = w.sessions.map Prod.snd :=
    List.map_congr_left fun e he => hi.keyed e he
  constructor
  case sessions =>
    intro e he
    obtain ⟨s, hp⟩ := h.heap_of_published (hmem e he)
    have hfd := fd?_of_heap hp
    refine ⟨s, hp, (hi.named _ _ hp).trans (hi.keyed e he).symm,
      h.swept.not_closing hpc (hmem e he) hp, fun heq => ?_,
      (hi.index _ _).mpr ⟨hmem e he, .client, hfd .client⟩,
      (hi.index _ _).mpr ⟨hmem e he, .upstream, hfd .upstream⟩⟩
    have hup : w.fd? e.2 .upstream = some s.clientFd := by
      rw [heq]
      exact hfd .upstream
    have hside : Side.client = Side.upstream := (hx.inj (hfd .client) hup).2
    cases hside
  case keys =>
    rw [hkey]
    exact hi.nodup
  case objects => exact hi.nodup
  case entries =>
    intro fd p hfd
    obtain ⟨hpub, side, hside⟩ := (hi.index fd p).mp hfd
    obtain ⟨s, hp, hs⟩ := Option.map_eq_some_iff.mp hside
    obtain ⟨e, he, rfl⟩ := List.mem_map.mp hpub
    refine ⟨s, ?_, hp, ?_⟩
    · rw [hi.named _ _ hp]
      have hpair : (e.2, e.2) = e := Prod.ext (hi.keyed e he).symm rfl
      rwa [hpair]
    · cases side with
      | client => exact Or.inl hs.symm
      | upstream => exact Or.inr hs.symm
  case epoll =>
    intro fd
    constructor
    · intro hfd
      refine (h.polled.registered fd hfd).imp id ?_
      rintro ⟨p, side, hside, hlive⟩
      have hpub : w.published p := by
        refine hlive.resolve_right (fun hr => ?_)
        rw [hpc] at hr
        cases hr
      rw [(hi.index fd p).mpr ⟨hpub, side, hside⟩]
      exact Option.some_ne_none p
    · rintro (rfl | hfd)
      · rw [h.polled.wake]
        exact Option.some_ne_none _
      · obtain ⟨p, hp'⟩ := Option.ne_none_iff_exists'.mp hfd
        obtain ⟨hpub, side, hside⟩ := (hi.index fd p).mp hp'
        obtain ⟨s, hp, rfl⟩ := Option.map_eq_some_iff.mp hside
        rw [h.subscribed hpc hpub hp side]
        exact Option.some_ne_none _
  case wake =>
    by_contra hsome
    obtain ⟨p, hp⟩ := Option.ne_none_iff_exists'.mp hsome
    obtain ⟨-, side, hside⟩ := (hi.index _ p).mp hp
    exact hx.notWake hside rfl
  case counter => exact hi.active
  case issued => exact hi.issuedNodup
  case ids =>
    intro e he
    rw [hi.keyed e he]
    exact hi.issued _ (hi.alive _ (hmem e he))

end Worker

/-- **Index invariant.** In every run, whenever a worker calls `epoll_wait`,
its maps, its epoll set and its counter describe the same sessions, none of
which is closing, and no id has been given out twice. Ids are naturals here:
see `run_ids_unwrapped` for the 64-bit ones. -/
theorem run_described {n : Nat} (config : AppConfig) {s₀ s : System n} {acts : List (SystemAct n)}
    (hstart : System.Start s₀) (hrun : Run (Guarded System.NotifyOk (System.Step config)) s₀ acts s)
    (i : Fin n) (hpc : (s.workers i).pc = .epollWait) : (s.workers i).Described := by
  have h := System.run_consistent hstart hrun
  exact (h.workers i).described (h.owned.exclusive i) hpc

theorem run_described_serving : ∃ acts,
    Run (Guarded System.NotifyOk (System.Step Demo.config)) Demo.start acts Demo.serving ∧
      Demo.worker.sessions = [(1, 1)] ∧ Demo.worker.Described := by
  obtain ⟨acts, hrun⟩ := Demo.reaches_serving.notifyOk
  exact ⟨acts, hrun, rfl, run_described Demo.config Demo.start_start hrun 0 rfl⟩

/-- As long as the counter of a worker has not passed 2^64, the ids it has given
out differ as 64-bit numbers too. -/
theorem run_ids_unwrapped {n : Nat} (config : AppConfig) {s₀ s : System n} {acts : List (SystemAct n)}
    (hstart : System.Start s₀) (hrun : Run (Guarded System.NotifyOk (System.Step config)) s₀ acts s)
    (i : Fin n) (hfew : (s.workers i).nextSessionId ≤ 2 ^ 64) :
    ((s.workers i).issued.map UInt64.ofNat).Nodup := by
  have hi := ((System.run_consistent hstart hrun).workers i).indexed
  refine hi.issuedNodup.map_on fun k hk l hl hkl => ?_
  have hk' : k < 2 ^ 64 := Nat.lt_of_lt_of_le (hi.issuedLt k hk) hfew
  have hl' : l < 2 ^ 64 := Nat.lt_of_lt_of_le (hi.issuedLt l hl) hfew
  calc k = (UInt64.ofNat k).toNat := (UInt64.toNat_ofNat_of_lt' hk').symm
    _ = (UInt64.ofNat l).toNat := congrArg UInt64.toNat hkl
    _ = l := UInt64.toNat_ofNat_of_lt' hl'

/-! ## Delivery -/

/-- The loop passes the event `e` to `handleEvent` of the object `p`. -/
structure Worker.Delivers (w : Worker) (e : Event) (p : Ref) (s : ProxySession) : Prop where
  next : ∃ events, w.pc = .batch (e :: events)
  notWake : e.fd ≠ w.wakeFd
  found : w.fdToSession e.fd = some p
  object : w.heap p = some s
  notClosing : s.closing = false

/-- **Deferred deletion prevents misdelivery.** In every run, a session that
is passed an event is the one that was registered under the descriptor when
`epoll_wait` returned the event; it is not closing, and its descriptors are open. -/
theorem run_delivers {n : Nat} (config : AppConfig) {s₀ s : System n} {acts : List (SystemAct n)}
    (hstart : System.Start s₀) (hrun : Run (Guarded System.NotifyOk (System.Step config)) s₀ acts s)
    (i : Fin n) (e : Event) (p : Ref) (session : ProxySession)
    (hcall : (s.workers i).Delivers e p session) :
    e.who = some p ∧ session.closing = false ∧ s.isOpen session.clientFd = true ∧
      s.isOpen session.upstreamFd = true := by
  have h := System.run_consistent hstart hrun
  obtain ⟨events, hpc⟩ := hcall.next
  have he := (h.workers i).polled.events e (by rw [hpc]; exact List.mem_cons_self)
  obtain ⟨q, hwho, hq⟩ := he.resolve_left hcall.notWake
  have hqp : q = p := Option.some.inj (hq.symm.trans hcall.found)
  have hopen : ∀ side, s.isOpen (session.fdOf side) = true := fun side =>
    h.owned.isOpen_of_fd? (Worker.fd?_of_heap hcall.object side)
  exact ⟨hqp ▸ hwho, hcall.notClosing, hopen .client, hopen .upstream⟩

/-- The client of the small process has sent something. -/
theorem run_delivers_client : ∃ acts s,
    Run (Guarded System.NotifyOk (System.Step Demo.config)) Demo.start acts s ∧
      (s.workers 0).Delivers ⟨6, EPOLLIN, some 1⟩ 1 Demo.session ∧ s.isOpen 6 = true ∧
      s.isOpen 7 = true := by
  obtain ⟨acts, hrun⟩ := (Demo.reaches_serving.worker (.waited [⟨6, EPOLLIN, some 1⟩] rfl (by decide)
    (by decide) (by simpa using ⟨_, rfl⟩)) trivial).notifyOk
  have hcall : ({ Demo.worker with pc := .batch [⟨6, EPOLLIN, some 1⟩] } : Worker).Delivers
      ⟨6, EPOLLIN, some 1⟩ 1 Demo.session := ⟨⟨[], rfl⟩, by decide, rfl, rfl, rfl⟩
  have h := run_delivers Demo.config Demo.start_start hrun 0 ⟨6, EPOLLIN, some 1⟩ 1 Demo.session hcall
  exact ⟨acts, _, hrun, hcall, h.2.2.1, h.2.2.2⟩

/-! ## Subscriptions -/

/-- The bits are subscribed for `fd`. -/
def Worker.Subscribes (w : Worker) (fd : Fd) (bits : EventMask) : Prop :=
  ∃ mask who, w.epoll fd = some (mask, who) ∧ has mask bits = true

namespace ProxySession

/-- Bytes to be sent subscribe to `EPOLLOUT`. -/
theorem events_out {s : ProxySession} {side : Side} (h : (s.outbound side).empty = false) :
    has (s.events side) EPOLLOUT = true := by
  cases side with
  | client =>
    have h' : s.upstreamToClient.empty = false := h
    simp only [events, clientEvents, h', Bool.not_false, if_true]
    split <;> decide
  | upstream =>
    have h' : s.clientToUpstream.empty = false := h
    simp only [events, upstreamEvents, h', Bool.not_false, if_true]
    split
    · decide
    · split <;> decide

/-- Tail space subscribes an open side to `EPOLLIN`. -/
theorem events_in {s : ProxySession} {side : Side} (hopen : s.readClosed side = false)
    (hcon : side = .upstream → s.upstreamConnecting = false)
    (hroom : 0 < (s.inbound side).writableBytes) : has (s.events side) EPOLLIN = true := by
  cases side with
  | client =>
    have hopen' : s.clientReadClosed = false := hopen
    have hroom' : 0 < s.clientToUpstream.writableBytes := hroom
    simp only [events, clientEvents, hopen', hroom', Bool.not_false, decide_true, Bool.and_self, if_true]
    split <;> decide
  | upstream =>
    have hopen' : s.upstreamReadClosed = false := hopen
    have hroom' : 0 < s.upstreamToClient.writableBytes := hroom
    simp only [events, upstreamEvents, hopen', hroom', hcon rfl, Bool.false_eq_true, Bool.not_false,
      decide_true, Bool.and_self, if_false, if_true]
    split <;> decide

/-- An open side is subscribed to `EPOLLIN` or has bytes on their way. -/
theorem events_in_or {s : ProxySession} (side : Side) {cap : Nat} (hs : s.Sized cap) (hcap : 0 < cap)
    (hopen : s.readClosed side = false) (hcon : side = .upstream → s.upstreamConnecting = false) :
    has (s.events side) EPOLLIN = true ∨ (s.inbound side).empty = false := by
  cases he : (s.inbound side).empty with
  | false => exact Or.inr rfl
  | true =>
    obtain ⟨hwf, hsize⟩ := hs side
    left
    apply events_in hopen hcon
    rw [ByteBuffer.writable_of_empty hwf he, hsize]
    exact hcap

end ProxySession

/-- **No stuck direction.** In every run with a positive buffer size, whenever
a worker calls `epoll_wait`, each of its sessions is subscribed with exactly
the masks of its state; a direction that holds bytes has `EPOLLOUT` on its
destination; and an open source has `EPOLLIN`, or its direction holds bytes. -/
theorem run_subscribed {n : Nat} (config : AppConfig) (hsize : 0 < config.bufferSize)
    {s₀ s : System n} {acts : List (SystemAct n)} (hstart : System.Start s₀)
    (hrun : Run (Guarded System.NotifyOk (System.Step config)) s₀ acts s) (i : Fin n)
    (hpc : (s.workers i).pc = .epollWait) (e : Nat × Ref) (he : e ∈ (s.workers i).sessions) :
    ∃ session, (s.workers i).heap e.2 = some session ∧
      (s.workers i).epoll session.clientFd = some (session.clientEvents, some e.2) ∧
      (s.workers i).epoll session.upstreamFd = some (session.upstreamEvents, some e.2) ∧
      (session.clientToUpstream.empty = false →
        (s.workers i).Subscribes session.upstreamFd EPOLLOUT) ∧
      (session.upstreamToClient.empty = false →
        (s.workers i).Subscribes session.clientFd EPOLLOUT) ∧
      (session.clientReadClosed = false →
        (s.workers i).Subscribes session.clientFd EPOLLIN ∨ session.clientToUpstream.empty = false) ∧
      (session.upstreamConnecting = false → session.upstreamReadClosed = false →
        (s.workers i).Subscribes session.upstreamFd EPOLLIN ∨
          session.upstreamToClient.empty = false) := by
  have h := (System.run_consistent hstart hrun).workers i
  have hpub : (s.workers i).published e.2 := List.mem_map_of_mem he
  obtain ⟨session, hp⟩ := h.heap_of_published hpub
  have hmask := h.subscribed hpc hpub hp
  have hbits : ∀ side bits, has (session.events side) bits = true →
      (s.workers i).Subscribes (session.fdOf side) bits := fun side bits hb =>
    ⟨_, _, hmask side, hb⟩
  have hsized := h.sized e.2 session hp
  refine ⟨session, hp, hmask .client, hmask .upstream, fun hb => ?_, fun hb => ?_, fun hopen => ?_,
    fun hcon hopen => ?_⟩
  · exact hbits .upstream _ (ProxySession.events_out hb)
  · exact hbits .client _ (ProxySession.events_out hb)
  · exact (ProxySession.events_in_or .client hsized hsize hopen (fun h => by cases h)).imp
      (hbits .client _) id
  · exact (ProxySession.events_in_or .upstream hsized hsize hopen (fun _ => hcon)).imp
      (hbits .upstream _) id

theorem run_subscribed_serving : ∃ acts,
    Run (Guarded System.NotifyOk (System.Step Demo.config)) Demo.start acts Demo.serving ∧
      (1, 1) ∈ Demo.worker.sessions ∧
      Demo.worker.epoll 6 = some (Demo.session.clientEvents, some 1) ∧
      (Demo.worker.Subscribes 6 EPOLLIN ∨ Demo.session.clientToUpstream.empty = false) := by
  obtain ⟨acts, hrun⟩ := Demo.reaches_serving.notifyOk
  have hmem : (1, 1) ∈ Demo.worker.sessions := List.mem_singleton_self _
  obtain ⟨session, hp, hclient, -, -, -, hin, -⟩ := run_subscribed Demo.config (by decide)
    Demo.start_start hrun 0 rfl (1, 1) hmem
  have hs : Demo.session = session := Option.some.inj hp
  subst hs
  exact ⟨acts, hrun, hmem, hclient, hin rfl⟩

end FluxGate
