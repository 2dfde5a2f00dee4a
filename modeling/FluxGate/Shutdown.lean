import FluxGate.Process

/-!
# Clients are owned exactly once, and shutdown leaves nothing behind

The runs considered here are those in which workers end only because the
acceptor stops them: `epoll_wait` fails with `EINTR` only, and eventfd writes
succeed or fail with `EAGAIN`. Then a worker that has left its loop has been
stopped, the acceptor has no client to enqueue any more, and what is in the
queue at the final drain is all there will ever be (`Stopping`).
-/

namespace FluxGate

open Lib

def CloseCtx.left : CloseCtx → Bool
  | .remaining => true
  | _ => false

def DrainCtx.left : DrainCtx → Bool
  | .final => true
  | .batch _ => false

namespace Pc

/-- The thread is past its loop. -/
def left : Pc → Bool
  | .drainSwap ctx => ctx.left
  | .drain _ ctx => ctx.left
  | .create _ _ ctx => ctx.left
  | .finalQueue => true
  | .finalCollect => true
  | .close _ _ ctx => ctx.left
  | .onClosed _ _ _ ctx => ctx.left
  | .drop _ ctx => ctx.left
  | .destroy _ _ ctx => ctx.left
  | .stopped => true
  | _ => false

/-- The thread has emptied its queue for the last time. -/
def drained : Pc → Bool
  | .finalCollect => true
  | .close _ _ ctx => ctx.left
  | .onClosed _ _ _ ctx => ctx.left
  | .drop _ ctx => ctx.left
  | .destroy _ _ ctx => ctx.left
  | .stopped => true
  | _ => false

/-- The clients swapped out of the queue and not looked at yet. -/
def waiting : Pc → List Fd
  | .drain clients _ => clients
  | .create _ clients _ => clients
  | _ => []

end Pc

/-- The acceptor takes no more clients. -/
def AcceptorPc.stopping : AcceptorPc → Bool
  | .stop _ => true
  | .stopWrite _ => true
  | .joined => true
  | _ => false

/-- Clients are taken from the queue in the order they were put there. -/
def Worker.Ordered (w : Worker) : Prop := w.enqueued = w.taken ++ w.pc.waiting ++ w.queue

namespace Worker

variable {config : AppConfig} {sh sh' : SharedState} {w w' : Worker} {error : Bool} {eff : FdEffect}

theorem Step.not_stopped (hstep : Step config sh w error eff sh' w') : w.pc ≠ .stopped := by
  intro hpc
  cases hstep <;> simp_all

theorem Step.running (hstep : Step config sh w error eff sh' w') : w'.running = w.running := by
  cases hstep
  case handled => split <;> rfl
  all_goals rfl

/-- The loop is left by a stop, or by a failure of `epoll_wait`. -/
theorem Step.left (hstep : Step config sh w error eff sh' w') (h : w'.pc.left = true) :
    w.pc.left = true ∨ w.running = false ∨ error = true := by
  cases hstep
  case leave hpc hrun => exact Or.inr (Or.inl hrun)
  case waitError hpc => exact Or.inr (Or.inr rfl)
  case handled e events p s now ans result env hpc _ _ _ _ _ _ => cases result <;> cases h
  case readWake events hpc hcount => exact Or.inl h
  case closeQueued c queue hpc hq => exact Or.inl h
  case drained ctx hpc => cases ctx <;> simp_all [goto, DrainCtx.next, Pc.left, DrainCtx.left]
  case allClosed refs ctx hpc => cases ctx <;> simp_all [goto, CloseCtx.closed, Pc.left, CloseCtx.left]
  case dropped ctx hpc => cases ctx <;> simp_all [goto, CloseCtx.dropped, Pc.left, CloseCtx.left]
  all_goals
    left
    rw [‹w.pc = _›]
    exact h

/-- After the final drain the queue stays empty. -/
theorem Step.queue_of_drained (hstep : Step config sh w error eff sh' w') (h : w'.pc.drained = true) :
    w'.queue = [] ∨ w.pc.drained = true ∧ w'.queue = w.queue := by
  cases hstep
  case queueEmpty hpc hq => exact Or.inl hq
  case handled e events p s now ans result env hpc _ _ _ _ _ _ => cases result <;> cases h
  case readWake events hpc hcount => exact Or.inr ⟨h, rfl⟩
  case closeQueued c queue hpc hq =>
    rw [show (_ : Pc) = _ from hpc] at h
    cases h
  case drained ctx hpc => cases ctx <;> cases h
  case allClosed refs ctx hpc =>
    cases ctx <;> simp_all [goto, CloseCtx.closed, Pc.drained, CloseCtx.left]
  case dropped ctx hpc => cases ctx <;> simp_all [goto, CloseCtx.dropped, Pc.drained, CloseCtx.left]
  all_goals first
    | cases h; done
    | refine Or.inr ⟨?_, rfl⟩
      rw [‹w.pc = _›]
      exact h

theorem Step.ordered (hstep : Step config sh w error eff sh' w') (h : w.Ordered) : w'.Ordered := by
  cases hstep
  case handled e events p s now ans result env hpc _ _ _ _ _ _ =>
    have hw : w.enqueued = w.taken ++ w.pc.waiting ++ w.queue := h
    rw [hpc] at hw
    cases result <;> exact hw
  case drained ctx hpc => cases ctx <;> simp_all [Ordered, goto, DrainCtx.next, Pc.waiting]
  case allClosed refs ctx hpc => cases ctx <;> simp_all [Ordered, goto, CloseCtx.closed, Pc.waiting]
  case dropped ctx hpc => cases ctx <;> simp_all [Ordered, goto, CloseCtx.dropped, Pc.waiting]
  case readWake events hpc hcount => exact h
  case swap ctx hpc => simp_all [Ordered, Pc.waiting]
  case refuse c clients ctx hpc hrun => simp_all [Ordered, Pc.waiting]
  case take c clients ctx hpc hrun => simp_all [Ordered, Pc.waiting]
  case closeQueued c queue hpc hq => simp_all [Ordered, Pc.waiting]
  all_goals
    have hw : w.enqueued = w.taken ++ w.pc.waiting ++ w.queue := h
    rw [‹w.pc = _›] at hw
    exact hw

end Worker

namespace System

variable {n : Nat} {config : AppConfig} {s s' : System n}

/-- What a worker's thread, its queue and its flag have to do with each other. -/
structure WorkerStopping (stopping : Bool) (w : Worker) : Prop where
  stopped : w.running = false → stopping = true
  left : w.pc.left = true → w.running = false
  drained : w.pc.drained = true → w.queue = []
  ordered : w.Ordered

/-- `epoll_wait` of a worker that has not been stopped fails with `EINTR` only. -/
def EpollOk (s : System n) (act : SystemAct n) : Prop :=
  ∀ i, act = .worker i true → (s.workers i).running = false

theorem Regular.epollOk {act : SystemAct n} (h : Regular s act) : EpollOk s act := by
  rintro i rfl
  cases h

structure Stopping (s : System n) : Prop where
  workers : ∀ i, WorkerStopping s.acceptor.stopping (s.workers i)
  joined : s.acceptor = .joined → ∀ i, (s.workers i).pc = .stopped

/-- No worker moves. -/
theorem Stopping.still (h : s.Stopping)
    (hw : ∀ i, ∃ e, s'.workers i = { s.workers i with epoll := e })
    (hstop : s.acceptor.stopping = true → s'.acceptor.stopping = true)
    (hjoin : s'.acceptor = .joined → ∀ i, (s.workers i).pc = .stopped) : s'.Stopping where
  workers i := by
    have hi := h.workers i
    obtain ⟨e, he⟩ := hw i
    rw [he]
    exact ⟨fun hr => hstop (hi.stopped hr), hi.left, hi.drained, hi.ordered⟩
  joined hj i := by
    obtain ⟨e, he⟩ := hw i
    rw [he]
    exact hjoin hj i

/-- The acceptor moves on, alone. -/
theorem Stopping.acceptor (h : s.Stopping) {pc : AcceptorPc}
    (hstop : s.acceptor.stopping = true → pc.stopping = true) (hjoin : pc ≠ .joined) :
    ({ s with acceptor := pc } : System n).Stopping :=
  h.still (fun i => ⟨(s.workers i).epoll, rfl⟩) hstop (fun hj => absurd hj hjoin)

/-- The acceptor changes a worker. -/
theorem Stopping.touch (h : s.Stopping) {i : Fin n} {w : Worker} {pc : AcceptorPc}
    (hstop : s.acceptor.stopping = true → pc.stopping = true) (hjoin : pc ≠ .joined)
    (hw : WorkerStopping pc.stopping w) :
    ({ s.setWorker i w with acceptor := pc } : System n).Stopping where
  workers j := by
    by_cases hj : j = i
    · subst hj
      simpa [setWorker] using hw
    · have hi := h.workers j
      simpa [setWorker, hj] using
        (⟨fun hr => hstop (hi.stopped hr), hi.left, hi.drained, hi.ordered⟩ :
          WorkerStopping pc.stopping (s.workers j))
  joined hj := absurd hj hjoin

theorem drained_left {pc : Pc} (h : pc.drained = true) : pc.left = true := by
  cases pc <;> first | exact h | rfl | cases h

/-- A client is put into a queue: that worker is still running. -/
theorem Stopping.push (h : s.Stopping) {i : Fin n} {fd : Fd} (hpc : s.acceptor = .enqueuePush fd i) :
    ({ s.setWorker i { s.workers i with
        queue := (s.workers i).queue ++ [fd]
        enqueued := (s.workers i).enqueued ++ [fd] } with
      acceptor := .enqueueWrite fd i } : System n).Stopping := by
  have hi := h.workers i
  rw [hpc] at hi
  refine h.touch (fun hs => by rw [hpc] at hs; cases hs) (by simp) ⟨hi.stopped, hi.left, ?_, ?_⟩
  · intro hd
    exact absurd (hi.stopped (hi.left (drained_left hd))) (by simp [AcceptorPc.stopping])
  · have ho : (s.workers i).enqueued = (s.workers i).taken ++ (s.workers i).pc.waiting ++
        (s.workers i).queue := hi.ordered
    simp [Worker.Ordered, ho]

theorem WorkerStopping.step {stopping error : Bool} {sh sh' : SharedState} {w w' : Worker}
    {eff : FdEffect} (h : WorkerStopping stopping w)
    (hstep : Worker.Step config sh w error eff sh' w') (herror : error = true → w.running = false) :
    WorkerStopping stopping w' where
  stopped hr := h.stopped (hstep.running ▸ hr)
  left hl := by
    rw [hstep.running]
    rcases hstep.left hl with hl | hr | he
    · exact h.left hl
    · exact hr
    · exact herror he
  drained hd := by
    rcases hstep.queue_of_drained hd with hq | ⟨hd, hq⟩
    · exact hq
    · rw [hq]
      exact h.drained hd
  ordered := hstep.ordered h.ordered

theorem Stopping.step {act : SystemAct n} (h : s.Stopping) (hact : EpollOk s act)
    (hstep : Step config s act s') : s'.Stopping := by
  cases hstep with
  | @worker i error eff sh w hstep hfd =>
    have herror : error = true → (s.workers i).running = false := fun he => hact i (by rw [he])
    have hacc : (({ s.setWorker i w with shared := sh }).apply eff).acceptor = s.acceptor := by
      cases eff <;> rfl
    constructor
    · intro j
      rw [hacc]
      obtain ⟨e, hj⟩ := s.workers_apply eff i w sh j
      have hw : WorkerStopping s.acceptor.stopping (if j = i then w else s.workers j) := by
        split
        · exact (h.workers i).step hstep herror
        · exact h.workers j
      rw [hj]
      exact ⟨hw.stopped, hw.left, hw.drained, hw.ordered⟩
    · intro hj
      rw [hacc] at hj
      exact absurd (h.joined hj i) hstep.not_stopped
  | accept fd hpc hfd =>
    exact h.still (fun i => ⟨(s.workers i).epoll, rfl⟩) (fun hs => by rw [hpc] at hs; cases hs) (by simp)
  | configured fd i hpc => exact h.acceptor (fun hs => by rw [hpc] at hs; cases hs) (by simp)
  | configureFailed fd hpc => exact h.acceptor (fun hs => by rw [hpc] at hs; cases hs) (by simp)
  | notRunning fd i hpc hrun => exact h.acceptor (fun hs => by rw [hpc] at hs; cases hs) (by simp)
  | running fd i hpc hrun => exact h.acceptor (fun hs => by rw [hpc] at hs; cases hs) (by simp)
  | queueFull fd i hpc hlen => exact h.acceptor (fun hs => by rw [hpc] at hs; cases hs) (by simp)
  | push fd i hpc hlen => exact h.push hpc
  | notified fd i hpc =>
    have hi := h.workers i
    rw [hpc] at hi
    exact h.touch (fun hs => by rw [hpc] at hs; cases hs) (by simp)
      ⟨hi.stopped, hi.left, hi.drained, hi.ordered⟩
  | notifyAgain fd i hpc hcount => exact h.acceptor (fun hs => by rw [hpc] at hs; cases hs) (by simp)
  | notifyFailed fd i hpc => exact h.acceptor (fun hs => by rw [hpc] at hs; cases hs) (by simp)
  | reject fd hpc =>
    exact h.still (fun i => ⟨((s.workers i).forget fd).epoll, rfl⟩)
      (fun hs => by rw [hpc] at hs; cases hs) (by simp)
  | shutdown hpc => exact h.acceptor (fun hs => by rw [hpc] at hs; cases hs) (by simp)
  | stop i hpc hrun =>
    have hi := h.workers i
    exact h.touch (fun _ => rfl) (by simp) ⟨fun _ => rfl, fun _ => rfl, hi.drained, hi.ordered⟩
  | stoppedBefore i hpc hrun => exact h.acceptor (fun _ => rfl) (by simp)
  | stopNotified i hpc =>
    have hi := h.workers i
    exact h.touch (fun _ => rfl) (by simp) ⟨fun _ => rfl, hi.left, hi.drained, hi.ordered⟩
  | stopNotifyIgnored i hpc => exact h.acceptor (fun _ => rfl) (by simp)
  | join hpc hstopped =>
    exact h.still (fun i => ⟨(s.workers i).epoll, rfl⟩) (fun _ => rfl) (fun _ => hstopped)
  | othersOpen fd hfd => exact h.still (fun i => ⟨(s.workers i).epoll, rfl⟩) id h.joined
  | othersClose fd hfd => exact h.still (fun i => ⟨((s.workers i).forget fd).epoll, rfl⟩) id h.joined
  | setHealthy b value => exact h.still (fun i => ⟨(s.workers i).epoll, rfl⟩) id h.joined

theorem Start.stopping (h : Start s) : s.Stopping where
  workers i := by
    obtain ⟨wakeFd, epollFd, hw⟩ := h.workers i
    rw [hw]
    exact ⟨fun hr => (by cases hr), fun hl => (by cases hl), fun _ => rfl, rfl⟩
  joined hj := by
    rw [h.acceptor] at hj
    cases hj

end System

/-! ## One owner -/

/-- Where a worker may have a client: in its queue, in the local variables of
its thread (a drain in progress, an object being destroyed), in a session. -/
inductive Place where
  | queue
  | drain
  | session (p : Ref)
  deriving DecidableEq, Repr

namespace Worker

variable {w : Worker} {fd : Fd}

def Has (w : Worker) (fd : Fd) : Place → Prop
  | .queue => fd ∈ w.queue
  | .drain => .client fd ∈ w.pc.holds
  | .session p => w.fd? p .client = some fd

theorem held_client (w : Worker) (fd : Fd) : w.held (.client fd) = w.queue.count fd +
    w.pc.holds.count (.client fd) + ∑ p ∈ Finset.range w.nextSessionId, heldBy (.client fd) (w.heap p) := by
  have hinj : Function.Injective Resource.client := fun _ _ h => Resource.client.inj h
  rw [held, List.count_map_of_injective _ _ hinj]

theorem fd?_of_heldBy {p : Ref} (h : heldBy (.client fd) (w.heap p) ≠ 0) :
    w.fd? p .client = some fd := by
  cases hp : w.heap p with
  | none =>
    rw [hp] at h
    exact absurd rfl h
  | some s =>
    rw [hp, heldBy_some, ← Nat.pos_iff_ne_zero, List.count_pos_iff] at h
    simp only [ProxySession.holds, List.mem_cons, List.not_mem_nil, or_false, reduceCtorEq,
      false_or, Resource.client.injEq] at h
    rw [fd?_of_heap hp, ProxySession.fdOf, h]

theorem exists_place (h : 0 < w.held (.client fd)) : ∃ place, w.Has fd place := by
  rw [held_client] at h
  by_cases hq : fd ∈ w.queue
  · exact ⟨.queue, hq⟩
  · by_cases hd : .client fd ∈ w.pc.holds
    · exact ⟨.drain, hd⟩
    · rw [List.count_eq_zero.mpr hq, List.count_eq_zero.mpr hd] at h
      have hsum : ∑ p ∈ Finset.range w.nextSessionId, heldBy (.client fd) (w.heap p) ≠ 0 := by
        omega
      obtain ⟨p, -, hp⟩ := Finset.exists_ne_zero_of_sum_ne_zero hsum
      exact ⟨.session p, fd?_of_heldBy hp⟩

/-- What the places contribute to the count. -/
theorem Has.share (hf : w.Fresh) {place : Place} (h : w.Has fd place) :
    match place with
    | .queue => 1 ≤ w.queue.count fd
    | .drain => 1 ≤ w.pc.holds.count (.client fd)
    | .session _ => 1 ≤ ∑ p ∈ Finset.range w.nextSessionId, heldBy (.client fd) (w.heap p) := by
  cases place with
  | queue => exact List.one_le_count_iff.mpr h
  | drain => exact List.one_le_count_iff.mpr h
  | session p =>
    have hle := le_total (Finset.mem_range.mpr (fd?_lt hf h)) (fun p => heldBy (.client fd) (w.heap p))
    exact Nat.le_trans (one_le_heldBy h) hle

theorem Has.held_pos (hf : w.Fresh) {place : Place} (h : w.Has fd place) : 1 ≤ w.held (.client fd) := by
  have hs := h.share hf
  rw [held_client]
  cases place <;> simp only at hs <;> omega

theorem Has.unique (hf : w.Fresh) (hone : w.held (.client fd) ≤ 1) {place place' : Place}
    (h : w.Has fd place) (h' : w.Has fd place') : place = place' := by
  have hs := h.share hf
  have hs' := h'.share hf
  have htotal := held_client w fd
  cases place <;> cases place' <;> simp only at hs hs'
  case session.session p q =>
    by_contra hne
    have hpq : p ≠ q := fun he => hne (by rw [he])
    have htwo : 2 ≤ w.held (.client fd) := two_le_held hf hpq h h'
    omega
  all_goals first | rfl | omega

end Worker

namespace System

variable {n : Nat} {config : AppConfig} {s s' : System n}

inductive Owner (n : Nat) where
  | acceptor
  | worker (i : Fin n) (place : Place)
  deriving DecidableEq

def Owns (s : System n) (fd : Fd) : Owner n → Prop
  | .acceptor => .client fd ∈ s.acceptor.holds
  | .worker i place => (s.workers i).Has fd place

theorem exists_owner {fd : Fd} (h : 0 < s.owners (.client fd)) : ∃ o, s.Owns fd o := by
  by_cases ha : .client fd ∈ s.acceptor.holds
  · exact ⟨.acceptor, ha⟩
  · rw [owners, List.count_eq_zero.mpr ha, Nat.zero_add] at h
    obtain ⟨i, -, hi⟩ := Finset.exists_ne_zero_of_sum_ne_zero (Nat.ne_of_gt h)
    obtain ⟨place, hp⟩ := Worker.exists_place (Nat.pos_of_ne_zero hi)
    exact ⟨.worker i place, hp⟩

theorem Owned.unique_owner (h : s.Owned) {fd : Fd} (hone : s.owners (.client fd) ≤ 1) {o o' : Owner n}
    (ho : s.Owns fd o) (ho' : s.Owns fd o') : o = o' := by
  have hmixed : ∀ i place, s.Owns fd .acceptor → s.Owns fd (.worker i place) → False := by
    intro i place ha hi
    have h1 : 1 ≤ s.acceptor.holds.count (.client fd) := List.one_le_count_iff.mpr ha
    have h2 := Worker.Has.held_pos (h.fresh i) hi
    have h3 := le_total (Finset.mem_univ i) (fun i => (s.workers i).held (.client fd))
    unfold owners at hone
    omega
  cases o with
  | acceptor =>
    cases o' with
    | acceptor => rfl
    | worker j place' => exact (hmixed j place' ho ho').elim
  | worker i place =>
    cases o' with
    | acceptor => exact (hmixed i place ho' ho).elim
    | worker j place' =>
      have hij : i = j := by
        by_contra hne
        have h1 := Worker.Has.held_pos (h.fresh i) ho
        have h2 := Worker.Has.held_pos (h.fresh j) ho'
        have h3 := pair_le_total (Finset.mem_univ i) (Finset.mem_univ j) hne
          (fun i => (s.workers i).held (.client fd))
        unfold owners at hone
        omega
      subst hij
      have hw := s.held_le_owners i (.client fd)
      rw [Worker.Has.unique (h.fresh i) (Nat.le_trans hw hone) ho ho']

theorem Owned.one_owner (h : s.Owned) {fd : Fd} (ha : s.accepted fd = true) : ∃! o, s.Owns fd o := by
  have hone : s.owners (.client fd) = 1 := by
    rw [(h.fds fd).clients, ha]
    rfl
  obtain ⟨o, ho⟩ := exists_owner (show 0 < s.owners (.client fd) by omega)
  exact ⟨o, ho, fun o' ho' => h.unique_owner (by omega) ho' ho⟩

/-- Every client has one owner, clients are handled in order, and a descriptor
is closed once for each time it was handed out. -/
structure ExactlyOnce (s : System n) : Prop where
  owner : ∀ fd, s.accepted fd = true → s.isOpen fd = true ∧ ∃! o, s.Owns fd o
  /-- taken before waiting before queued, as they were enqueued -/
  order : ∀ i, (s.workers i).enqueued =
    (s.workers i).taken ++ (s.workers i).pc.waiting ++ (s.workers i).queue
  /-- handed out and not closed yet: owned as a client or as an upstream, once -/
  closes : ∀ fd, s.opened fd = s.closed fd + (s.owners (.client fd) + s.owners (.upstream fd)) ∧
    s.owners (.client fd) + s.owners (.upstream fd) ≤ 1

/-- Nothing is left of any connection. -/
structure AllReleased (s : System n) : Prop where
  accepted : ∀ fd, s.accepted fd = false
  closed : ∀ fd, s.opened fd = s.closed fd
  queue : ∀ i, (s.workers i).queue = []
  handled : ∀ i, (s.workers i).enqueued = (s.workers i).taken
  sessions : ∀ i, (s.workers i).sessions = []
  entries : ∀ i fd, (s.workers i).fdToSession fd = none
  counter : ∀ i, (s.workers i).activeSessions = 0
  leases : ∀ b, s.shared.active b = 0

theorem Consistent.exactlyOnce (h : s.Consistent config) (hs : s.Stopping) : s.ExactlyOnce where
  owner fd ha := by
    refine ⟨?_, h.owned.one_owner ha⟩
    have hc := (h.owned.fds fd).clients
    have ho := (h.owned.fds fd).isOpen
    rw [ha, Bool.toNat_true] at hc
    cases hopen : s.isOpen fd with
    | true => rfl
    | false =>
      rw [hopen, Bool.toNat_false] at ho
      omega
  order i := (hs.workers i).ordered
  closes fd := by
    have hh := (h.owned.fds fd).history
    have ho := (h.owned.fds fd).isOpen
    have hle : (s.isOpen fd).toNat ≤ 1 := Bool.toNat_le _
    constructor <;> omega

/-- A worker whose thread has ended has nothing left. -/
theorem stopped_held {w : Worker} {cap : Nat} (hr : w.Reactor cap) (hpc : w.pc = .stopped)
    (hq : w.queue = []) : w.sessions = [] ∧ ∀ r, w.held r = 0 := by
  have hempty : ∀ p, ¬ w.published p := by
    intro p hp
    obtain ⟨s, hs⟩ := hr.heap_of_published hp
    have hmem := hr.swept p s hp hs
    rw [hpc] at hmem
    cases hmem rfl
  have hheap : ∀ p, w.heap p = none := by
    intro p
    by_contra hp
    rcases hr.indexed.reach p hp with hpub | href
    · exact hempty p hpub
    · rw [hpc] at href
      cases href
  constructor
  · have hmap : w.sessions.map Prod.snd = [] := List.eq_nil_iff_forall_not_mem.mpr hempty
    exact List.map_eq_nil_iff.mp hmap
  · intro r
    simp [Worker.held, hq, hpc, Pc.holds, hheap]

theorem Consistent.allReleased (h : s.Consistent config) (hs : s.Stopping)
    (hjoined : s.acceptor = .joined) : s.AllReleased := by
  have hpc := hs.joined hjoined
  have hqueue : ∀ i, (s.workers i).queue = [] := fun i => (hs.workers i).drained (by rw [hpc i]; rfl)
  have hend := fun i => stopped_held (h.workers i) (hpc i) (hqueue i)
  have howners : ∀ r, s.owners r = 0 := by
    intro r
    simp [owners, hjoined, AcceptorPc.holds, fun i => (hend i).2 r]
  constructor
  case accepted =>
    intro fd
    have hc := (h.owned.fds fd).clients
    rw [howners] at hc
    cases ha : s.accepted fd with
    | false => rfl
    | true =>
      rw [ha] at hc
      cases hc
  case closed =>
    intro fd
    rw [(h.owned.fds fd).history, howners, howners, Nat.add_zero]
  case queue => exact hqueue
  case handled =>
    intro i
    have ho : (s.workers i).enqueued = (s.workers i).taken ++ (s.workers i).pc.waiting ++
        (s.workers i).queue := (hs.workers i).ordered
    rw [ho, hpc i, hqueue i]
    simp [Pc.waiting]
  case sessions => exact fun i => (hend i).1
  case entries =>
    intro i fd
    by_contra hsome
    obtain ⟨p, hp⟩ := Option.ne_none_iff_exists'.mp hsome
    have hpub := (((h.workers i).indexed.index fd p).mp hp).1
    rw [Worker.published, (hend i).1] at hpub
    cases hpub
  case counter =>
    intro i
    rw [(h.workers i).indexed.active, (hend i).1]
    rfl
  case leases =>
    intro b
    rw [h.owned.leases, howners]

end System

/-- **Exactly-once ownership.** In every run in which workers end only when
the acceptor stops them: every open client has exactly one owner, clients are
handled in the order they were enqueued, each descriptor is closed once for
each time it was handed out, and after the workers have been joined nothing is
left of any connection. -/
theorem run_exactlyOnce {n : Nat} (config : AppConfig) {s₀ s : System n} {acts : List (SystemAct n)}
    (hstart : System.Start s₀) (hrun : Run (Guarded System.Regular (System.Step config)) s₀ acts s) :
    s.ExactlyOnce ∧ (s.acceptor = .joined → s.AllReleased) := by
  have h : s.Consistent config ∧ s.Stopping := by
    refine Run.invariant (I := fun s => s.Consistent config ∧ s.Stopping) ?_
      ⟨hstart.consistent config, hstart.stopping⟩ hrun
    rintro t act u ⟨hc, hs⟩ ⟨hact, hstep⟩
    exact ⟨hc.step hact.notifyOk hstep, hs.step hact.epollOk hstep⟩
  exact ⟨h.1.exactlyOnce h.2, h.1.allReleased h.2⟩

theorem Demo.Reaches.epollOk {s : System 1} (h : Demo.Reaches s) :
    ∃ acts, Run (Guarded System.EpollOk (System.Step Demo.config)) Demo.start acts s := by
  obtain ⟨acts, hr⟩ := h
  exact ⟨acts, hr.mono fun _ _ _ hstep => ⟨hstep.1.epollOk, hstep.2⟩⟩

/-- The small process is stopped while it serves its client. -/
theorem Demo.reaches_joined : ∃ s, Demo.Reaches s ∧ s.acceptor = .joined ∧ s.opened 6 = 1 := by
  have r := Demo.reaches_serving
  have r := r.acceptor (.shutdown rfl)
  have r := r.acceptor (.stop 0 rfl rfl)
  have r := r.acceptor (.stopNotified 0 rfl)
  have r := r.worker (.waited [⟨4, EPOLLIN, none⟩] rfl (by decide) (by decide) (by simpa using ⟨_, rfl⟩))
    trivial
  have r := r.worker (.wake _ _ rfl rfl) trivial
  have r := r.worker (.readWake _ rfl (by decide)) trivial
  have r := r.worker (.wakeEmpty _ rfl rfl) trivial
  have r := r.worker (.swap _ rfl) trivial
  have r := r.worker (.drained _ rfl) trivial
  have r := r.worker (.batchDone rfl) trivial
  have r := r.worker (.collect [] rfl (by decide)) trivial
  have r := r.worker (.allClosed _ _ rfl) trivial
  have r := r.worker (.sweepSoon _ 0 rfl (by decide)) trivial
  have r := r.worker (.dropped _ rfl) trivial
  -- the clean-up of run()
  have r := r.worker (.leave rfl rfl) trivial
  have r := r.worker (.swap _ rfl) trivial
  have r := r.worker (.drained _ rfl) trivial
  have r := r.worker (.queueEmpty rfl rfl) trivial
  have r := r.worker (.finalCollect [1] rfl (by decide)) trivial
  have r := r.worker (.closeSession 1 _ _ _ _ rfl rfl (by decide)) trivial
  have r := r.worker (.onClosedLoad _ _ _ rfl) trivial
  have r := r.worker (.onClosedSub _ _ _ _ rfl) trivial
  have r := r.worker (.allClosed _ _ rfl) trivial
  -- the session is destroyed
  have r := r.worker (.dropLast 1 _ _ _ rfl rfl (by decide)) trivial
  have r := r.worker (.destroy _ _ _ _ rfl) trivial
  have r := r.worker (.destroy _ _ _ _ rfl) trivial
  have r := r.worker (.destroy _ _ _ _ rfl) trivial
  have r := r.worker (.destroy _ _ _ _ rfl) trivial
  have r := r.worker (.destroyed _ _ rfl) trivial
  have r := r.worker (.dropped _ rfl) trivial
  have r := r.acceptor (.join rfl (fun _ => rfl))
  exact ⟨_, r, rfl, rfl⟩

theorem run_exactlyOnce_joined : ∃ acts s,
    Run (Guarded System.Regular (System.Step Demo.config)) Demo.start acts s ∧ s.opened 6 = 1 ∧
      s.ExactlyOnce ∧ s.AllReleased := by
  obtain ⟨s, ⟨acts, hrun⟩, hjoined, hopened⟩ := Demo.reaches_joined
  have h := run_exactlyOnce Demo.config Demo.start_start hrun
  exact ⟨acts, s, hrun, hopened, h.1, h.2 hjoined⟩

end FluxGate
