import FluxGate.Accounting
import FluxGate.Outcomes
import FluxGate.Lib.Watch

/-!
# A session that cannot be created

`createSession` may fail at five points: no backend is healthy, the socket
cannot be created, `connectNonBlocking` throws with the socket open, the client
or the upstream socket cannot be added to the epoll set. What was taken up to
there is given back by a mix of explicit calls and destructors. `Scope` says how
the worker differs, at each point of the call, from the worker that began it;
`Advance` says what a step of the call does to the counters.

Other threads may step in between. They leave the data of the worker alone; the
counters they share with it are compared by what the steps of the call add to
them (`growth`).
-/

namespace FluxGate

open Lib

namespace Pc

/-- The step is an exception of `connectNonBlocking`: the backend it was called for. -/
def throws : Pc → Pc → List Nat
  | .create (.socket _ b) _ _, .create (.cleanup _) _ _ => [b]
  | .create (.connect _ b _) _ _, .create (.cleanup _) _ _ => [b]
  | _, _ => []

/-- The step creates the upstream socket. -/
def sockets : Pc → Pc → List Fd
  | .create (.socket _ _) _ _, .create (.connect _ _ u) _ _ => [u]
  | _, _ => []

/-- The client of a call that has not created its upstream socket yet. -/
def unconnected : Pc → List Fd
  | .create (.acquire c) _ _ => [c]
  | .create (.socket c _) _ _ => [c]
  | _ => []

/-- How often `connectNonBlocking` may still throw. -/
def trying : Pc → Nat
  | .create (.acquire _) _ _ => 1
  | .create (.socket _ _) _ _ => 1
  | .create (.connect _ _ _) _ _ => 1
  | _ => 0

theorem client_mem_holds {pc : Pc} {c : Fd} (h : c ∈ pc.unconnected) : Resource.client c ∈ pc.holds := by
  cases pc with
  | create job clients ctx =>
    cases job <;> simp [unconnected, holds, Job.holds] at h ⊢ <;> simp [h]
  | _ => simp [unconnected] at h

end Pc

/-! ## One step of a call -/

namespace Worker

variable {config : AppConfig} {sh sh' : SharedState} {w₀ w w' : Worker} {error : Bool} {eff : FdEffect}
  {job : Job} {clients : List Fd} {ctx : DrainCtx}

/-- Where a step of a call that publishes nothing leads. -/
structure Moves (clients : List Fd) (ctx : DrainCtx) (w : Worker) (eff : FdEffect) (w' : Worker) : Prop where
  pc : (∃ job, w'.pc = .create job clients ctx) ∨ w'.pc = .drain clients ctx
  queue : w'.queue = w.queue
  sockets : ∀ fd, (w.pc.sockets w'.pc).count fd = eff.gained.count (.upstream fd)
  unconnected : (w.pc.sockets w'.pc).length + w'.pc.unconnected.length ≤ w.pc.unconnected.length
  client : ∀ c ∈ w'.pc.unconnected, c ∈ w.pc.unconnected
  trying : (w.pc.throws w'.pc).length + w'.pc.trying ≤ w.pc.trying

theorem Step.moves (hstep : Step config sh w error eff sh' w') (hpc : w.pc = .create job clients ctx)
    (hjob : ∀ p, job ≠ .publish p) : Moves clients ctx w eff w' := by
  have hne : ∀ pc, w.pc = pc → pc = .create job clients ctx := fun _ h => h.symm.trans hpc
  clear hpc
  cases hstep
  case publish p s _ _ h hp =>
    obtain ⟨rfl, -, -⟩ := Pc.create.inj (hne _ h)
    exact absurd rfl (hjob p)
  case socket c b u _ _ h =>
    obtain ⟨-, rfl, rfl⟩ := Pc.create.inj (hne _ h)
    constructor <;> simp [h, goto, FdEffect.gained, List.count_singleton,
      Pc.throws, Pc.sockets, Pc.unconnected, Pc.trying]
  case clean op ops _ _ h =>
    obtain ⟨-, rfl, rfl⟩ := Pc.create.inj (hne _ h)
    have hgained : (op.exec sh).1.gained = [] := by cases op <;> rfl
    constructor <;> simp [h, goto, hgained, Pc.throws, Pc.sockets, Pc.unconnected, Pc.trying]
  case noBackend h | acquired h | noSocket h | connectThrew h | connect h | construct h
      | registerClient h _ _ | registerUpstream h _ _ | registerClientFailed h | registerUpstreamFailed h
      | unregister h _ | cleaned h =>
    obtain ⟨-, rfl, rfl⟩ := Pc.create.inj (hne _ h)
    constructor <;> simp [h, goto, FdEffect.gained, Worker.construct, setInterest, free, forget,
      Pc.throws, Pc.sockets, Pc.unconnected, Pc.trying]
  all_goals cases hne _ ‹w.pc = _›

/-! ### The counters -/

theorem healthy_onBackend (sh : SharedState) (b : Nat) (f : Backend → Backend)
    (hf : ∀ x, (f x).healthy = x.healthy) (b' : Nat) :
    ((sh.onBackend b f).backends b').healthy = (sh.backends b').healthy := by
  by_cases hb : b' = b
  · subst hb
    simpa [SharedState.onBackend] using hf _
  · simp [SharedState.onBackend, hb]

theorem exec_healthy (op : CleanOp) (sh : SharedState) (b : Nat) :
    ((op.exec sh).2.1.backends b).healthy = (sh.backends b).healthy := by
  cases op with
  | closeClient fd => rfl
  | closeUpstream fd => rfl
  | connectFailed c => exact healthy_onBackend sh c Backend.recordConnectFailure (fun _ => rfl) b
  | releaseLoad c => rfl
  | releaseTest c current =>
    simp only [CleanOp.exec]
    split
    · exact healthy_onBackend sh c Backend.releaseSub (fun _ => rfl) b
    · rfl

/-- No step of a call changes the number of sessions in the metrics or a health. -/
theorem Step.spares (hstep : Step config sh w error eff sh' w') (hpc : w.pc = .create job clients ctx)
    (hjob : ∀ p, job ≠ .publish p) :
    sh'.metrics.active = sh.metrics.active ∧
      ∀ b, (sh'.backends b).healthy = (sh.backends b).healthy := by
  have hne : ∀ pc, w.pc = pc → pc = .create job clients ctx := fun _ h => h.symm.trans hpc
  clear hpc
  cases hstep
  case publish p s _ _ h hp =>
    obtain ⟨rfl, -, -⟩ := Pc.create.inj (hne _ h)
    exact absurd rfl (hjob p)
  case acquired c b _ _ h => exact ⟨rfl, healthy_onBackend sh b Backend.acquire fun _ => rfl⟩
  case construct c b u con now _ _ h =>
    split
    · exact ⟨rfl, fun _ => rfl⟩
    · exact ⟨rfl, healthy_onBackend sh b Backend.recordConnectSuccess fun _ => rfl⟩
  case clean op ops _ _ h => exact ⟨(op.exec_rejected sh).2.1, exec_healthy op sh⟩
  case noBackend | noSocket | socket | connectThrew | connect | registerClient | registerUpstream
      | registerClientFailed | registerUpstreamFailed | unregister | cleaned =>
    exact ⟨rfl, fun _ => rfl⟩
  all_goals cases hne _ ‹w.pc = _›

/-- A client is rejected, or left to be rejected by the clean-up, once. -/
theorem Step.rejects (hstep : Step config sh w error eff sh' w') (hpc : w.pc = .create job clients ctx)
    (hjob : ∀ p, job ≠ .publish p) :
    sh'.metrics.rejected + w'.pc.inHand = sh.metrics.rejected + w.pc.inHand := by
  have hm := hstep.moves hpc hjob
  have hentry : w.entry w' .new = .new := by
    rw [entry, hpc]
    cases job <;> first | rfl | exact absurd rfl (hjob _)
  have hwaiting : w'.pc.waiting = w.pc.waiting := by
    rw [hpc]
    rcases hm.pc with ⟨job', h⟩ | h <;> rw [h] <;> rfl
  have hclients := (hstep.clients .new).2
  rw [hentry, Worker.clients, Worker.clients, hm.queue, hwaiting] at hclients
  omega

/-- The failures of `connectNonBlocking`, in both places where they are counted. -/
structure Fails (sh : SharedState) (w : Worker) (sh' : SharedState) (w' : Worker) : Prop where
  backend : ∀ b, failing sh' w' b = failing sh w b + (w.pc.throws w'.pc).count b
  metrics : sh'.metrics.connectFailures + w'.pc.ops.countP CleanOp.rejects =
    sh.metrics.connectFailures + w.pc.ops.countP CleanOp.rejects + (w.pc.throws w'.pc).length

theorem exec_connectFailures (op : CleanOp) (sh : SharedState) (ops : List CleanOp) :
    (op.exec sh).2.1.metrics.connectFailures + ((op.exec sh).2.2 ++ ops).countP CleanOp.rejects =
      sh.metrics.connectFailures + (op :: ops).countP CleanOp.rejects := by
  cases op with
  | closeClient fd => simp [CleanOp.exec, CleanOp.rejects]
  | closeUpstream fd => simp [CleanOp.exec, CleanOp.rejects]
  | connectFailed b =>
    rw [List.countP_cons_of_pos rfl]
    show sh.metrics.connectFailures + 1 + ops.countP CleanOp.rejects = _
    omega
  | releaseLoad b => simp [CleanOp.exec, CleanOp.rejects]
  | releaseTest b current =>
    simp only [CleanOp.exec]
    split <;> simp [SharedState.onBackend, CleanOp.rejects]

/-- No failure is counted, now or later. -/
theorem fails_none (hb : ∀ b, (sh'.backends b).failedConnections = (sh.backends b).failedConnections)
    (hm : sh'.metrics.connectFailures = sh.metrics.connectFailures)
    (hops : ∀ op ∈ w.pc.ops, op.rejects = false) (hops' : ∀ op ∈ w'.pc.ops, op.rejects = false)
    (hthrows : w.pc.throws w'.pc = []) : Fails sh w sh' w' := by
  have hcount : ∀ ops : List CleanOp, (∀ op ∈ ops, op.rejects = false) →
      ops.countP CleanOp.rejects = 0 ∧ ∀ b, ops.count (.connectFailed b) = 0 := by
    intro ops h
    constructor
    · rw [List.countP_eq_zero]
      intro op hop
      simp [h op hop]
    · intro b
      rw [List.count_eq_zero]
      intro hop
      cases h _ hop
  constructor
  · intro b
    rw [Worker.failing, Worker.failing, hb, (hcount _ hops).2, (hcount _ hops').2, hthrows]
    rfl
  · rw [hm, (hcount _ hops).1, (hcount _ hops').1, hthrows]
    rfl

theorem Step.fails (hstep : Step config sh w error eff sh' w') (hpc : w.pc = .create job clients ctx)
    (hjob : ∀ p, job ≠ .publish p) : Fails sh w sh' w' := by
  have hne : ∀ pc, w.pc = pc → pc = .create job clients ctx := fun _ h => h.symm.trans hpc
  clear hpc
  cases hstep
  case publish p s _ _ h hp =>
    obtain ⟨rfl, -, -⟩ := Pc.create.inj (hne _ h)
    exact absurd rfl (hjob p)
  case noSocket c b _ _ h =>
    constructor
    · intro b'
      simp [Worker.failing, h, goto, Pc.ops, Pc.throws, List.count_cons]
    · rw [h]
      rfl
  case connectThrew c b u _ _ h =>
    constructor
    · intro b'
      simp [Worker.failing, h, goto, Pc.ops, Pc.throws, List.count_cons]
    · rw [h]
      rfl
  case clean op ops _ _ h =>
    constructor
    · intro b
      simp only [Worker.failing, h, goto, Pc.ops, Pc.throws, List.count_nil, Nat.add_zero]
      exact (exec_counts op sh ops b).2
    · simp only [h, goto, Pc.ops, Pc.throws, List.length_nil, Nat.add_zero]
      exact exec_connectFailures op sh ops
  case acquired c b _ _ h =>
    refine fails_none (fun b' => ?_) rfl (by simp [h, Pc.ops]) (by simp [goto, Pc.ops])
      (by simp [h, goto, Pc.throws])
    by_cases hb : b' = b
    · subst hb
      simp [SharedState.onBackend, Backend.acquire]
    · simp [SharedState.onBackend, hb]
  case construct c b u con now _ _ h =>
    refine fails_none (fun b' => ?_) ?_ (by simp [h, Pc.ops]) (by simp [goto, Pc.ops])
      (by simp [h, goto, Pc.throws])
    · split
      · rfl
      · by_cases hb : b' = b
        · subst hb
          simp [SharedState.onBackend, Backend.recordConnectSuccess]
        · simp [SharedState.onBackend, hb]
    · split <;> rfl
  case noBackend h | socket h | connect h | registerClient h _ _ | registerUpstream h _ _
      | registerClientFailed h | registerUpstreamFailed h | unregister h _ | cleaned h =>
    exact fails_none (fun _ => rfl) rfl (by simp [h, Pc.ops])
      (by simp [goto, Pc.ops, destructor, CleanOp.rejects]) (by simp [h, goto, Pc.throws])
  all_goals cases hne _ ‹w.pc = _›

/-! ### The data of the worker -/

/-- How a worker within a call differs from the one that began it: by the object
it is building, and by the epoll set at the descriptors of that object. -/
structure Scope (w₀ w : Worker) : Prop where
  fdToSession : w.fdToSession = w₀.fdToSession
  sessions : w.sessions = w₀.sessions
  activeSessions : w.activeSessions = w₀.activeSessions
  nextSessionId : w₀.nextSessionId ≤ w.nextSessionId
  heap : ∀ p, p ∉ w.pc.building → w.heap p = w₀.heap p
  fresh : ∀ p ∈ w.pc.building, w₀.heap p = none
  epoll : ∀ fd, (∀ p ∈ w.pc.building, ∀ side, w.fd? p side ≠ some fd) → w.epoll fd = w₀.epoll fd
  clear : ∀ p ∈ w.pc.building, ∀ side fd, w.fd? p side = some fd → w₀.epoll fd = none

theorem Scope.refl (h : w.pc.building = []) : Scope w w where
  fdToSession := rfl
  sessions := rfl
  activeSessions := rfl
  nextSessionId := Nat.le_refl _
  heap _ _ := rfl
  fresh p hp := by simp [h] at hp
  epoll _ _ := rfl
  clear p hp := by simp [h] at hp

/-- Nothing is being built: the data are those of the beginning. -/
theorem Scope.heap_eq (h : Scope w₀ w) (hb : w.pc.building = []) : w.heap = w₀.heap := by
  funext p
  exact h.heap p (by simp [hb])

theorem Scope.epoll_eq (h : Scope w₀ w) (hb : w.pc.building = []) : w.epoll = w₀.epoll := by
  funext fd
  exact h.epoll fd (by simp [hb])

/-- A step that moves on to other code, keeping the object in hand. -/
theorem Scope.quiet (h : Scope w₀ w) (hq : Quiet w w') (hb : ∀ p, p ∈ w'.pc.building ↔ p ∈ w.pc.building) :
    Scope w₀ w' where
  fdToSession := hq.fdToSession.trans h.fdToSession
  sessions := hq.sessions.trans h.sessions
  activeSessions := hq.activeSessions.trans h.activeSessions
  nextSessionId := hq.nextSessionId ▸ h.nextSessionId
  heap p hp := by
    rw [hq.heap]
    exact h.heap p (fun hmem => hp ((hb p).mpr hmem))
  fresh p hp := h.fresh p ((hb p).mp hp)
  epoll fd hfd := by
    rw [fd?_congr hq.heap] at hfd
    rw [hq.epoll]
    exact h.epoll fd (fun p hp => hfd p ((hb p).mpr hp))
  clear p hp := by
    rw [fd?_congr hq.heap]
    exact h.clear p ((hb p).mp hp)

/-- A side of the object is added to the epoll set. -/
theorem Scope.register (h : Scope w₀ w) {p : Ref} {s : ProxySession} {side : Side} {pc : Pc} {mask : EventMask}
    (hb : w.pc.building = [p]) (hb' : pc.building = [p]) (hp : w.heap p = some s) :
    Scope w₀ ((w.setInterest p (s.fdOf side) mask).goto pc) where
  fdToSession := h.fdToSession
  sessions := h.sessions
  activeSessions := h.activeSessions
  nextSessionId := h.nextSessionId
  heap q hq := h.heap q (by rwa [hb, ← hb'])
  fresh q hq := h.fresh q (by rwa [hb, ← hb'])
  epoll fd hfd := by
    have hne : fd ≠ s.fdOf side := by
      intro he
      exact hfd p (by simp [goto, hb']) side (by rw [he]; exact fd?_of_heap hp side)
    have hkeep : ((w.setInterest p (s.fdOf side) mask).goto pc).epoll fd = w.epoll fd :=
      Function.update_of_ne hne _ _
    rw [hkeep]
    exact h.epoll fd (fun q hq => hfd q (by rwa [goto, hb', ← hb]))
  clear q hq := h.clear q (by rwa [hb, ← hb'])

/-- The object is built: its descriptors are in no epoll set yet. -/
theorem Scope.construct (h : Scope w₀ w) (hf : w.Fresh) {c u : Fd} {b size now : Nat} {connecting : Bool}
    (hpc : w.pc = .create (.construct c b u connecting) clients ctx)
    (hw : w' = (w.construct c u connecting b size now).goto
      (.create (.registerClient w.nextSessionId) clients ctx))
    (hi : w'.Indexed) (hx : w'.Exclusive) (hp : w'.Polled) : Scope w₀ w' := by
  have hb : w.pc.building = [] := by rw [hpc]; rfl
  have hb' : w'.pc.building = [w.nextSessionId] := by rw [hw]; rfl
  have hepoll : w'.epoll = w₀.epoll := by
    rw [hw]
    exact h.epoll_eq hb
  constructor
  case fdToSession => rw [hw]; exact h.fdToSession
  case sessions => rw [hw]; exact h.sessions
  case activeSessions => rw [hw]; exact h.activeSessions
  case nextSessionId =>
    rw [hw]
    exact Nat.le_succ_of_le h.nextSessionId
  case heap =>
    intro q hq
    rw [hb', List.mem_singleton] at hq
    rw [hw, ← h.heap_eq hb]
    exact Function.update_of_ne hq _ _
  case fresh =>
    intro q hq
    rw [hb', List.mem_singleton] at hq
    rw [← h.heap_eq hb, hq]
    exact hf _ (Nat.le_refl _)
  case epoll =>
    intro fd _
    rw [hepoll]
  case clear =>
    intro q hq side fd hfd
    by_contra hsome
    rw [← hepoll] at hsome
    rcases hp.registered fd hsome with hwake | ⟨q', side', hfd', hpub | hreg⟩
    · exact hx.notWake hfd hwake
    · -- the descriptor of a published session is not that of the new one
      obtain ⟨rfl, -⟩ := hx.inj hfd hfd'
      exact hi.building q hq hpub
    · rw [hw] at hreg
      cases hreg

/-- The object is removed from the epoll set and destroyed. -/
theorem Scope.unregister (h : Scope w₀ w) {p : Ref} {s : ProxySession} {pc : Pc}
    (hb : w.pc.building = [p]) (hb' : pc.building = []) (hp : w.heap p = some s) :
    Scope w₀ ((((w.forget s.clientFd).forget s.upstreamFd).free p).goto pc) where
  fdToSession := h.fdToSession
  sessions := h.sessions
  activeSessions := h.activeSessions
  nextSessionId := h.nextSessionId
  heap q _ := by
    show Function.update w.heap p none q = _
    by_cases hq : q = p
    · rw [hq, Function.update_self]
      exact (h.fresh p (by simp [hb])).symm
    · rw [Function.update_of_ne hq]
      exact h.heap q (by simpa [hb] using hq)
  fresh q hq := by simp [goto, hb'] at hq
  epoll fd _ := by
    show Function.update (Function.update w.epoll s.clientFd none) s.upstreamFd none fd = _
    by_cases hfd : ∃ side, s.fdOf side = fd
    · obtain ⟨side, hside⟩ := hfd
      rw [update_both hside]
      exact (h.clear p (by simp [hb]) side fd (by rw [fd?_of_heap hp, hside])).symm
    · rw [not_exists] at hfd
      rw [update_both_of_ne hfd]
      refine h.epoll fd (fun q hq side he => ?_)
      rw [hb, List.mem_singleton] at hq
      subst hq
      exact hfd side (fdOf_of_fd? hp he)
  clear q hq := by simp [goto, hb'] at hq

/-- **A step of a call stays in scope.** -/
theorem Scope.step (h : Scope w₀ w) (hstep : Step config sh w error eff sh' w')
    (hpc : w.pc = .create job clients ctx) (hjob : ∀ p, job ≠ .publish p) (hf : w.Fresh) (hi : w.Indexed)
    (hi' : w'.Indexed) (hx' : w'.Exclusive) (hp' : w'.Polled) : Scope w₀ w' := by
  have hne : ∀ pc, w.pc = pc → pc = .create job clients ctx := fun _ h => h.symm.trans hpc
  rcases hstep.quiet_or_touch hi with hq | ht
  · have hrefs : w'.pc.refs = w'.pc.building := by
      rcases (hstep.moves hpc hjob).pc with ⟨job', hpc'⟩ | hpc' <;> rw [hpc'] <;> rfl
    refine h.quiet hq (fun p => ⟨hq.building p, fun hp => ?_⟩)
    have hmem : p ∈ w.pc.refs := by
      rw [hpc] at hp ⊢
      exact hp
    rw [← hrefs]
    exact (hq.kept p hmem).resolve_right (hi.building p hp)
  · cases ht with
    | register side hpc' hp =>
      exact h.register (by rw [hpc']; cases side <;> rfl) (by cases side <;> rfl) hp
    | construct hpc' => exact h.construct hf hpc' rfl hi' hx' hp'
    | unregister hpc' hp => exact h.unregister (by rw [hpc']; rfl) rfl hp
    | publish hpc' hp =>
      obtain ⟨rfl, -, -⟩ := Pc.create.inj (hne _ hpc')
      exact absurd rfl (hjob _)
    | serve hpc' => cases hne _ hpc'
    | doom hpc' =>
      rcases hpc' with ⟨e, hpc'⟩ | ⟨side, hpc'⟩ <;> cases hne _ hpc'
    | modify side hpc' => cases hne _ hpc'
    | close hpc' => cases hne _ hpc'
    | free hpc' => cases hne _ hpc'

/-- How often a worker owns `r` outside its queue. -/
def inside (w : Worker) (r : Resource) : Nat :=
  w.pc.holds.count r + ∑ p ∈ Finset.range w.nextSessionId, heldBy r (w.heap p)

theorem held_eq (w : Worker) (r : Resource) :
    w.held r = (w.queue.map Resource.client).count r + w.inside r := Nat.add_assoc _ _ _

/-- Ids not given out yet hold nothing. -/
theorem Fresh.sum_heldBy (h : w.Fresh) {k : Nat} (hk : w.nextSessionId ≤ k) (r : Resource) :
    ∑ p ∈ Finset.range k, heldBy r (w.heap p) =
      ∑ p ∈ Finset.range w.nextSessionId, heldBy r (w.heap p) := by
  symm
  apply Finset.sum_subset (Finset.range_mono hk)
  intro p _ hp
  rw [Finset.mem_range, Nat.not_lt] at hp
  rw [h p hp, heldBy_none]

/-- What other threads may do to a worker. -/
def Disturbed (w w' : Worker) : Prop := ∃ queue enqueued running count,
  w' = { w with queue := queue, enqueued := enqueued, running := running, wakeCount := count }

theorem Scope.disturbed (h : Scope w₀ w) (hw : w.Disturbed w') : Scope w₀ w' := by
  obtain ⟨queue, enqueued, running, count, rfl⟩ := hw
  exact h.quiet (System.quiet_touched w queue enqueued running count) fun _ => Iff.rfl

/-- When the call returns, only its client is gone. -/
theorem Scope.inside_eq (h : Scope w₀ w) (hf : w₀.Fresh) {c : Fd}
    (hpc₀ : w₀.pc = .create (.acquire c) clients ctx) (hpc : w.pc = .drain clients ctx) (r : Resource) :
    w₀.inside r = w.inside r + [Resource.client c].count r := by
  have hheap : w.heap = w₀.heap := h.heap_eq (by rw [hpc]; rfl)
  have hholds : w₀.pc.holds = [.client c] ++ w.pc.holds := by
    rw [hpc₀, hpc]
    rfl
  rw [inside, inside, hheap, hf.sum_heldBy h.nextSessionId, hholds, List.count_append]
  omega

end Worker

/-! ## A call -/

namespace System

variable {n : Nat} {config : AppConfig} {i : Fin n} {clients : List Fd} {ctx : DrainCtx} {c : Fd}
  {s t u : System n}

/-- Worker `i` makes a step of a call of `createSession`, other than publishing the session. -/
def CallStep (config : AppConfig) (i : Fin n) (clients : List Fd) (ctx : DrainCtx) (t u : System n) :
    Prop :=
  (∃ job, (t.workers i).pc = .create job clients ctx ∧ ∀ p, job ≠ .publish p) ∧
    Step config t (.worker i false) u

/-- Another thread makes a step. -/
def OtherStep (config : AppConfig) (i : Fin n) (t u : System n) : Prop :=
  ∃ act, NotifyOk t act ∧ (∀ error, act ≠ .worker i error) ∧ Step config t act u

/-- What a step closes was in no epoll set any more. -/
theorem Owned.apply_workers {eff : FdEffect} (h : (s.apply eff).Owned) (hp : (s.workers i).Polled) :
    (s.apply eff).workers i = s.workers i := by
  cases eff with
  | none => rfl
  | openUpstream fd => rfl
  | closeClient fd => exact h.forget_eq (Function.update_self ..) rfl hp
  | closeUpstream fd => exact h.forget_eq (Function.update_self ..) rfl hp

theorem closed_closeFd (s : System n) (x fd : Fd) : (s.closeFd x).closed fd = s.closed fd + [x].count fd := by
  show Function.update s.closed x (s.closed x + 1) fd = _
  by_cases hx : fd = x
  · subst hx
    simp
  · have hne : x ≠ fd := fun he => hx he.symm
    simp [hx, hne]

/-- The descriptors a step closes. -/
theorem closed_apply (s : System n) (eff : FdEffect) (fd : Fd) : (s.apply eff).closed fd =
    s.closed fd + eff.lost.count (.client fd) + eff.lost.count (.upstream fd) := by
  cases eff with
  | none => rfl
  | openUpstream x => rfl
  | closeClient x => simp [apply, closed_closeFd, FdEffect.lost, List.count_singleton]
  | closeUpstream x => simp [apply, closed_closeFd, FdEffect.lost, List.count_singleton]

/-- The other threads leave a worker as it is, but for its queue, its flag and its eventfd. -/
theorem OtherStep.disturbed (h : t.Consistent config) (hstep : OtherStep config i t u) :
    (t.workers i).Disturbed (u.workers i) := by
  obtain ⟨act, hact, hne, hstep⟩ := hstep
  have hu : u.Owned := (h.step hact hstep).owned
  have hsame : u.workers i = t.workers i → (t.workers i).Disturbed (u.workers i) :=
    fun he => ⟨_, _, _, _, he⟩
  -- the acceptor touches one worker, which may be this one
  have htouch : ∀ {j : Fin n} {w : Worker}, (t.workers j).Disturbed w →
      (∀ k, u.workers k = Function.update t.workers j w k) → (t.workers i).Disturbed (u.workers i) := by
    intro j w hw he
    by_cases hj : i = j
    · subst hj
      rwa [he, Function.update_self]
    · exact hsame (by rw [he, Function.update_of_ne hj])
  cases hstep with
  | @worker j error eff sh w hstep hfd =>
    have hij : i ≠ j := by
      rintro rfl
      exact hne error rfl
    have hi : ({ t.setWorker j w with shared := sh } : System n).workers i = t.workers i :=
      Function.update_of_ne hij _ _
    exact hsame ((hu.apply_workers (by rw [hi]; exact (h.workers i).polled)).trans hi)
  | push fd j hpc hlen => exact htouch ⟨_, _, _, _, rfl⟩ fun _ => rfl
  | notified fd j hpc => exact htouch ⟨_, _, _, _, rfl⟩ fun _ => rfl
  | stop j hpc hrun => exact htouch ⟨_, _, _, _, rfl⟩ fun _ => rfl
  | stopNotified j hpc => exact htouch ⟨_, _, _, _, rfl⟩ fun _ => rfl
  | reject fd hpc => exact hsame (hu.forget_eq (Function.update_self ..) rfl (h.workers i).polled)
  | othersClose fd hfd => exact hsame (hu.forget_eq (Function.update_self ..) rfl (h.workers i).polled)
  | _ => exact hsame rfl

/-- A step of the call, as a step of the worker. -/
structure Own (config : AppConfig) (i : Fin n) (t : System n) (eff : FdEffect) (u : System n) : Prop where
  step : Worker.Step config t.shared (t.workers i) false eff u.shared (u.workers i)
  allows : t.Allows eff
  closed : ∀ fd, u.closed fd = t.closed fd + eff.lost.count (.client fd) + eff.lost.count (.upstream fd)

theorem own_of_step (h : t.Consistent config) (hstep : Step config t (.worker i false) u) :
    ∃ eff, Own config i t eff u := by
  have hu : u.Owned := (h.step (by simp [NotifyOk]) hstep).owned
  cases hstep with
  | @worker _ _ eff sh w hstep hfd =>
    have hi : ({ t.setWorker i w with shared := sh } : System n).workers i = w :=
      Function.update_self ..
    have hw : w.Polled := ((h.workers i).step (h.owned.fresh i) (h.owned.exclusive i) hstep).polled
    have hwork := (hu.apply_workers (i := i) (by rwa [hi])).trans hi
    refine ⟨eff, ?_, hfd, fun fd => closed_apply _ eff fd⟩
    rw [hwork, shared_apply]
    exact hstep

/-- What holds during a call for client `c` that began in `s`. -/
structure During (config : AppConfig) (i : Fin n) (c : Fd) (s t : System n) : Prop where
  consistent : t.Consistent config
  scope : (s.workers i).Scope (t.workers i)
  client : ∀ c' ∈ (t.workers i).pc.unconnected, c' = c

theorem during_keeps (config : AppConfig) (i : Fin n) (clients : List Fd) (ctx : DrainCtx) (c : Fd)
    (s : System n) : Keeps (CallStep config i clients ctx) (OtherStep config i) (During config i c s) where
  mine t u h hstep := by
    obtain ⟨⟨job, hpc, hjob⟩, hstep⟩ := hstep
    have hu : u.Consistent config := h.consistent.step (by simp [NotifyOk]) hstep
    obtain ⟨eff, hown⟩ := own_of_step h.consistent hstep
    exact {
      consistent := hu
      scope := h.scope.step hown.step hpc hjob (h.consistent.owned.fresh i) (h.consistent.workers i).indexed
        (hu.workers i).indexed (hu.owned.exclusive i) (hu.workers i).polled
      client := fun c' hc => h.client c' ((hown.step.moves hpc hjob).client c' hc) }
  other t u h hstep := by
    have hw := hstep.disturbed h.consistent
    obtain ⟨act, hact, -, hstep⟩ := hstep
    refine ⟨h.consistent.step hact hstep, h.scope.disturbed hw, ?_⟩
    obtain ⟨queue, enqueued, running, count, hi⟩ := hw
    rw [hi]
    exact h.client

/-- A step of the call, from the state it is made in. -/
theorem During.own (h : During config i c s t) (hstep : CallStep config i clients ctx t u) :
    ∃ eff job, Own config i t eff u ∧ (t.workers i).pc = .create job clients ctx ∧
      ∀ p, job ≠ .publish p := by
  obtain ⟨⟨job, hpc, hjob⟩, hstep⟩ := hstep
  obtain ⟨eff, hown⟩ := own_of_step h.consistent hstep
  exact ⟨eff, job, hown, hpc, hjob⟩

/-- The others leave alone what depends on neither the queue, nor the flag, nor the eventfd. -/
theorem During.other (h : During config i c s t) (hstep : OtherStep config i t u) {β : Type} (f : Worker → β)
    (hf : ∀ w queue enqueued running count, f { w with
      queue := queue, enqueued := enqueued, running := running, wakeCount := count } = f w) :
    f (u.workers i) = f (t.workers i) := by
  obtain ⟨queue, enqueued, running, count, hi⟩ := hstep.disturbed h.consistent
  rw [hi, hf]

/-- The upstream sockets that the steps of a call create: one at most. -/
def created (i : Fin n) (moves : List (System n × System n)) : List Fd :=
  moves.flatMap fun m => (m.1.workers i).pc.sockets (m.2.workers i).pc

/-- The backends for which `connectNonBlocking` threw in a call: one at most. -/
def thrown (i : Fin n) (moves : List (System n × System n)) : List Nat :=
  moves.flatMap fun m => (m.1.workers i).pc.throws (m.2.workers i).pc

/-- A call of worker `i` for client `c` from `s` to `s'`, with the steps `moves`
of its own, has given back all it had taken. -/
structure RolledBack (i : Fin n) (c : Fd) (s : System n) (moves : List (System n × System n))
    (s' : System n) : Prop where
  fdToSession : (s'.workers i).fdToSession = (s.workers i).fdToSession
  sessions : (s'.workers i).sessions = (s.workers i).sessions
  epoll : (s'.workers i).epoll = (s.workers i).epoll
  activeSessions : (s'.workers i).activeSessions = (s.workers i).activeSessions
  active : growth (fun t => t.shared.metrics.active) moves = 0
  leases : ∀ b, growth (fun t => t.shared.active b) moves = 0
  health : ∀ m ∈ moves, ∀ b, (m.2.shared.backends b).healthy = (m.1.shared.backends b).healthy
  /-- the client and the upstream socket are closed, and nothing else -/
  closed : ∀ fd, growth (fun t => t.closed fd) moves = (c :: created i moves).count fd
  once : (c :: created i moves).Nodup ∧ (created i moves).length ≤ 1
  rejected : growth (fun t => t.shared.metrics.rejected) moves = 1
  connectFailures : growth (fun t => t.shared.metrics.connectFailures) moves = (thrown i moves).length
  failedConnections : ∀ b, growth (fun t => (t.shared.backends b).failedConnections) moves =
    (thrown i moves).count b
  thrown : (thrown i moves).length ≤ 1

variable {moves : List (System n × System n)}

section Call

variable (hcall : Watched (CallStep config i clients ctx) (OtherStep config i) s moves t)
  (hs : During config i c s s)

include hcall hs

theorem growth_active : growth (fun t => t.shared.metrics.active) moves = 0 := by
  have hg := hcall.growth_eq_pay (during_keeps config i clients ctx c s) hs
    (fun t => t.shared.metrics.active) (fun _ => 0)
    (fun t u h hstep => by
      obtain ⟨eff, job, hown, hpc, hjob⟩ := h.own hstep
      have := (hown.step.spares hpc hjob).1
      omega)
    (fun _ _ _ _ => rfl)
  omega

theorem health_same : ∀ m ∈ moves, ∀ b,
    (m.2.shared.backends b).healthy = (m.1.shared.backends b).healthy := by
  refine hcall.forall_moves (during_keeps config i clients ctx c s) hs ?_
  intro t u h hstep
  obtain ⟨eff, job, hown, hpc, hjob⟩ := h.own hstep
  exact (hown.step.spares hpc hjob).2

theorem created_length (hpc : (s.workers i).pc = .create (.acquire c) clients ctx) :
    (created i moves).length ≤ 1 := by
  have hle := hcall.length_flatMap_le (during_keeps config i clients ctx c s) hs
    (fun m => (m.1.workers i).pc.sockets (m.2.workers i).pc)
    (fun t => (t.workers i).pc.unconnected.length)
    (fun t u h hstep => by
      obtain ⟨eff, job, hown, hpc, hjob⟩ := h.own hstep
      exact (hown.step.moves hpc hjob).unconnected)
    (fun t u h hstep => h.other hstep (fun w => w.pc.unconnected.length) fun _ _ _ _ _ => rfl)
  rw [hpc] at hle
  exact Nat.le_trans (Nat.le_add_right _ _) hle

theorem thrown_length (hpc : (s.workers i).pc = .create (.acquire c) clients ctx) :
    (System.thrown i moves).length ≤ 1 := by
  have hle := hcall.length_flatMap_le (during_keeps config i clients ctx c s) hs
    (fun m => (m.1.workers i).pc.throws (m.2.workers i).pc)
    (fun t => (t.workers i).pc.trying)
    (fun t u h hstep => by
      obtain ⟨eff, job, hown, hpc, hjob⟩ := h.own hstep
      exact (hown.step.moves hpc hjob).trying)
    (fun t u h hstep => h.other hstep (fun w => w.pc.trying) fun _ _ _ _ _ => rfl)
  rw [hpc] at hle
  exact Nat.le_trans (Nat.le_add_right _ _) hle

theorem client_not_created : c ∉ created i moves := by
  have hne : ∀ m ∈ moves, c ∉ (m.1.workers i).pc.sockets (m.2.workers i).pc := by
    refine hcall.forall_moves (during_keeps config i clients ctx c s) hs ?_
    intro t u h hstep hmem
    obtain ⟨eff, job, hown, hpc, hjob⟩ := h.own hstep
    -- the client is open while the number of the new socket is free
    have hgained : 0 < eff.gained.count (.upstream c) := by
      rw [← (hown.step.moves hpc hjob).sockets c]
      exact List.count_pos_iff.mpr hmem
    have hfree : t.isOpen c = false := by
      cases eff with
      | openUpstream x =>
        have hx : c = x := by simpa [FdEffect.gained] using hgained
        exact hx ▸ hown.allows
      | _ => simp [FdEffect.gained] at hgained
    have hopen := (h.consistent.owned.fds c).isOpen
    rw [hfree, Bool.toNat_false] at hopen
    have hheld : 1 ≤ (t.workers i).held (.client c) := by
      have hlen := (hown.step.moves hpc hjob).unconnected
      obtain ⟨c', hc'⟩ : ∃ c', c' ∈ (t.workers i).pc.unconnected := by
        apply List.exists_mem_of_length_pos
        have hpos : 0 < ((t.workers i).pc.sockets (u.workers i).pc).length := List.length_pos_of_mem hmem
        omega
      have hholds := Pc.client_mem_holds hc'
      rw [h.client c' hc'] at hholds
      exact Nat.le_trans (List.one_le_count_iff.mpr hholds) ((t.workers i).le_held_of_pc (.client c))
    have hle := t.held_le_owners i (.client c)
    omega
  intro hmem
  obtain ⟨m, hm, hc⟩ := List.mem_flatMap.mp hmem
  exact hne m hm hc

theorem growth_rejected (hpc : (s.workers i).pc = .create (.acquire c) clients ctx)
    (hret : (t.workers i).pc = .drain clients ctx) :
    growth (fun t => t.shared.metrics.rejected) moves = 1 := by
  have hg := hcall.growth_eq_pay (during_keeps config i clients ctx c s) hs
    (fun t => t.shared.metrics.rejected) (fun t => (t.workers i).pc.inHand)
    (fun t u h hstep => by
      obtain ⟨eff, job, hown, hpc, hjob⟩ := h.own hstep
      have := hown.step.rejects hpc hjob
      omega)
    (fun t u h hstep => h.other hstep (fun w => (w.pc.inHand : Int)) fun _ _ _ _ _ => rfl)
  rw [hpc, hret] at hg
  simpa [Pc.inHand] using hg

theorem growth_connectFailures (hpc : (s.workers i).pc = .create (.acquire c) clients ctx)
    (hret : (t.workers i).pc = .drain clients ctx) :
    growth (fun t => t.shared.metrics.connectFailures) moves = (System.thrown i moves).length := by
  have hg := hcall.growth_eq (during_keeps config i clients ctx c s) hs
    (fun t => t.shared.metrics.connectFailures) (fun t => (t.workers i).pc.ops.countP CleanOp.rejects)
    (fun m => (m.1.workers i).pc.throws (m.2.workers i).pc) (fun _ => true)
    (fun t u h hstep => by
      obtain ⟨eff, job, hown, hpc, hjob⟩ := h.own hstep
      have := (hown.step.fails hpc hjob).metrics
      dsimp only
      rw [List.countP_true]
      omega)
    (fun t u h hstep => h.other hstep (fun w => (w.pc.ops.countP CleanOp.rejects : Int)) fun _ _ _ _ _ => rfl)
  rw [hpc, hret, List.countP_true] at hg
  change growth _ moves + 0 = 0 + ((System.thrown i moves).length : Int) at hg
  omega

theorem growth_failedConnections (hpc : (s.workers i).pc = .create (.acquire c) clients ctx)
    (hret : (t.workers i).pc = .drain clients ctx) (b : Nat) :
    growth (fun t => (t.shared.backends b).failedConnections) moves = (System.thrown i moves).count b := by
  have hg := hcall.growth_eq (during_keeps config i clients ctx c s) hs
    (fun t => (t.shared.backends b).failedConnections)
    (fun t => (t.workers i).pc.ops.count (.connectFailed b))
    (fun m => (m.1.workers i).pc.throws (m.2.workers i).pc) (· == b)
    (fun t u h hstep => by
      obtain ⟨eff, job, hown, hpc, hjob⟩ := h.own hstep
      have hb := (hown.step.fails hpc hjob).backend b
      simp only [Worker.failing, List.count] at hb ⊢
      omega)
    (fun t u h hstep =>
      h.other hstep (fun w => (w.pc.ops.count (.connectFailed b) : Int)) fun _ _ _ _ _ => rfl)
  rw [hpc, hret] at hg
  change growth _ moves + 0 = 0 + ((System.thrown i moves).count b : Int) at hg
  omega

theorem growth_lease (hpc : (s.workers i).pc = .create (.acquire c) clients ctx)
    (hret : (t.workers i).pc = .drain clients ctx) (b : Nat) :
    growth (fun t => t.shared.active b) moves = 0 := by
  have hg := hcall.growth_eq_pay (during_keeps config i clients ctx c s) hs
    (fun t => t.shared.active b) (fun t => -((t.workers i).inside (.lease b) : Int))
    (fun t u h hstep => by
      obtain ⟨eff, job, hown, hpc, hjob⟩ := h.own hstep
      have howned := h.consistent.owned
      have hbal := hown.step.balance (howned.fresh i) (howned.tested i) (howned.lease_le i) (.lease b)
      rw [Worker.held_eq, Worker.held_eq, (hown.step.moves hpc hjob).queue, FdEffect.lost_lease,
        FdEffect.gained_lease, SharedState.level, SharedState.level] at hbal
      omega)
    (fun t u h hstep => h.other hstep (fun w => -(w.inside (.lease b) : Int)) fun _ _ _ _ _ => rfl)
  have hend := (hcall.keeps (during_keeps config i clients ctx c s) hs).scope.inside_eq
    (hs.consistent.owned.fresh i) hpc hret (.lease b)
  simp at hend
  omega

theorem growth_closed (hpc : (s.workers i).pc = .create (.acquire c) clients ctx)
    (hret : (t.workers i).pc = .drain clients ctx) (fd : Fd) :
    growth (fun t => t.closed fd) moves = (c :: created i moves).count fd := by
  have hg := hcall.growth_eq (during_keeps config i clients ctx c s) hs (fun t => t.closed fd)
    (fun t => (t.workers i).inside (.client fd) + (t.workers i).inside (.upstream fd))
    (fun m => (m.1.workers i).pc.sockets (m.2.workers i).pc) (· == fd)
    (fun t u h hstep => by
      obtain ⟨eff, job, hown, hpc, hjob⟩ := h.own hstep
      have howned := h.consistent.owned
      have hm := hown.step.moves hpc hjob
      have hbal : ∀ r, _ := hown.step.balance (howned.fresh i) (howned.tested i) (howned.lease_le i)
      have hc := hbal (.client fd)
      have hu := hbal (.upstream fd)
      have hclosed := hown.closed fd
      have hsock := hm.sockets fd
      have hnone : eff.gained.count (.client fd) = 0 := by cases eff <;> simp [FdEffect.gained]
      rw [Worker.held_eq, Worker.held_eq, hm.queue] at hc hu
      simp only [SharedState.level, List.count] at *
      omega)
    (fun t u h hstep => h.other hstep
      (fun w => (w.inside (.client fd) + w.inside (.upstream fd) : Int)) fun _ _ _ _ _ => rfl)
  have hscope := (hcall.keeps (during_keeps config i clients ctx c s) hs).scope
  have hc := hscope.inside_eq (hs.consistent.owned.fresh i) hpc hret (.client fd)
  have hu := hscope.inside_eq (hs.consistent.owned.fresh i) hpc hret (.upstream fd)
  have hcount : [Resource.client c].count (.client fd) = [c].count fd := by
    simp [List.count_singleton]
  have hzero : [Resource.client c].count (.upstream fd) = 0 := by simp
  change growth _ moves + _ = _ + ((created i moves).count fd : Int) at hg
  rw [List.count_cons, ← List.count_singleton]
  push_cast
  omega

end Call

/-- A call that begins in a consistent state. -/
theorem Consistent.during (h : s.Consistent config) (hpc : (s.workers i).pc = .create (.acquire c) clients ctx) :
    During config i c s s where
  consistent := h
  scope := .refl (by rw [hpc]; rfl)
  client c' hc := by simpa [hpc, Pc.unconnected] using hc

/-- **A failed `createSession` takes nothing with it.** In every reachable state,
from every call that returns without having published a session: the maps, the
epoll set and the counter of the worker are as before, whatever other threads do
in between; the steps of the call close its client and the socket it created
once each, leave the leases, the health and the number of sessions where they
were, count one rejection, and one connect failure iff `connectNonBlocking`
threw. Where nobody else steps in between, this is what the counters show. -/
theorem createSession_rolls_back {n : Nat} (config : AppConfig) {s₀ s s' : System n}
    {acts : List (SystemAct n)} {i : Fin n} {c : Fd} {clients : List Fd} {ctx : DrainCtx}
    {moves : List (System n × System n)} (hstart : Start s₀)
    (hrun : Run (Guarded NotifyOk (Step config)) s₀ acts s)
    (hpc : (s.workers i).pc = .create (.acquire c) clients ctx)
    (hcall : Watched (CallStep config i clients ctx) (OtherStep config i) s moves s')
    (hret : (s'.workers i).pc = .drain clients ctx) :
    RolledBack i c s moves s' ∧
      (Watched (CallStep config i clients ctx) (fun _ _ => False) s moves s' →
        ∀ f : System n → Nat, (f s' : Int) = f s + growth f moves) := by
  have hs : During config i c s s := (run_consistent hstart hrun).during hpc
  have hscope := (hcall.keeps (during_keeps config i clients ctx c s) hs).scope
  have hbuilding : (s'.workers i).pc.building = [] := by rw [hret]; rfl
  have hlen := created_length hcall hs hpc
  have hnodup : (created i moves).Nodup :=
    List.nodup_iff_count_le_one.mpr fun fd => Nat.le_trans List.count_le_length hlen
  refine ⟨?_, fun h f => h.growth_alone f⟩
  exact {
    fdToSession := hscope.fdToSession
    sessions := hscope.sessions
    epoll := hscope.epoll_eq hbuilding
    activeSessions := hscope.activeSessions
    active := growth_active hcall hs
    leases := growth_lease hcall hs hpc hret
    health := health_same hcall hs
    closed := growth_closed hcall hs hpc hret
    once := ⟨List.nodup_cons.mpr ⟨client_not_created hcall hs, hnodup⟩, hlen⟩
    rejected := growth_rejected hcall hs hpc hret
    connectFailures := growth_connectFailures hcall hs hpc hret
    failedConnections := growth_failedConnections hcall hs hpc hret
    thrown := thrown_length hcall hs hpc }

end System

/-- The upstream socket cannot be added after the client was: both are closed. -/
theorem createSession_rolls_back_unregistered : ∃ acts s moves s',
    Run (Guarded System.NotifyOk (System.Step Demo.config)) Demo.start acts s ∧
      (s.workers 0).pc = .create (.acquire 6) [] (.batch []) ∧
      (s'.workers 0).pc = .drain [] (.batch []) ∧ System.RolledBack 0 6 s moves s' ∧
      System.created 0 moves = [7] ∧ System.thrown 0 moves = [] ∧
      s'.closed 6 = 1 ∧ s'.closed 7 = 1 ∧ s'.shared.metrics.rejected = 1 := by
  obtain ⟨acts, hrun⟩ := Demo.reaches_taken.notifyOk
  have w : Watched (System.CallStep Demo.config 0 [] (.batch [])) (fun _ _ => False) Demo.taken [] Demo.taken :=
    .start
  have w := w.mine ⟨⟨_, rfl, by simp⟩, Demo.step_worker (.acquired _ 0 _ _ rfl) trivial⟩
  have w := w.mine ⟨⟨_, rfl, by simp⟩, Demo.step_worker (.socket _ _ 7 _ _ rfl) rfl⟩
  have w := w.mine ⟨⟨_, rfl, by simp⟩, Demo.step_worker (.connect _ _ _ true _ _ rfl) trivial⟩
  have w := w.mine ⟨⟨_, rfl, by simp⟩, Demo.step_worker (.construct _ _ _ _ 0 _ _ rfl) trivial⟩
  have w := w.mine ⟨⟨_, rfl, by simp⟩, Demo.step_worker (.registerClient 1 _ _ _ rfl rfl rfl) trivial⟩
  have w := w.mine ⟨⟨_, rfl, by simp⟩, Demo.step_worker (.registerUpstreamFailed 1 _ _ rfl) trivial⟩
  have w := w.mine ⟨⟨_, rfl, by simp⟩, Demo.step_worker (.unregister 1 _ _ _ rfl rfl) trivial⟩
  have w := w.mine ⟨⟨_, rfl, by simp⟩, Demo.step_worker (.clean _ _ _ _ rfl) trivial⟩
  have w := w.mine ⟨⟨_, rfl, by simp⟩, Demo.step_worker (.clean _ _ _ _ rfl) trivial⟩
  have w := w.mine ⟨⟨_, rfl, by simp⟩, Demo.step_worker (.clean _ _ _ _ rfl) trivial⟩
  have w := w.mine ⟨⟨_, rfl, by simp⟩, Demo.step_worker (.clean _ _ _ _ rfl) trivial⟩
  have w := w.mine ⟨⟨_, rfl, by simp⟩, Demo.step_worker (.cleaned _ _ rfl) trivial⟩
  have hback := (System.createSession_rolls_back Demo.config Demo.start_start hrun rfl
    (w.mono fun _ _ h => h.elim) rfl).1
  exact ⟨acts, _, _, _, hrun, rfl, rfl, hback, rfl, rfl, rfl, rfl, rfl⟩

end FluxGate
