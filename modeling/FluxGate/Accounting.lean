import FluxGate.Handover

/-!
# The accounts of the connections

Every client that the acceptor takes leaves on one of a few ways: rejected by
the acceptor or in `createSession`, published as a session, or closed unserved
by a worker that is stopping. The counters of `Metrics` are raised by different
threads at different steps, so between these steps a client is *in hand*: it is
counted as accepted but not yet on any of the ways. `Balanced` counts what is in
hand too, and holds in every state; where no thread is in the middle of an
operation that part is empty.

What no counter of the process keeps is kept in a `Ledger` beside the run.
-/

namespace FluxGate

open Lib

/-- The sessions published and closed so far, and the clients that stopping workers closed. -/
structure Ledger where
  published : Nat
  closed : Nat
  unserved : Nat
  deriving DecidableEq, Repr

/-- The operation counts its client as rejected. -/
def CleanOp.rejects : CleanOp → Bool
  | .connectFailed _ => true
  | _ => false

/-- Nothing has happened yet. -/
def Ledger.new : Ledger := ⟨0, 0, 0⟩

namespace Pc

/-- Clients taken from the queue by the thread, that no counter and no queue has. -/
def inHand : Pc → Nat
  | .create (.cleanup ops) _ _ => ops.countP CleanOp.rejects
  | .create _ _ _ => 1
  | .destroy ops _ _ => ops.countP CleanOp.rejects
  | _ => 0

/-- Sessions taken from the map that `Metrics::active_` still counts. -/
def leaving : Pc → Nat
  | .onClosed _ _ _ _ => 1
  | _ => 0

/-- The value that `onClosed` has loaded and is about to test. -/
def loaded : Pc → Option Nat
  | .onClosed current _ _ _ => current
  | _ => none

/-- The thread is not within `drainQueue`, `onClosed` or a destructor. -/
def settled : Pc → Bool
  | .drain _ _ => false
  | .create _ _ _ => false
  | .onClosed _ _ _ _ => false
  | .destroy _ _ _ => false
  | _ => true

end Pc

namespace AcceptorPc

def inHand : AcceptorPc → Nat
  | .configure _ => 1
  | .enqueueTest _ _ => 1
  | .enqueuePush _ _ => 1
  | .reject _ => 1
  | _ => 0

end AcceptorPc

namespace Worker

/-- The clients of a worker that are not yet served and not given up. -/
def clients (w : Worker) : Nat := w.queue.length + w.pc.waiting.length + w.pc.inHand

/-- The sessions of a worker that `Metrics::active_` counts. -/
def counted (w : Worker) : Nat := w.sessions.length + w.pc.leaving

/-- What the step from `w` to `w'` adds to the ledger. -/
def entry (w w' : Worker) (l : Ledger) : Ledger :=
  match w.pc, w'.pc with
  | .create (.publish _) _ _, _ => { l with published := l.published + 1 }
  | .drain (_ :: _) _, _ => if w.running then l else { l with unserved := l.unserved + 1 }
  | .finalQueue, _ => if w.queue = [] then l else { l with unserved := l.unserved + 1 }
  | .close _ _ _, .onClosed _ _ _ _ => { l with closed := l.closed + 1 }
  | _, _ => l

end Worker

/-! ## What one step of a worker does to the accounts -/

/-- What no call of `handleEvent` and no sweep changes in the metrics. -/
structure Metrics.Same (m m' : Metrics) : Prop where
  accepted : m'.accepted = m.accepted
  rejected : m'.rejected = m.rejected
  active : m'.active = m.active

theorem Metrics.Same.refl (m : Metrics) : m.Same m := ⟨rfl, rfl, rfl⟩

theorem same_stable (m : Metrics) (now : Nat) : Stable now (fun env => m.Same env.metrics) where
  close _ h := h
  readClosed _ _ h := h
  writeShutdown _ _ h := h
  connected _ h := h
  connectFailed _ h := ⟨h.accepted, h.rejected, h.active⟩
  call _ _ _ h := h
  makeWritable _ _ h := h
  recv _ side _ _ h := by cases side <;> exact ⟨h.accepted, h.rejected, h.active⟩
  send _ _ _ h := h

theorem handleEvent_same {env env' : Env} {fd : Fd} {events : EventMask} {now : Nat} {ans : Answers}
    {f : Flow} (h : env.handleEvent fd events now ans = (f, env')) :
    env.metrics.Same env'.metrics := by
  have hk := (same_stable env.metrics now).handleEvent fd events ans env (.refl _)
  rw [h] at hk
  exact hk

theorem sweepFailures_same (config : AppConfig) (now : Nat) (heap : Ref → Option ProxySession)
    (refs : List Ref) (sh : SharedState) :
    sh.metrics.Same (sweepFailures config now heap refs sh).metrics := by
  induction refs generalizing sh with
  | nil => exact .refl _
  | cons p refs ih =>
    have hp : ∀ sh₁, sh.metrics.Same sh₁.metrics →
        sh.metrics.Same (sweepFailures config now heap refs sh₁).metrics := by
      intro sh₁ h
      have hrest := ih sh₁
      exact ⟨hrest.accepted.trans h.accepted, hrest.rejected.trans h.rejected,
        hrest.active.trans h.active⟩
    rw [sweepFailures]
    apply hp
    cases heap p with
    | none => exact .refl _
    | some s =>
      dsimp only
      split
      · exact ⟨rfl, rfl, rfl⟩
      · exact .refl _

/-- A clean-up operation counts its client as rejected or leaves the accounts alone. -/
theorem CleanOp.exec_rejected (op : CleanOp) (sh : SharedState) :
    (op.exec sh).2.1.metrics.accepted = sh.metrics.accepted ∧
      (op.exec sh).2.1.metrics.active = sh.metrics.active ∧ ∀ ops : List CleanOp,
      (op.exec sh).2.1.metrics.rejected + ((op.exec sh).2.2 ++ ops).countP CleanOp.rejects =
        sh.metrics.rejected + (op :: ops).countP CleanOp.rejects := by
  cases op with
  | closeClient fd => simp [exec, rejects]
  | closeUpstream fd => simp [exec, rejects]
  | connectFailed b =>
    refine ⟨rfl, rfl, fun ops => ?_⟩
    rw [List.countP_cons_of_pos rfl]
    show sh.metrics.rejected + 1 + ops.countP rejects = _
    omega
  | releaseLoad b => simp [exec, rejects]
  | releaseTest b current =>
    simp only [exec]
    split <;> simp [SharedState.onBackend, rejects]

namespace Worker

variable {config : AppConfig} {sh sh' : SharedState} {w w' : Worker} {error : Bool} {eff : FdEffect}
  {l : Ledger}

/-- A client leaves a worker on one of the ways. -/
theorem Step.clients (hstep : Step config sh w error eff sh' w') (l : Ledger) :
    sh'.metrics.accepted = sh.metrics.accepted ∧
      sh'.metrics.rejected + (w.entry w' l).published + (w.entry w' l).unserved + w'.clients =
        sh.metrics.rejected + l.published + l.unserved + w.clients := by
  cases hstep
  case handled e events p s now ans result env hpc _ _ hp _ hcall _ =>
    have hm := handleEvent_same hcall
    refine ⟨hm.accepted, ?_⟩
    have hr : env.metrics.rejected = sh.metrics.rejected := hm.rejected
    cases result <;>
      simp [Worker.clients, entry, hpc, goto, setSession, Pc.waiting, Pc.inHand, SharedState.onMetrics, hr]
  case sweep closing refs now sweepNow hpc hnow hrefs =>
    have hm := sweepFailures_same config sweepNow w.heap refs sh
    refine ⟨hm.accepted, ?_⟩
    simp [Worker.clients, entry, hpc, Pc.waiting, Pc.inHand, hm.rejected]
  case clean op ops clients ctx hpc =>
    obtain ⟨hacc, -, hrej⟩ := op.exec_rejected sh
    have := hrej ops
    refine ⟨hacc, ?_⟩
    simp only [Worker.clients, entry, hpc, goto, Pc.waiting, Pc.inHand]
    omega
  case destroy op ops refs ctx hpc =>
    obtain ⟨hacc, -, hrej⟩ := op.exec_rejected sh
    have := hrej ops
    refine ⟨hacc, ?_⟩
    simp only [Worker.clients, entry, hpc, goto, Pc.waiting, Pc.inHand]
    omega
  case onClosedSub current todo refs ctx hpc =>
    constructor
    · split <;> rfl
    · split <;> simp [Worker.clients, entry, hpc, goto, Pc.waiting, Pc.inHand, SharedState.onMetrics,
        Metrics.onClosedSub]
  case construct c b u connecting now clients ctx hpc =>
    constructor
    · split <;> rfl
    · split <;> simp [Worker.clients, entry, hpc, goto, Worker.construct, Pc.waiting, Pc.inHand,
        SharedState.onBackend]
  case drained ctx hpc =>
    refine ⟨rfl, ?_⟩
    cases ctx <;> simp [Worker.clients, entry, hpc, goto, DrainCtx.next, Pc.waiting, Pc.inHand]
  case allClosed refs ctx hpc =>
    refine ⟨rfl, ?_⟩
    cases ctx <;> simp [Worker.clients, entry, hpc, goto, CloseCtx.closed, Pc.waiting, Pc.inHand]
  case dropped ctx hpc =>
    refine ⟨rfl, ?_⟩
    cases ctx <;> simp [Worker.clients, entry, hpc, goto, CloseCtx.dropped, Pc.waiting, Pc.inHand]
  all_goals
    refine ⟨rfl, ?_⟩
    simp_all [Worker.clients, entry, goto, Pc.waiting, Pc.inHand, CleanOp.rejects, SharedState.onMetrics,
      Metrics.onRejected, Metrics.onOpened, SharedState.onBackend, setInterest, setSession, forget, free,
      Worker.publish, Worker.unpublish, destructor]
  all_goals first | rfl | omega

/-- What a step does to the sessions that are published, and to those that are counted. -/
structure Census (sh sh' : SharedState) (w w' : Worker) (l : Ledger) : Prop where
  sessions : (w.entry w' l).published + l.closed + w.sessions.length =
    l.published + (w.entry w' l).closed + w'.sessions.length
  active : sh'.metrics.active + w.counted = sh.metrics.active + w'.counted
  loaded : ∀ c, w'.pc.loaded = some c → 0 < c

/-- The step has nothing to do with publishing or closing. -/
theorem census_same (hactive : sh'.metrics.active = sh.metrics.active)
    (hsessions : w'.sessions = w.sessions) (hentry : ∃ k, w.entry w' l = { l with unserved := k })
    (hleaving : w.pc.leaving = 0) (hleaving' : w'.pc.leaving = 0) : Census sh sh' w w' l := by
  obtain ⟨k, hk⟩ := hentry
  constructor
  · rw [hsessions, hk]
  · rw [counted, counted, hsessions, hleaving, hleaving', hactive]
  · intro c hc
    generalize w'.pc = pc at hc hleaving'
    cases pc <;> cases hc
    cases hleaving'

/-- A session is published: its entry is new, and it is counted at once. -/
theorem census_publish {p : Ref} {s : ProxySession} {clients : List Fd} {ctx : DrainCtx}
    (hi : w.Indexed) (hpc : w.pc = .create (.publish p) clients ctx) (hp : w.heap p = some s) :
    Census sh (sh.onMetrics Metrics.onOpened) w ((w.publish p s).goto (.drain clients ctx)) l := by
  have hnew : ¬ w.published p := hi.building p (by rw [hpc]; exact List.mem_singleton_self p)
  have hlen : ((w.publish p s).goto (.drain clients ctx)).sessions.length = w.sessions.length + 1 :=
    congrArg List.length (hi.publish_sessions hp hnew)
  have hentry : w.entry ((w.publish p s).goto (.drain clients ctx)) l =
      { l with published := l.published + 1 } := by
    rw [entry, hpc]
  constructor
  · rw [hlen, hentry]
    show l.published + 1 + l.closed + _ = l.published + l.closed + _
    omega
  · rw [counted, counted, hlen, hpc]
    show sh.metrics.active + 1 + (_ + 0) = sh.metrics.active + (_ + 0)
    omega
  · intro c hc
    cases hc

/-- A session is taken from the maps: until `onClosed` it is still counted. -/
theorem census_close {p : Ref} {s : ProxySession} {todo refs : List Ref} {ctx : CloseCtx}
    (hi : w.Indexed) (hpc : w.pc = .close (p :: todo) refs ctx) (hp : w.heap p = some s)
    (hfound : s.id ∈ w.sessions.map Prod.fst) :
    Census sh sh w ((w.unpublish s).goto (.onClosed none todo refs ctx)) l := by
  have hpub : w.published p := by
    rw [hi.named p s hp, hi.published_iff] at hfound
    exact hfound
  have hlen : ((w.unpublish s).goto (.onClosed none todo refs ctx)).sessions.length =
      w.sessions.length - 1 := hi.unpublish_length hp hpub
  have hsome : 0 < w.sessions.length := by
    rw [← List.length_map Prod.snd]
    exact List.length_pos_of_mem hpub
  have hentry : w.entry ((w.unpublish s).goto (.onClosed none todo refs ctx)) l =
      { l with closed := l.closed + 1 } := by
    rw [entry, hpc]
    rfl
  constructor
  · rw [hlen, hentry]
    show l.published + l.closed + _ = l.published + (l.closed + 1) + _
    omega
  · rw [counted, counted, hlen, hpc]
    show sh.metrics.active + (_ + 0) = sh.metrics.active + (_ + 1)
    omega
  · intro c hc
    cases hc

/-- The guard of `onClosed` sees the session that is being closed, which is
still counted; what other threads do in between leaves it counted. -/
theorem census_onClosed {current : Nat} {todo refs : List Ref} {ctx : CloseCtx}
    (hpc : w.pc = .onClosed (some current) todo refs ctx) (hpos : 0 < current)
    (hcounted : w.counted ≤ sh.metrics.active) :
    Census sh (if 0 < current then sh.onMetrics Metrics.onClosedSub else sh) w
      (w.goto (.close todo refs ctx)) l := by
  have hentry : w.entry (w.goto (.close todo refs ctx)) l = l := by
    rw [entry, hpc]
  have hc : w.counted = w.sessions.length + 1 := by
    rw [counted, hpc]
    rfl
  constructor
  · rw [hentry]
    rfl
  · rw [if_pos hpos, hc]
    show fetchSub sh.metrics.active + _ = sh.metrics.active + (w.sessions.length + 0)
    rw [fetchSub_of_pos (by omega)]
    omega
  · intro c hc
    cases hc

theorem Step.census (hstep : Step config sh w error eff sh' w') (l : Ledger) (hi : w.Indexed)
    (hpos : ∀ c, w.pc.loaded = some c → 0 < c) (hcounted : w.counted ≤ sh.metrics.active) :
    Census sh sh' w w' l := by
  cases hstep
  case handled e events p s now ans result env hpc _ _ hp _ hcall _ =>
    have hm := handleEvent_same hcall
    cases result <;> exact census_same hm.active rfl ⟨l.unserved, by rw [entry, hpc]⟩
      (by rw [hpc]; rfl) rfl
  case sweep closing refs now sweepNow hpc hnow hrefs =>
    have hm := sweepFailures_same config sweepNow w.heap refs sh
    exact census_same hm.active rfl ⟨l.unserved, by rw [entry, hpc]⟩ (by rw [hpc]; rfl) rfl
  case clean op ops clients ctx hpc =>
    exact census_same (op.exec_rejected sh).2.1 rfl ⟨l.unserved, by rw [entry, hpc]⟩
      (by rw [hpc]; rfl) rfl
  case destroy op ops refs ctx hpc =>
    exact census_same (op.exec_rejected sh).2.1 rfl ⟨l.unserved, by rw [entry, hpc]⟩
      (by rw [hpc]; rfl) rfl
  case publish p s clients ctx hpc hp => exact census_publish hi hpc hp
  case closeSession p s todo refs ctx hpc hp hfound => exact census_close hi hpc hp hfound
  case onClosedLoad todo refs ctx hpc =>
    have hc : w.counted = w.sessions.length + 1 := by
      rw [counted, hpc]
      rfl
    refine ⟨by rw [entry, hpc]; rfl, by rw [counted, counted, hpc]; rfl, fun c hload => ?_⟩
    obtain rfl := Option.some.inj hload
    omega
  case onClosedSub current todo refs ctx hpc =>
    exact census_onClosed hpc (hpos current (by rw [hpc]; rfl)) hcounted
  case construct c b u connecting now clients ctx hpc =>
    exact census_same (by split <;> rfl) rfl ⟨l.unserved, by rw [entry, hpc]⟩ (by rw [hpc]; rfl) rfl
  case drained ctx hpc =>
    cases ctx <;> exact census_same rfl rfl ⟨l.unserved, by rw [entry, hpc]⟩ (by rw [hpc]; rfl) rfl
  case allClosed refs ctx hpc =>
    cases ctx <;> exact census_same rfl rfl ⟨l.unserved, by rw [entry, hpc]; rfl⟩ (by rw [hpc]; rfl) rfl
  case dropped ctx hpc =>
    cases ctx <;> exact census_same rfl rfl ⟨l.unserved, by rw [entry, hpc]⟩ (by rw [hpc]; rfl) rfl
  case refuse c clients ctx hpc hrun =>
    exact census_same rfl rfl ⟨l.unserved + 1, by rw [entry, hpc, hrun]; rfl⟩ (by rw [hpc]; rfl) rfl
  case take c clients ctx hpc hrun =>
    exact census_same rfl rfl ⟨l.unserved, by rw [entry, hpc, hrun]; rfl⟩ (by rw [hpc]; rfl) rfl
  case closeQueued c queue hpc hq =>
    refine census_same rfl rfl ⟨l.unserved + 1, ?_⟩ (by rw [hpc]; rfl) (by rw [hpc]; rfl)
    simp [entry, hpc, hq]
  case closeMissing p s todo refs ctx hpc hp hfound =>
    exact census_same rfl rfl ⟨l.unserved, by rw [entry, hpc]; rfl⟩ (by rw [hpc]; rfl) rfl
  case queueEmpty hpc hq =>
    exact census_same rfl rfl ⟨l.unserved, by rw [entry, hpc, if_pos hq]⟩ (by rw [hpc]; rfl) rfl
  case readWake events hpc hcount =>
    exact census_same rfl rfl ⟨l.unserved, by rw [entry, hpc]⟩ (by rw [hpc]; rfl) (by rw [hpc]; rfl)
  all_goals
    refine census_same rfl rfl ⟨l.unserved, ?_⟩ ?_ rfl
    · rw [entry, ‹w.pc = _›]
    · rw [‹w.pc = _›]
      rfl

end Worker

/-! ## The process -/

namespace System

variable {n : Nat} {config : AppConfig} {s s' : System n} {l : Ledger}

/-- The ledger after a step: only workers write to it. -/
def record (s : System n) (act : SystemAct n) (s' : System n) (l : Ledger) : Ledger :=
  match act with
  | .worker i _ => (s.workers i).entry (s'.workers i) l
  | _ => l

/-- Steps of the process in which eventfd writes succeed or fail with `EAGAIN`,
with the ledger beside the state. -/
def AccountedStep (config : AppConfig) :
    Ledger × System n → SystemAct n → Ledger × System n → Prop :=
  Recording (Guarded NotifyOk (Step config)) fun s act s' l l' => l' = s.record act s' l

/-- Every client accepted is on one of the ways or in hand, and every session
published is closed, in the map or on its way out of the count. -/
structure Balanced (l : Ledger) (s : System n) : Prop where
  clients : s.shared.metrics.accepted = s.shared.metrics.rejected + l.published + l.unserved +
    s.acceptor.inHand + ∑ i, (s.workers i).clients
  sessions : l.published = l.closed + ∑ i, (s.workers i).sessions.length
  active : s.shared.metrics.active = ∑ i, (s.workers i).counted
  loaded : ∀ i c, (s.workers i).pc.loaded = some c → 0 < c

theorem Balanced.worker (h : s.Balanced l) {i : Fin n} {error : Bool} {eff : FdEffect}
    {sh : SharedState} {w : Worker} (hi : (s.workers i).Indexed)
    (hstep : Worker.Step config s.shared (s.workers i) error eff sh w) :
    ({ s.setWorker i w with shared := sh }.apply eff).Balanced ((s.workers i).entry w l) := by
  have hcounted : (s.workers i).counted ≤ s.shared.metrics.active := by
    rw [h.active]
    exact le_total (Finset.mem_univ i) fun i => (s.workers i).counted
  obtain ⟨hacc, hclients⟩ := hstep.clients l
  have hcensus := hstep.census l hi (h.loaded i) hcounted
  have hsh : ({ s.setWorker i w with shared := sh }.apply eff).shared = sh := shared_apply _ eff
  have hacceptor : ({ s.setWorker i w with shared := sh }.apply eff).acceptor = s.acceptor := by
    cases eff <;> rfl
  constructor
  · have htotal := total_apply (f := Worker.clients) (fun _ _ => rfl) s eff i w sh
    have := h.clients
    rw [hsh, hacceptor]
    omega
  · have htotal := total_apply (f := fun w => w.sessions.length) (fun _ _ => rfl) s eff i w sh
    have := h.sessions
    have := hcensus.sessions
    omega
  · have htotal := total_apply (f := Worker.counted) (fun _ _ => rfl) s eff i w sh
    have := h.active
    have := hcensus.active
    rw [hsh]
    omega
  · intro j c hload
    obtain ⟨e, hj⟩ := s.workers_apply eff i w sh j
    rw [hj] at hload
    split at hload
    · exact hcensus.loaded c hload
    · exact h.loaded j c hload

/-- The acceptor moves on, alone. -/
theorem Balanced.still (h : s.Balanced l)
    (hw : ∀ i, ∃ e, s'.workers i = { s.workers i with epoll := e })
    (hactive : s'.shared.metrics.active = s.shared.metrics.active)
    (hcount : s'.shared.metrics.accepted + s.shared.metrics.rejected + s.acceptor.inHand =
      s.shared.metrics.accepted + s'.shared.metrics.rejected + s'.acceptor.inHand) :
    s'.Balanced l := by
  have htotal : ∀ {f : Worker → Nat}, (∀ w e, f { w with epoll := e } = f w) →
      ∑ i, f (s'.workers i) = ∑ i, f (s.workers i) := by
    intro f hf
    apply Finset.sum_congr rfl
    intro i _
    obtain ⟨e, hi⟩ := hw i
    rw [hi, hf]
  constructor
  · have := h.clients
    rw [htotal (f := Worker.clients) fun _ _ => rfl]
    omega
  · rw [htotal (f := fun w => w.sessions.length) fun _ _ => rfl]
    exact h.sessions
  · rw [htotal (f := Worker.counted) fun _ _ => rfl, hactive]
    exact h.active
  · intro i c hload
    obtain ⟨e, hi⟩ := hw i
    rw [hi] at hload
    exact h.loaded i c hload

theorem Balanced.acceptor (h : s.Balanced l) {pc : AcceptorPc} (hpc : pc.inHand = s.acceptor.inHand) :
    ({ s with acceptor := pc } : System n).Balanced l :=
  h.still (fun i => ⟨(s.workers i).epoll, rfl⟩) rfl (by rw [hpc])

/-- The acceptor changes a worker, and may put its client into the queue. -/
theorem Balanced.touch (h : s.Balanced l) {i : Fin n} {queue enqueued : List Fd} {running : Bool}
    {count : Nat} {pc : AcceptorPc}
    (hqueue : queue.length + pc.inHand = (s.workers i).queue.length + s.acceptor.inHand) :
    ({ s.setWorker i { s.workers i with
        queue := queue, enqueued := enqueued, running := running, wakeCount := count } with
      acceptor := pc } : System n).Balanced l := by
  have htotal := fun f : Worker → Nat => total_update (Finset.mem_univ i) f s.workers
    { s.workers i with queue := queue, enqueued := enqueued, running := running, wakeCount := count }
  constructor
  · have hc := h.clients
    have ht := htotal Worker.clients
    simp only [Worker.clients] at hc ht
    simp only [setWorker, Worker.clients]
    omega
  · have hs := h.sessions
    have ht := htotal fun w => w.sessions.length
    dsimp only at ht
    simp only [setWorker]
    omega
  · have ha := h.active
    have ht := htotal Worker.counted
    simp only [Worker.counted] at ha ht
    simp only [setWorker, Worker.counted]
    omega
  · refine forall_setWorker (P := fun _ w => ∀ c, w.pc.loaded = some c → 0 < c) ?_ ?_
    · exact fun j _ => h.loaded j
    · exact h.loaded i

theorem Balanced.step {act : SystemAct n} (h : s.Balanced l) (hc : s.Consistent config)
    (hact : NotifyOk s act) (hstep : Step config s act s') : s'.Balanced (s.record act s' l) := by
  cases hstep with
  | @worker i error eff sh w hstep hfd =>
    have hentry : s.record (.worker i error) ({ s.setWorker i w with shared := sh }.apply eff) l =
        (s.workers i).entry w l := by
      obtain ⟨e, hi⟩ := s.workers_apply eff i w sh i
      rw [if_pos rfl] at hi
      simp only [record, hi, Worker.entry]
    rw [hentry]
    exact h.worker (hc.workers i).indexed hstep
  | accept fd hpc hfd =>
    refine h.still (fun i => ⟨(s.workers i).epoll, rfl⟩) rfl ?_
    rw [hpc]
    show s.shared.metrics.accepted + 1 + s.shared.metrics.rejected + 0 =
      s.shared.metrics.accepted + s.shared.metrics.rejected + 1
    omega
  | configured fd i hpc => exact h.acceptor (by rw [hpc]; rfl)
  | configureFailed fd hpc => exact h.acceptor (by rw [hpc]; rfl)
  | notRunning fd i hpc hrun => exact h.acceptor (by rw [hpc]; rfl)
  | running fd i hpc hrun => exact h.acceptor (by rw [hpc]; rfl)
  | queueFull fd i hpc hlen => exact h.acceptor (by rw [hpc]; rfl)
  | push fd i hpc hlen =>
    refine h.touch ?_
    rw [hpc, List.length_append]
    rfl
  | notified fd i hpc => exact h.touch (by rw [hpc]; rfl)
  | notifyAgain fd i hpc hcount => exact h.acceptor (by rw [hpc]; rfl)
  | notifyFailed fd i hpc => exact absurd rfl hact
  | reject fd hpc =>
    refine h.still (fun i => ⟨((s.workers i).forget fd).epoll, rfl⟩) rfl ?_
    rw [hpc]
    show s.shared.metrics.accepted + s.shared.metrics.rejected + 1 =
      s.shared.metrics.accepted + (s.shared.metrics.rejected + 1) + 0
    omega
  | shutdown hpc => exact h.acceptor (by rw [hpc]; rfl)
  | stop i hpc hrun => exact h.touch (by rw [hpc]; rfl)
  | stoppedBefore i hpc hrun => exact h.acceptor (by rw [hpc]; rfl)
  | stopNotified i hpc => exact h.touch (by rw [hpc]; rfl)
  | stopNotifyIgnored i hpc => exact h.acceptor (by rw [hpc]; rfl)
  | join hpc hstopped => exact h.acceptor (by rw [hpc]; rfl)
  | othersOpen fd hfd => exact h.still (fun i => ⟨(s.workers i).epoll, rfl⟩) rfl rfl
  | othersClose fd hfd => exact h.still (fun i => ⟨((s.workers i).forget fd).epoll, rfl⟩) rfl rfl
  | setHealthy b value => exact h.still (fun i => ⟨(s.workers i).epoll, rfl⟩) rfl rfl

theorem Start.balanced (h : Start s) (hm : s.shared.metrics = .new) : s.Balanced .new := by
  have hnew : ∀ i, (s.workers i).clients = 0 ∧ (s.workers i).sessions.length = 0 ∧
      (s.workers i).counted = 0 ∧ (s.workers i).pc.loaded = none := by
    intro i
    obtain ⟨wakeFd, epollFd, hw⟩ := h.workers i
    rw [hw]
    exact ⟨rfl, rfl, rfl, rfl⟩
  constructor
  · rw [hm, h.acceptor, Finset.sum_eq_zero fun i _ => (hnew i).1]
    rfl
  · rw [Finset.sum_eq_zero fun i _ => (hnew i).2.1]
    rfl
  · rw [hm, Finset.sum_eq_zero fun i _ => (hnew i).2.2.1]
    rfl
  · intro i c hload
    rw [(hnew i).2.2.2] at hload
    cases hload

/-- Both invariants, over a run with its ledger. -/
theorem run_balance {s₀ : System n} {acts : List (SystemAct n)} (hstart : Start s₀)
    (hm : s₀.shared.metrics = .new)
    (hrun : Run (AccountedStep config) (.new, s₀) acts (l, s)) : s.Consistent config ∧ s.Balanced l := by
  refine hrun.invariant (I := fun x => x.2.Consistent config ∧ x.2.Balanced x.1) ?_
    ⟨hstart.consistent config, hstart.balanced hm⟩
  rintro x act y ⟨hc, hb⟩ ⟨⟨hact, hstep⟩, hl⟩
  rw [hl]
  exact ⟨hc.step hact hstep, hb.step hc hact hstep⟩

/-- Every run has a ledger. -/
theorem exists_ledger {s₀ : System n} {acts : List (SystemAct n)}
    (hrun : Run (Guarded NotifyOk (Step config)) s₀ acts s) (l₀ : Ledger) :
    ∃ l, Run (AccountedStep config) (l₀, s₀) acts (l, s) := by
  unfold AccountedStep
  apply hrun.exists_recording
  intro s act s' l _
  exact ⟨s.record act s' l, rfl⟩

/-- A worker between its operations has its clients in the queue and its sessions in the map. -/
theorem settled_counts {w : Worker} (h : w.pc.settled = true) :
    w.clients = w.queue.length ∧ w.counted = w.sessions.length := by
  rw [Worker.clients, Worker.counted]
  generalize w.pc = pc at h
  cases pc <;> first | exact ⟨rfl, rfl⟩ | cases h

end System

/-- **Every client is accounted for.** In every run, with any interleaving of
the acceptor and the workers, and whenever none of them is in the middle of
handing over, creating, closing or destroying: the clients accepted are those
rejected, published, waiting and closed unserved, and `active_` is the number
of sessions that the workers have. A worker inside `onClosed` has always loaded
a positive value, so the guard there lets every decrement pass. -/
theorem run_accounted {n : Nat} (config : AppConfig) {s₀ s : System n} {acts : List (SystemAct n)}
    {l : Ledger} (hstart : System.Start s₀) (hm : s₀.shared.metrics = .new)
    (hrun : Run (System.AccountedStep config) (.new, s₀) acts (l, s)) :
    (s.acceptor.inHand = 0 → (∀ i, (s.workers i).pc.settled = true) →
      s.shared.metrics.accepted = s.shared.metrics.rejected + l.published +
        (∑ i, (s.workers i).queue.length) + l.unserved ∧
      s.shared.metrics.active = ∑ i, (s.workers i).activeSessions ∧
      s.shared.metrics.active + l.closed = l.published) ∧
    ∀ i current todo refs ctx, (s.workers i).pc = .onClosed (some current) todo refs ctx →
      0 < current ∧ 0 < s.shared.metrics.active := by
  obtain ⟨hc, hb⟩ := System.run_balance hstart hm hrun
  constructor
  · intro hacceptor hsettled
    have hclients : ∑ i, (s.workers i).clients = ∑ i, (s.workers i).queue.length :=
      Finset.sum_congr rfl fun i _ => (System.settled_counts (hsettled i)).1
    have hcounted : ∑ i, (s.workers i).counted = ∑ i, (s.workers i).sessions.length :=
      Finset.sum_congr rfl fun i _ => (System.settled_counts (hsettled i)).2
    have hactive : ∑ i, (s.workers i).activeSessions = ∑ i, (s.workers i).sessions.length :=
      Finset.sum_congr rfl fun i _ => (hc.workers i).indexed.active
    have h₁ := hb.clients
    have h₂ := hb.sessions
    have h₃ := hb.active
    refine ⟨?_, ?_, ?_⟩ <;> omega
  · intro i current todo refs ctx hpc
    have hpos : 0 < current := hb.loaded i current (by rw [hpc]; rfl)
    have hone : (s.workers i).counted = (s.workers i).sessions.length + 1 := by
      rw [Worker.counted, hpc]
      rfl
    have hle := le_total (Finset.mem_univ i) fun i => (s.workers i).counted
    have hactive := hb.active
    exact ⟨hpos, by omega⟩

/-- The small process with one client. -/
theorem run_accounted_serving : ∃ acts l,
    Run (System.AccountedStep Demo.config) (.new, Demo.start) acts (l, Demo.serving) ∧
      Demo.serving.shared.metrics.accepted = 1 ∧ Demo.serving.shared.metrics.active = 1 ∧
      1 + l.closed = l.published := by
  obtain ⟨acts, hrun⟩ := Demo.reaches_serving.notifyOk
  obtain ⟨l, hrec⟩ := System.exists_ledger hrun .new
  exact ⟨acts, l, hrec, rfl, rfl,
    ((run_accounted Demo.config Demo.start_start rfl hrec).1 rfl fun _ => rfl).2.2⟩

end FluxGate
