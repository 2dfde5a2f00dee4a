import FluxGate.Outcomes
import Mathlib.Algebra.BigOperators.Finprod

/-!
# The outcomes and the counters

The counters of a backend are the sums of what its leases contribute, over
the dockets of all workers. A failure thrown in `createSession` is filed
when it is thrown and counted a little later, so while a clean-up is in
progress its failure is still to come. `connectFailures_` is raised
together with a counter of one backend, and so stays the sum of these.
-/

namespace FluxGate

open Lib

namespace Worker

variable {config : AppConfig} {sh sh' : SharedState} {w w' : Worker} {error : Bool} {eff : FdEffect}
  {d d' : Docket} {p : Ref} {s : ProxySession}

/-- A lease without two entries has at most one outcome. -/
theorem Docketed.outcomesOf_le (h : w.Docketed d) (k : Nat) : (d.outcomesOf k).length ≤ 1 := by
  have hcount := List.nodup_iff_count_le_one.mp h.once k
  rw [Docket.settled, List.count, List.countP_map, List.countP_eq_length_filter] at hcount
  rw [Docket.outcomesOf, List.length_map]
  exact hcount

/-! ## What a step adds -/

/-- The counters move with the docket. -/
structure Counts (sh sh' : SharedState) (w w' : Worker) (d d' : Docket) (b : Nat) : Prop where
  succeeded : (sh'.backends b).totalConnections + d.successes b =
    (sh.backends b).totalConnections + d'.successes b
  failing : failing sh' w' b + d.failures b = failing sh w b + d'.failures b

theorem SameCounts.counts (h : SameCounts sh sh' w w') {b : Nat} (hs : d'.successes b = d.successes b)
    (hf : d'.failures b = d.failures b) : Counts sh sh' w w' d d' b where
  succeeded := by rw [h.succeeded, hs]
  failing := by rw [h.failing, hf]

/-- One outcome is filed for a lease of `b₀`, and one counter of `b₀` is raised. -/
theorem counts_single {b₀ k : Nat} {o : Outcome} (hlease : d.leases[k]? = some b₀)
    (hs : ∀ b, (sh'.backends b).totalConnections =
      (sh.backends b).totalConnections + if b = b₀ ∧ o.success = true then 1 else 0)
    (hf : ∀ b, failing sh' w' b = failing sh w b + if b = b₀ ∧ o.success = false then 1 else 0)
    (b : Nat) : Counts sh sh' w w' d (d.file [(k, o)]) b := by
  have hb : decide (d.leases[k]? = some b) = decide (b = b₀) := by
    rw [hlease]
    simp only [Option.some.injEq, eq_comm]
  constructor
  · rw [d.successes_file, hs, List.countP_singleton, hb]
    simp only [Bool.and_eq_true, decide_eq_true_eq]
    omega
  · rw [d.failures_file, hf, List.countP_singleton, hb]
    simp only [Bool.and_eq_true, decide_eq_true_eq, Bool.not_eq_true']
    omega

/-- `createSession` gave up a connect, and its clean-up will count it. -/
theorem counts_threw {b₀ : Nat} (hin : w.InHand d b₀) (hops : w.pc.ops = [])
    (hops' : ∀ b, w'.pc.ops.count (.connectFailed b) = if b₀ = b then 1 else 0) (b : Nat) :
    Counts sh sh w w' d (d.file [(d.last, .threw)]) b := by
  refine counts_single hin.getElem_last (fun b => ?_) (fun b => ?_) b
  · simp [Outcome.success]
  · rw [failing, failing, hops, hops']
    simp [Outcome.success, eq_comm]

theorem counts_built {c : Fd} {b₀ : Nat} {u : Fd} {con : Bool} {size now : Nat} {clients : List Fd}
    {ctx : DrainCtx} (hin : w.InHand d b₀) (hpc : w.pc = .create (.construct c b₀ u con) clients ctx)
    (b : Nat) :
    Counts sh (if con then sh else sh.onBackend b₀ Backend.recordConnectSuccess) w
      ((w.construct c u con b₀ size now).goto
        (.create (.registerClient w.nextSessionId) clients ctx)) d
      ((d.build w.nextSessionId).file (if con then [] else [(d.last, .atOnce)])) b := by
  cases con with
  | true =>
    rw [if_pos rfl, if_pos rfl, Docket.file_nil]
    refine SameCounts.counts (sameCounts (fun _ => ⟨rfl, rfl⟩) ?_ ?_) rfl rfl
    · rw [hpc]
      exact fun _ => rfl
    · exact fun _ => rfl
  | false =>
    rw [if_neg Bool.false_ne_true, if_neg Bool.false_ne_true]
    have hlease : (d.build w.nextSessionId).leases[d.last]? = some b₀ := hin.getElem_last
    have hcounts : Counts sh (sh.onBackend b₀ Backend.recordConnectSuccess) w
        ((w.construct c u false b₀ size now).goto
          (.create (.registerClient w.nextSessionId) clients ctx)) (d.build w.nextSessionId)
        ((d.build w.nextSessionId).file [(d.last, .atOnce)]) b := by
      refine counts_single hlease (fun b => ?_) (fun b => ?_) b
      · by_cases hb : b = b₀
        · subst hb
          simp [SharedState.onBackend, Backend.recordConnectSuccess, Outcome.success]
        · simp [SharedState.onBackend, hb]
      · rw [failing, failing, hpc]
        by_cases hb : b = b₀
        · subst hb
          simp [SharedState.onBackend, Backend.recordConnectSuccess, Outcome.success, goto, Pc.ops]
        · simp [SharedState.onBackend, hb, goto, Pc.ops]
    exact ⟨hcounts.succeeded, hcounts.failing⟩

/-- `finishUpstreamConnect` counts what it finds. -/
theorem counts_found {e : Event} {o : Outcome} (hlease : d.leases[d.owner p]? = some s.backend)
    (hlive : s.closing = false) (hask : Env.Asks s e.fd e.mask) (hfinds : Finds sh sh' w' e p s o)
    (hops : w.pc.ops = []) (hops' : w'.pc.ops = []) (b : Nat) :
    Counts sh sh' w w' d (d.file [(d.owner p, o)]) b := by
  obtain ⟨now, ans, result, env, r, hcall, hans, ho, -, hsh⟩ := hfinds
  obtain ⟨r', hans', hok, hfail⟩ := handleEvent_asked hlive hask hcall
  obtain rfl : r = r' := Option.some.inj (hans.symm.trans hans')
  have hother : ∀ b, b ≠ s.backend → sh'.backends b = sh.backends b := by
    intro b hb
    rw [hsh]
    exact Function.update_of_ne hb ..
  have hself : sh'.backends s.backend = env.backend := by
    rw [hsh]
    exact Function.update_self ..
  -- what `SO_ERROR` decides, for the backend of the session
  have hcounted : env.backend.totalConnections =
        (sh.backends s.backend).totalConnections + (if o.success = true then 1 else 0) ∧
      env.backend.failedConnections =
        (sh.backends s.backend).failedConnections + (if o.success = false then 1 else 0) := by
    by_cases hr : r = .ok none
    · rw [if_pos hr] at ho
      rw [ho]
      exact ⟨congrArg Tally.succeeded (hok hr), congrArg Tally.failed (hok hr)⟩
    · rw [if_neg hr] at ho
      rw [ho]
      exact ⟨congrArg Tally.succeeded (hfail hr).2, congrArg Tally.failed (hfail hr).2⟩
  refine counts_single hlease (fun b => ?_) (fun b => ?_) b
  · by_cases hb : b = s.backend
    · rw [hb, hself, hcounted.1]
      simp
    · rw [hother b hb]
      simp [hb]
  · rw [failing, failing, hops, hops']
    by_cases hb : b = s.backend
    · rw [hb, hself, hcounted.2]
      simp
    · rw [hother b hb]
      simp [hb]

/-- The sweep counts a failure for each lease it files. -/
theorem sweepFailures_counts (config : AppConfig) (now : Nat) (w : Worker) (d : Docket) (refs : List Ref)
    (hlease : ∀ p ∈ refs, ∃ s, w.heap p = some s ∧ d.leases[d.owner p]? = some s.backend)
    (sh : SharedState) (b : Nat) :
    ((sweepFailures config now w.heap refs sh).backends b).totalConnections =
        (sh.backends b).totalConnections ∧
      ((sweepFailures config now w.heap refs sh).backends b).failedConnections =
        (sh.backends b).failedConnections + ((refs.filter (w.timedOut config now)).map
          fun p => (d.owner p, Outcome.timedOut)).countP
            fun e => decide (d.leases[e.1]? = some b) && !e.2.success := by
  induction refs generalizing sh with
  | nil => simp [sweepFailures]
  | cons p refs ih =>
    obtain ⟨s, hp, hl⟩ := hlease p List.mem_cons_self
    have hrest := ih (fun q hq => hlease q (List.mem_cons_of_mem p hq))
    by_cases ht : s.connectTimedOut config.connectTimeoutMs now = true
    · have htimed : w.timedOut config now p = true := by simp [timedOut, hp, ht]
      obtain ⟨hs, hf⟩ := hrest (sh.connectFailed s.backend)
      simp only [sweepFailures, hp, if_pos ht]
      rw [hs, hf, List.filter_cons_of_pos htimed, List.map_cons, List.countP_cons, hl]
      by_cases hb : b = s.backend
      · subst hb
        simp [SharedState.connectFailed, SharedState.onBackend, SharedState.onMetrics,
          Backend.recordConnectFailure, Outcome.success]
        omega
      · have hne : ¬ s.backend = b := fun h => hb h.symm
        simp [SharedState.connectFailed, SharedState.onBackend, SharedState.onMetrics, hb, hne]
    · have htimed : ¬ w.timedOut config now p = true := by simpa [timedOut, hp] using ht
      simp only [sweepFailures, hp, if_neg ht]
      rw [List.filter_cons_of_neg htimed]
      exact hrest sh

theorem Step.counts (hd : w.Docketed d) (hi : w.Indexed) (hstep : Step config sh w error eff sh' w')
    (hfiles : Files config sh w sh' w' d d') (b : Nat) : Counts sh sh' w w' d d' b := by
  cases hstep.filed hfiles with
  | same hnew hjob hcounts => exact hcounts.counts rfl rfl
  | @acquired c b' clients ctx hpc hpc' hcounts =>
    exact hcounts.counts (Docket.sum_acquire hd.known _ b' b) (Docket.sum_acquire hd.known _ b' b)
  | @threw b' hjob hjob' hnew hsh hops hops' =>
    subst hsh
    exact counts_threw (hd.inHand b' hjob) hops hops' b
  | @built c b' u con now clients ctx hpc hw hsh =>
    subst hw hsh
    exact counts_built (hd.inHand b' (by rw [hpc]; rfl)) hpc b
  | @found e events p s o hpc hasks hfinds hops hjob =>
    exact counts_found (hd.backend p s hasks.delivers.object) hasks.delivers.notClosing hasks.asks hfinds
      (by rw [hpc]; rfl) hops b
  | @swept closing refs now hpc hpc' hrefs hsh =>
    subst hsh
    have hlease : ∀ p ∈ refs, ∃ s, w.heap p = some s ∧ d.leases[d.owner p]? = some s.backend := by
      intro p hp
      have hpub : w.published p := (List.mem_filter.mp (hrefs.mem_iff.mp hp)).1
      obtain ⟨s, hheap⟩ := Option.ne_none_iff_exists'.mp (hi.alive p hpub)
      exact ⟨s, hheap, hd.backend p s hheap⟩
    obtain ⟨hs, hf⟩ := sweepFailures_counts config now w d refs hlease sh b
    constructor
    · rw [hs, d.successes_file, List.countP_map]
      simp [Outcome.success, Function.comp_def]
    · rw [d.failures_file, failing, failing, hf, hpc, hpc']
      simp only [Pc.ops, List.count_nil]
      omega

end Worker

/-! ## The failures of all backends -/

/-- `connectFailures_` is the sum over the backends; all but finitely many have no failure. -/
def SharedState.Tallied (sh : SharedState) : Prop :=
  ∃ S : Finset Nat, (∀ b, b ∉ S → (sh.backends b).failedConnections = 0) ∧
    sh.metrics.connectFailures = ∑ b ∈ S, (sh.backends b).failedConnections

namespace SharedState

variable {sh sh' : SharedState}

theorem Tallied.same (h : sh.Tallied)
    (hf : ∀ b, (sh'.backends b).failedConnections = (sh.backends b).failedConnections)
    (hc : sh'.metrics.connectFailures = sh.metrics.connectFailures) : sh'.Tallied := by
  obtain ⟨S, hzero, hsum⟩ := h
  refine ⟨S, fun b hb => (hf b).trans (hzero b hb), ?_⟩
  rw [hc, hsum]
  exact Finset.sum_congr rfl fun b _ => (hf b).symm

/-- One backend and the metrics change by the same number of failures. -/
theorem Tallied.change (h : sh.Tallied) {b : Nat} {f : Backend → Backend} {m : Metrics → Metrics}
    (hfm : (f (sh.backends b)).failedConnections + sh.metrics.connectFailures =
      (m sh.metrics).connectFailures + (sh.backends b).failedConnections) :
    ((sh.onBackend b f).onMetrics m).Tallied := by
  obtain ⟨S, hzero, hsum⟩ := h
  refine ⟨insert b S, fun c hc => ?_, ?_⟩
  · rw [Finset.mem_insert, not_or] at hc
    show (Function.update sh.backends b (f (sh.backends b)) c).failedConnections = 0
    rw [Function.update_of_ne hc.1]
    exact hzero c hc.2
  · have htotal := total_update (Finset.mem_insert_self b S) Backend.failedConnections sh.backends
      (f (sh.backends b))
    have hinsert : ∑ c ∈ insert b S, (sh.backends c).failedConnections =
        ∑ c ∈ S, (sh.backends c).failedConnections :=
      Finset.sum_insert_of_eq_zero_if_notMem (hzero b)
    show (m sh.metrics).connectFailures =
      ∑ c ∈ insert b S, (Function.update sh.backends b (f (sh.backends b)) c).failedConnections
    omega

theorem Tallied.connectFailed (h : sh.Tallied) (b : Nat) : (sh.connectFailed b).Tallied := by
  apply h.change
  show (sh.backends b).failedConnections + 1 + _ = sh.metrics.connectFailures + 1 + _
  omega

theorem Tallied.onBackend (h : sh.Tallied) {b : Nat} {f : Backend → Backend}
    (hf : (f (sh.backends b)).failedConnections = (sh.backends b).failedConnections) :
    (sh.onBackend b f).Tallied := by
  refine h.same (fun c => ?_) rfl
  by_cases hc : c = b
  · subst hc
    simpa [SharedState.onBackend] using hf
  · simp [SharedState.onBackend, hc]

theorem Tallied.exec (h : sh.Tallied) (op : CleanOp) : (op.exec sh).2.1.Tallied := by
  cases op with
  | closeClient fd => exact h
  | closeUpstream fd => exact h
  | connectFailed b => exact (h.connectFailed b).same (fun _ => rfl) rfl
  | releaseLoad b => exact h
  | releaseTest b current =>
    simp only [CleanOp.exec]
    split
    · exact h.onBackend rfl
    · exact h

theorem Tallied.sweepFailures (h : sh.Tallied) (config : AppConfig) (now : Nat)
    (heap : Ref → Option ProxySession) (refs : List Ref) :
    (sweepFailures config now heap refs sh).Tallied := by
  induction refs generalizing sh with
  | nil => exact h
  | cons p refs ih =>
    apply ih
    split
    · split
      · exact h.connectFailed _
      · exact h
    · exact h

end SharedState

/-- A call of `handleEvent` counts a failure twice or not at all. -/
theorem failures_stable (k j : Nat) (now : Nat) : Stable now
    (fun env => env.backend.failedConnections + k = env.metrics.connectFailures + j) where
  close _ h := h
  readClosed _ _ h := h
  writeShutdown _ _ h := h
  connected _ h := h
  connectFailed env h := by
    show env.backend.failedConnections + 1 + k = env.metrics.connectFailures + 1 + j
    omega
  call _ _ _ h := h
  makeWritable _ _ h := h
  recv _ side _ _ h := by cases side <;> exact h
  send _ _ _ h := h

theorem Worker.Step.tallied {config : AppConfig} {sh sh' : SharedState} {w w' : Worker} {error : Bool}
    {eff : FdEffect} (hstep : Worker.Step config sh w error eff sh' w') (h : sh.Tallied) :
    sh'.Tallied := by
  cases hstep
  case handled e events p s now ans result env hpc _ _ hp _ hcall _ =>
    have hf := (failures_stable sh.metrics.connectFailures
      (sh.backends s.backend).failedConnections now).handleEvent e.fd e.mask ans
        ⟨s, sh.backends s.backend, sh.metrics, []⟩ (Nat.add_comm _ _)
    rw [hcall] at hf
    exact h.change hf
  case sweep closing refs now sweepNow hpc hnow hrefs => exact h.sweepFailures config sweepNow w.heap refs
  case clean op ops clients ctx hpc => exact h.exec op
  case destroy op ops refs ctx hpc => exact h.exec op
  case acquired c b clients ctx hpc => exact h.onBackend rfl
  case construct c b u con now clients ctx hpc =>
    split
    · exact h
    · exact h.onBackend rfl
  case onClosedSub current todo refs ctx hpc =>
    split
    · exact h.same (fun _ => rfl) rfl
    · exact h
  all_goals exact h.same (fun _ => rfl) rfl

/-! ## The process -/

namespace System

variable {n : Nat} {config : AppConfig} {s s' : System n} {ds ds' : Fin n → Docket}

/-- What a step adds to the dockets: only workers write to them. -/
def Files (config : AppConfig) (s : System n) (act : SystemAct n) (s' : System n)
    (ds ds' : Fin n → Docket) : Prop :=
  match act with
  | .worker i _ =>
    (s.workers i).Files config s.shared s'.shared (s'.workers i) (ds i) (ds' i) ∧
      ∀ j, j ≠ i → ds' j = ds j
  | _ => ds' = ds

/-- Steps of the process in which eventfd writes succeed or fail with `EAGAIN`,
with the dockets of the workers beside the state. -/
def DocketStep (config : AppConfig) :
    (Fin n → Docket) × System n → SystemAct n → (Fin n → Docket) × System n → Prop :=
  Recording (Guarded NotifyOk (Step config)) (Files config)

structure Recorded (ds : Fin n → Docket) (s : System n) : Prop where
  workers : ∀ i, (s.workers i).Docketed (ds i)
  succeeded : ∀ b, (s.shared.backends b).totalConnections = ∑ i, (ds i).successes b
  failed : ∀ b, (s.shared.backends b).failedConnections +
    ∑ i, (s.workers i).pc.ops.count (.connectFailed b) = ∑ i, (ds i).failures b
  tallied : s.shared.Tallied

theorem Recorded.worker (h : s.Recorded ds) (hc : s.Consistent config) {i : Fin n} {error : Bool}
    {eff : FdEffect} {sh : SharedState} {w : Worker}
    (hstep : Worker.Step config s.shared (s.workers i) error eff sh w)
    (hfiles : (s.workers i).Files config s.shared sh w (ds i) (ds' i))
    (hothers : ∀ j, j ≠ i → ds' j = ds j) :
    ({ s.setWorker i w with shared := sh }.apply eff).Recorded ds' := by
  have hi := (hc.workers i).indexed
  have hsh : ({ s.setWorker i w with shared := sh }.apply eff).shared = sh := shared_apply _ eff
  have hds : ds' = Function.update ds i (ds' i) := by
    funext j
    by_cases hj : j = i
    · rw [hj, Function.update_self]
    · rw [Function.update_of_ne hj, hothers j hj]
  have hcounts := fun b => Worker.Step.counts (h.workers i) hi hstep hfiles b
  constructor
  · intro j
    obtain ⟨e, hj⟩ := s.workers_apply eff i w sh j
    rw [hj]
    by_cases hji : j = i
    · subst hji
      rw [if_pos rfl]
      exact ((h.workers j).step hi (hc.workers j).swept hstep hfiles).congr rfl rfl rfl
    · rw [if_neg hji, hothers j hji]
      exact (h.workers j).congr rfl rfl rfl
  · intro b
    have htotal := total_update (Finset.mem_univ i) (fun d : Docket => d.successes b) ds (ds' i)
    rw [← hds] at htotal
    have hb := (hcounts b).succeeded
    have := h.succeeded b
    rw [hsh]
    omega
  · intro b
    have htotal := total_update (Finset.mem_univ i) (fun d : Docket => d.failures b) ds (ds' i)
    rw [← hds] at htotal
    have hops := total_apply (f := fun w => w.pc.ops.count (.connectFailed b)) (fun _ _ => rfl) s eff i w sh
    have hb := (hcounts b).failing
    have := h.failed b
    rw [Worker.failing, Worker.failing] at hb
    rw [hsh]
    omega
  · rw [hsh]
    exact hstep.tallied h.tallied

/-- A step of another thread. -/
theorem Recorded.still (h : s.Recorded ds)
    (hw : ∀ i, (s'.workers i).pc = (s.workers i).pc ∧ (s'.workers i).heap = (s.workers i).heap ∧
      (s'.workers i).sessions = (s.workers i).sessions)
    (hb : ∀ b, (s'.shared.backends b).totalConnections = (s.shared.backends b).totalConnections ∧
      (s'.shared.backends b).failedConnections = (s.shared.backends b).failedConnections)
    (hm : s'.shared.metrics.connectFailures = s.shared.metrics.connectFailures) :
    s'.Recorded ds where
  workers i := (h.workers i).congr (hw i).1 (hw i).2.1 (hw i).2.2
  succeeded b := by
    rw [(hb b).1]
    exact h.succeeded b
  failed b := by
    have hops : ∑ i, (s'.workers i).pc.ops.count (.connectFailed b) =
        ∑ i, (s.workers i).pc.ops.count (.connectFailed b) :=
      Finset.sum_congr rfl fun i _ => by rw [(hw i).1]
    rw [(hb b).2, hops]
    exact h.failed b
  tallied := h.tallied.same (fun b => (hb b).2) hm

/-- The acceptor moves on, and may change what is not the worker's own. -/
theorem Recorded.acceptor (h : s.Recorded ds)
    (hw : ∀ i, (s'.workers i).pc = (s.workers i).pc ∧ (s'.workers i).heap = (s.workers i).heap ∧
      (s'.workers i).sessions = (s.workers i).sessions)
    (hsh : s'.shared = s.shared) : s'.Recorded ds :=
  h.still hw (fun _ => by rw [hsh]; exact ⟨rfl, rfl⟩) (by rw [hsh])

theorem Recorded.touch (h : s.Recorded ds) {i : Fin n} {queue enqueued : List Fd} {running : Bool}
    {count : Nat} {pc : AcceptorPc} :
    ({ s.setWorker i { s.workers i with
        queue := queue, enqueued := enqueued, running := running, wakeCount := count } with
      acceptor := pc } : System n).Recorded ds :=
  h.acceptor (forall_setWorker (P := fun j w => w.pc = (s.workers j).pc ∧ w.heap = (s.workers j).heap ∧
    w.sessions = (s.workers j).sessions) (fun _ _ => ⟨rfl, rfl, rfl⟩) ⟨rfl, rfl, rfl⟩) rfl

theorem Recorded.step {act : SystemAct n} (h : s.Recorded ds) (hc : s.Consistent config)
    (hstep : Step config s act s') (hfiles : Files config s act s' ds ds') : s'.Recorded ds' := by
  cases hstep with
  | @worker i error eff sh w hstep hfd =>
    obtain ⟨hfiles, hothers⟩ := hfiles
    refine h.worker hc hstep ?_ hothers
    -- closing a descriptor changes the epoll set only
    obtain ⟨e, hi⟩ := s.workers_apply eff i w sh i
    rw [if_pos rfl] at hi
    rw [shared_apply, hi] at hfiles
    exact hfiles
  | accept fd hpc hfd =>
    obtain rfl : ds' = ds := hfiles
    exact h.still (fun _ => ⟨rfl, rfl, rfl⟩) (fun _ => ⟨rfl, rfl⟩) rfl
  | push fd i hpc hlen =>
    obtain rfl : ds' = ds := hfiles
    exact h.touch
  | notified fd i hpc =>
    obtain rfl : ds' = ds := hfiles
    exact h.touch
  | stop i hpc hrun =>
    obtain rfl : ds' = ds := hfiles
    exact h.touch
  | stopNotified i hpc =>
    obtain rfl : ds' = ds := hfiles
    exact h.touch
  | reject fd hpc =>
    obtain rfl : ds' = ds := hfiles
    exact h.still (fun _ => ⟨rfl, rfl, rfl⟩) (fun _ => ⟨rfl, rfl⟩) rfl
  | setHealthy b value =>
    obtain rfl : ds' = ds := hfiles
    refine h.still (fun _ => ⟨rfl, rfl, rfl⟩) (fun c => ?_) rfl
    by_cases hcb : c = b
    · subst hcb
      simp [SharedState.onBackend, Backend.setHealthy]
    · simp [SharedState.onBackend, hcb]
  | _ =>
    obtain rfl : ds' = ds := hfiles
    exact h.acceptor (fun _ => ⟨rfl, rfl, rfl⟩) rfl

theorem Start.recorded (h : Start s) (hb : ∀ b, (s.shared.backends b).totalConnections = 0 ∧
      (s.shared.backends b).failedConnections = 0) (hm : s.shared.metrics.connectFailures = 0) :
    s.Recorded fun _ => .new := by
  have hnew : ∀ i, (s.workers i).heap = (fun _ => none) ∧ (s.workers i).pc = .loopTest := by
    intro i
    obtain ⟨wakeFd, epollFd, hw⟩ := h.workers i
    rw [hw]
    exact ⟨rfl, rfl⟩
  constructor
  · intro i
    constructor
    case once => exact List.nodup_nil
    case known => exact fun k hk => by cases hk
    case backend =>
      intro p t hp
      rw [(hnew i).1] at hp
      cases hp
    case owner =>
      intro p q hp
      rw [(hnew i).1] at hp
      exact absurd rfl hp
    case inHand =>
      intro b hb
      rw [(hnew i).2] at hb
      cases hb
    case pending => exact fun p t _ => List.not_mem_nil
  · intro b
    rw [(hb b).1]
    exact (Finset.sum_eq_zero fun _ _ => rfl).symm
  · intro b
    have hops : ∀ i, (s.workers i).pc.ops.count (.connectFailed b) = 0 := by
      intro i
      rw [(hnew i).2]
      rfl
    rw [(hb b).2, Finset.sum_eq_zero fun i _ => hops i]
    exact (Finset.sum_eq_zero fun _ _ => rfl).symm
  · exact ⟨∅, fun b _ => (hb b).2, hm⟩

theorem run_recorded {s₀ : System n} {acts : List (SystemAct n)} (hstart : Start s₀)
    (hb : ∀ b, (s₀.shared.backends b).totalConnections = 0 ∧
      (s₀.shared.backends b).failedConnections = 0) (hm : s₀.shared.metrics.connectFailures = 0)
    (hrun : Run (DocketStep config) (fun _ => .new, s₀) acts (ds, s)) : s.Recorded ds := by
  have h : s.Consistent config ∧ s.Recorded ds := by
    refine hrun.invariant (I := fun x => x.2.Consistent config ∧ x.2.Recorded x.1) ?_
      ⟨hstart.consistent config, hstart.recorded hb hm⟩
    rintro x act y ⟨hc, hr⟩ ⟨⟨hact, hstep⟩, hfiles⟩
    exact ⟨hc.step hact hstep, hr.step hc hstep hfiles⟩
  exact h.2

/-- Every run has its dockets. -/
theorem exists_dockets {s₀ : System n} {acts : List (SystemAct n)}
    (hrun : Run (Guarded NotifyOk (Step config)) s₀ acts s) (ds₀ : Fin n → Docket) :
    ∃ ds, Run (DocketStep config) (ds₀, s₀) acts (ds, s) := by
  apply hrun.exists_recording
  rintro s act s' ds ⟨-, hstep⟩
  cases hstep with
  | @worker i error eff sh w hstep hfd =>
    obtain ⟨d', hd'⟩ := hstep.exists_files (ds i)
    refine ⟨Function.update ds i d', ?_, fun j hj => Function.update_of_ne hj ..⟩
    obtain ⟨e, hi⟩ := s.workers_apply eff i w sh i
    rw [if_pos rfl] at hi
    rw [shared_apply, hi, Function.update_self]
    exact hd'
  | _ => exact ⟨ds, rfl⟩

end System

/-- **Each lease yields at most one connect outcome.** In every run, a lease
that `createSession` obtained is filed under at most one outcome, whatever
events, timeouts, sweeps and stops its session meets; the successes of a
backend are the outcomes of its leases that ended well, its failures, between
two operations, those that did not; and `connectFailures_` is the sum of the
failures. -/
theorem run_outcomes {n : Nat} (config : AppConfig) {s₀ s : System n} {acts : List (SystemAct n)}
    {ds : Fin n → Docket} (hstart : System.Start s₀)
    (hb : ∀ b, (s₀.shared.backends b).totalConnections = 0 ∧
      (s₀.shared.backends b).failedConnections = 0) (hm : s₀.shared.metrics.connectFailures = 0)
    (hrun : Run (System.DocketStep config) (fun _ => .new, s₀) acts (ds, s)) :
    (∀ i k, ((ds i).outcomesOf k).length ≤ 1) ∧
    (∀ i k o, (k, o) ∈ (ds i).outcomes → (ds i).outcomesOf k = [o]) ∧
    (∀ b, (s.shared.backends b).totalConnections = ∑ i, (ds i).successes b) ∧
    ((∀ i, (s.workers i).pc.ops = []) →
      ∀ b, (s.shared.backends b).failedConnections = ∑ i, (ds i).failures b) ∧
    s.shared.metrics.connectFailures = ∑ᶠ b, (s.shared.backends b).failedConnections := by
  have h := System.run_recorded hstart hb hm hrun
  have honce : ∀ i k, ((ds i).outcomesOf k).length ≤ 1 := fun i k => (h.workers i).outcomesOf_le k
  refine ⟨honce, fun i k o ho => ?_, h.succeeded, fun hops b => ?_, ?_⟩
  · have hmem : o ∈ (ds i).outcomesOf k :=
      List.mem_map.mpr ⟨(k, o), List.mem_filter.mpr ⟨ho, beq_self_eq_true k⟩, rfl⟩
    obtain ⟨o', ho'⟩ := List.length_eq_one_iff.mp
      (Nat.le_antisymm (honce i k) (List.length_pos_of_mem hmem))
    rw [ho'] at hmem ⊢
    rw [List.mem_singleton.mp hmem]
  · have hfailed := h.failed b
    rw [Finset.sum_eq_zero (fun i _ => by rw [hops i]; rfl)] at hfailed
    exact hfailed
  · obtain ⟨S, hzero, hsum⟩ := h.tallied
    rw [hsum, finsum_eq_sum_of_support_subset]
    intro b hb
    by_contra hnot
    exact hb (hzero b hnot)

/-- The upstream of the small process becomes writable, with `SO_ERROR` 0. -/
theorem run_outcomes_connected : ∃ acts s ds,
    Run (System.DocketStep Demo.config) (fun _ => .new, Demo.start) acts (ds, s) ∧
      (s.shared.backends 0).totalConnections = 1 ∧ (ds (0 : Fin 1)).successes 0 = 1 := by
  have r := Demo.reaches_serving
  have r := r.worker (.waited [⟨7, EPOLLOUT, some 1⟩] rfl (by decide) (by decide) (by simpa using ⟨_, rfl⟩))
    trivial
  have r := r.worker (.handled ⟨7, EPOLLOUT, some 1⟩ [] 1 Demo.session 1 ⟨some (.ok none), none, [], []⟩ true
    _ rfl (by decide) rfl rfl rfl rfl (by decide)) trivial
  obtain ⟨acts, hrun⟩ := r.notifyOk
  obtain ⟨ds, hrec⟩ := System.exists_dockets hrun fun _ => .new
  have h := (run_outcomes Demo.config Demo.start_start (fun _ => ⟨rfl, rfl⟩) rfl hrec).2.2.1 0
  have hone : 1 = ∑ i, (ds i).successes 0 := h
  rw [Fin.sum_univ_one] at hone
  exact ⟨acts, _, ds, hrec, rfl, hone.symm⟩

end FluxGate
