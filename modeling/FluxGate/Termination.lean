import FluxGate.Lib.Variant
import FluxGate.Progress

/-!
# Shutdown comes to an end

Once `stop()` has cleared `running_`, what a worker still has to do is
bounded: the rest of its batch, the clients in its queue, at most one session
under construction, one sweep, and the closing and destruction of what it has.
`Worker.work` counts these steps, and every step of the thread lowers it. The
other threads cannot raise it: nobody enqueues any more, and of the eventfd
only one write is still to come, that of `stop()` itself.

The potentials below are by places in the code: a client that waits costs
three steps, a session three to be closed and seven to be destroyed.
-/

namespace FluxGate

open Lib

/-! ## The work that is left -/

def CleanOp.work : CleanOp → Nat
  | .releaseLoad _ => 2
  | _ => 1

def cleanWork (ops : List CleanOp) : Nat := (ops.map CleanOp.work).sum

/-- The steps of `createSession`, and of closing the session that it may publish. -/
def Job.work : Job → Nat
  | .acquire _ => 37
  | .socket _ _ => 36
  | .connect _ _ _ => 35
  | .construct _ _ _ _ => 34
  | .registerClient _ => 33
  | .registerUpstream _ => 32
  | .publish _ => 31
  | .unregister _ => 6
  | .cleanup ops => cleanWork ops + 1

section Work

variable (queued sessions : Nat)

/-- From the loop test on. -/
def loopWork : Nat := 4 * queued + 10 * sessions + 7

/-- From the collection of the closing sessions on. -/
def collectWork : Nat := 20 * sessions + 6 + loopWork queued sessions

def batchWork (events : List Event) : Nat := 8 * events.length + 1 + collectWork queued sessions

/-- After a drain. -/
def DrainCtx.work : DrainCtx → Nat
  | .batch rest => batchWork queued sessions rest
  | .final => 4 * queued + 10 * sessions + 4

/-- After a vector of sessions has been destroyed. -/
def CloseCtx.work : CloseCtx → Nat
  | .closing => loopWork queued sessions
  | .expired outer => 7 * outer.length + 1 + loopWork queued sessions
  | .remaining => 0

def dropWork (refs : List Ref) (ctx : CloseCtx) : Nat := 7 * refs.length + 1 + ctx.work queued sessions

def sweepWork (closing : List Ref) : Nat :=
  10 * sessions + 7 * closing.length + 4 + loopWork queued sessions

/-- After the last `closeSession` of a vector. -/
def CloseCtx.closedWork (refs : List Ref) : CloseCtx → Nat
  | .closing => sweepWork queued sessions refs
  | ctx => dropWork queued sessions refs ctx

/-- An upper bound on the steps of a thread that has been told to stop. -/
def Pc.work (maxEvents : Nat) : Pc → Nat
  | .loopTest => loopWork queued sessions
  | .epollWait => 8 * maxEvents + 2 + collectWork queued sessions
  | .batch events => batchWork queued sessions events
  | .modify _ .client events => 3 + batchWork queued sessions events
  | .modify _ .upstream events => 2 + batchWork queued sessions events
  | .readWake events => 3 + batchWork queued sessions events
  | .drainSwap ctx => 2 + ctx.work queued sessions
  | .drain clients ctx => 3 * clients.length + 1 + ctx.work queued sessions
  | .create job clients ctx => job.work + 3 * clients.length + 1 + ctx.work queued sessions
  | .collect => collectWork queued sessions
  | .close todo refs ctx => 3 * todo.length + 1 + ctx.closedWork queued sessions refs
  | .onClosed none todo refs ctx => 3 * todo.length + 3 + ctx.closedWork queued sessions refs
  | .onClosed (some _) todo refs ctx => 3 * todo.length + 2 + ctx.closedWork queued sessions refs
  | .sweepTest closing => sweepWork queued sessions closing
  | .drop refs ctx => dropWork queued sessions refs ctx
  | .destroy ops refs ctx => cleanWork ops + 1 + dropWork queued sessions refs ctx
  | .finalQueue => 4 * queued + 10 * sessions + 4
  | .finalCollect => 10 * sessions + 3
  | .stopped => 0

end Work

namespace Worker

variable {config : AppConfig} {sh sh' : SharedState} {w w' : Worker} {error : Bool} {eff : FdEffect}

/-- What a worker that has been told to stop may still do. -/
def work (config : AppConfig) (w : Worker) : Nat :=
  (decide (0 < w.wakeCount)).toNat + w.pc.work w.queue.length w.sessions.length config.maxEvents

/-! ### Each step lowers it -/

theorem exec_work (op : CleanOp) (sh : SharedState) (ops : List CleanOp) :
    cleanWork ((op.exec sh).2.2 ++ ops) + 1 = cleanWork (op :: ops) := by
  cases op <;> simp [cleanWork, CleanOp.exec, CleanOp.work] <;> omega

theorem destructor_work (s : ProxySession) : cleanWork (destructor s) = 4 := by
  rfl

theorem select_length (f : ProxySession → Bool) : (w.select f).length ≤ w.sessions.length := by
  have h := List.length_filter_le (fun p => ((w.heap p).map f).getD false) (w.sessions.map Prod.snd)
  rwa [List.length_map] at h

/-- The queue and the eventfd are left alone: where the thread is decides. -/
theorem work_lt_of (hcount : w'.wakeCount = w.wakeCount) (hqueue : w'.queue = w.queue)
    (h : w'.pc.work w.queue.length w'.sessions.length config.maxEvents <
      w.pc.work w.queue.length w.sessions.length config.maxEvents) : w'.work config < w.work config := by
  rw [work, work, hcount, hqueue]
  exact Nat.add_lt_add_left h _

/-- What follows a vector costs no more with fewer sessions. -/
theorem closedWork_le (queued : Nat) {a b : Nat} (h : a ≤ b) (refs : List Ref) (ctx : CloseCtx) :
    ctx.closedWork queued a refs ≤ ctx.closedWork queued b refs := by
  cases ctx <;> simp only [CloseCtx.closedWork, sweepWork, dropWork, CloseCtx.work, loopWork] <;> omega

/-- One more session costs thirty steps at most. -/
theorem drainWork_succ (queued : Nat) {a b : Nat} (h : a ≤ b + 1) (ctx : DrainCtx) :
    ctx.work queued a ≤ ctx.work queued b + 30 := by
  cases ctx <;> simp only [DrainCtx.work, batchWork, collectWork, loopWork] <;> omega

/-- An empty queue costs nothing. -/
theorem drainWork_swap (queued sessions : Nat) (ctx : DrainCtx) :
    ctx.work 0 sessions + 4 * queued = ctx.work queued sessions := by
  cases ctx <;> simp only [DrainCtx.work, batchWork, collectWork, loopWork] <;> omega

/-- **Each step of a worker that has been told to stop leaves less to do.** -/
theorem Step.work_lt (hstep : Step config sh w error eff sh' w') (hrun : w.running = false) :
    w'.work config < w.work config := by
  cases hstep
  -- a thread that has been told to stop does not go on
  case enter hpc hr => exact absurd (hr.symm.trans hrun) (by simp)
  case take c clients ctx hpc hr => exact absurd (hr.symm.trans hrun) (by simp)
  -- the eventfd and the queue
  case readWake events hpc hcount => simp [work, hcount]
  case swap ctx hpc =>
    have hq := drainWork_swap w.queue.length w.sessions.length ctx
    simp only [work, hpc, Pc.work, List.length_nil]
    omega
  case closeQueued c queue hpc hq =>
    simp only [work, hpc, Pc.work, hq, List.length_cons]
    omega
  -- the number of sessions changes
  case publish p s clients ctx hpc hp =>
    have hlen : (w.publish p s).sessions.length ≤ w.sessions.length + 1 := by
      simpa [Worker.publish] using List.length_filter_le (fun e => e.1 ≠ s.id) w.sessions
    have hd := drainWork_succ w.queue.length hlen ctx
    refine work_lt_of rfl rfl ?_
    rw [hpc]
    simp only [goto, Pc.work, Job.work]
    omega
  case closeSession p s todo refs ctx hpc hp hfound =>
    have hlen : (w.unpublish s).sessions.length ≤ w.sessions.length := by
      simpa [Worker.unpublish] using List.length_filter_le (fun e => e.1 ≠ s.id) w.sessions
    have hc := closedWork_le w.queue.length hlen refs ctx
    refine work_lt_of rfl rfl ?_
    rw [hpc]
    simp only [goto, Pc.work, List.length_cons]
    omega
  -- the sessions are looked through
  case collect refs hpc hrefs =>
    have hlen := hrefs.length_eq ▸ select_length (w := w) ProxySession.closing
    refine work_lt_of rfl rfl ?_
    rw [hpc]
    simp only [goto, Pc.work, CloseCtx.closedWork, sweepWork, collectWork]
    omega
  case sweep closing refs now sweepNow hpc hnow hrefs =>
    have hlen := hrefs.length_eq ▸ select_length (w := w) (expired config sweepNow)
    refine work_lt_of rfl rfl ?_
    rw [hpc]
    simp only [Pc.work, CloseCtx.closedWork, sweepWork, dropWork, CloseCtx.work]
    omega
  case finalCollect refs hpc hrefs =>
    have hlen := hrefs.length_eq
    rw [List.length_map] at hlen
    refine work_lt_of rfl rfl ?_
    rw [hpc]
    simp only [goto, Pc.work, CloseCtx.closedWork, dropWork, CloseCtx.work]
    omega
  -- clean-up operations
  case clean op ops clients ctx hpc =>
    have hops := exec_work op sh ops
    refine work_lt_of rfl rfl ?_
    rw [hpc]
    simp only [goto, Pc.work, Job.work]
    omega
  case destroy op ops refs ctx hpc =>
    have hops := exec_work op sh ops
    refine work_lt_of rfl rfl ?_
    rw [hpc]
    simp only [goto, Pc.work]
    omega
  case unregister p s clients ctx hpc hp =>
    refine work_lt_of rfl rfl ?_
    rw [hpc]
    simp only [goto, free, forget, Pc.work, Job.work, destructor_work]
    omega
  case dropLast p s refs ctx hpc hp hshared =>
    refine work_lt_of rfl rfl ?_
    rw [hpc]
    simp only [goto, free, Pc.work, dropWork, destructor_work, List.length_cons]
    omega
  -- where control goes depends on the context, or on the result
  case handled e events p s now ans result env hpc hfd hfound hp hclosing hcall hrange =>
    cases result
    all_goals
      refine work_lt_of rfl rfl ?_
      rw [hpc]
      simp only [if_true, Bool.false_eq_true, if_false, goto, setSession, Pc.work, batchWork, List.length_cons]
      omega
  case modifyFailed p s side events hpc hp =>
    refine work_lt_of rfl rfl ?_
    rw [hpc]
    cases side <;> simp only [goto, setSession, Pc.work] <;> omega
  case drained ctx hpc =>
    refine work_lt_of rfl rfl ?_
    rw [hpc]
    cases ctx <;> simp only [goto, DrainCtx.next, Pc.work, DrainCtx.work, List.length_nil] <;> omega
  case allClosed refs ctx hpc =>
    refine work_lt_of rfl rfl ?_
    rw [hpc]
    cases ctx <;> simp only [goto, CloseCtx.closed, Pc.work, CloseCtx.closedWork, List.length_nil] <;> omega
  case dropped ctx hpc =>
    refine work_lt_of rfl rfl ?_
    rw [hpc]
    cases ctx <;> simp only [goto, CloseCtx.dropped, Pc.work, dropWork, CloseCtx.work, List.length_nil] <;> omega
  case queueEmpty hpc hq =>
    refine work_lt_of rfl rfl ?_
    rw [hpc, hq]
    simp only [goto, Pc.work, List.length_nil]
    omega
  all_goals
    refine work_lt_of rfl rfl ?_
    rw [‹w.pc = _›]
    simp only [goto, Worker.construct, setInterest, Pc.work, Job.work, cleanWork, CleanOp.work, List.map_cons,
      List.map_nil, List.sum_cons, List.sum_nil, List.length_cons, batchWork, collectWork, loopWork,
      DrainCtx.work, dropWork, sweepWork, CloseCtx.work]
    omega

end Worker

/-! ## Who has been told to stop -/

/-- `stop()` has cleared the flag of worker `i`. -/
def AcceptorPc.hasStopped (i : Nat) : AcceptorPc → Prop
  | .stop k => i < k
  | .stopWrite k => i ≤ k
  | .joined => True
  | _ => False

/-- What the main thread still has to do once it takes no more clients. -/
def AcceptorPc.work (n : Nat) : AcceptorPc → Nat
  | .stop k => 2 * (n - k) + 1
  | .stopWrite k => 2 * (n - k)
  | _ => 0

/-- A step of worker `i`. -/
def SystemAct.byWorker {n : Nat} (i : Fin n) : SystemAct n → Bool
  | .worker j _ => j == i
  | _ => false

namespace System

variable {n : Nat} {config : AppConfig} {s s' : System n}

/-- `running_` is false for the workers that `stop()` was called on, and for no others. -/
def Flagged (s : System n) : Prop :=
  s.acceptor.InRange n ∧ ∀ i, (s.workers i).running = false ↔ s.acceptor.hasStopped i

/-- A change of a worker that leaves its flag alone. -/
theorem stopped_setWorker {i j : Fin n} {w : Worker} {P : Prop}
    (hj : (s.workers j).running = false ↔ P) (hw : w.running = (s.workers i).running) :
    ((s.setWorker i w).workers j).running = false ↔ P := by
  have h := forall_setWorker (P := fun j w => w.running = (s.workers j).running) (fun _ _ => rfl) hw j
  rw [h]
  exact hj

theorem Flagged.step {act : SystemAct n} (h : s.Flagged) (hstep : Step config s act s') : s'.Flagged := by
  refine ⟨hstep.inRange h.1, fun j => ?_⟩
  have hj := h.2 j
  cases hstep with
  | @worker i error eff sh w hw hfd =>
    obtain ⟨e, hworker⟩ := s.workers_apply eff i w sh j
    have hacc : (({ s.setWorker i w with shared := sh }).apply eff).acceptor = s.acceptor := by
      cases eff <;> rfl
    rw [hworker, hacc, ← hj]
    split
    · rename_i hji
      rw [hji]
      show w.running = false ↔ _
      rw [hw.running]
    · rfl
  | stop i hpc hrun =>
    rw [hpc] at hj
    show ((s.setWorker i _).workers j).running = false ↔ j.val ≤ i.val
    by_cases hji : j = i
    · subst hji
      simp [setWorker]
    · have hne : j.val ≠ i.val := fun he => hji (Fin.ext he)
      have hlt : (s.workers j).running = false ↔ j.val < i.val := hj
      simp only [setWorker, Function.update_of_ne hji, hlt]
      omega
  | stoppedBefore i hpc hrun =>
    rw [hpc] at hj
    show (s.workers j).running = false ↔ j.val < i.val + 1
    by_cases hji : j = i
    · subst hji
      simp [hrun]
    · have hne : j.val ≠ i.val := fun he => hji (Fin.ext he)
      rw [hj]
      show j.val < i.val ↔ _
      omega
  | stopNotified i hpc =>
    rw [hpc] at hj
    exact stopped_setWorker (hj.trans Nat.lt_succ_iff.symm) rfl
  | stopNotifyIgnored i hpc =>
    rw [hpc] at hj
    exact hj.trans Nat.lt_succ_iff.symm
  | join hpc hstopped =>
    rw [hpc] at hj
    exact hj.trans ⟨fun _ => trivial, fun _ => j.isLt⟩
  | shutdown hpc =>
    rw [hpc] at hj
    exact hj.trans ⟨fun hf => hf.elim, fun hlt => absurd hlt (Nat.not_lt_zero _)⟩
  | push fd i hpc hlen =>
    rw [hpc] at hj
    exact stopped_setWorker hj rfl
  | notified fd i hpc =>
    rw [hpc] at hj
    exact stopped_setWorker hj rfl
  | othersOpen fd hfd => exact hj
  | othersClose fd hfd => exact hj
  | setHealthy b value => exact hj
  | _ =>
    rw [‹s.acceptor = _›] at hj
    exact hj

end System

end FluxGate
