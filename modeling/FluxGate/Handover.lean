import FluxGate.Shutdown

/-!
# Handing clients over: wake-ups, and workers that have ended

`enqueue` puts a client into the queue and then writes to the eventfd; the
worker reads the eventfd until it is empty and then swaps the queue out. A
client in the queue is therefore always announced: by the counter of the
eventfd, by the acceptor that is about to write, or because the worker is
already on its way to the swap (`Announced`).

A worker that has returned from `run()` must not be handed clients any more.
`enqueue` looks at `running_` only, and the exit of the loop on an error of
`epoll_wait` leaves that flag set: the worker is gone and clients are still
put into its queue. In runs in which `epoll_wait` of a worker that has not
been stopped fails with `EINTR` only this cannot happen.
-/

namespace FluxGate

open Lib

/-! ## Wake-ups -/

/-- The thread has read the eventfd, or is leaving, and will swap the queue out. -/
def Pc.draining : Pc → Bool
  | .readWake _ => true
  | .drainSwap _ => true
  | _ => false

/-- Somebody will see that the queue has clients; `written` says that the
acceptor is about to write to the eventfd. -/
def Worker.Announced (written : Prop) (w : Worker) : Prop :=
  w.queue ≠ [] → 0 < w.wakeCount ∨ w.pc.draining = true ∨ written

theorem Worker.Announced.imp {w : Worker} {p q : Prop} (h : w.Announced p) (hpq : p → q) :
    w.Announced q := by
  intro hq
  exact (h hq).imp id (Or.imp id hpq)

theorem Worker.Step.announced {config : AppConfig} {sh sh' : SharedState} {w w' : Worker}
    {error : Bool} {eff : FdEffect} {written : Prop} (hstep : Worker.Step config sh w error eff sh' w')
    (h : w.Announced written) : w'.Announced written := by
  intro hq
  cases hstep
  case leave => exact Or.inr (Or.inl rfl)
  case waitError => exact Or.inr (Or.inl rfl)
  case readWake events hpc hcount => exact Or.inr (Or.inl (by rw [show (_ : Pc) = _ from hpc]; rfl))
  case wake => exact Or.inr (Or.inl rfl)
  case wakeEmpty => exact Or.inr (Or.inl rfl)
  case swap => exact absurd rfl hq
  case handled e events p s now ans result env hpc _ _ _ _ _ _ =>
    have hw : w.queue ≠ [] := by cases result <;> exact hq
    have hd := h hw
    rw [hpc] at hd
    cases result <;> exact hd.imp id (Or.imp (fun hf => by cases hf) id)
  case closeQueued c queue hpc hqueue =>
    have hw : w.queue ≠ [] := by rw [hqueue]; exact List.cons_ne_nil _ _
    exact h hw
  all_goals
    have hd := h hq
    rw [‹w.pc = _›] at hd
    exact hd.imp id (Or.imp (fun hf => by cases hf) id)

namespace System

variable {n : Nat} {config : AppConfig} {s s' : System n}

/-- The acceptor has put a client into the queue of worker `i` and is about
to write to its eventfd. -/
def Writing (s : System n) (i : Fin n) : Prop := ∃ fd, s.acceptor = .enqueueWrite fd i

def Announced (s : System n) : Prop := ∀ i, (s.workers i).Announced (s.Writing i)

/-- The acceptor is not about to write to any eventfd. -/
theorem not_writing (hpc : ∀ fd i, s.acceptor ≠ .enqueueWrite fd i) (i : Fin n) : ¬ s.Writing i := by
  rintro ⟨fd, hw⟩
  exact hpc fd i hw

/-- It writes to one eventfd at a time. -/
theorem writing_unique {fd : Fd} {i j : Fin n} (hpc : s.acceptor = .enqueueWrite fd i)
    (hw : s.Writing j) : j = i := by
  obtain ⟨fd', hj⟩ := hw
  rw [hpc, AcceptorPc.enqueueWrite.injEq] at hj
  exact Fin.ext hj.2.symm

/-- No worker moves, and the acceptor was not about to write. -/
theorem Announced.still (h : s.Announced) (hpc : ∀ fd i, s.acceptor ≠ .enqueueWrite fd i)
    (hw : ∀ i, ∃ e r, s'.workers i = { s.workers i with epoll := e, running := r }) : s'.Announced := by
  intro i
  obtain ⟨e, r, he⟩ := hw i
  rw [he]
  exact (h i).imp fun hwr => absurd hwr (not_writing hpc i)

theorem Announced.step {act : SystemAct n} (h : s.Announced) (hact : NotifyOk s act)
    (hstep : Step config s act s') : s'.Announced := by
  -- the acceptor is elsewhere, and moves on alone
  have halone : ∀ {pc : AcceptorPc}, s.acceptor = pc → (∀ fd i, pc ≠ .enqueueWrite fd i) →
      (∀ i, ∃ e r, s'.workers i = { s.workers i with epoll := e, running := r }) → s'.Announced := by
    intro pc hpc hne hw
    exact h.still (fun fd i => by rw [hpc]; exact hne fd i) hw
  cases hstep with
  | @worker i error eff sh w hstep hfd =>
    intro j
    obtain ⟨e, hj⟩ := s.workers_apply eff i w sh j
    have hacc : (({ s.setWorker i w with shared := sh }).apply eff).acceptor = s.acceptor := by
      cases eff <;> rfl
    have hw : (if j = i then w else s.workers j).Announced (s.Writing j) := by
      split
      · rename_i hji
        rw [hji]
        exact hstep.announced (h i)
      · exact h j
    rw [hj, Writing, hacc]
    exact hw
  | accept fd hpc hfd => exact halone hpc (by simp) (fun i => ⟨_, _, rfl⟩)
  | configured fd i hpc => exact halone hpc (by simp) (fun i => ⟨_, _, rfl⟩)
  | configureFailed fd hpc => exact halone hpc (by simp) (fun i => ⟨_, _, rfl⟩)
  | notRunning fd i hpc hrun => exact halone hpc (by simp) (fun i => ⟨_, _, rfl⟩)
  | running fd i hpc hrun => exact halone hpc (by simp) (fun i => ⟨_, _, rfl⟩)
  | queueFull fd i hpc hlen => exact halone hpc (by simp) (fun i => ⟨_, _, rfl⟩)
  | push fd i hpc hlen =>
    -- the queue gets a client, and its announcement is on the way
    refine forall_setWorker (P := fun j w => w.Announced _) (fun j hj => ?_)
      (fun _ => Or.inr (Or.inr ⟨fd, rfl⟩))
    exact (h j).imp fun hwr => absurd hwr (not_writing (by rw [hpc]; simp) j)
  | notified fd i hpc =>
    refine forall_setWorker (P := fun j w => w.Announced _) (fun j hj => ?_)
      (fun _ => Or.inl (Nat.succ_pos _))
    exact (h j).imp fun hwr => absurd (writing_unique hpc hwr) hj
  | notifyAgain fd i hpc hcount =>
    -- the counter was positive, so the client is announced already
    intro j hq
    rcases h j hq with hc | hd | hwr
    · exact Or.inl hc
    · exact Or.inr (Or.inl hd)
    · rw [writing_unique hpc hwr]
      exact Or.inl hcount
  | notifyFailed fd i hpc => exact absurd rfl hact
  | reject fd hpc => exact halone hpc (by simp) (fun i => ⟨_, _, rfl⟩)
  | shutdown hpc => exact halone hpc (by simp) (fun i => ⟨_, _, rfl⟩)
  | stop i hpc hrun =>
    refine halone hpc (by simp) (forall_setWorker (P := fun j w => ∃ e r,
      w = { s.workers j with epoll := e, running := r }) (fun j _ => ⟨_, _, rfl⟩) ⟨_, _, rfl⟩)
  | stoppedBefore i hpc hrun => exact halone hpc (by simp) (fun i => ⟨_, _, rfl⟩)
  | stopNotified i hpc =>
    refine forall_setWorker (P := fun j w => w.Announced _) (fun j hj => ?_)
      (fun _ => Or.inl (Nat.succ_pos _))
    exact (h j).imp fun hwr => absurd hwr (not_writing (by rw [hpc]; simp) j)
  | stopNotifyIgnored i hpc => exact halone hpc (by simp) (fun i => ⟨_, _, rfl⟩)
  | join hpc hstopped => exact halone hpc (by simp) (fun i => ⟨_, _, rfl⟩)
  | othersOpen fd hfd => exact h
  | othersClose fd hfd => exact h
  | setHealthy b value => exact h

theorem Start.announced (h : Start s) : s.Announced := by
  intro i hq
  obtain ⟨wakeFd, epollFd, hw⟩ := h.workers i
  rw [hw] at hq
  exact absurd rfl hq

end System

/-- **No lost wake-up.** In every run, a worker that is about to call or in
`epoll_wait` with clients in its queue has a positive eventfd counter, or the
acceptor is between its push and its write. -/
theorem run_announced {n : Nat} (config : AppConfig) {s₀ s : System n} {acts : List (SystemAct n)}
    (hstart : System.Start s₀) (hrun : Run (Guarded System.NotifyOk (System.Step config)) s₀ acts s)
    (i : Fin n) (hpc : (s.workers i).pc = .loopTest ∨ (s.workers i).pc = .epollWait)
    (hqueue : (s.workers i).queue ≠ []) (hcount : (s.workers i).wakeCount = 0) :
    ∃ fd, s.acceptor = .enqueueWrite fd i := by
  have h : s.Announced :=
    hrun.invariant (fun _ _ _ hs ha => hs.step ha.1 ha.2) hstart.announced
  rcases h i hqueue with hc | hd | hw
  · omega
  · rcases hpc with hpc | hpc <;> rw [hpc] at hd <;> cases hd
  · exact hw

/-- The first client of the small process has been put into the queue. -/
theorem run_announced_pushed : ∃ acts s,
    Run (Guarded System.NotifyOk (System.Step Demo.config)) Demo.start acts s ∧
      (s.workers 0).queue = [6] ∧ (s.workers 0).wakeCount = 0 ∧
      ∃ fd, s.acceptor = .enqueueWrite fd (0 : Fin 1) := by
  have r : Demo.Reaches Demo.start := ⟨[], .nil⟩
  have r := r.acceptor (.accept 6 rfl rfl)
  have r := r.acceptor (.configured 6 0 rfl)
  have r := r.acceptor (.running 6 0 rfl rfl)
  have r := r.acceptor (.push 6 0 rfl (by decide))
  obtain ⟨acts, hrun⟩ := r.notifyOk
  exact ⟨acts, _, hrun, rfl, rfl,
    run_announced Demo.config Demo.start_start hrun 0 (Or.inl rfl) (List.cons_ne_nil 6 []) rfl⟩

/-! ## Workers that have ended -/

namespace System

variable {n : Nat} {config : AppConfig} {s s' : System n}

/-- The acceptor is inside `enqueue(fd)` of worker `i`. -/
def Enqueuing (s : System n) (fd : Fd) (i : Fin n) : Prop :=
  s.acceptor = .enqueueTest fd i ∨ s.acceptor = .enqueuePush fd i ∨ s.acceptor = .enqueueWrite fd i

/-- A call of `enqueue(fd)` of worker `i` begins in `s` and returns in `t`;
the other threads move in between. -/
def EnqueueReturns (config : AppConfig) (s : System n) (fd : Fd) (i : Fin n) (result : Bool)
    (t : System n) : Prop :=
  s.acceptor = .enqueueTest fd i ∧ ∃ acts u act,
    Run (Guarded (fun s _ => s.Enqueuing fd i) (Step config)) s acts u ∧ u.Enqueuing fd i ∧
      Step config u act t ∧ t.acceptor = if result then .accepting else .reject fd

/-- Worker `i` is handed no more clients, and has none left. -/
structure Closed (config : AppConfig) (s : System n) (i : Fin n) : Prop where
  refuses : ∀ fd t, ¬ EnqueueReturns config s fd i true t
  empty : (∀ fd, ¬ s.Enqueuing fd i) → (s.workers i).queue = []

/-- `enqueue` asks for the flag and for room only: undisturbed, it returns true
whether or not the worker's thread is still there. -/
theorem enqueue_true {fd : Fd} {i : Fin n} (hpc : s.acceptor = .enqueueTest fd i)
    (hrun : (s.workers i).running = true) (hlen : (s.workers i).queue.length < config.backlog * 4) :
    ∃ acts t, Run (Guarded NotifyOk (Step config)) s acts t ∧ EnqueueReturns config s fd i true t ∧
      t.acceptor = .accepting ∧ (t.workers i).pc = (s.workers i).pc ∧
      (t.workers i).queue = (s.workers i).queue ++ [fd] := by
  have hok : ∀ u : System n, NotifyOk u (.acceptor false) := fun _ h => by cases h
  let u : System n := { s with acceptor := .enqueuePush fd i }
  let v : System n := { u.setWorker i { u.workers i with
    queue := (u.workers i).queue ++ [fd]
    enqueued := (u.workers i).enqueued ++ [fd] } with acceptor := .enqueueWrite fd i }
  have h₁ : Step config s (.acceptor false) u := .running fd i hpc hrun
  have h₂ : Step config u (.acceptor false) v := .push fd i rfl hlen
  have h₃ : Step config v (.acceptor false) _ := .notified fd i rfl
  refine ⟨_, _, ((Run.nil.snoc ⟨hok _, h₁⟩).snoc ⟨hok _, h₂⟩).snoc ⟨hok _, h₃⟩, ⟨hpc, _, _, _,
    (Run.nil.snoc ⟨Or.inl hpc, h₁⟩).snoc ⟨Or.inr (Or.inl rfl), h₂⟩, Or.inr (Or.inr rfl), h₃, rfl⟩,
    rfl, ?_, ?_⟩
  · simp [u, v, setWorker]
  · simp [u, v, setWorker]

end System

/-- **A worker that has left its loop accepts no more clients**, in every run
in which `epoll_wait` of a worker that has not been stopped fails with
`EINTR` only. -/
theorem run_closed {n : Nat} (config : AppConfig) {s₀ s : System n} {acts : List (SystemAct n)}
    (hstart : System.Start s₀) (hrun : Run (Guarded System.EpollOk (System.Step config)) s₀ acts s)
    (i : Fin n) (hpc : (s.workers i).pc = .stopped) : s.Closed config i := by
  have h : s.Stopping :=
    hrun.invariant (fun _ _ _ hs ha => hs.step ha.1 ha.2) hstart.stopping
  have hi := h.workers i
  have hleft : (s.workers i).pc.left = true := by rw [hpc]; rfl
  have hdrained : (s.workers i).pc.drained = true := by rw [hpc]; rfl
  refine ⟨?_, fun _ => hi.drained hdrained⟩
  -- the worker was stopped, so the acceptor is past its last client
  rintro fd t ⟨hcall, -⟩
  have hstop := hi.stopped (hi.left hleft)
  rw [hcall] at hstop
  cases hstop

/-- The worker of the small process serves client 6 and has client 8 in its queue when it is stopped: it
refuses the one and closes the session of the other. -/
theorem run_closed_stopped : ∃ acts s,
    Run (Guarded System.EpollOk (System.Step Demo.config)) Demo.start acts s ∧
      (s.workers 0).pc = .stopped ∧ (s.workers 0).enqueued = [6, 8] ∧ s.closed 6 = 1 ∧ s.closed 8 = 1 ∧
      s.Closed Demo.config 0 := by
  have r := Demo.reaches_serving
  have r := r.acceptor (.accept 8 rfl rfl)
  have r := r.acceptor (.configured 8 0 rfl)
  have r := r.acceptor (.running 8 0 rfl rfl)
  have r := r.acceptor (.push 8 0 rfl (by decide))
  have r := r.acceptor (.notified 8 0 rfl)
  have r := r.acceptor (.shutdown rfl)
  have r := r.acceptor (.stop 0 rfl rfl)
  have r := r.acceptor (.stopNotified 0 rfl)
  -- the queue is drained, and its client is refused
  have r := r.worker (.waited [⟨4, EPOLLIN, none⟩] rfl (by decide) (by decide) (by simpa using ⟨_, rfl⟩)) trivial
  have r := r.worker (.wake _ _ rfl rfl) trivial
  have r := r.worker (.readWake _ rfl (by decide)) trivial
  have r := r.worker (.wakeEmpty _ rfl rfl) trivial
  have r := r.worker (.swap _ rfl) trivial
  have r := r.worker (.refuse 8 _ _ rfl rfl) trivial
  have r := r.worker (.clean (.closeClient 8) _ _ _ rfl) trivial
  have r := r.worker (.cleaned _ _ rfl) trivial
  have r := r.worker (.drained _ rfl) trivial
  have r := r.worker (.batchDone rfl) trivial
  have r := r.worker (.collect [] rfl (by decide)) trivial
  have r := r.worker (.allClosed _ _ rfl) trivial
  have r := r.worker (.sweepSoon _ 0 rfl (by decide)) trivial
  have r := r.worker (.dropped _ rfl) trivial
  -- the loop is left, and the session is closed
  have r := r.worker (.leave rfl rfl) trivial
  have r := r.worker (.swap _ rfl) trivial
  have r := r.worker (.drained _ rfl) trivial
  have r := r.worker (.queueEmpty rfl rfl) trivial
  have r := r.worker (.finalCollect [1] rfl (by decide)) trivial
  have r := r.worker (.closeSession 1 _ _ _ _ rfl rfl (by decide)) trivial
  have r := r.worker (.onClosedLoad _ _ _ rfl) trivial
  have r := r.worker (.onClosedSub _ _ _ _ rfl) trivial
  have r := r.worker (.allClosed _ _ rfl) trivial
  have r := r.worker (.dropLast 1 _ _ _ rfl rfl (by decide)) trivial
  have r := r.worker (.destroy _ _ _ _ rfl) trivial
  have r := r.worker (.destroy _ _ _ _ rfl) trivial
  have r := r.worker (.destroy _ _ _ _ rfl) trivial
  have r := r.worker (.destroy _ _ _ _ rfl) trivial
  have r := r.worker (.destroyed _ _ rfl) trivial
  have r := r.worker (.dropped _ rfl) trivial
  obtain ⟨acts, hrun⟩ := r.epollOk
  exact ⟨acts, _, hrun, rfl, rfl, rfl, rfl, run_closed Demo.config Demo.start_start hrun 0 rfl⟩

/-- `epoll_wait` of the worker of the small process fails and its thread ends;
then a client arrives. -/
theorem Demo.ended : ∃ acts s,
    Run (Guarded System.NotifyOk (System.Step Demo.config)) Demo.start acts s ∧
      (s.workers 0).pc = .stopped ∧ (s.workers 0).running = true ∧ (s.workers 0).queue = [] ∧
      s.acceptor = .enqueueTest 6 (0 : Fin 1) := by
  have ok : ∀ (u : System 1) error, System.NotifyOk u (.worker 0 error) := fun _ _ h => by cases h
  have ok' : ∀ u : System 1, System.NotifyOk u (.acceptor false) := fun _ h => by cases h
  have r : Run (Guarded System.NotifyOk (System.Step Demo.config)) Demo.start [] _ := .nil
  have r := r.snoc ⟨ok _ _, Demo.step_worker (.enter rfl rfl) trivial⟩
  have r := r.snoc ⟨ok _ _, Demo.step_worker (.waitError rfl) trivial⟩
  have r := r.snoc ⟨ok _ _, Demo.step_worker (.swap _ rfl) trivial⟩
  have r := r.snoc ⟨ok _ _, Demo.step_worker (.drained _ rfl) trivial⟩
  have r := r.snoc ⟨ok _ _, Demo.step_worker (.queueEmpty rfl rfl) trivial⟩
  have r := r.snoc ⟨ok _ _, Demo.step_worker (.finalCollect [] rfl (by decide)) trivial⟩
  have r := r.snoc ⟨ok _ _, Demo.step_worker (.allClosed _ _ rfl) trivial⟩
  have r := r.snoc ⟨ok _ _, Demo.step_worker (.dropped _ rfl) trivial⟩
  have r := r.snoc ⟨ok' _, .accept 6 rfl rfl⟩
  have r := r.snoc ⟨ok' _, .configured 6 0 rfl⟩
  exact ⟨_, _, r, rfl, rfl, rfl, rfl⟩

/-- After an error of `epoll_wait` the next client is put into the queue of the
ended worker, `enqueue` returns true, and nobody will serve or close it. -/
theorem enqueue_after_epoll_error : ∃ acts s acts' t,
    Run (Guarded System.NotifyOk (System.Step Demo.config)) Demo.start acts s ∧
      (s.workers 0).pc = .stopped ∧ System.EnqueueReturns Demo.config s 6 0 true t ∧
      Run (Guarded System.NotifyOk (System.Step Demo.config)) s acts' t ∧
      (t.workers 0).pc = .stopped ∧ t.acceptor = .accepting ∧ (t.workers 0).queue = [6] ∧
      ¬ s.Closed Demo.config 0 ∧ ¬ t.Closed Demo.config 0 := by
  obtain ⟨acts, s, r, hpc, hrunning, hqueue, hacc⟩ := Demo.ended
  have hroom : (s.workers 0).queue.length < Demo.config.backlog * 4 := by rw [hqueue]; decide
  obtain ⟨acts', t, hrun, hcall, hacc', hpc', hqueue'⟩ := System.enqueue_true hacc hrunning hroom
  rw [hqueue, List.nil_append] at hqueue'
  refine ⟨acts, s, acts', t, r, hpc, hcall, hrun, hpc'.trans hpc, hacc', hqueue',
    fun h => h.refuses _ _ hcall, fun h => ?_⟩
  have hempty := h.empty (fun fd hf => by rcases hf with hf | hf | hf <;> rw [hacc'] at hf <;> cases hf)
  rw [hqueue'] at hempty
  cases hempty

end FluxGate
