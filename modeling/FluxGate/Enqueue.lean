import FluxGate.Handover

/-!
# `Worker::enqueue` as a contract with the caller

`enqueue` returns true to say that the worker owns the descriptor now; on false
the caller closes it. The result is decided in three places: by the running
flag, by the limit of the queue, and by the write to the eventfd, which comes
after the descriptor has been put into the queue and the lock released. When
that write neither succeeds nor leaves `EAGAIN` in `errno`, `enqueue` returns
false with the descriptor still in the queue.
-/

namespace FluxGate

open Lib

/-- What `::write` of the eventfd returned, and `errno` after it. -/
structure WriteOutcome where
  result : Int
  errno : Errno
  deriving DecidableEq, Repr

namespace WriteOutcome

/-- `result == sizeof(signal)`. -/
def full (o : WriteOutcome) : Bool := o.result == 8

/-- What `enqueue` returns after its write. -/
def accepted (o : WriteOutcome) : Bool := o.full || o.errno == .eagain

end WriteOutcome

namespace Worker

/-- `queue_.push`, under the lock. -/
def pushClient (w : Worker) (clientFd : Fd) : Worker :=
  { w with queue := w.queue ++ [clientFd], enqueued := w.enqueued ++ [clientFd] }

/-- The write to the eventfd: it adds one to the counter if it is full. -/
def notify (w : Worker) (o : WriteOutcome) : Worker :=
  if o.full then { w with wakeCount := w.wakeCount + 1 } else w

def enqueue (config : AppConfig) (w : Worker) (clientFd : Fd) (o : WriteOutcome) : Bool × Worker :=
  if !w.running then (false, w)
  else
    let queueLimit := config.backlog * 4
    if w.queue.length ≥ queueLimit then (false, w)
    else (o.accepted, (w.pushClient clientFd).notify o)

/-- What the caller relies on. -/
structure EnqueueContract (config : AppConfig) (w : Worker) (clientFd : Fd) (o : WriteOutcome) : Prop where
  appended : (w.enqueue config clientFd o).1 = true ↔
    (w.enqueue config clientFd o).2.queue = w.queue ++ [clientFd]
  kept : (w.enqueue config clientFd o).1 = false → (w.enqueue config clientFd o).2.queue = w.queue
  bounded : w.queue.length ≤ config.backlog * 4 →
    (w.enqueue config clientFd o).2.queue.length ≤ config.backlog * 4

variable {config : AppConfig} {w : Worker} {clientFd : Fd} {o : WriteOutcome}

@[simp] theorem notify_queue : (w.notify o).queue = w.queue := by
  unfold notify
  split <;> rfl

/-- Neither the flag nor the limit refuses the client. -/
def Admits (config : AppConfig) (w : Worker) : Prop :=
  w.running = true ∧ w.queue.length < config.backlog * 4

theorem enqueue_refused (h : ¬ w.Admits config) : w.enqueue config clientFd o = (false, w) := by
  unfold enqueue
  cases hrun : w.running with
  | false => rfl
  | true =>
    have hfull : ¬ w.queue.length < config.backlog * 4 := fun hlt => h ⟨hrun, hlt⟩
    simp only [Bool.not_true, Bool.false_eq_true, ↓reduceIte]
    rw [if_pos (Nat.le_of_not_lt hfull)]

theorem enqueue_admitted (h : w.Admits config) :
    w.enqueue config clientFd o = (o.accepted, (w.pushClient clientFd).notify o) := by
  unfold enqueue
  simp only [h.1, Bool.not_true, Bool.false_eq_true, ↓reduceIte]
  rw [if_neg (Nat.not_le_of_lt h.2)]

theorem append_singleton_ne (queue : List Fd) (fd : Fd) : queue ≠ queue ++ [fd] := by
  intro h
  have hlen := congrArg List.length h
  simp at hlen

/-- The queue does not outgrow its limit, whatever the write does. -/
theorem enqueue_bounded (config : AppConfig) (w : Worker) (clientFd : Fd) (o : WriteOutcome)
    (h : w.queue.length ≤ config.backlog * 4) :
    (w.enqueue config clientFd o).2.queue.length ≤ config.backlog * 4 := by
  by_cases hadm : w.Admits config
  · rw [enqueue_admitted hadm, notify_queue]
    have hlt := hadm.2
    simp only [pushClient, List.length_append, List.length_singleton]
    omega
  · rw [enqueue_refused hadm]
    exact h

/-- **`enqueue`'s ownership contract** holds iff the client is refused before it
is put into the queue, or the write is full, or it leaves `EAGAIN` in `errno`;
the limit of the queue is kept in all cases. -/
theorem enqueue_contract_iff (config : AppConfig) (w : Worker) (clientFd : Fd) (o : WriteOutcome) :
    (w.EnqueueContract config clientFd o ↔
        w.running = false ∨ config.backlog * 4 ≤ w.queue.length ∨ o.result = 8 ∨ o.errno = .eagain) ∧
      (w.queue.length ≤ config.backlog * 4 →
        (w.enqueue config clientFd o).2.queue.length ≤ config.backlog * 4) := by
  refine ⟨?_, enqueue_bounded config w clientFd o⟩
  have haccepted : o.accepted = true ↔ o.result = 8 ∨ o.errno = .eagain := by
    simp [WriteOutcome.accepted, WriteOutcome.full]
  by_cases hadm : w.Admits config
  · have hqueue : (w.enqueue config clientFd o).2.queue = w.queue ++ [clientFd] := by
      rw [enqueue_admitted hadm, notify_queue]
      rfl
    have hresult : (w.enqueue config clientFd o).1 = o.accepted := by rw [enqueue_admitted hadm]
    constructor
    · intro h
      right
      right
      rw [← haccepted, ← hresult]
      exact h.appended.mpr hqueue
    · rintro (hrun | hfull | hwrite)
      · rw [hadm.1] at hrun
        cases hrun
      · exact absurd hadm.2 (Nat.not_lt_of_le hfull)
      · have htrue : (w.enqueue config clientFd o).1 = true := hresult.trans (haccepted.mpr hwrite)
        refine ⟨iff_of_true htrue hqueue, fun hfalse => ?_, enqueue_bounded config w clientFd o⟩
        rw [htrue] at hfalse
        cases hfalse
  · have hsame : w.enqueue config clientFd o = (false, w) := enqueue_refused hadm
    constructor
    · intro _
      by_cases hrun : w.running = true
      · exact Or.inr (Or.inl (Nat.le_of_not_lt fun hlt => hadm ⟨hrun, hlt⟩))
      · exact Or.inl (by simpa using hrun)
    · intro _
      refine ⟨?_, fun _ => by rw [hsame], enqueue_bounded config w clientFd o⟩
      rw [hsame]
      exact iff_of_false (by simp) (append_singleton_ne w.queue clientFd)

/-- The write fails with `EBADF`: false is returned, and the client stays in the queue. -/
theorem enqueue_keeps_refused_client :
    let w := System.newWorker 3 4
    let o : WriteOutcome := ⟨-1, .other 9⟩
    (w.enqueue {} 6 o).1 = false ∧ (w.enqueue {} 6 o).2.queue = [6] ∧ ¬ w.EnqueueContract {} 6 o := by
  refine ⟨by decide, by decide, fun h => ?_⟩
  have hqueue := h.kept (by decide)
  exact absurd hqueue (by decide)

end Worker

/-- A worker takes clients from its queue and puts none into it. -/
theorem Worker.Step.queue_length_le {config : AppConfig} {sh sh' : SharedState} {w w' : Worker}
    {error : Bool} {eff : FdEffect} (hstep : Worker.Step config sh w error eff sh' w') :
    w'.queue.length ≤ w.queue.length := by
  cases hstep
  case handled result _ _ _ _ _ _ _ _ => cases result <;> exact Nat.le_refl _
  case swap => exact Nat.zero_le _
  case closeQueued c queue hpc hq =>
    rw [hq]
    exact Nat.le_succ _
  all_goals exact Nat.le_refl _

/-! ## The call in the process -/

namespace System

variable {n : Nat} {config : AppConfig} {s : System n}

/-- The steps of the acceptor through an undisturbed call of `enqueue` are the
function `enqueue`; the eventfd answers `EAGAIN` only if its counter is positive. -/
theorem enqueue_run {fd : Fd} {i : Fin n} {o : WriteOutcome} (hpc : s.acceptor = .enqueueTest fd i)
    (hagain : o.full = false → o.errno = .eagain → 0 < (s.workers i).wakeCount) :
    ∃ acts, Run (Step config) s acts
      { s.setWorker i ((s.workers i).enqueue config fd o).2 with
        acceptor := if ((s.workers i).enqueue config fd o).1 then .accepting else .reject fd } := by
  by_cases hadm : (s.workers i).Admits config
  · rw [Worker.enqueue_admitted hadm]
    have h₁ : Step config s (.acceptor false) { s with acceptor := .enqueuePush fd i } :=
      .running fd i hpc hadm.1
    have h₂ : Step config { s with acceptor := .enqueuePush fd i } (.acceptor false)
        { s.setWorker i ((s.workers i).pushClient fd) with acceptor := .enqueueWrite fd i } :=
      .push fd i rfl hadm.2
    have hpush := (Run.nil.snoc h₁).snoc h₂
    cases hfull : o.full with
    | true =>
      refine ⟨_, hpush.snoc (a := .acceptor false) ?_⟩
      have h₃ : Step config { s.setWorker i ((s.workers i).pushClient fd) with
        acceptor := .enqueueWrite fd i } (.acceptor false) _ := .notified fd i rfl
      simpa [setWorker, Worker.notify, hfull, WriteOutcome.accepted] using h₃
    | false =>
      have hkeep : ((s.workers i).pushClient fd).notify o = (s.workers i).pushClient fd := by
        simp [Worker.notify, hfull]
      by_cases heagain : o.errno = .eagain
      · refine ⟨_, hpush.snoc (a := .acceptor false) ?_⟩
        have hcount : 0 < (((s.setWorker i ((s.workers i).pushClient fd)).workers i).wakeCount) := by
          simpa [setWorker, Worker.pushClient] using hagain hfull heagain
        have h₃ : Step config { s.setWorker i ((s.workers i).pushClient fd) with
          acceptor := .enqueueWrite fd i } (.acceptor false) _ := .notifyAgain fd i rfl hcount
        simpa [hkeep, heagain, WriteOutcome.accepted] using h₃
      · refine ⟨_, hpush.snoc (a := .acceptor true) ?_⟩
        have h₃ : Step config { s.setWorker i ((s.workers i).pushClient fd) with
          acceptor := .enqueueWrite fd i } (.acceptor true) _ := .notifyFailed fd i rfl
        simpa [hkeep, heagain, hfull, WriteOutcome.accepted] using h₃
  · rw [Worker.enqueue_refused hadm]
    have hsame : s.setWorker i (s.workers i) = s := by simp [setWorker]
    have hreject : ∀ act, Step config s act { s with acceptor := .reject fd } → ∃ acts,
        Run (Step config) s acts { s.setWorker i (s.workers i) with acceptor := .reject fd } := by
      intro act hstep
      rw [hsame]
      exact ⟨_, Run.nil.snoc hstep⟩
    cases hrun : (s.workers i).running with
    | false => exact hreject _ (.notRunning fd i hpc hrun)
    | true =>
      have hfull : config.backlog * 4 ≤ (s.workers i).queue.length :=
        Nat.le_of_not_lt fun hlt => hadm ⟨hrun, hlt⟩
      -- the flag is tested first
      have h₁ : Step config s (.acceptor false) { s with acceptor := .enqueuePush fd i } :=
        .running fd i hpc hrun
      refine ⟨_, (Run.nil.snoc h₁).snoc (a := .acceptor false) ?_⟩
      have h₂ : Step config { s with acceptor := .enqueuePush fd i } (.acceptor false) _ :=
        .queueFull fd i rfl hfull
      simpa [hsame] using h₂

/-- Only `enqueue` makes a queue longer, and never beyond the limit. -/
theorem run_queue_bounded {s₀ : System n} {acts : List (SystemAct n)} (hstart : Start s₀)
    (hrun : Run (Step config) s₀ acts s) (i : Fin n) :
    (s.workers i).queue.length ≤ config.backlog * 4 := by
  refine hrun.invariant (I := fun s => ∀ i, (s.workers i).queue.length ≤ config.backlog * 4) ?_ ?_ i
  · intro s act s' h hstep
    cases hstep with
    | @worker j error eff sh w hstep hfd =>
      intro i
      obtain ⟨e, hi⟩ := s.workers_apply eff j w sh i
      rw [hi]
      show (if i = j then w else s.workers i).queue.length ≤ _
      split
      · exact Nat.le_trans hstep.queue_length_le (h j)
      · exact h i
    | push fd j hpc hlen =>
      refine forall_setWorker (P := fun _ w => w.queue.length ≤ config.backlog * 4) (fun i _ => h i) ?_
      rw [List.length_append, List.length_singleton]
      exact hlen
    | notified fd j hpc =>
      exact forall_setWorker (P := fun _ w => w.queue.length ≤ config.backlog * 4) (fun i _ => h i) (h j)
    | stop j hpc hr =>
      exact forall_setWorker (P := fun _ w => w.queue.length ≤ config.backlog * 4) (fun i _ => h i) (h j)
    | stopNotified j hpc =>
      exact forall_setWorker (P := fun _ w => w.queue.length ≤ config.backlog * 4) (fun i _ => h i) (h j)
    | _ => exact h
  · intro i
    obtain ⟨wakeFd, epollFd, hw⟩ := hstart.workers i
    rw [hw]
    exact Nat.zero_le _

end System

end FluxGate
