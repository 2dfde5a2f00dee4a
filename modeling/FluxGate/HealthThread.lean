import FluxGate.Health

/-!
# The health thread and `stop()`

`run()` checks once, then waits on a condition variable for the next round.
`wait_for` with a predicate tests it, and while it does not hold releases the
mutex and blocks in one step; woken by a notification, spuriously or by the
timeout, it takes the mutex again, and tests again unless it timed out.
`stop()` stores the flag and notifies, without the mutex.

So both halves of `stop()` can fall between the test of the predicate and the
block: the notification finds nobody waiting, and the thread then blocks for
the whole interval. In every other position of `stop()` nothing is lost.
-/

namespace FluxGate

open Lib

/-- Where the health thread is in `run()`. -/
inductive HealthPc where
  | callCheck
  | checkOnce
  | lock
  | loopTest
  /-- the test of the predicate inside `wait_for` -/
  | predicate
  /-- the predicate did not hold; about to release the mutex and block -/
  | block
  | blocked (notified : Bool)
  | relock (timedOut : Bool)
  /-- the last test of the predicate, after a timeout -/
  | lastTest
  | breakTest
  | unlock
  | finished
  deriving DecidableEq, Repr

/-- The caller of `stop()`: outside, or between its store and `notify_all`. -/
inductive StopPc where
  | outside
  | notifying
  deriving DecidableEq, Repr

structure HealthThread where
  health : HealthState
  running : Bool
  mutex : Bool
  pc : HealthPc
  stop : StopPc
  /-- some call of `stop()` has returned -/
  stopReturned : Bool

inductive HealthThreadAct where
  | run
  | check (a : HealthAct)
  | wake (timedOut : Bool)
  | data (i : Nat) (op : DataOp)
  | store
  | notifyAll
  deriving DecidableEq, Repr

namespace HealthThread

/-- As `start()` leaves it. -/
def start (configs : List BackendConfig) : HealthThread where
  health := .start configs
  running := true
  mutex := false
  pc := .callCheck
  stop := .outside
  stopReturned := false

def goto (s : HealthThread) (pc : HealthPc) : HealthThread := { s with pc := pc }

/-- The end of `run()`: the lock is released. -/
def finish (s : HealthThread) : HealthThread := { s with mutex := false, pc := .finished }

/-- The next step of the health thread on its own. -/
def advance (s : HealthThread) : Option HealthThread :=
  match s.pc with
  | .callCheck => some { s with health := s.health.goto 0, pc := .checkOnce }
  | .checkOnce => if s.health.position = .waiting then some (s.goto .lock) else none
  | .lock => if s.mutex then none else some { s with mutex := true, pc := .loopTest }
  | .loopTest => some (if s.running then s.goto .predicate else s.finish)
  | .predicate => some (s.goto (if s.running then .block else .breakTest))
  | .block => some { s with mutex := false, pc := .blocked false }
  | .blocked _ => none
  | .relock timedOut =>
    if s.mutex then none
    else some { s with mutex := true, pc := if timedOut then .lastTest else .predicate }
  | .lastTest => some (s.goto .breakTest)
  | .breakTest => some (if s.running then s.goto .unlock else s.finish)
  | .unlock => some { s with mutex := false, pc := .callCheck }
  | .finished => none

def step (F S : UInt64) (s : HealthThread) : HealthThreadAct → Option HealthThread
  | .run => s.advance
  | .check a =>
    match s.pc, a with
    | .checkOnce, .waitForConnect _ | .checkOnce, .loadHealthy | .checkOnce, .update =>
      (s.health.step F S a).map fun h => { s with health := h }
    | _, _ => none
  | .wake timedOut =>
    match s.pc with
    | .blocked _ => some (s.goto (.relock timedOut))
    | _ => none
  | .data i op => (s.health.step F S (.data i op)).map fun h => { s with health := h }
  | .store =>
    match s.stop with
    | .outside => some { s with running := false, stop := .notifying }
    | .notifying => none
  | .notifyAll =>
    match s.stop with
    | .notifying =>
      some { s with
        pc := match s.pc with
          | .blocked _ => .blocked true
          | pc => pc
        stop := .outside
        stopReturned := true }
    | .outside => none

/-- `stop()` has returned, and the thread is blocked and has not been
notified since: it will sleep until the interval has passed. -/
def Lost (s : HealthThread) : Prop := s.stopReturned = true ∧ s.pc = .blocked false

/-- `notify_all` does not run between a test of the predicate that found the
flag set and the block that follows. -/
def Heard (s : HealthThread) (a : HealthThreadAct) : Prop := a = .notifyAll → s.pc ≠ .block

instance (s : HealthThread) (a : HealthThreadAct) : Decidable (s.Heard a) :=
  inferInstanceAs (Decidable (_ → _))

/-- A thread about to block or blocked unnotified has seen no `stop()`. -/
structure Awake (s : HealthThread) : Prop where
  returned : s.stopReturned = true → s.running = false
  notifying : s.stop = .notifying → s.running = false
  waiting : s.pc = .block ∨ s.pc = .blocked false → s.stopReturned = false

variable {F S : UInt64} {s s' : HealthThread}

/-- The thread goes somewhere else than to the block. -/
theorem Awake.goto (h : s.Awake) {health : HealthState} {mutex : Bool} {pc : HealthPc}
    (hpc : pc = .block ∨ pc = .blocked false → s.stopReturned = false) :
    ({ s with health := health, mutex := mutex, pc := pc } : HealthThread).Awake :=
  ⟨h.returned, h.notifying, hpc⟩

theorem Awake.advance (h : s.Awake) (hs : s.advance = some s') : s'.Awake := by
  have haway : ∀ {health mutex pc}, pc ≠ .block → pc ≠ .blocked false →
      ({ s with health := health, mutex := mutex, pc := pc } : HealthThread).Awake :=
    fun hb hn => h.goto (fun hor => hor.elim (fun he => absurd he hb) (fun he => absurd he hn))
  unfold HealthThread.advance at hs
  cases hpc : s.pc with
  | callCheck =>
    rw [hpc] at hs
    cases hs
    exact haway (by decide) (by decide)
  | checkOnce =>
    simp only [hpc] at hs
    split at hs
    · cases hs
      exact haway (by decide) (by decide)
    · cases hs
  | lock =>
    simp only [hpc] at hs
    split at hs
    · cases hs
    · cases hs
      exact haway (by decide) (by decide)
  | loopTest =>
    simp only [hpc, Option.some.injEq] at hs
    split at hs
    · subst hs
      exact haway (by decide) (by decide)
    · subst hs
      exact haway (by decide) (by decide)
  | predicate =>
    simp only [hpc, Option.some.injEq] at hs
    subst hs
    -- the flag was found set, so no `stop()` has returned
    refine h.goto (fun hor => ?_)
    cases hrun : s.running with
    | true =>
      by_contra hret
      rw [h.returned (by simpa using hret)] at hrun
      cases hrun
    | false =>
      rw [hrun] at hor
      rcases hor with hor | hor <;> cases hor
  | block =>
    rw [hpc] at hs
    cases hs
    exact h.goto (fun _ => h.waiting (Or.inl hpc))
  | blocked notified =>
    rw [hpc] at hs
    cases hs
  | relock timedOut =>
    simp only [hpc] at hs
    split at hs
    · cases hs
    · cases hs
      cases timedOut <;> exact haway (by decide) (by decide)
  | lastTest =>
    rw [hpc] at hs
    cases hs
    exact haway (by decide) (by decide)
  | breakTest =>
    simp only [hpc, Option.some.injEq] at hs
    split at hs
    · subst hs
      exact haway (by decide) (by decide)
    · subst hs
      exact haway (by decide) (by decide)
  | unlock =>
    rw [hpc] at hs
    cases hs
    exact haway (by decide) (by decide)
  | finished =>
    rw [hpc] at hs
    cases hs

theorem Awake.step {a : HealthThreadAct} (h : s.Awake) (hheard : s.Heard a)
    (hs : s.step F S a = some s') : s'.Awake := by
  cases a with
  | run => exact h.advance hs
  | check a =>
    simp only [HealthThread.step] at hs
    split at hs
    · obtain ⟨g, -, rfl⟩ := Option.map_eq_some_iff.mp hs
      exact ⟨h.returned, h.notifying, h.waiting⟩
    · obtain ⟨g, -, rfl⟩ := Option.map_eq_some_iff.mp hs
      exact ⟨h.returned, h.notifying, h.waiting⟩
    · obtain ⟨g, -, rfl⟩ := Option.map_eq_some_iff.mp hs
      exact ⟨h.returned, h.notifying, h.waiting⟩
    · cases hs
  | wake timedOut =>
    simp only [HealthThread.step] at hs
    split at hs
    · cases hs
      exact h.goto (fun hor => by rcases hor with hor | hor <;> cases hor)
    · cases hs
  | data i op =>
    simp only [HealthThread.step] at hs
    obtain ⟨g, -, rfl⟩ := Option.map_eq_some_iff.mp hs
    exact ⟨h.returned, h.notifying, h.waiting⟩
  | store =>
    simp only [HealthThread.step] at hs
    split at hs
    · cases hs
      exact ⟨fun _ => rfl, fun _ => rfl, h.waiting⟩
    · cases hs
  | notifyAll =>
    simp only [HealthThread.step] at hs
    split at hs
    · rename_i hstop
      cases hs
      refine ⟨fun _ => h.notifying hstop, fun hst => (by cases hst), fun hor => ?_⟩
      -- whoever was blocked has been notified, and nobody is about to block
      exfalso
      have hblock := hheard rfl
      cases hpc : s.pc <;> simp_all
    · cases hs

theorem start_awake (configs : List BackendConfig) : (start configs).Awake :=
  ⟨fun h => (by cases h), fun h => (by cases h), fun h => (by rcases h with h | h <;> cases h)⟩

/-- A `notify_all` between the test and the block is lost: the thread's next
step is to block. -/
theorem lost_of_not_heard {a : HealthThreadAct} (hheard : ¬ s.Heard a) (hs : s.step F S a = some s') :
    ∃ s'', s'.step F S .run = some s'' ∧ s''.Lost := by
  obtain ⟨rfl, hpc⟩ : a = .notifyAll ∧ s.pc = .block := by
    unfold Heard at hheard
    push Not at hheard
    exact hheard
  simp only [step] at hs
  split at hs
  · cases hs
    refine ⟨{ s with mutex := false, pc := .blocked false, stop := .outside, stopReturned := true }, ?_,
      rfl, rfl⟩
    simp [step, advance, hpc]
  · cases hs

/-- **`stop()` is heard** in every run in which no `notify_all` falls between
a test of the predicate that found the flag set and the block that follows;
and where one does, the next step of the thread is to block unnotified. -/
theorem stop_heard (F S : UInt64) (configs : List BackendConfig) :
    (∀ acts s, Run (Guarded Heard (fun s a t => s.step F S a = some t)) (start configs) acts s →
        ¬ s.Lost) ∧
      ∀ (s : HealthThread) a s', ¬ s.Heard a → s.step F S a = some s' →
        ∃ s'', s'.step F S .run = some s'' ∧ s''.Lost := by
  refine ⟨fun acts s hrun hlost => ?_, fun s a s' hheard hs => lost_of_not_heard hheard hs⟩
  have h : s.Awake :=
    hrun.invariant (fun _ _ _ hi hstep => hi.step hstep.1 hstep.2) (start_awake configs)
  have hret := h.waiting (Or.inr hlost.2)
  rw [hlost.1] at hret
  cases hret

/-- `stop()` while the thread is blocked: it has been notified. -/
theorem stop_heard_blocked : ∃ acts s,
    Run (Guarded Heard (fun s a t => step 3 2 s a = some t)) (start [⟨"app", "127.0.0.1", 9001, 1⟩])
      acts s ∧ s.stopReturned = true ∧ s.pc = .blocked true ∧ ¬ s.Lost := by
  have hrun : Run (Guarded Heard (fun s a t => step 3 2 s a = some t))
      (start [⟨"app", "127.0.0.1", 9001, 1⟩])
      ([.run, .check (.waitForConnect true), .check .loadHealthy, .check .update] ++
        List.replicate 5 .run ++ [.store, .notifyAll]) _ := Run.of_foldlM rfl
  exact ⟨_, _, hrun, rfl, rfl, (stop_heard 3 2 _).1 _ _ hrun⟩

/-- Both halves of `stop()` fall between the test and the block of the first
wait; the thread then sleeps for the whole interval. -/
theorem stop_not_heard : ∃ acts s,
    Run (fun s a t => step 3 2 s a = some t) (start [⟨"app", "127.0.0.1", 9001, 1⟩]) acts s ∧
      s.Lost := by
  -- the first check, up to the test of the predicate
  have h₁ : Run (fun s a t => step 3 2 s a = some t) (start [⟨"app", "127.0.0.1", 9001, 1⟩]) _ _ :=
    (((Run.nil.snoc (a := .run) rfl).snoc (a := .check (.waitForConnect true)) rfl).snoc
      (a := .check .loadHealthy) rfl).snoc (a := .check .update) rfl
  have h₂ : Run (fun s a t => step 3 2 s a = some t) (start [⟨"app", "127.0.0.1", 9001, 1⟩]) _ _ :=
    (((h₁.snoc (a := .run) rfl).snoc (a := .run) rfl).snoc (a := .run) rfl).snoc (a := .run) rfl
  have h₃ : Run (fun s a t => step 3 2 s a = some t) (start [⟨"app", "127.0.0.1", 9001, 1⟩]) _ _ :=
    ((h₂.snoc (a := .store) rfl).snoc (a := .notifyAll) rfl).snoc (a := .run) rfl
  exact ⟨_, _, h₃, rfl, rfl⟩

end HealthThread

end FluxGate
