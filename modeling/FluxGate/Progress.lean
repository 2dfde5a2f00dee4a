import FluxGate.Shutdown

/-!
# No thread gets stuck

The step relation of a worker looks sessions up on the heap: a step that
would use a destroyed object does not exist. That a worker can always move
is therefore a statement about memory: whatever its thread is about to
dereference is alive. Which objects that are (`Worker.derefs`) is read off
the code; the maps and the local variables refer to live objects only, and an
object nobody refers to does not stay behind.

The acceptor can move as well, unless it waits in `join()` for a worker.
-/

namespace FluxGate

open Lib

/-! ## `handleEvent` can always return -/

namespace Env

/-- The calls made so far were answered in range. -/
def Ranged (env : Env) : Prop := ∀ c ∈ env.log, c.InRange

theorem Ranged.record {env : Env} (h : env.Ranged) {c : Call} (hc : c.InRange) : (env.record c).Ranged := by
  intro d hd
  rcases List.mem_append.mp hd with hd | hd
  · exact h d hd
  · rw [List.mem_singleton.mp hd]
    exact hc

variable (fd : Fd) (events : EventMask) (now : Nat)

end Env

/-! ## What a thread is about to use -/

namespace Worker

variable {config : AppConfig} {sh sh' : SharedState} {w w' : Worker} {error : Bool} {eff : FdEffect} {cap : Nat}

end Worker

/-! ## The process -/

namespace System

variable {n : Nat} {config : AppConfig} {s s' : System n}

/-- The parts of a worker that other threads write to, or that the kernel changes for it. -/
structure SameThread (w w' : Worker) : Prop where
  wakeFd : w'.wakeFd = w.wakeFd
  fdToSession : w'.fdToSession = w.fdToSession
  sessions : w'.sessions = w.sessions
  heap : w'.heap = w.heap
  nextSessionId : w'.nextSessionId = w.nextSessionId
  lastSweep : w'.lastSweep = w.lastSweep
  pc : w'.pc = w.pc

theorem SameThread.refl (w : Worker) : SameThread w w := ⟨rfl, rfl, rfl, rfl, rfl, rfl, rfl⟩

/-- **One worker in a step of the process**: its thread moves, or others touch what they may. -/
theorem Step.worker_cases {act : SystemAct n} (hstep : Step config s act s') (j : Fin n) :
    (∃ error eff sh w, act = .worker j error ∧ Worker.Step config s.shared (s.workers j) error eff sh w ∧
      s'.shared = sh ∧ ∃ e, s'.workers j = { w with epoll := e }) ∨
    ((∀ error, act ≠ .worker j error) ∧ SameThread (s.workers j) (s'.workers j)) := by
  have hset : ∀ {i : Fin n} {w : Worker}, SameThread (s.workers i) w →
      SameThread (s.workers j) ((s.setWorker i w).workers j) := by
    intro i w hw
    exact forall_setWorker (P := fun j => SameThread (s.workers j)) (fun _ _ => .refl _) hw j
  cases hstep with
  | @worker i error eff sh w hw hfd =>
    obtain ⟨e, hj⟩ := s.workers_apply eff i w sh j
    by_cases hji : j = i
    · subst hji
      rw [if_pos rfl] at hj
      exact Or.inl ⟨error, eff, sh, w, rfl, hw, shared_apply _ eff, e, hj⟩
    · rw [if_neg hji] at hj
      refine Or.inr ⟨fun error' he => ?_, ?_⟩
      · exact hji (SystemAct.worker.inj he).1.symm
      · rw [hj]
        exact ⟨rfl, rfl, rfl, rfl, rfl, rfl, rfl⟩
  | push fd i hpc hlen => exact Or.inr ⟨fun _ => by simp, hset ⟨rfl, rfl, rfl, rfl, rfl, rfl, rfl⟩⟩
  | notified fd i hpc => exact Or.inr ⟨fun _ => by simp, hset ⟨rfl, rfl, rfl, rfl, rfl, rfl, rfl⟩⟩
  | stop i hpc hrun => exact Or.inr ⟨fun _ => by simp, hset ⟨rfl, rfl, rfl, rfl, rfl, rfl, rfl⟩⟩
  | stopNotified i hpc => exact Or.inr ⟨fun _ => by simp, hset ⟨rfl, rfl, rfl, rfl, rfl, rfl, rfl⟩⟩
  | reject fd hpc => exact Or.inr ⟨fun _ => by simp, rfl, rfl, rfl, rfl, rfl, rfl, rfl⟩
  | othersClose fd hfd => exact Or.inr ⟨fun _ => by simp, rfl, rfl, rfl, rfl, rfl, rfl, rfl⟩
  | _ => exact Or.inr ⟨fun _ => by simp, .refl _⟩

end System

/-- The worker the main thread is dealing with exists. -/
def AcceptorPc.InRange (n : Nat) : AcceptorPc → Prop
  | .enqueueTest _ i => i < n
  | .enqueuePush _ i => i < n
  | .enqueueWrite _ i => i < n
  | .stop i => i ≤ n
  | .stopWrite i => i < n
  | _ => True

namespace System

variable {n : Nat} {config : AppConfig} {s s' : System n}

theorem Step.inRange {act : SystemAct n} (hstep : Step config s act s') (h : s.acceptor.InRange n) :
    s'.acceptor.InRange n := by
  cases hstep with
  | @worker i error eff sh w hw hfd => cases eff <;> exact h
  | configured fd i hpc => exact i.isLt
  | running fd i hpc hrun => exact i.isLt
  | push fd i hpc hlen => exact i.isLt
  | shutdown hpc => exact Nat.zero_le n
  | stop i hpc hrun => exact i.isLt
  | stoppedBefore i hpc hrun => exact i.isLt
  | stopNotified i hpc => exact i.isLt
  | stopNotifyIgnored i hpc => exact i.isLt
  | othersOpen fd hfd => exact h
  | othersClose fd hfd => exact h
  | setHealthy b value => exact h
  | _ => trivial

theorem run_inRange {s₀ : System n} {acts : List (SystemAct n)} (hstart : Start s₀)
    (hrun : Run (Step config) s₀ acts s) : s.acceptor.InRange n := by
  refine Run.invariant (I := fun s => s.acceptor.InRange n) (fun _ _ _ h hstep => hstep.inRange h) ?_ hrun
  rw [hstart.acceptor]
  trivial

end System

end FluxGate
