import FluxGate.Shared
import Mathlib.Data.Fin.Basic

/-!
# `BackendPool::acquire`, load by load

The scan runs under `selectionMutex_`, but the counters and health flags it
loads are atomics that other threads go on changing, so every load is a step
of its own. The products are 64-bit and wrap.
-/

namespace FluxGate

/-- A pool of `n` backends; the constructor refuses an empty one. -/
structure BackendPool (n : Nat) where
  backends : Fin n → Backend
  tieBreaker : Nat

namespace BackendPool

variable {n : Nat}

/-- One atomic operation on one backend. -/
def onBackend (pool : BackendPool n) (b : Fin n) (f : Backend → Backend) : BackendPool n :=
  { pool with backends := Function.update pool.backends b (f (pool.backends b)) }

def active (pool : BackendPool n) (b : Fin n) : Nat := (pool.backends b).activeConnections

@[simp] theorem onBackend_self (pool : BackendPool n) (b : Fin n) (f : Backend → Backend) :
    (pool.onBackend b f).backends b = f (pool.backends b) :=
  Function.update_self ..

theorem onBackend_of_ne {b c : Fin n} (h : c ≠ b) (pool : BackendPool n)
    (f : Backend → Backend) : (pool.onBackend b f).backends c = pool.backends c :=
  Function.update_of_ne h ..

theorem active_onBackend (pool : BackendPool n) (b c : Fin n) (f : Backend → Backend) :
    (pool.onBackend b f).active c =
      if c = b then (f (pool.backends b)).activeConnections else pool.active c := by
  by_cases h : c = b
  · subst h
    simp [active]
  · simp [active, onBackend_of_ne h, h]

end BackendPool

/-- Where a call of `acquire` is, between taking the mutex and building the
lease. -/
inductive Scan (n : Nat) where
  | ticket
  | head (start offset : Nat) (selected : Option (Fin n))
  | loadLeft (start offset : Nat) (candidate selected : Fin n)
  | loadRight (start offset : Nat) (candidate selected : Fin n) (left : Nat)
  | done (selected : Option (Fin n))
  deriving DecidableEq, Repr

namespace Scan

variable {n : Nat} [NeZero n]

/-- `(start + offset) % backends_.size()`. -/
def index (start offset : Nat) : Fin n := Fin.ofNat n (start + offset)

/-- The next atomic step of the scan. -/
def step (pool : BackendPool n) : Scan n → BackendPool n × Scan n
  | .ticket =>
    ({ pool with tieBreaker := (pool.tieBreaker + 1) % 2 ^ 64 }, .head (pool.tieBreaker % n) 0 none)
  | .head start offset selected =>
    if offset < n then
      let candidate : Fin n := index start offset
      if !(pool.backends candidate).healthy then (pool, .head start (offset + 1) selected)
      else match selected with
        | none => (pool, .head start (offset + 1) (some candidate))
        | some selected => (pool, .loadLeft start offset candidate selected)
    else (pool, .done selected)
  | .loadLeft start offset candidate selected =>
    (pool, .loadRight start offset candidate selected
      (pool.active candidate * (pool.backends selected).weight % 2 ^ 64))
  | .loadRight start offset candidate selected left =>
    let right := pool.active selected * (pool.backends candidate).weight % 2 ^ 64
    (pool, .head start (offset + 1) (some (if left < right then candidate else selected)))
  | .done selected => (pool, .done selected)

/-- The scan changes no backend. -/
theorem step_backends (pool : BackendPool n) (scan : Scan n) :
    (scan.step pool).1.backends = pool.backends := by
  cases scan with
  | ticket => rfl
  | head start offset selected =>
    simp only [step]
    split
    · split
      · rfl
      · cases selected <;> rfl
    · rfl
  | loadLeft start offset candidate selected => rfl
  | loadRight start offset candidate selected left => rfl
  | done selected => rfl

end Scan

end FluxGate
