import FluxGate.System
import FluxGate.Lib.FirstMin

/-!
# `selectWorker`: which worker gets the next client

The loop looks at the workers from the cursor on and takes the first of the
least loaded ones it meets. The sum of cursor and offset is a `std::size_t`, and
unlike the scan of `BackendPool::acquire` the loop does not reduce the cursor
first. So when the sum passes `2 ^ 64` the walk jumps from where it is to worker
0; unless the number of workers divides `2 ^ 64`, that leaves workers out
(`selectWorker_iff`).
-/

namespace FluxGate

open Lib

variable {n : Nat} [NeZero n]

/-- `(cursor + i) % workers.size()`. -/
def dispatchIndex (n : Nat) [NeZero n] (cursor : UInt64) (i : Nat) : Fin n :=
  Fin.ofNat n (cursor + UInt64.ofNat i).toNat

/-- `selected` and `minimum` before the loop and after its first turns. -/
def selectLoop (workers : Fin n → Worker) (cursor : UInt64) : Nat → Fin n × Nat
  | 0 =>
    let selected := Fin.ofNat n cursor.toNat
    (selected, (workers selected).activeSessions)
  | i + 1 =>
    let (selected, minimum) := selectLoop workers cursor i
    let index := dispatchIndex n cursor (i + 1)
    let active := (workers index).activeSessions
    if active < minimum then (index, active) else (selected, minimum)

def selectWorker (workers : Fin n → Worker) (cursor : UInt64) : Fin n :=
  (selectLoop workers cursor (n - 1)).1

/-- `w` is, of the workers with the fewest sessions, the first in cyclic order
from `cursor % n` on. -/
def LeastLoaded (workers : Fin n → Worker) (cursor : UInt64) (w : Fin n) : Prop :=
  Elected (fun _ => True) (fun w => (workers w).activeSessions) (cursor.toNat % n) w

/-! ## The walk of the loop -/

section Walk

variable {cursor : UInt64} {i : Nat}

theorem dispatchIndex_eq (n : Nat) [NeZero n] (cursor : UInt64) (i : Nat) :
    dispatchIndex n cursor i = Fin.ofNat n ((cursor.toNat + i) % 2 ^ 64) := by
  rw [dispatchIndex, UInt64.toNat_add, UInt64.toNat_ofNat', Nat.add_mod_mod]

/-- As long as the sum does not wrap the walk goes round. -/
theorem dispatchIndex_turn (h : cursor.toNat + i < 2 ^ 64) :
    dispatchIndex n cursor i = turn n cursor.toNat i := by
  rw [dispatchIndex_eq, Nat.mod_eq_of_lt h]
  rfl

/-- After the sum has wrapped it goes up from worker 0. -/
theorem dispatchIndex_wrapped {w : Fin n} (h : cursor.toNat + i = 2 ^ 64 + w.val) (hn : n < 2 ^ 64) :
    dispatchIndex n cursor i = w := by
  have hw : w.val < 2 ^ 64 := Nat.lt_trans w.isLt hn
  rw [dispatchIndex_eq, h, Nat.add_mod_left, Nat.mod_eq_of_lt hw, ofNat_val]

omit [NeZero n] in
/-- A position after the wrap, with the worker met there. -/
theorem exists_wrapped (hi : i < n) (h : 2 ^ 64 ≤ cursor.toNat + i) :
    ∃ w : Fin n, cursor.toNat + i = 2 ^ 64 + w.val := by
  have hc := cursor.toNat_lt
  exact ⟨⟨cursor.toNat + i - 2 ^ 64, by omega⟩, by simp only; omega⟩

theorem selectLoop_found (workers : Fin n → Worker) (cursor : UInt64) (k : Nat) :
    Found (dispatchIndex n cursor) (fun _ => True) (fun w => (workers w).activeSessions) (k + 1)
        (some (selectLoop workers cursor k).1) ∧
      (selectLoop workers cursor k).2 = (workers (selectLoop workers cursor k).1).activeSessions := by
  induction k with
  | zero =>
    have hfirst : dispatchIndex n cursor 0 = Fin.ofNat n cursor.toNat := by
      rw [dispatchIndex_eq, Nat.add_zero, Nat.mod_eq_of_lt cursor.toNat_lt]
    refine ⟨?_, rfl⟩
    have htake : Found (dispatchIndex n cursor) (fun _ => True) (fun w => (workers w).activeSessions) 1
        (some (dispatchIndex n cursor 0)) := found_zero.take trivial
    rwa [hfirst] at htake
  | succ k ih =>
    obtain ⟨hfound, hmin⟩ := ih
    simp only [selectLoop]
    split
    · rename_i hlt
      rw [hmin] at hlt
      exact ⟨hfound.replace trivial hlt, rfl⟩
    · rename_i hge
      rw [hmin] at hge
      exact ⟨hfound.keep (Nat.le_of_not_lt hge), hmin⟩

theorem selectWorker_found (workers : Fin n → Worker) (cursor : UInt64) :
    Found (dispatchIndex n cursor) (fun _ => True) (fun w => (workers w).activeSessions) n
      (some (selectWorker workers cursor)) := by
  have hn : n - 1 + 1 = n := Nat.sub_add_cancel (Nat.pos_of_ne_zero (NeZero.ne n))
  have h := (selectLoop_found workers cursor (n - 1)).1
  rwa [hn] at h

end Walk

/-! ## When the choice is right -/

section Right

variable {workers : Fin n → Worker} {cursor : UInt64} {m : Fin n}

/-- Worker `m` is met before the sum of cursor and offset wraps; or, after the
wrap, before every other worker with as few sessions. -/
def MetFirst (workers : Fin n → Worker) (cursor : UInt64) (m : Fin n) : Prop :=
  cursor.toNat + steps cursor.toNat m < 2 ^ 64 ∨
    m.val + (2 ^ 64 - cursor.toNat) < n ∧
      ∀ w, (workers w).activeSessions ≤ (workers m).activeSessions → m ≤ w

theorem LeastLoaded.exists (workers : Fin n → Worker) (cursor : UInt64) :
    ∃ m, LeastLoaded workers cursor m := by
  have hpos := Nat.pos_of_ne_zero (NeZero.ne n)
  obtain ⟨p, hp⟩ : ∃ p, FirstMin (turn n (cursor.toNat % n)) (fun _ => True)
      (fun w => (workers w).activeSessions) n p := exists_firstMin hpos trivial
  exact ⟨_, hp.elected⟩

/-- Before the wrap, whoever is met earlier has more sessions. -/
theorem LeastLoaded.lt_of_before (hm : LeastLoaded workers cursor m) {q : Nat}
    (hq : q < steps cursor.toNat m) (hwrap : cursor.toNat + q < 2 ^ 64) :
    (workers m).activeSessions < (workers (dispatchIndex n cursor q)).activeSessions := by
  rw [dispatchIndex_turn hwrap]
  by_contra hge
  have hle := hm.first (turn n cursor.toNat q) trivial (Nat.le_of_not_lt hge)
  rw [steps_mod, steps_mod, ← eq_steps (Nat.lt_trans hq (steps_lt _ _)) rfl] at hle
  omega

/-- The loop takes `m` as soon as `m` is met first. -/
theorem LeastLoaded.select (hm : LeastLoaded workers cursor m) (hn : n < 2 ^ 64)
    (hmet : MetFirst workers cursor m) : selectWorker workers cursor = m := by
  obtain ⟨p, hp, hpw⟩ := selectWorker_found workers cursor
  have hleast : ∀ w, (workers m).activeSessions ≤ (workers w).activeSessions :=
    fun w => hm.least w trivial
  rcases Nat.lt_or_ge (cursor.toNat + steps cursor.toNat m) (2 ^ 64) with hbefore | hafter
  · have hmeet : dispatchIndex n cursor (steps cursor.toNat m) = m := by
      rw [dispatchIndex_turn hbefore, turn_steps]
    have hfirst : FirstMin (dispatchIndex n cursor) (fun _ => True)
        (fun w => (workers w).activeSessions) n (steps cursor.toNat m) := by
      refine ⟨steps_lt _ _, trivial, fun q _ _ => ?_, fun q hq _ => ?_⟩
      · rw [hmeet]
        exact hleast _
      · rw [hmeet]
        exact hm.lt_of_before hq (by omega)
    rw [← hpw, hp.unique hfirst, hmeet]
  · obtain ⟨hlt, hlow⟩ := hmet.resolve_left (by omega)
    have hc := cursor.toNat_lt
    have hmeet : dispatchIndex n cursor (m.val + (2 ^ 64 - cursor.toNat)) = m :=
      dispatchIndex_wrapped (by omega) hn
    have hfirst : FirstMin (dispatchIndex n cursor) (fun _ => True)
        (fun w => (workers w).activeSessions) n (m.val + (2 ^ 64 - cursor.toNat)) := by
      refine ⟨hlt, trivial, fun q _ _ => ?_, fun q hq _ => ?_⟩
      · rw [hmeet]
        exact hleast _
      · rw [hmeet]
        rcases Nat.lt_or_ge (cursor.toNat + q) (2 ^ 64) with hq' | hq'
        · exact hm.lt_of_before (by omega) hq'
        · obtain ⟨w, hw⟩ := exists_wrapped (Nat.lt_trans hq hlt) hq'
          rw [dispatchIndex_wrapped hw hn]
          by_contra hge
          have hle : m.val ≤ w.val := hlow w (Nat.le_of_not_lt hge)
          omega
    rw [← hpw, hp.unique hfirst, hmeet]

/-- The loop takes `m` only if `m` is met first. -/
theorem LeastLoaded.metFirst (hn : n < 2 ^ 64) (hsel : selectWorker workers cursor = m) :
    MetFirst workers cursor m := by
  obtain ⟨p, hp, hpw⟩ := selectWorker_found workers cursor
  rw [hsel] at hpw
  rcases Nat.lt_or_ge (cursor.toNat + p) (2 ^ 64) with hbefore | hafter
  · left
    rw [dispatchIndex_turn hbefore] at hpw
    rw [← eq_steps hp.lt hpw]
    exact hbefore
  · right
    have hc := cursor.toNat_lt
    obtain ⟨w, hw⟩ := exists_wrapped hp.lt hafter
    rw [dispatchIndex_wrapped hw hn] at hpw
    subst hpw
    have hpos : w.val + (2 ^ 64 - cursor.toNat) = p := by omega
    refine ⟨hpos ▸ hp.lt, fun v hv => ?_⟩
    by_contra hlt
    have hvw : v.val < w.val := Fin.not_le.mp hlt
    have hgt := hp.first (v.val + (2 ^ 64 - cursor.toNat)) (by omega) trivial
    rw [dispatchIndex_wrapped hw hn, dispatchIndex_wrapped (w := v) (by omega) hn] at hgt
    omega

/-! ### For all loads -/

/-- A full round without a wrap, or with a wrap that goes on where it should. -/
theorem metFirst_of_round (hround : cursor.toNat + (n - 1) < 2 ^ 64 ∨ n ∣ 2 ^ 64)
    (hm : LeastLoaded workers cursor m) : MetFirst workers cursor m := by
  have hlt := steps_lt cursor.toNat m
  rcases Nat.lt_or_ge (cursor.toNat + steps cursor.toNat m) (2 ^ 64) with hbefore | hafter
  · exact Or.inl hbefore
  · have hdvd : n ∣ 2 ^ 64 := hround.resolve_left (by omega)
    have hc := cursor.toNat_lt
    -- going round and going up from worker 0 are the same
    have hturn : ∀ {i : Nat} {w : Fin n}, cursor.toNat + i = 2 ^ 64 + w.val →
        turn n cursor.toNat i = w := by
      intro i w h
      apply Fin.ext
      show (cursor.toNat + i) % n = w.val
      rw [h, Nat.add_mod, Nat.mod_eq_zero_of_dvd hdvd, Nat.zero_add, Nat.mod_mod,
        Nat.mod_eq_of_lt w.isLt]
    obtain ⟨w, hw⟩ := exists_wrapped hlt hafter
    have hmw : m = w := by rw [← turn_steps cursor.toNat m, hturn hw]
    subst hmw
    refine Or.inr ⟨by omega, fun v hv => ?_⟩
    have hle := hm.first v trivial hv
    rw [steps_mod, steps_mod] at hle
    by_contra hgt
    have hvw : v.val < m.val := Fin.not_le.mp hgt
    have hv' := eq_steps (k := v.val + (2 ^ 64 - cursor.toNat)) (by omega)
      (hturn (w := v) (by omega))
    omega

/-- Only worker `m` is idle. -/
def idleAt (m : Fin n) : Fin n → Worker := fun w =>
  { System.newWorker 0 0 with activeSessions := if w = m then 0 else 1 }

theorem leastLoaded_idleAt (m : Fin n) (cursor : UInt64) : LeastLoaded (idleAt m) cursor m := by
  refine ⟨trivial, fun c _ => ?_, fun c _ hc => ?_⟩
  · simp [idleAt]
  · have hcm : c = m := by
      by_contra hne
      simp [idleAt, hne] at hc
    rw [hcm]

/-- If the walk wraps and does not go on where it should, it leaves a worker out. -/
theorem exists_left_out (hwrap : 2 ^ 64 ≤ cursor.toNat + (n - 1)) (hdvd : ¬ n ∣ 2 ^ 64) :
    ∃ m : Fin n, ¬ MetFirst (idleAt m) cursor m := by
  have hc := cursor.toNat_lt
  have hpos := Nat.pos_of_ne_zero (NeZero.ne n)
  have hr : 0 < 2 ^ 64 % n := Nat.pos_of_ne_zero fun h => hdvd (Nat.dvd_of_mod_eq_zero h)
  have hrn : 2 ^ 64 % n < n := Nat.mod_lt _ hpos
  rcases Nat.lt_or_ge n (2 ^ 64 % n + (2 ^ 64 - cursor.toNat)) with hbig | hsmall
  · -- the worker after the last one met before the wrap
    refine ⟨⟨2 ^ 64 % n, hrn⟩, ?_⟩
    have hsteps : 2 ^ 64 - cursor.toNat = steps cursor.toNat (⟨2 ^ 64 % n, hrn⟩ : Fin n) := by
      refine eq_steps (by omega) (Fin.ext ?_)
      show (cursor.toNat + (2 ^ 64 - cursor.toNat)) % n = 2 ^ 64 % n
      rw [Nat.add_sub_cancel' (Nat.le_of_lt hc)]
    rintro (hbefore | ⟨hlt, -⟩)
    · omega
    · simp only at hlt
      omega
  · -- the worker after the last one met at all
    let m : Fin n := ⟨n - (2 ^ 64 - cursor.toNat), by omega⟩
    refine ⟨m, ?_⟩
    rintro (hbefore | ⟨hlt, -⟩)
    · -- it would be met before the wrap at an offset that is a multiple of `n` off
      have hmeet : (cursor.toNat + steps cursor.toNat m) % n = n - (2 ^ 64 - cursor.toNat) :=
        congrArg Fin.val (turn_steps cursor.toNat m)
      have hsum : cursor.toNat + steps cursor.toNat m + (2 ^ 64 - cursor.toNat) =
          2 ^ 64 + steps cursor.toNat m := by omega
      have hzero : (2 ^ 64 % n + steps cursor.toNat m) % n = 0 := by
        rw [Nat.mod_add_mod, ← hsum, ← Nat.mod_add_mod, hmeet, Nat.sub_add_cancel (by omega),
          Nat.mod_self]
      rw [Nat.mod_eq_of_lt (by omega)] at hzero
      omega
    · have hval : m.val = n - (2 ^ 64 - cursor.toNat) := rfl
      omega

end Right

/-- **Least-loaded worker selection.** On given loads the choice is right iff
the first of the least loaded workers is met first; on all loads iff a full
round from the cursor does not wrap, or the number of workers divides `2 ^ 64`. -/
theorem selectWorker_iff (hn : n < 2 ^ 64) (cursor : UInt64) :
    (∀ workers : Fin n → Worker, LeastLoaded workers cursor (selectWorker workers cursor) ↔
        ∀ m, LeastLoaded workers cursor m → MetFirst workers cursor m) ∧
      ((∀ workers : Fin n → Worker, LeastLoaded workers cursor (selectWorker workers cursor)) ↔
        cursor.toNat + (n - 1) < 2 ^ 64 ∨ n ∣ 2 ^ 64) := by
  have heach : ∀ workers : Fin n → Worker,
      LeastLoaded workers cursor (selectWorker workers cursor) ↔
        ∀ m, LeastLoaded workers cursor m → MetFirst workers cursor m := by
    intro workers
    constructor
    · intro hright m hm
      exact LeastLoaded.metFirst hn (hright.unique hm)
    · intro hmet
      obtain ⟨m, hm⟩ := LeastLoaded.exists workers cursor
      rw [hm.select hn (hmet m hm)]
      exact hm
  refine ⟨heach, fun hright => ?_, fun hround workers => ?_⟩
  · by_contra hnot
    obtain ⟨hwrap, hdvd⟩ := not_or.mp hnot
    obtain ⟨m, hm⟩ := exists_left_out (Nat.le_of_not_lt hwrap) hdvd
    exact hm ((heach (idleAt m)).mp (hright (idleAt m)) m (leastLoaded_idleAt m cursor))
  · exact (heach workers).mpr fun m hm => metFirst_of_round hround hm

/-- Four workers, of which the second is idle: it is chosen at the last value of
the cursor, too. -/
theorem selectWorker_iff_four :
    LeastLoaded (idleAt (1 : Fin 4)) 18446744073709551615
      (selectWorker (idleAt (1 : Fin 4)) 18446744073709551615) := by
  have h := (selectWorker_iff (n := 4) (by decide) 18446744073709551615).2
  exact h.mpr (Or.inr (by decide)) _

/-- Three workers, of which the last is idle: at the last value of the cursor the
walk is 0, 0, 1 and the first worker is chosen. -/
theorem selectWorker_misses_idle :
    selectWorker (idleAt (2 : Fin 3)) 18446744073709551615 = 0 ∧
      ¬ LeastLoaded (idleAt (2 : Fin 3)) 18446744073709551615
        (selectWorker (idleAt (2 : Fin 3)) 18446744073709551615) := by
  have hsel : selectWorker (idleAt (2 : Fin 3)) 18446744073709551615 = 0 := by decide +kernel
  refine ⟨hsel, fun h => ?_⟩
  have hle := h.least 2 trivial
  rw [hsel] at hle
  exact absurd hle (by decide)

end FluxGate
