import FluxGate.Scheduling

/-!
# `BackendPool::acquire` as a choice

When nothing else touches the pool, `acquire` is a function of it: a loop over
the backends, from the index of the tie breaker on, that keeps the best healthy
candidate so far. `LeaseState.acquire_alone` says that an undisturbed call in
the concurrent model computes this function.

The comparison multiplies crosswise in 64 bits. Where it agrees with an order
of scores, the loop elects the first healthy backend of least score
(`scan_found`): for the exact quotients as long as no product wraps, and for
any tie, whether the products wrap or not.
-/

namespace FluxGate

open Lib

namespace BackendPool

variable {n : Nat}

def hasHealthyBackend (pool : BackendPool n) : Bool :=
  (List.finRange n).any fun b => (pool.backends b).healthy

/-- One turn of the loop of `acquire`. -/
def consider (pool : BackendPool n) (candidate : Fin n) (selected : Option (Fin n)) : Option (Fin n) :=
  if !(pool.backends candidate).healthy then selected
  else match selected with
    | none => some candidate
    | some selected =>
      let left := pool.active candidate * (pool.backends selected).weight % 2 ^ 64
      let right := pool.active selected * (pool.backends candidate).weight % 2 ^ 64
      some (if left < right then candidate else selected)

/-- The constructor of `BackendLease`. -/
def lease (pool : BackendPool n) : Option (Fin n) → BackendPool n
  | some b => pool.onBackend b Backend.acquire
  | none => pool

section Loop

variable [NeZero n]

/-- The selection after the first turns of the loop. -/
def scan (pool : BackendPool n) (start : Nat) : Nat → Option (Fin n)
  | 0 => none
  | offset + 1 => pool.consider (Scan.index start offset) (pool.scan start offset)

/-- `acquire`: the backend of the lease, none for an empty one, and the pool after the call. -/
def acquire (pool : BackendPool n) : Option (Fin n) × BackendPool n :=
  let start := pool.tieBreaker % n
  let pool := { pool with tieBreaker := (pool.tieBreaker + 1) % 2 ^ 64 }
  let selected := pool.scan start n
  (selected, pool.lease selected)

end Loop

/-! ## Scores -/

/-- The comparison of the loop is that of the scores. -/
def Compares {β : Type} [LinearOrder β] (pool : BackendPool n) (score : Fin n → β) : Prop :=
  ∀ candidate selected, (pool.backends candidate).healthy = true →
    (pool.backends selected).healthy = true →
    (pool.active candidate * (pool.backends selected).weight % 2 ^ 64 <
        pool.active selected * (pool.backends candidate).weight % 2 ^ 64 ↔
      score candidate < score selected)

/-- The exact score of a backend. -/
def score (pool : BackendPool n) (b : Fin n) : ℚ := (pool.active b : ℚ) / pool.weight b

/-- All healthy backends have the same score. -/
def Tied (pool : BackendPool n) : Prop :=
  ∀ b c, (pool.backends b).healthy = true → (pool.backends c).healthy = true →
    pool.active b * pool.weight c = pool.active c * pool.weight b

instance (pool : BackendPool n) : Decidable pool.Tied :=
  inferInstanceAs (Decidable (∀ b c, (pool.backends b).healthy = true →
    (pool.backends c).healthy = true → pool.active b * pool.weight c = pool.active c * pool.weight b))

/-- Equal products are equal modulo `2 ^ 64`, too. -/
theorem Tied.compares {pool : BackendPool n} (h : pool.Tied) : pool.Compares fun _ => 0 := by
  intro candidate selected hc hs
  have heq : pool.active candidate * (pool.backends selected).weight =
      pool.active selected * (pool.backends candidate).weight := h candidate selected hc hs
  rw [heq]
  simp

theorem compares_score {pool : BackendPool n} (hpos : ∀ b, 0 < pool.weight b)
    (hrange : pool.InRange) : pool.Compares pool.score := by
  intro candidate selected _ _
  have hleft : pool.active candidate * (pool.backends selected).weight % 2 ^ 64 =
      pool.active candidate * pool.weight selected := Nat.mod_eq_of_lt (hrange candidate selected)
  have hright : pool.active selected * (pool.backends candidate).weight % 2 ^ 64 =
      pool.active selected * pool.weight candidate := Nat.mod_eq_of_lt (hrange selected candidate)
  have hc : (0 : ℚ) < pool.weight candidate := by exact_mod_cast hpos candidate
  have hs : (0 : ℚ) < pool.weight selected := by exact_mod_cast hpos selected
  rw [hleft, hright, score, score, div_lt_div_iff₀ hc hs]
  exact_mod_cast Iff.rfl

/-- Weights up to 1000 and counters below `2 ^ 54` keep the products in 64 bits. -/
theorem inRange_of_bounds {pool : BackendPool n} (hweight : ∀ b, pool.weight b ≤ 1000)
    (hactive : ∀ b, pool.active b < 2 ^ 54) : pool.InRange := by
  intro b c
  calc pool.active b * pool.weight c
      ≤ pool.active b * 1000 := Nat.mul_le_mul_left _ (hweight c)
    _ < 2 ^ 64 := by have := hactive b; omega

theorem hasHealthyBackend_eq_false (pool : BackendPool n) :
    pool.hasHealthyBackend = false ↔ ∀ b, (pool.backends b).healthy = false := by
  simp [hasHealthyBackend]

theorem lease_tieBreaker (pool : BackendPool n) (selected : Option (Fin n)) :
    (pool.lease selected).tieBreaker = pool.tieBreaker := by
  cases selected <;> rfl

theorem lease_active (pool : BackendPool n) (selected : Option (Fin n)) (c : Fin n) :
    (pool.lease selected).active c =
      if selected = some c then pool.active c + 1 else pool.active c := by
  cases selected with
  | none => simp [lease]
  | some b =>
    rw [lease, active_onBackend]
    by_cases hc : c = b
    · subst hc
      simp [active, Backend.acquire]
    · have hne : b ≠ c := fun h => hc h.symm
      simp [hc, hne]

variable [NeZero n]

theorem acquire_selected (pool : BackendPool n) :
    pool.acquire.1 = pool.scan (pool.tieBreaker % n) n := by
  have hscan : ∀ k, { pool with tieBreaker := (pool.tieBreaker + 1) % 2 ^ 64 }.scan
      (pool.tieBreaker % n) k = pool.scan (pool.tieBreaker % n) k := by
    intro k
    induction k with
    | zero => rfl
    | succ k ih =>
      rw [scan, scan, ih]
      rfl
  exact hscan n

theorem acquire_tieBreaker (pool : BackendPool n) :
    pool.acquire.2.tieBreaker = (pool.tieBreaker + 1) % 2 ^ 64 :=
  lease_tieBreaker _ _

theorem acquire_active (pool : BackendPool n) (c : Fin n) :
    pool.acquire.2.active c = if pool.acquire.1 = some c then pool.active c + 1 else pool.active c :=
  lease_active _ _ c

/-! ## What the loop elects -/

section Election

variable {pool : BackendPool n} {β : Type} [LinearOrder β] {score : Fin n → β}

theorem scan_found (hcmp : pool.Compares score) (start k : Nat) :
    Found (turn n start) (fun b => (pool.backends b).healthy = true) score k (pool.scan start k) := by
  induction k with
  | zero => exact found_zero
  | succ k ih =>
    have hturn : (Scan.index start k : Fin n) = turn n start k := rfl
    rw [scan, hturn]
    unfold consider
    cases hh : (pool.backends (turn n start k)).healthy with
    | false => exact ih.skip (by simp [hh])
    | true =>
      simp only [Bool.not_true, Bool.false_eq_true, ↓reduceIte]
      cases hbest : pool.scan start k with
      | none =>
        rw [hbest] at ih
        exact ih.take hh
      | some b =>
        rw [hbest] at ih
        obtain ⟨p, hp, hpb⟩ := ih
        have hb : (pool.backends b).healthy = true := hpb ▸ hp.isOk
        simp only [hcmp _ _ hh hb]
        split
        · rename_i hlt
          exact Found.replace ⟨p, hp, hpb⟩ hh hlt
        · rename_i hge
          exact Found.keep ⟨p, hp, hpb⟩ (not_lt.mp hge)

/-- No lease is given exactly when no backend is healthy. -/
theorem scan_eq_none_iff (hcmp : pool.Compares score) (start : Nat) :
    pool.scan start n = none ↔ ∀ b, (pool.backends b).healthy = false := by
  have hfound := scan_found hcmp start n
  constructor
  · intro hnone b
    rw [hnone] at hfound
    have hb := hfound (steps start b) (steps_lt start b)
    rw [turn_steps] at hb
    simpa using hb
  · intro hall
    cases hbest : pool.scan start n with
    | none => rfl
    | some b =>
      rw [hbest] at hfound
      obtain ⟨p, hp, -⟩ := hfound
      have hok := hp.isOk
      rw [hall] at hok
      cases hok

theorem scan_elected (hcmp : pool.Compares score) {start : Nat} {b : Fin n}
    (hb : pool.scan start n = some b) :
    Elected (fun b => (pool.backends b).healthy = true) score start b := by
  have hfound := scan_found hcmp start n
  rw [hb] at hfound
  obtain ⟨p, hp, rfl⟩ := hfound
  exact hp.elected

end Election

/-! ## The reference choice -/

/-- **`acquire` is the reference choice.** No product wraps; the lease is empty
iff no backend is healthy, and then no counter changes; otherwise it goes to
the first healthy backend, from the index of the tie breaker on, of least
`active / weight`, and that backend's counter alone grows, by one. -/
theorem acquire_reference (pool : BackendPool n)
    (hweight : ∀ b, 1 ≤ pool.weight b ∧ pool.weight b ≤ 1000)
    (hactive : ∀ b, pool.active b < 2 ^ 54) :
    (∀ b c, pool.active b * pool.weight c < 2 ^ 64) ∧
      (pool.acquire.1 = none ↔ pool.hasHealthyBackend = false) ∧
      (pool.acquire.1 = none → ∀ b, pool.acquire.2.active b = pool.active b) ∧
      ∀ b, pool.acquire.1 = some b →
        Elected (fun b => (pool.backends b).healthy = true) pool.score (pool.tieBreaker % n) b ∧
          pool.acquire.2.active b = pool.active b + 1 ∧
          ∀ c, c ≠ b → pool.acquire.2.active c = pool.active c := by
  have hrange := inRange_of_bounds (fun b => (hweight b).2) hactive
  have hcmp := compares_score (fun b => (hweight b).1) hrange
  refine ⟨hrange, ?_, fun hnone b => ?_, fun b hb => ⟨?_, ?_, fun c hc => ?_⟩⟩
  · rw [acquire_selected, scan_eq_none_iff hcmp, hasHealthyBackend_eq_false]
  · rw [acquire_active, hnone, if_neg (by simp)]
  · rw [acquire_selected] at hb
    exact scan_elected hcmp hb
  · rw [acquire_active, if_pos hb]
  · rw [acquire_active, hb, if_neg (by simpa using hc.symm)]

/-- The second backend has the weight of two connections and carries one, as the first does. -/
theorem acquire_reference_weight_two : ∃ pool : BackendPool 2,
    pool.acquire.1 = some 1 ∧
      Elected (fun b => (pool.backends b).healthy = true) pool.score (pool.tieBreaker % 2) 1 ∧
      pool.acquire.2.active 1 = 2 := by
  let pool : BackendPool 2 :=
    { backends := fun b => { Backend.new ⟨"app", "127.0.0.1", 9001, b + 1⟩ with activeConnections := 1 }
      tieBreaker := 2 ^ 64 - 2 }
  have h := acquire_reference pool (by decide) (by decide)
  have hone : pool.acquire.1 = some 1 := by decide
  exact ⟨pool, hone, (h.2.2.2 1 hone).1, (h.2.2.2 1 hone).2.1⟩

/-! ## Ties -/

/-- On a tie the first healthy backend is chosen. -/
theorem Tied.scan_eq_some_iff {pool : BackendPool n} (h : pool.Tied) (start : Nat) (b : Fin n) :
    pool.scan start n = some b ↔ FirstOk (fun b => (pool.backends b).healthy) start b := by
  rw [firstOk_iff_elected]
  constructor
  · exact scan_elected h.compares
  · intro hb
    cases hscan : pool.scan start n with
    | none =>
      have hnone := (scan_eq_none_iff h.compares start).mp hscan b
      rw [hb.isOk] at hnone
      cases hnone
    | some c => rw [(scan_elected h.compares hscan).unique hb]

/-- **Rotation share among tied backends.** Let `pools i` be the pool at the
`i`-th of `n` consecutive calls of `acquire`; between two calls anything may
happen to the counters. If the health of the backends stays the same, their
scores are tied at each call and the tie breaker does not wrap, then a healthy
backend is chosen once, and once more for each unhealthy backend immediately
before it. -/
theorem acquire_rotates (pools : Nat → BackendPool n) (healthy : Fin n → Bool)
    (hhealthy : ∀ i, i < n → ∀ b, ((pools i).backends b).healthy = healthy b)
    (hnext : ∀ i, i + 1 < n → (pools (i + 1)).tieBreaker = (pools i).acquire.2.tieBreaker)
    (htied : ∀ i, i < n → (pools i).Tied) (hwrap : (pools 0).tieBreaker + n ≤ 2 ^ 64)
    (b : Fin n) (hb : healthy b = true) :
    (List.range n).countP (fun i => (pools i).acquire.1 = some b) = 1 + gap healthy b ∧
      ((∀ c, healthy c = true) →
        (List.range n).countP (fun i => (pools i).acquire.1 = some b) = 1) := by
  have hticket : ∀ i, i < n → (pools i).tieBreaker = (pools 0).tieBreaker + i := by
    intro i
    induction i with
    | zero => exact fun _ => rfl
    | succ i ih =>
      intro hi
      rw [hnext i hi, acquire_tieBreaker, ih (by omega), Nat.mod_eq_of_lt (by omega)]
      omega
  have hcount : (List.range n).countP (fun i => (pools i).acquire.1 = some b) = 1 + gap healthy b := by
    refine countP_firstOk hb (pools 0).tieBreaker fun i hi => ?_
    have hsame : (fun b => ((pools i).backends b).healthy) = healthy := funext (hhealthy i hi)
    rw [decide_eq_true_eq, acquire_selected, (htied i hi).scan_eq_some_iff, hsame, hticket i hi]
    simp [FirstOk]
  refine ⟨hcount, fun hall => ?_⟩
  rw [hcount, gap_eq_zero hall]

/-- Three idle backends, the second of them unhealthy: the third is chosen twice in three calls. -/
theorem acquire_rotates_past_unhealthy : ∃ pools : Nat → BackendPool 3,
    (List.range 3).countP (fun i => (pools i).acquire.1 = some 2) = 2 := by
  let pools : Nat → BackendPool 3 := fun i =>
    { backends := fun b => (Backend.new ⟨"app", "127.0.0.1", 9001, 1⟩).setHealthy (b != 1)
      tieBreaker := i }
  refine ⟨pools, ?_⟩
  exact (acquire_rotates pools (fun b => b != 1) (fun _ _ _ => rfl)
    (fun i hi => by rw [acquire_tieBreaker]; show i + 1 = (i + 1) % 2 ^ 64; omega)
    (fun i _ => by show (pools 0).Tied; decide) (by decide) 2 rfl).1

end BackendPool

/-! ## The call in the concurrent model -/

namespace Scan

variable {n : Nat} [NeZero n]

/-- A step of a scan that nobody disturbs. -/
def Next (p q : BackendPool n × Scan n) : Prop :=
  (∀ selected, p.2 ≠ .done selected) ∧ q = p.2.step p.1

/-- One turn of the loop. -/
theorem turn_alone (pool : BackendPool n) (start : Nat) {k : Nat} (hk : k < n)
    (selected : Option (Fin n)) :
    Relation.ReflTransGen Next (pool, .head start k selected)
      (pool, .head start (k + 1) (pool.consider (index start k) selected)) := by
  cases hh : (pool.backends (index start k)).healthy with
  | false =>
    refine .single ⟨by simp, ?_⟩
    simp [step, hk, BackendPool.consider, hh]
  | true =>
    cases selected with
    | none =>
      refine .single ⟨by simp, ?_⟩
      simp [step, hk, BackendPool.consider, hh]
    | some b =>
      -- the two loads of the comparison
      have hleft : Next (pool, .head start k (some b)) (pool, .loadLeft start k (index start k) b) :=
        ⟨by simp, by simp [step, hk, hh]⟩
      refine .head hleft (.head ⟨by simp, rfl⟩ (.single ⟨by simp [step], ?_⟩))
      simp only [BackendPool.consider, hh, Bool.not_true, Bool.false_eq_true, ↓reduceIte]
      rfl

/-- A whole scan. -/
theorem alone (pool : BackendPool n) :
    Relation.ReflTransGen Next (pool, .ticket)
      ({ pool with tieBreaker := (pool.tieBreaker + 1) % 2 ^ 64 }, .done pool.acquire.1) := by
  let pool' : BackendPool n := { pool with tieBreaker := (pool.tieBreaker + 1) % 2 ^ 64 }
  have hloop : ∀ k, k ≤ n → Relation.ReflTransGen Next (pool, .ticket)
      (pool', .head (pool.tieBreaker % n) k (pool'.scan (pool.tieBreaker % n) k)) := by
    intro k
    induction k with
    | zero => exact fun _ => .single ⟨by simp, rfl⟩
    | succ k ih => exact fun hk => (ih (by omega)).trans (turn_alone pool' _ hk _)
  refine (hloop n (Nat.le_refl n)).tail ⟨by simp, ?_⟩
  simp only [step, Nat.lt_irrefl, ↓reduceIte]
  rfl

end Scan

namespace LeaseState

variable {n : Nat} {T V : Type}

theorem build_pool (s : LeaseState n T V) (selected : Option (Fin n)) :
    (s.build selected).pool = s.pool.lease selected := by
  cases selected <;> rfl

theorem build_threads (s : LeaseState n T V) (selected : Option (Fin n)) :
    (s.build selected).threads = s.threads := by
  cases selected <;> rfl

variable [DecidableEq T]

/-- Thread `t` inside `acquire`, with everything else as in `s`. -/
def scanning (s : LeaseState n T V) (t : T) (dst : V) (p : BackendPool n × Scan n) : LeaseState n T V :=
  { s with pool := p.1, mutex := some t }.setThread t ((s.threads t).goto (.acquiring dst p.2))

theorem scanning_threads (s : LeaseState n T V) (t : T) (dst : V) (p : BackendPool n × Scan n) :
    (s.scanning t dst p).threads t = (s.threads t).goto (.acquiring dst p.2) := by
  simp [scanning, setThread]

theorem scanning_setThread (s : LeaseState n T V) (t : T) (dst : V) (p q : BackendPool n × Scan n) :
    { s.scanning t dst p with pool := q.1 }.setThread t
      (((s.scanning t dst p).threads t).goto (.acquiring dst q.2)) = s.scanning t dst q := by
  rw [scanning_threads]
  simp [scanning, setThread, LeaseThread.goto]

variable [NeZero n] [DecidableEq V]

/-- The steps of the scan are steps of the thread. -/
theorem scanning_run {s s₀ : LeaseState n T V} {t : T} {dst : V} {p q : BackendPool n × Scan n}
    {acts : List (LeaseAct n T V)} (h : Relation.ReflTransGen Scan.Next p q)
    (hrun : Run (fun s a s' => s.step a = some s') s₀ acts (s.scanning t dst p)) :
    ∃ k, Run (fun s a s' => s.step a = some s') s₀ (acts ++ List.replicate k (.tick t))
      (s.scanning t dst q) := by
  induction h with
  | refl => exact ⟨0, by simpa using hrun⟩
  | @tail q r _ hnext ih =>
    obtain ⟨k, hk⟩ := ih
    obtain ⟨hnot, rfl⟩ := hnext
    refine ⟨k + 1, ?_⟩
    rw [List.replicate_succ', ← List.append_assoc]
    refine hk.snoc ?_
    have hpoint : ((s.scanning t dst q).threads t).point = .acquiring dst q.2 := by
      rw [scanning_threads]
      rfl
    rw [← scanning_setThread s t dst q (q.2.step q.1)]
    show (s.scanning t dst q).tick t = _
    cases hq : q.2 with
    | done selected => exact absurd hq (hnot selected)
    | ticket => simp only [tick, hpoint, hq]; rfl
    | head start offset selected => simp only [tick, hpoint, hq]; rfl
    | loadLeft start offset candidate selected => simp only [tick, hpoint, hq]; rfl
    | loadRight start offset candidate selected left => simp only [tick, hpoint, hq]; rfl

/-- The lease is built and bound, and the mutex released. -/
def bound (s : LeaseState n T V) (t : T) (dst : V) (selected : Option (Fin n)) : LeaseState n T V :=
  { s.build selected with mutex := none }.setThread t
    (((s.threads t).set dst (some selected)).goto .idle)

theorem bound_run {s : LeaseState n T V} {t : T} {dst : V} {selected : Option (Fin n)}
    (hdone : (s.threads t).point = .acquiring dst (.done selected)) :
    Run (fun s a s' => s.step a = some s') s [.tick t, .tick t] (s.bound t dst selected) := by
  have hbuild : s.step (.tick t) = some ((s.build selected).setThread t
      ((s.threads t).goto (.constructed dst selected))) := by
    show s.tick t = _
    simp only [tick, hdone]
    cases selected <;> rfl
  refine (Run.nil.snoc hbuild).snoc ?_
  show LeaseState.tick _ t = _
  simp only [tick, setThread, Function.update_self, LeaseThread.goto, bound, Function.update_idem]
  cases selected <;> rfl

/-- A call of `acquire` that nobody disturbs: it leaves the pool and the lease
that the function `acquire` gives, and every other thread where it was. -/
theorem acquire_alone (s : LeaseState n T V) (t : T) (dst : V) (hidle : (s.threads t).point = .idle)
    (hdst : (s.threads t).leases dst = none) (hmutex : s.mutex = none) :
    ∃ acts s', Run (fun s a s' => s.step a = some s') s acts s' ∧
      (∀ a ∈ acts, a = .call t (.acquire dst) ∨ a = .tick t) ∧
      s'.pool = s.pool.acquire.2 ∧ (s'.threads t).leases dst = some s.pool.acquire.1 ∧
      s'.mutex = none ∧ (s'.threads t).point = .idle ∧ ∀ u, u ≠ t → s'.threads u = s.threads u := by
  have hcall : s.step (.call t (.acquire dst)) = some (s.scanning t dst (s.pool, .ticket)) := by
    simp [step, hidle, hdst, hmutex, scanning]
  obtain ⟨k, hscan⟩ := scanning_run (Scan.alone s.pool) (Run.nil.snoc hcall)
  have hbind := bound_run (congrArg LeaseThread.point (scanning_threads s t dst
    ({ s.pool with tieBreaker := (s.pool.tieBreaker + 1) % 2 ^ 64 }, .done s.pool.acquire.1)))
  refine ⟨_, _, hscan.append hbind, ?_, ?_, ?_, rfl, ?_, fun u hu => ?_⟩
  · intro a ha
    simp only [List.nil_append, List.mem_append, List.mem_replicate, List.mem_cons,
      List.not_mem_nil, or_false] at ha
    tauto
  · exact build_pool _ _
  · simp [bound, setThread, LeaseThread.goto, LeaseThread.set]
  · simp [bound, setThread, LeaseThread.goto]
  · simp [bound, setThread, build_threads, scanning, hu]

end LeaseState

end FluxGate
