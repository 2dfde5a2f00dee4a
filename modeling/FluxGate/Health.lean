import FluxGate.Shared
import FluxGate.Lib.Run
import FluxGate.Lib.Hysteresis

/-!
# Active health checks

`checkOnce` walks over the backends: it probes one, loads its health, updates
the two run-length counters and stores a new health if a threshold is
crossed. Each of these is a step here, and between any two of them the data
plane may work on any backend. The counters and the thresholds are 64-bit.

`history` is kept for the specification only: the outcomes of the probes of
each backend whose update has been carried out. Waiting between two rounds,
the pointer keys of `probeStates_` (here the index in the pool) and the log
line about a change are left out.
-/

namespace FluxGate

open Lib

structure ProbeState where
  consecutiveFailures : UInt64
  consecutiveSuccesses : UInt64
  deriving DecidableEq, Repr

/-- Where the health thread is in `checkOnce`. -/
inductive CheckPoint where
  | waiting
  | probing (i : Nat)
  | probed (i : Nat) (reachable : Bool)
  | loaded (i : Nat) (reachable previous : Bool)
  deriving DecidableEq, Repr

structure HealthState where
  backends : List Backend
  probeStates : Nat → ProbeState
  position : CheckPoint
  history : Nat → List Bool

/-- What the data plane does to a backend. -/
inductive DataOp where
  | acquire | releaseSub | recordConnectSuccess | recordConnectFailure
  deriving DecidableEq, Repr

def DataOp.on : DataOp → Backend → Backend
  | .acquire => Backend.acquire
  | .releaseSub => Backend.releaseSub
  | .recordConnectSuccess => Backend.recordConnectSuccess
  | .recordConnectFailure => Backend.recordConnectFailure

theorem DataOp.on_healthy (op : DataOp) (b : Backend) : (op.on b).healthy = b.healthy := by
  cases op <;> rfl

inductive HealthAct where
  | checkOnce
  | waitForConnect (reachable : Bool)
  | loadHealthy
  | update
  | data (i : Nat) (op : DataOp)
  deriving DecidableEq, Repr

/-- The counters after a probe. -/
def ProbeState.count (p : ProbeState) (reachable : Bool) : ProbeState :=
  if reachable then ⟨0, p.consecutiveSuccesses + 1⟩ else ⟨p.consecutiveFailures + 1, 0⟩

/-- The body of the loop after the load of `previous`: the health to store,
if any. -/
def crossed (failureThreshold successThreshold : UInt64) (p : ProbeState)
    (reachable previous : Bool) : Option Bool :=
  if reachable then
    if !previous && decide (successThreshold ≤ p.consecutiveSuccesses) then some true else none
  else
    if previous && decide (failureThreshold ≤ p.consecutiveFailures) then some false else none

/-- `setHealthy` on one backend, where a threshold was crossed. -/
def storeHealth (backends : List Backend) (i : Nat) : Option Bool → List Backend
  | some value => backends.modify i (·.setHealthy value)
  | none => backends

theorem storeHealth_getElem? (backends : List Backend) (i j : Nat) (value : Option Bool) :
    (storeHealth backends i value)[j]? = backends[j]?.map fun b =>
      if i = j then b.setHealthy (value.getD b.healthy) else b := by
  cases value with
  | some value =>
    rw [storeHealth, List.getElem?_modify]
    rfl
  | none =>
    cases hb : backends[j]? <;> simp [storeHealth, hb, Backend.setHealthy]

namespace HealthState

def start (configs : List BackendConfig) : HealthState :=
  ⟨configs.map Backend.new, fun _ => ⟨0, 0⟩, .waiting, fun _ => []⟩

/-- The head of the loop of `checkOnce`. -/
def goto (s : HealthState) (i : Nat) : HealthState :=
  { s with position := if i < s.backends.length then .probing i else .waiting }

def step (failureThreshold successThreshold : UInt64) (s : HealthState) :
    HealthAct → Option HealthState
  | .checkOnce => if s.position = .waiting then some (s.goto 0) else none
  | .waitForConnect reachable =>
    match s.position with
    | .probing i => some { s with position := .probed i reachable }
    | _ => none
  | .loadHealthy =>
    match s.position with
    | .probed i reachable =>
      s.backends[i]?.map fun b => { s with position := .loaded i reachable b.healthy }
    | _ => none
  | .update =>
    match s.position with
    | .loaded i reachable previous =>
      let p := (s.probeStates i).count reachable
      some <| goto { s with
        backends := storeHealth s.backends i
          (crossed failureThreshold successThreshold p reachable previous)
        probeStates := Function.update s.probeStates i p
        history := Function.update s.history i (s.history i ++ [reachable]) } (i + 1)
    | _ => none
  | .data i op => some { s with backends := s.backends.modify i op.on }

/-! ## The closed form -/

/-- The flag says whether the history is tripped; each counter is the length
of the run the history ends with (in 64 bits); and a loaded health is still
the health, since nobody else stores one. -/
structure Hysteresis (F S : UInt64) (s : HealthState) : Prop where
  health : ∀ i b, s.backends[i]? = some b →
    (b.healthy = false ↔ Tripped false true F.toNat S.toNat (s.history i))
  failures : ∀ i, (s.probeStates i).consecutiveFailures = .ofNat (tailRun false (s.history i))
  successes : ∀ i, (s.probeStates i).consecutiveSuccesses = .ofNat (tailRun true (s.history i))
  previous : ∀ i reachable previous, s.position = .loaded i reachable previous →
    ∃ b, s.backends[i]? = some b ∧ previous = b.healthy

section Steps

variable {F S : UInt64} {s t : HealthState}

/-- A run that is still below the threshold has not wrapped. -/
theorem le_count_iff {T : UInt64} {n : Nat} (hn : n < T.toNat) :
    T ≤ UInt64.ofNat n + 1 ↔ T.toNat ≤ n + 1 := by
  have hT := T.toNat_lt
  have hval : (UInt64.ofNat n + 1).toNat = n + 1 := by
    simp only [UInt64.toNat_add, UInt64.toNat_ofNat', UInt64.reduceToNat]
    omega
  rw [UInt64.le_iff_toNat_le, hval]

/-- Storing the crossed threshold keeps the flag on the closed form. -/
theorem crossed_spec (hF : 1 ≤ F) (hS : 1 ≤ S) {h : List Bool} {p : ProbeState} {reachable : Bool}
    {b : Backend} (hf : p.consecutiveFailures = .ofNat (tailRun false h))
    (hs : p.consecutiveSuccesses = .ofNat (tailRun true h))
    (hb : b.healthy = false ↔ Tripped false true F.toNat S.toNat h) :
    ((crossed F S (p.count reachable) reachable b.healthy).getD b.healthy = false ↔
      Tripped false true F.toNat S.toNat (h ++ [reachable])) := by
  have hF' : 1 ≤ F.toNat := UInt64.le_iff_toNat_le.mp hF
  have hS' : 1 ≤ S.toNat := UInt64.le_iff_toNat_le.mp hS
  rw [tripped_snoc, endsIn_iff_le_tailRun, endsIn_iff_le_tailRun]
  cases reachable with
  | true =>
    rw [tailRun_snoc_other (by simp), tailRun_snoc_same]
    simp only [crossed, ProbeState.count, ↓reduceIte]
    cases hh : b.healthy with
    | true =>
      have hnot : ¬ Tripped false true F.toNat S.toNat h := fun ht => by
        simp [hb.mpr ht] at hh
      simp [hnot]
      omega
    | false =>
      have htrip := hb.mp hh
      have hlt := tailRun_good_lt (by simp) hF' hS' htrip
      rw [hs]
      by_cases hcross : S ≤ UInt64.ofNat (tailRun true h) + 1
      · have := (le_count_iff hlt).mp hcross
        simp [hcross]
        omega
      · have := (le_count_iff hlt).not.mp hcross
        simp [hcross, htrip]
        omega
  | false =>
    rw [tailRun_snoc_same, tailRun_snoc_other (by simp)]
    simp only [crossed, ProbeState.count, Bool.false_eq_true, ↓reduceIte]
    cases hh : b.healthy with
    | false =>
      have htrip := hb.mp hh
      simp [htrip]
      omega
    | true =>
      have hnot : ¬ Tripped false true F.toNat S.toNat h := fun ht => by
        simp [hb.mpr ht] at hh
      have hlt := tailRun_bad_lt hnot
      rw [hf]
      by_cases hcross : F ≤ UInt64.ofNat (tailRun false h) + 1
      · have := (le_count_iff hlt).mp hcross
        simp [hcross]
        omega
      · have := (le_count_iff hlt).not.mp hcross
        simp [hcross, hnot]
        omega

theorem Hysteresis.update (hF : 1 ≤ F) (hS : 1 ≤ S) (h : Hysteresis F S s) {i : Nat}
    {reachable previous : Bool} (hpos : s.position = .loaded i reachable previous)
    (hstep : s.step F S .update = some t) : Hysteresis F S t := by
  obtain ⟨b, hb, hprev⟩ := h.previous i reachable previous hpos
  simp only [step, hpos, Option.some.injEq] at hstep
  subst hstep hprev
  have hspec : ((crossed F S ((s.probeStates i).count reachable) reachable b.healthy).getD
      b.healthy = false ↔ Tripped false true F.toNat S.toNat (s.history i ++ [reachable])) :=
    crossed_spec hF hS (h.failures i) (h.successes i) (h.health i b hb)
  refine ⟨?_, ?_, ?_, ?_⟩
  · intro j c hc
    simp only [goto, storeHealth_getElem?] at hc ⊢
    obtain ⟨d, hd, rfl⟩ := Option.map_eq_some_iff.mp hc
    by_cases hij : i = j
    · subst hij
      rw [hb] at hd
      cases hd
      simpa [Backend.setHealthy] using hspec
    · simp only [hij, ↓reduceIte, Function.update_of_ne (Ne.symm hij)]
      exact h.health j d hd
  · intro j
    simp only [goto]
    by_cases hij : j = i
    · subst hij
      cases reachable with
      | true => simp [ProbeState.count, tailRun_snoc_other]
      | false => simp [ProbeState.count, tailRun_snoc_same, h.failures j]
    · simpa only [Function.update_of_ne hij] using h.failures j
  · intro j
    simp only [goto]
    by_cases hij : j = i
    · subst hij
      cases reachable with
      | true => simp [ProbeState.count, tailRun_snoc_same, h.successes j]
      | false => simp [ProbeState.count, tailRun_snoc_other]
    · simpa only [Function.update_of_ne hij] using h.successes j
  · intro j r p hpos
    simp only [goto] at hpos
    split at hpos <;> cases hpos

theorem Hysteresis.step (hF : 1 ≤ F) (hS : 1 ≤ S) (h : Hysteresis F S s) {a : HealthAct}
    (hstep : s.step F S a = some t) : Hysteresis F S t := by
  cases a with
  | checkOnce =>
    simp only [HealthState.step] at hstep
    split at hstep
    · cases hstep
      refine ⟨h.health, h.failures, h.successes, ?_⟩
      intro i reachable previous hpos
      simp only [goto] at hpos
      split at hpos <;> cases hpos
    · cases hstep
  | waitForConnect reachable =>
    simp only [HealthState.step] at hstep
    split at hstep
    · cases hstep
      exact ⟨h.health, h.failures, h.successes, fun i r p hpos => by cases hpos⟩
    · cases hstep
  | loadHealthy =>
    simp only [HealthState.step] at hstep
    split at hstep
    · obtain ⟨b, hb, rfl⟩ := Option.map_eq_some_iff.mp hstep
      refine ⟨h.health, h.failures, h.successes, fun i r p hpos => ?_⟩
      cases hpos
      exact ⟨b, hb, rfl⟩
    · cases hstep
  | update =>
    cases hpos : s.position with
    | loaded i reachable previous => exact h.update hF hS hpos hstep
    | waiting => simp [HealthState.step, hpos] at hstep
    | probing i => simp [HealthState.step, hpos] at hstep
    | probed i reachable => simp [HealthState.step, hpos] at hstep
  | data i op =>
    cases hstep
    -- the data plane does not touch the flag
    have hget : ∀ (j : Nat) (c : Backend), (s.backends.modify i op.on)[j]? = some c →
        ∃ b, s.backends[j]? = some b ∧ c.healthy = b.healthy := by
      intro j c hc
      rw [List.getElem?_modify] at hc
      obtain ⟨b, hb, rfl⟩ := Option.map_eq_some_iff.mp hc
      refine ⟨b, hb, ?_⟩
      split
      · exact op.on_healthy b
      · rfl
    refine ⟨?_, h.failures, h.successes, ?_⟩
    · intro j c hc
      obtain ⟨b, hb, hh⟩ := hget j c hc
      rw [hh]
      exact h.health j b hb
    · intro j r p hpos
      obtain ⟨b, hb, hp⟩ := h.previous j r p hpos
      refine ⟨if i = j then op.on b else b, ?_, ?_⟩
      · rw [List.getElem?_modify, hb]
        rfl
      · rw [hp]
        split
        · exact (op.on_healthy b).symm
        · rfl

end Steps

theorem start_hysteresis (F S : UInt64) (hF : 1 ≤ F) (configs : List BackendConfig) :
    Hysteresis F S (start configs) := by
  have hF' : 1 ≤ F.toNat := UInt64.le_iff_toNat_le.mp hF
  refine ⟨?_, fun _ => rfl, fun _ => rfl, fun i r p hpos => by cases hpos⟩
  intro i b hb
  rw [start, List.getElem?_map] at hb
  obtain ⟨c, -, rfl⟩ := Option.map_eq_some_iff.mp hb
  constructor
  · intro hh
    cases hh
  · intro ht
    exact absurd ht (not_tripped_nil hF')

/-- **Health, in closed form.** In every state of every run, under every
interleaving with the data plane, a backend is unhealthy iff some prefix of
its own probe history ends with `F` failures in a row and no longer prefix
ends with `S` successes in a row. -/
theorem unhealthy_iff_tripped (F S : UInt64) (hF : 1 ≤ F) (hS : 1 ≤ S)
    (configs : List BackendConfig) (acts : List HealthAct) (s : HealthState)
    (hrun : Run (fun s a t => step F S s a = some t) (start configs) acts s)
    (i : Nat) (b : Backend) (hb : s.backends[i]? = some b) :
    b.healthy = false ↔
      ∃ pre, pre <+: s.history i ∧ List.replicate F.toNat false <:+ pre ∧
        ∀ longer, longer <+: s.history i → pre.length < longer.length →
          ¬ List.replicate S.toNat true <:+ longer :=
  (hrun.invariant (fun _ _ _ h ha => h.step hF hS ha) (start_hysteresis F S hF configs)).health i b hb

/-- Two failed probes with threshold two, a connect failure of the data plane
in between. -/
theorem unhealthy_after_two_failures :
    ∃ acts s b, Run (fun s a t => step 2 1 s a = some t)
        (start [⟨"app", "127.0.0.1", 9001, 1⟩]) acts s ∧
      s.backends[0]? = some b ∧ b.healthy = false ∧ b.failedConnections = 1 ∧
      ∃ pre, pre <+: s.history 0 ∧ List.replicate 2 false <:+ pre ∧
        ∀ longer, longer <+: s.history 0 → pre.length < longer.length →
          ¬ List.replicate 1 true <:+ longer := by
  let s₀ := start [⟨"app", "127.0.0.1", 9001, 1⟩]
  have hrun : Run (fun s a t => step 2 1 s a = some t) s₀ _ _ :=
    ((((((((Run.nil.snoc (a := .checkOnce) rfl).snoc (a := .waitForConnect false) rfl).snoc
      (a := .loadHealthy) rfl).snoc (a := .update) rfl).snoc
      (a := .data 0 .recordConnectFailure) rfl).snoc (a := .checkOnce) rfl).snoc
      (a := .waitForConnect false) rfl).snoc (a := .loadHealthy) rfl).snoc (a := .update) rfl
  exact ⟨_, _, _, hrun, rfl, rfl, rfl,
    (unhealthy_iff_tripped 2 1 (by decide) (by decide) _ _ _ hrun 0 _ rfl).mp rfl⟩

end HealthState

end FluxGate
