import FluxGate.Choice
import FluxGate.ConfigSections
import FluxGate.Process

/-!
# From an accepted file to a running process

`selectWorker`, `acquire`, `enqueue`, the epoll loop and the statistics thread
do arithmetic on configured numbers without a check of their own. `load_safe`
says that the loader has checked enough: whatever the file, with every default,
override and repeated section, the configuration it returns keeps all of it
within bounds.
-/

namespace FluxGate

open Lib

/-- The constructor of `BackendPool`, without the resolution of the endpoints. -/
def BackendPool.new (configs : List BackendConfig) : Except String (BackendPool configs.length) :=
  if configs.isEmpty then .error "backend pool cannot be empty"
  else .ok ⟨fun b => .new (configs.get b), 0⟩

namespace ConfigLoader

variable {c c' : AppConfig} {value : Text} {minimum maximum : Int}

/-! ## Ranges -/

/-- The setting is a number of the range. -/
def Within (minimum maximum : Int) : Setting → Prop
  | .number n => minimum ≤ n ∧ n ≤ maximum
  | .text _ => False

theorem within_of_read {x : Setting} (h : (Form.number minimum maximum).read value = some x) :
    Within minimum maximum x := by
  obtain ⟨n, rfl, hn⟩ := Form.read_number h
  exact hn

/-- What was written last is in range if what was there before is. -/
theorem within_of_latest {form : Form} {d x : Setting} {values : List Text}
    (hform : form = .number minimum maximum) (hd : Within minimum maximum d)
    (h : Latest (fun v x => form.read v = some x) d values x) : Within minimum maximum x := by
  induction values using List.reverseRecOn with
  | nil =>
    rw [latest_nil] at h
    rwa [h]
  | append_singleton values v =>
    rw [latest_append_singleton, hform] at h
    exact within_of_read h

/-- Every default passes the check of its own key. -/
theorem ScalarKey.default_within {k : ScalarKey} (hform : k.form = .number minimum maximum) :
    Within minimum maximum (k.get {}) := by
  cases k <;> cases hform <;> exact ⟨by decide, by decide⟩

theorem Describes.within {secs : List Section} (h : Describes secs c) {k : ScalarKey}
    (hform : k.form = .number minimum maximum) : Within minimum maximum (k.get c) :=
  within_of_latest hform (ScalarKey.default_within hform) (h.scalar k)

theorem DescribesBackend.weight_within {a : Text × List (Text × Text)} {b : BackendConfig}
    (h : DescribesBackend a b) : 1 ≤ b.weight ∧ b.weight ≤ 1000 := by
  have hone : Within 1 1000 (BackendKey.initial .weight) := ⟨by decide, by decide⟩
  have hw : (1 : Int) ≤ b.weight ∧ (b.weight : Int) ≤ 1000 :=
    within_of_latest rfl hone (h.field .weight)
  omega

theorem Describes.weights {secs : List Section} (h : Describes secs c) :
    ∀ b ∈ c.backends, 1 ≤ b.weight ∧ b.weight ≤ 1000 :=
  (forall_mem_iff_of_forall₂ h.backends fun _ _ hab => iff_of_true trivial hab.weight_within).mp
    fun _ _ => trivial

/-! ## Casts -/

/-- An assignment stores the number that `parseLong` has returned. -/
theorem stored_number {k : ScalarKey} {n : Int} (hform : k.form = .number minimum maximum)
    (hassign : assignServerValue c k.name value = .ok c' ∨ assignHealthValue c k.name value = .ok c')
    (hparse : parseLong value k.name minimum maximum = .ok n) : k.get c' = .number n := by
  have hput : ∃ k' : ScalarKey, k'.name = k.name ∧ ∃ x, k'.form.read value = some x ∧ k'.put c x = c' := by
    rcases hassign with h | h
    · obtain ⟨k', -, hname, hx⟩ := assignServerValue_eq_ok.mp h
      exact ⟨k', hname, hx⟩
    · obtain ⟨k', -, hname, hx⟩ := assignHealthValue_eq_ok.mp h
      exact ⟨k', hname, hx⟩
  obtain ⟨k', hname, x, hx, rfl⟩ := hput
  obtain rfl := ScalarKey.name_injective hname
  rw [ScalarKey.get_put hx]
  rw [hform] at hx
  simp only [Form.read] at hx
  rw [← parseLong_toOption value k'.name, hparse] at hx
  exact (Option.some.inj hx).symm

theorem stored_backend_number {s s' : Loader} {k : BackendKey} {lineNumber : Nat} {n : Int}
    (hform : k.form = .number minimum maximum)
    (hassign : s.assignBackendValue lineNumber k.name value = .ok s')
    (hparse : parseLong value k.name minimum maximum = .ok n) : k.get s'.currentBackend = .number n := by
  obtain ⟨k', hname, x, hx, rfl⟩ := Loader.assignBackendValue_eq_ok.mp hassign
  obtain rfl := BackendKey.name_injective hname
  rw [Loader.get_put hx]
  rw [hform] at hx
  simp only [Form.read] at hx
  rw [← parseLong_toOption value k'.name, hparse] at hx
  exact (Option.some.inj hx).symm

/-! ## Bounds -/

/-- What the rest of the program relies on. -/
structure Safe (config : AppConfig) : Prop where
  /-- the divisors of `selectWorker` and of `acquire` -/
  workers : config.workers ≠ 0
  backends : config.backends.length ≠ 0
  /-- the array for `epoll_wait`, and its size as an `int` -/
  events : 0 < config.maxEvents ∧ toInt config.maxEvents = config.maxEvents
  /-- the limit of a queue, as a `std::size_t` -/
  backlog : config.backlog < 2 ^ 31 ∧ config.backlog * 4 < 2 ^ 64
  /-- the turns of the statistics thread, as an `int` -/
  stats : config.statsIntervalSeconds * 10 < 2 ^ 31
  buffers : ∀ id client upstream connecting backend now side,
    0 < ((ProxySession.new id client upstream connecting backend config.bufferSize now).inbound side).capacity
  thresholds : 1 ≤ config.healthCheckFailureThreshold ∧ 1 ≤ config.healthCheckSuccessThreshold
  weights : ∀ b ∈ config.backends, 1 ≤ b.weight ∧ b.weight ≤ 1000

theorem Describes.safe {secs : List Section} (h : Describes secs c) (hc : Acceptable c) : Safe c := by
  have hrange : ∀ {k : ScalarKey} {minimum maximum : Int}, k.form = .number minimum maximum →
      Within minimum maximum (k.get c) := fun hform => h.within hform
  have hworkers : (1 : Int) ≤ c.workers ∧ _ := hrange (k := .workers) rfl
  have hevents : (16 : Int) ≤ c.maxEvents ∧ (c.maxEvents : Int) ≤ 65536 := hrange (k := .maxEvents) rfl
  have hbacklog : _ ∧ (c.backlog : Int) ≤ 65535 := hrange (k := .backlog) rfl
  have hstats : _ ∧ (c.statsIntervalSeconds : Int) ≤ 3600 := hrange (k := .statsIntervalSeconds) rfl
  have hbuffer : (4096 : Int) ≤ c.bufferSize ∧ _ := hrange (k := .bufferSize) rfl
  have hfail : (1 : Int) ≤ c.healthCheckFailureThreshold ∧ _ := hrange (k := .failureThreshold) rfl
  have hsuccess : (1 : Int) ≤ c.healthCheckSuccessThreshold ∧ _ := hrange (k := .successThreshold) rfl
  exact {
    workers := by omega
    backends := fun hlen => hc.nonempty (List.length_eq_zero_iff.mp hlen)
    events := by
      have hcast : (toInt c.maxEvents : Int) = c.maxEvents := toInt_of_mem (by omega) (by omega)
      omega
    backlog := by omega
    stats := by omega
    buffers := by
      intro id client upstream connecting backend now side
      rw [(new_sized id client upstream connecting backend now side).2]
      omega
    thresholds := by omega
    weights := h.weights }

end ConfigLoader

/-! ## The process built from a file -/

namespace LeaseState

variable {n : Nat} [NeZero n] {T V : Type} [Fintype T] [DecidableEq T] [Fintype V] [DecidableEq V]

/-- Weights up to 1000 are enough while fewer than `2 ^ 54` leases are live. -/
theorem run_inRange {configs : Fin n → BackendConfig} (hweight : ∀ b, (configs b).weight ≤ 1000)
    {tieBreaker : Nat} {acts : List (LeaseAct n T V)} {s : LeaseState n T V}
    (hrun : Run (fun s a t => s.step a = some t) (start configs tieBreaker) acts s)
    (hlive : ∑ b, ∑ t, (s.threads t).holdings b < 2 ^ 54) : s.pool.InRange := by
  have hw : ∀ b, s.pool.weight b = (configs b).weight :=
    hrun.invariant (I := fun s => ∀ b, s.pool.weight b = (configs b).weight)
      (fun _ _ _ h hstep b => ((step_moves hstep).weight b).trans (h b)) fun _ => rfl
  have hcount := (accounted_run configs tieBreaker acts s hrun).1
  refine BackendPool.inRange_of_bounds (fun b => ?_) (fun b => ?_)
  · rw [hw]
    exact hweight b
  · rw [hcount]
    exact Nat.lt_of_le_of_lt
      (le_total (Finset.mem_univ b) fun b => ∑ t, (s.threads t).holdings b) hlive

end LeaseState

namespace ConfigLoader

/-- **Accepted configurations are safe.** Of every file that the loader accepts,
the configuration keeps the arithmetic of the other functions within bounds. The
pool can be built from it, and in every run of threads over that pool no product
of `acquire` wraps while fewer than `2 ^ 54` leases are live; every session of
every worker has room in both buffers. No assignment of the loader, in this file
or another, loses a part of the number it has parsed. -/
theorem load_safe (path file : Text) (config : AppConfig) (h : load path (some file) = .ok config) :
    Safe config ∧
      BackendPool.new config.backends = .ok ⟨fun b => .new (config.backends.get b), 0⟩ ∧
      (∃ _ : NeZero config.backends.length, ∀ (T V : Type) [Fintype T] [DecidableEq T] [Fintype V]
        [DecidableEq V] (acts : List (LeaseAct config.backends.length T V))
        (s : LeaseState config.backends.length T V),
        Run (fun s a t => s.step a = some t) (LeaseState.start config.backends.get 0) acts s →
        ∑ b, ∑ t, (s.threads t).holdings b < 2 ^ 54 → s.pool.InRange) ∧
      (∀ (s₀ s : System config.workers) (acts : List (SystemAct config.workers)), System.Start s₀ →
        Run (Guarded System.NotifyOk (System.Step config)) s₀ acts s →
        ∀ i p session, (s.workers i).heap p = some session → ∀ side, 0 < (session.inbound side).capacity) ∧
      (∀ (k : ScalarKey) (minimum maximum n : Int) (value : Text) (c c' : AppConfig),
        k.form = .number minimum maximum →
        assignServerValue c k.name value = .ok c' ∨ assignHealthValue c k.name value = .ok c' →
        parseLong value k.name minimum maximum = .ok n → k.get c' = .number n) ∧
      (∀ (k : BackendKey) (minimum maximum n : Int) (value : Text) (s s' : Loader) (lineNumber : Nat),
        k.form = .number minimum maximum → s.assignBackendValue lineNumber k.name value = .ok s' →
        parseLong value k.name minimum maximum = .ok n → k.get s'.currentBackend = .number n) := by
  obtain ⟨secs, -, -, hdescribes, hacceptable⟩ := (load_eq_ok path file).mp h
  have hsafe : Safe config := hdescribes.safe hacceptable
  refine ⟨hsafe, ?_, ?_, ?_, ?_, ?_⟩
  · have hne : config.backends.isEmpty = false := by
      rw [List.isEmpty_eq_false_iff]
      exact hacceptable.nonempty
    rw [BackendPool.new, hne]
    rfl
  · have hsize : NeZero config.backends.length := ⟨hsafe.backends⟩
    refine ⟨hsize, ?_⟩
    intro T V _ _ _ _ acts s hrun hlive
    exact LeaseState.run_inRange (fun b => (hsafe.weights _ (List.get_mem _ b)).2) hrun hlive
  · intro s₀ s acts hstart hrun i p session hp side
    have hsized := ((System.run_consistent hstart hrun).workers i).sized p session hp side
    have hnew := hsafe.buffers 0 0 0 false 0 0 side
    rw [(new_sized 0 0 0 false 0 0 side).2] at hnew
    rw [hsized.2]
    exact hnew
  · intro k minimum maximum n value c c' hform hassign hparse
    exact stored_number hform hassign hparse
  · intro k minimum maximum n value s s' lineNumber hform hassign hparse
    exact stored_backend_number hform hassign hparse

namespace Demo

/-- Two sections for the server, the second of which wins, and a backend at the upper limits. -/
def limitsFile : Text :=
  "[server]\nworkers=1\n[backend a]\nhost=h\nport=65535\nweight=1000\n[server]\nworkers=128\n".toList

def limitsConfig : AppConfig where
  workers := 128
  backends := [{ name := "a", host := "h", port := 65535, weight := 1000 }]

end Demo

theorem load_safe_limits :
    load [] (some Demo.limitsFile) = .ok Demo.limitsConfig ∧ Safe Demo.limitsConfig := by
  have h : load [] (some Demo.limitsFile) = .ok Demo.limitsConfig := rfl
  exact ⟨h, (load_safe [] Demo.limitsFile Demo.limitsConfig h).1⟩

end ConfigLoader

end FluxGate
