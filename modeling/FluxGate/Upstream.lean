import FluxGate.Health
import FluxGate.Net
import FluxGate.Process

/-!
# The callers of the socket functions

`createSession` calls `connectNonBlocking`, and `checkOnce` calls
`waitForConnect`. The models of the worker and of the health checker take the
outcomes of these calls from the environment; here the calls are run against
a descriptor table, and the two levels agree: what the socket function does is
what the steps of the worker do, and what a probe finds is what the kernel
answered.

A probe is one step: all of `waitForConnect`, from `socket` to `close`, runs
against the table as the step finds it, and other threads open and close
descriptors before and after it only. The socket of a probe is known to the
health checker's thread alone, and the kernel gives its number to nobody else
while it is open, so what others do to their own descriptors in the meantime can
be put before the step.
-/

namespace FluxGate

open Lib

/-! ## `createSession` -/

section Worker

variable {n : Nat} {config : AppConfig} {i : Fin n} {s s' : System n} {pc : Pc}

/-- The two levels have the same descriptors open. -/
def NetState.Agrees (k : NetState) (s : System n) : Prop := ∀ fd, s.isOpen fd = (k.table fd).isSome

/-- Where `createSession` goes on after the call. -/
def afterConnect (c : Fd) (b : Nat) : Except Text ConnectResult → Job
  | .ok result => .construct c b result.fd.toNat result.connecting
  | .error _ => .cleanup [.connectFailed b, .closeClient c, .releaseLoad b]

/-- Steps of one worker that do not touch the counters, from `s` to a state where it is at `pc`. -/
structure Moves (config : AppConfig) (i : Fin n) (s : System n) (pc : Pc) (s' : System n) : Prop where
  run : ∃ acts, Run (Guarded System.NotifyOk (System.Step config)) s acts s' ∧ ∀ act ∈ acts, act = .worker i false
  shared : s'.shared = s.shared
  at_pc : (s'.workers i).pc = pc

theorem Moves.refl (hpc : (s.workers i).pc = pc) : Moves config i s pc s :=
  ⟨⟨[], .nil, fun act hact => by cases hact⟩, rfl, hpc⟩

/-- One more step, with what it does to the descriptors. -/
theorem Moves.step (h : Moves config i s pc s') {eff : FdEffect} {w : Worker}
    (hstep : Worker.Step config s'.shared (s'.workers i) false eff s'.shared w) (hfd : s'.Allows eff) :
    Moves config i s w.pc ({ s'.setWorker i w with shared := s'.shared }.apply eff) := by
  obtain ⟨acts, hrun, hacts⟩ := h.run
  refine ⟨⟨acts ++ [.worker i false], hrun.snoc ⟨fun he => (by cases he), .worker hstep hfd⟩, ?_⟩, ?_, ?_⟩
  · intro act hact
    rcases List.mem_append.mp hact with hin | hin
    · exact hacts act hin
    · exact List.mem_singleton.mp hin
  · cases eff <;> exact h.shared
  · cases eff <;> simp [System.apply, System.setWorker, System.openFd, System.closeFd, System.release, Worker.forget]

variable {c : Fd} {b : Nat} {clients : List Fd} {ctx : DrainCtx}

/-- `socket` fails. -/
theorem moves_noSocket (hpc : (s.workers i).pc = .create (.socket c b) clients ctx) :
    ∃ s', Moves config i s (.create (.cleanup [.connectFailed b, .closeClient c, .releaseLoad b]) clients ctx) s' ∧
      s'.isOpen = s.isOpen :=
  ⟨_, (Moves.refl hpc).step (.noSocket c b clients ctx hpc) trivial, rfl⟩

/-- `socket` works, and a later call throws: the destructor closes the descriptor. -/
theorem moves_threw (hpc : (s.workers i).pc = .create (.socket c b) clients ctx) {u : Fd}
    (hu : s.isOpen u = false) :
    ∃ s', Moves config i s (.create (.cleanup [.connectFailed b, .closeClient c, .releaseLoad b]) clients ctx) s' ∧
      s'.isOpen = s.isOpen := by
  have h : Moves config i s _ s := .refl hpc
  have h := h.step (.socket c b u clients ctx hpc) hu
  have h := h.step (.connectThrew c b u clients ctx h.at_pc) trivial
  have h := h.step (.clean (.closeUpstream u) _ clients ctx h.at_pc) trivial
  refine ⟨_, h, ?_⟩
  show Function.update (Function.update s.isOpen u true) u false = s.isOpen
  rw [Function.update_idem, ← hu, Function.update_eq_self]

/-- The call returns a socket. -/
theorem moves_connect (hpc : (s.workers i).pc = .create (.socket c b) clients ctx) {u : Fd}
    (hu : s.isOpen u = false) (connecting : Bool) :
    ∃ s', Moves config i s (.create (.construct c b u connecting) clients ctx) s' ∧
      s'.isOpen = Function.update s.isOpen u true := by
  have h : Moves config i s _ s := .refl hpc
  have h := h.step (.socket c b u clients ctx hpc) hu
  have h := h.step (.connect c b u connecting clients ctx h.at_pc) trivial
  exact ⟨_, h, rfl⟩

/-- A call that works everywhere. -/
def smoothAnswers (u : Fd) (connecting : Bool) : ConnectAnswers where
  socket := .ok u
  closeOnExec := ⟨none, none⟩
  nonBlocking := ⟨none, none⟩
  noDelay := none
  connect := if connecting then some EINPROGRESS else none

theorem smoothAnswers_calls (u : Fd) (connecting : Bool) (endpoint : ResolvedEndpoint) :
    firstFailure ((smoothAnswers u connecting).calls endpoint) = none := by
  cases connecting <;> rfl

end Worker

/-- **`connectNonBlocking` and the steps of `createSession` agree.** A worker is about to call it, and the
descriptor table has the descriptors open that the process has. Whatever the kernel answers, the worker has
steps that end where `createSession` goes on after this outcome of the call, with the same descriptors open
as the call leaves open: on an exception all of it is undone. And the step relation allows no more than the
call: each descriptor that is not open, with either flag, is the outcome for some answers of the kernel, and
so is an exception. -/
theorem connect_simulated {n : Nat} (config : AppConfig) (strerror : Errno → Text) (endpoint : ResolvedEndpoint)
    (k : NetState) (s : System n) (i : Fin n) (c : Fd) (b : Nat) (clients : List Fd) (ctx : DrainCtx)
    (hagree : k.Agrees s) (hpc : (s.workers i).pc = .create (.socket c b) clients ctx) :
    (∀ ans r k', Fresh k.table ans.socket → connectNonBlocking strerror endpoint ans k = some (r, k') →
      ∃ s', Moves config i s (.create (afterConnect c b r) clients ctx) s' ∧ k'.Agrees s') ∧
    (∀ (u : Fd) (connecting : Bool), s.isOpen u = false → ∃ ans k', Fresh k.table ans.socket ∧
      connectNonBlocking strerror endpoint ans k = some (.ok ⟨u, connecting⟩, k')) ∧
    (∃ ans m k', Fresh k.table ans.socket ∧ connectNonBlocking strerror endpoint ans k = some (.error m, k')) := by
  refine ⟨?_, ?_, ?_⟩
  · intro ans r k' hfresh hcall
    rcases connectNonBlocking_spec endpoint ans hfresh k ⟨rfl, rfl⟩ with
      ⟨result, k₁, hrun, -, u, hsocket, hresult, htable, -⟩ | ⟨m, k₁, hrun, -, htable, -⟩
    · obtain ⟨rfl, rfl⟩ := Prod.mk.inj (Option.some.inj (hcall.symm.trans hrun))
      have hu : s.isOpen u = false := by
        rw [hagree u, hfresh u hsocket]
        rfl
      obtain ⟨s', hmoves, hopen⟩ := @moves_connect _ config _ _ _ _ _ _ hpc _ hu
        (decide (ans.connect = some EINPROGRESS))
      refine ⟨s', ?_, fun fd => ?_⟩
      · rw [hresult]
        exact hmoves
      · rw [hopen, htable]
        by_cases hfd : fd = u
        · simp [hfd]
        · simp [hfd, hagree fd]
    · obtain ⟨rfl, rfl⟩ := Prod.mk.inj (Option.some.inj (hcall.symm.trans hrun))
      obtain ⟨s', hmoves, hopen⟩ : ∃ s', Moves config i s (.create (afterConnect c b (.error m)) clients ctx) s' ∧
          s'.isOpen = s.isOpen := by
        cases hsocket : ans.socket with
        | error e => exact moves_noSocket hpc
        | ok u =>
          refine moves_threw hpc (u := u) ?_
          rw [hagree u, hfresh u hsocket]
          rfl
      refine ⟨s', hmoves, fun fd => ?_⟩
      rw [hopen, htable, hagree fd]
  · intro u connecting hu
    have hfree : k.table u = none := by
      rw [← Option.isNone_iff_eq_none, ← Option.not_isSome, ← hagree u, hu]
      rfl
    have hfresh : Fresh k.table (smoothAnswers u connecting).socket := fun fd hfd => Except.ok.inj hfd ▸ hfree
    rcases @connectNonBlocking_spec strerror _ _ endpoint (smoothAnswers u connecting) hfresh k ⟨rfl, rfl⟩ with
      ⟨result, k', hrun, -, fd, hsocket, hresult, -⟩ | ⟨m, k', -, ⟨failure, hfailure, -⟩, -⟩
    · obtain rfl := Except.ok.inj hsocket
      refine ⟨smoothAnswers u connecting, k', hfresh, ?_⟩
      rw [hrun, hresult]
      cases connecting <;> rfl
    · rw [smoothAnswers_calls] at hfailure
      cases hfailure
  · refine ⟨⟨.error .eintr, ⟨none, none⟩, ⟨none, none⟩, none, none⟩, _, _, fun fd hfd => (by cases hfd), rfl⟩

namespace Demo

/-- The worker of the small process is about to connect for its first client. -/
def dialing : System 1 :=
  { taken with workers := fun _ => (taken.workers 0).goto (.create (.socket 6 0) [] (.batch [])) }

/-- Its descriptor table. -/
def table : NetState := ⟨fun fd => if dialing.isOpen fd then some (.new 2) else none, .other 0, 0⟩

theorem table_agrees : table.Agrees dialing := by
  intro fd
  cases h : dialing.isOpen fd with
  | true => simp [table, h]
  | false => simp [table, h]

end Demo

/-- The call of the small process can return the descriptor 7, and the worker goes on with it. -/
theorem connect_simulated_dialing :
    ∃ s', Moves Demo.config 0 Demo.dialing (.create (.construct 6 0 7 true) [] (.batch [])) s' := by
  have h := connect_simulated Demo.config Demo.strerror Demo.endpoint Demo.table Demo.dialing 0 6 0 [] (.batch [])
    Demo.table_agrees rfl
  obtain ⟨ans, k', hfresh, hcall⟩ := h.2.1 7 true rfl
  obtain ⟨s', hmoves, -⟩ := h.1 ans _ k' hfresh hcall
  exact ⟨s', hmoves⟩

/-! ## `checkOnce` -/

/-- The health checker with a kernel to ask. -/
structure Prober where
  health : HealthState
  net : NetState
  /-- the answers to the probe that is being looked at -/
  pending : Option ProbeAnswers
  /-- for each backend, the answers to its probes so far -/
  answers : Nat → List ProbeAnswers
  /-- the table as the rest of the process has it -/
  others : Fd → Option SocketState

namespace Prober

/-- One step: a whole probe of the backend whose turn it is, with no other thread in between; another step of the
health checker or of the data plane; or anything at all that other threads do to the descriptor table. -/
inductive Step (F S : UInt64) (strerror : Errno → Text) (endpoints : Nat → ResolvedEndpoint) (p : Prober) :
    HealthAct ⊕ (Fd → Option SocketState) → Prober → Prop
  | probe (i : Nat) (ans : ProbeAnswers) (reachable : Bool) (net : NetState) (health : HealthState)
      (hpos : p.health.position = .probing i) (hfresh : Fresh p.net.table ans.socket)
      (hcall : waitForConnect strerror (endpoints i) ans p.net = some (.ok reachable, net))
      (hstep : p.health.step F S (.waitForConnect reachable) = some health) :
      Step F S strerror endpoints p (.inl (.waitForConnect reachable))
        { p with health := health, net := net, pending := some ans }
  | update (i : Nat) (reachable previous : Bool) (ans : ProbeAnswers) (health : HealthState)
      (hpos : p.health.position = .loaded i reachable previous) (hpending : p.pending = some ans)
      (hstep : p.health.step F S .update = some health) :
      Step F S strerror endpoints p (.inl .update)
        { p with health := health, pending := none, answers := Function.update p.answers i (p.answers i ++ [ans]) }
  | other (act : HealthAct) (health : HealthState) (hact : act ≠ .update ∧ ∀ r, act ≠ .waitForConnect r)
      (hstep : p.health.step F S act = some health) :
      Step F S strerror endpoints p (.inl act) { p with health := health }
  | table (t : Fd → Option SocketState) (errno : Errno) :
      Step F S strerror endpoints p (.inr t) { p with net := { p.net with table := t, errno := errno }, others := t }

variable {F S : UInt64} {strerror : Errno → Text} {endpoints : Nat → ResolvedEndpoint} {p q : Prober}

/-- The history of the health checker is what the kernel answered. -/
structure Faithful (endpoints : Nat → ResolvedEndpoint) (p : Prober) : Prop where
  history : ∀ i, p.health.history i = (p.answers i).map fun ans => ans.reachable (endpoints i)
  probed : ∀ i reachable, p.health.position = .probed i reachable →
    ∃ ans, p.pending = some ans ∧ reachable = ans.reachable (endpoints i)
  loaded : ∀ i reachable previous, p.health.position = .loaded i reachable previous →
    ∃ ans, p.pending = some ans ∧ reachable = ans.reachable (endpoints i)
  table : p.net.table = p.others
  closes : p.net.badCloses = 0

theorem Faithful.step {act : HealthAct ⊕ (Fd → Option SocketState)} (h : Faithful endpoints p)
    (hstep : Step F S strerror endpoints p act q) : Faithful endpoints q := by
  cases hstep with
  | probe i ans reachable net health hpos hfresh hcall hstep =>
    obtain ⟨hr, htable, hbad⟩ := waitForConnect_returned hfresh hcall
    obtain rfl := Except.ok.inj hr
    simp only [HealthState.step, hpos, Option.some.injEq] at hstep
    subst hstep
    refine ⟨h.history, fun j r hj => ?_, fun j r previous hj => (by cases hj), htable.trans h.table,
      hbad.trans h.closes⟩
    cases hj
    exact ⟨ans, rfl, rfl⟩
  | update i reachable previous ans health hpos hpending hstep =>
    obtain ⟨ans', hans', hr⟩ := h.loaded i reachable previous hpos
    obtain rfl := Option.some.inj (hpending.symm.trans hans')
    simp only [HealthState.step, hpos, Option.some.injEq] at hstep
    subst hstep
    refine ⟨fun j => ?_, fun j r hj => ?_, fun j r previous hj => ?_, h.table, h.closes⟩
    · by_cases hji : j = i
      · subst hji
        simp [HealthState.goto, h.history j, hr]
      · simp [HealthState.goto, hji, h.history j]
    · simp only [HealthState.goto] at hj
      split at hj <;> cases hj
    · simp only [HealthState.goto] at hj
      split at hj <;> cases hj
  | other act health hact hstep =>
    cases act with
    | update => exact absurd rfl hact.1
    | waitForConnect r => exact absurd rfl (hact.2 r)
    | checkOnce =>
      simp only [HealthState.step] at hstep
      split at hstep
      · cases hstep
        refine ⟨h.history, fun j r hj => ?_, fun j r previous hj => ?_, h.table, h.closes⟩
        · simp only [HealthState.goto] at hj
          split at hj <;> cases hj
        · simp only [HealthState.goto] at hj
          split at hj <;> cases hj
      · cases hstep
    | loadHealthy =>
      simp only [HealthState.step] at hstep
      split at hstep
      · rename_i i reachable hpos
        obtain ⟨b, hb, rfl⟩ := Option.map_eq_some_iff.mp hstep
        refine ⟨h.history, fun j r hj => (by cases hj), fun j r previous hj => ?_, h.table, h.closes⟩
        cases hj
        exact h.probed i reachable hpos
      · cases hstep
    | data i op =>
      cases hstep
      exact ⟨h.history, h.probed, h.loaded, h.table, h.closes⟩
  | table t errno => exact ⟨h.history, h.probed, h.loaded, rfl, h.closes⟩

/-- The health checker has not begun. -/
def start (configs : List BackendConfig) (t : Fd → Option SocketState) : Prober :=
  ⟨.start configs, ⟨t, .other 0, 0⟩, none, fun _ => [], t⟩

theorem start_faithful (configs : List BackendConfig) (t : Fd → Option SocketState) :
    Faithful endpoints (start configs t) :=
  ⟨fun _ => rfl, fun i r hpos => (by cases hpos), fun i r previous hpos => (by cases hpos), rfl, rfl⟩

/-- A step of the prober is a step of the health checker, or leaves it alone. -/
theorem Step.health {act : HealthAct ⊕ (Fd → Option SocketState)} (hstep : Step F S strerror endpoints p act q) :
    q.health = p.health ∨ ∃ a, p.health.step F S a = some q.health := by
  cases hstep with
  | probe i ans reachable net health hpos hfresh hcall hstep => exact Or.inr ⟨_, hstep⟩
  | update i reachable previous ans health hpos hpending hstep => exact Or.inr ⟨_, hstep⟩
  | other act health hact hstep => exact Or.inr ⟨_, hstep⟩
  | table t errno => exact Or.inl rfl

end Prober

/-- **Health is what the kernel answered.** The health checker probes the backends with `waitForConnect`
while the data plane works on them and other threads open and close descriptors as they like. In every run,
a backend is unhealthy iff some prefix of the verdicts that the kernel's answers give for it ends with `F`
failures in a row and no longer prefix ends with `S` successes in a row; and the probes have left no
descriptor open and closed none of anybody else: the table is as the rest of the process made it. -/
theorem run_probes (F S : UInt64) (hF : 1 ≤ F) (hS : 1 ≤ S) (strerror : Errno → Text)
    (endpoints : Nat → ResolvedEndpoint) (configs : List BackendConfig) (t : Fd → Option SocketState)
    {acts : List (HealthAct ⊕ (Fd → Option SocketState))} {p : Prober}
    (hrun : Run (Prober.Step F S strerror endpoints) (.start configs t) acts p) :
    (∀ i b, p.health.backends[i]? = some b → (b.healthy = false ↔
      Tripped false true F.toNat S.toNat ((p.answers i).map fun ans => ans.reachable (endpoints i)))) ∧
    p.net.table = p.others ∧ p.net.badCloses = 0 := by
  have hfaithful : Prober.Faithful endpoints p :=
    hrun.invariant (fun _ _ _ h hstep => h.step hstep) (Prober.start_faithful configs t)
  have hhealth : HealthState.Hysteresis F S p.health := by
    refine Run.invariant (I := fun p : Prober => HealthState.Hysteresis F S p.health) (fun p act q h hstep => ?_)
      (HealthState.start_hysteresis F S hF configs) hrun
    rcases hstep.health with hsame | ⟨a, ha⟩
    · rw [hsame]
      exact h
    · exact h.step hF hS ha
  refine ⟨fun i b hb => ?_, hfaithful.table, hfaithful.closes⟩
  rw [hhealth.health i b hb, hfaithful.history i]

/-- The kernel refuses the connection: `ECONNREFUSED`. -/
def Demo.refused : ProbeAnswers :=
  { Demo.answers with connect := some (.other 111) }

/-- One refused connect with threshold one, while another thread opens the descriptor 5 in between. -/
theorem run_probes_refused : ∃ acts p b,
    Run (Prober.Step 1 1 Demo.strerror fun _ => Demo.endpoint)
      (.start [⟨"app", "127.0.0.1", 80, 1⟩] fun _ => none) acts p ∧
      p.health.backends[0]? = some b ∧ b.healthy = false ∧ (p.net.table 5).isSome ∧
      Tripped false true 1 1 ((p.answers 0).map fun ans => ans.reachable Demo.endpoint) := by
  have hcall : waitForConnect Demo.strerror Demo.endpoint Demo.refused ⟨fun _ => none, .other 0, 0⟩ =
      some (.ok false, _) := rfl
  have hrun : Run (Prober.Step 1 1 Demo.strerror fun _ => Demo.endpoint)
      (.start [⟨"app", "127.0.0.1", 80, 1⟩] fun _ => none) [] _ := .nil
  have hrun := hrun.snoc (.other .checkOnce _ ⟨by decide, by simp⟩ rfl)
  have hrun := hrun.snoc (.probe 0 Demo.refused false _ _ rfl (fun _ _ => rfl) hcall rfl)
  have hrun := hrun.snoc (.table (Function.update (fun _ => none) 5 (some (.new 2))) (.other 0))
  have hrun := hrun.snoc (.other .loadHealthy _ ⟨by decide, by simp⟩ rfl)
  have hrun := hrun.snoc (.update 0 false true Demo.refused _ rfl rfl rfl)
  have h := run_probes 1 1 (by decide) (by decide) Demo.strerror _ _ _ hrun
  exact ⟨_, _, _, hrun, rfl, rfl, rfl, (h.1 0 _ rfl).mp rfl⟩

end FluxGate
