import FluxGate.System
import FluxGate.Lib.Count
import Mathlib.Algebra.BigOperators.Fin

/-!
# Who owns what

A client socket, an upstream socket and a lease each have to be given up
exactly once. `held` counts how often a worker accounts for such a resource:
in its queue, in the local variables of its thread, in its session objects.
One step of a worker changes these counts only by what it opens, closes,
acquires or releases (`Worker.Step.balance`); so in the whole process every
open descriptor has exactly one owner and every backend's counter is the
number of its leases (`Owned`).
-/

namespace FluxGate

open Lib

inductive Resource where
  | client (fd : Fd)
  | upstream (fd : Fd)
  | lease (backend : Nat)
  deriving DecidableEq, Repr

def CleanOp.holds : CleanOp → List Resource
  | .closeClient fd => [.client fd]
  | .closeUpstream fd => [.upstream fd]
  | .connectFailed _ => []
  | .releaseLoad b => [.lease b]
  | .releaseTest b _ => [.lease b]

/-- What clean-up code still has to give up. -/
def cleanHolds (ops : List CleanOp) : List Resource := ops.flatMap CleanOp.holds

def Job.holds : Job → List Resource
  | .acquire c => [.client c]
  | .socket c b => [.client c, .lease b]
  | .connect c b u => [.upstream u, .client c, .lease b]
  | .construct c b u _ => [.upstream u, .client c, .lease b]
  | .cleanup ops => cleanHolds ops
  | _ => []

/-- What the local variables of a worker's thread own. -/
def Pc.holds : Pc → List Resource
  | .drain clients _ => clients.map .client
  | .create job clients _ => job.holds ++ clients.map .client
  | .destroy ops _ _ => cleanHolds ops
  | _ => []

def ProxySession.holds (s : ProxySession) : List Resource :=
  [.lease s.backend, .upstream s.upstreamFd, .client s.clientFd]

/-- How often a heap cell owns `r`. -/
def heldBy (r : Resource) : Option ProxySession → Nat
  | some s => s.holds.count r
  | none => 0

@[simp] theorem heldBy_some (r : Resource) (s : ProxySession) : heldBy r (some s) = s.holds.count r :=
  rfl

@[simp] theorem heldBy_none (r : Resource) : heldBy r none = 0 := rfl

/-- How often a worker owns `r`. -/
def Worker.held (w : Worker) (r : Resource) : Nat :=
  (w.queue.map Resource.client).count r + w.pc.holds.count r +
    ∑ p ∈ Finset.range w.nextSessionId, heldBy r (w.heap p)

/-- Only ids given out are in use. -/
def Worker.Fresh (w : Worker) : Prop := ∀ p, w.nextSessionId ≤ p → w.heap p = none

def FdEffect.gained : FdEffect → List Resource
  | .openUpstream fd => [.upstream fd]
  | _ => []

def FdEffect.lost : FdEffect → List Resource
  | .closeClient fd => [.client fd]
  | .closeUpstream fd => [.upstream fd]
  | _ => []

theorem FdEffect.lost_lease (eff : FdEffect) (b : Nat) : eff.lost.count (.lease b) = 0 := by
  cases eff <;> simp [FdEffect.lost]

theorem FdEffect.gained_lease (eff : FdEffect) (b : Nat) : eff.gained.count (.lease b) = 0 := by
  cases eff <;> simp [FdEffect.gained]

/-- The leases the shared counters account for. -/
def SharedState.level (sh : SharedState) : Resource → Nat
  | .lease b => sh.active b
  | _ => 0

/-- `release()` has read a positive counter. -/
def CleanOp.Tested : CleanOp → Prop
  | .releaseTest _ current => 0 < current
  | _ => True

def Pc.ops : Pc → List CleanOp
  | .create (.cleanup ops) _ _ => ops
  | .destroy ops _ _ => ops
  | _ => []

/-! ## The counters -/

namespace SharedState

variable (sh : SharedState) (b : Nat) (r : Resource)

@[simp] theorem level_onMetrics (f : Metrics → Metrics) : (sh.onMetrics f).level r = sh.level r := rfl

theorem level_onBackend {f : Backend → Backend}
    (hf : (f (sh.backends b)).activeConnections = (sh.backends b).activeConnections) :
    (sh.onBackend b f).level r = sh.level r := by
  cases r with
  | lease b' =>
    by_cases h : b' = b
    · subst h
      simpa [level, active, onBackend] using hf
    · simp [level, active, onBackend, h]
  | client fd => rfl
  | upstream fd => rfl

@[simp] theorem level_connectFailed : (sh.connectFailed b).level r = sh.level r :=
  level_onBackend sh b r rfl

theorem level_acquire :
    (sh.onBackend b Backend.acquire).level r = sh.level r + [Resource.lease b].count r := by
  cases r with
  | lease b' =>
    by_cases h : b' = b
    · subst h
      simp [level, active, onBackend, Backend.acquire]
    · have hne : b ≠ b' := fun he => h he.symm
      simp [level, active, onBackend, h, hne]
  | client fd => simp [level]
  | upstream fd => simp [level]

theorem level_release (hpos : 0 < sh.active b) :
    (sh.onBackend b Backend.releaseSub).level r + [Resource.lease b].count r = sh.level r := by
  cases r with
  | lease b' =>
    by_cases h : b' = b
    · subst h
      have hsub := fetchSub_of_pos hpos
      simp only [level, active, onBackend, Function.update_self, Backend.releaseSub,
        List.count_singleton_self] at hpos hsub ⊢
      omega
    · have hne : b ≠ b' := fun he => h he.symm
      simp [level, active, onBackend, h, hne]
  | client fd => simp [level]
  | upstream fd => simp [level]

end SharedState

theorem sweepFailures_level (config : AppConfig) (now : Nat) (heap : Ref → Option ProxySession)
    (refs : List Ref) (sh : SharedState) (r : Resource) :
    (sweepFailures config now heap refs sh).level r = sh.level r := by
  induction refs generalizing sh with
  | nil => rfl
  | cons p refs ih =>
    rw [sweepFailures, ih]
    cases heap p with
    | none => rfl
    | some s =>
      dsimp only
      split
      · exact SharedState.level_connectFailed sh s.backend r
      · rfl

@[simp] theorem cleanHolds_cons (op : CleanOp) (ops : List CleanOp) :
    cleanHolds (op :: ops) = op.holds ++ cleanHolds ops := rfl

@[simp] theorem cleanHolds_append (a b : List CleanOp) :
    cleanHolds (a ++ b) = cleanHolds a ++ cleanHolds b := List.flatMap_append

/-- One clean-up operation gives up what it held. -/
theorem CleanOp.exec_balance (op : CleanOp) (sh : SharedState) (r : Resource) (htest : op.Tested)
    (hpos : ∀ b, Resource.lease b ∈ op.holds → 0 < sh.active b) :
    (cleanHolds (op.exec sh).2.2).count r + (op.exec sh).1.lost.count r + sh.level r =
      op.holds.count r + (op.exec sh).1.gained.count r + (op.exec sh).2.1.level r := by
  cases op with
  | closeClient fd => simp [exec, holds, cleanHolds, FdEffect.lost, FdEffect.gained]
  | closeUpstream fd => simp [exec, holds, cleanHolds, FdEffect.lost, FdEffect.gained]
  | connectFailed b => simp [exec, holds, cleanHolds, FdEffect.lost, FdEffect.gained]
  | releaseLoad b => simp [exec, holds, cleanHolds, FdEffect.lost, FdEffect.gained]
  | releaseTest b current =>
    have hrel := sh.level_release b r (hpos b (by simp [holds]))
    have hcurrent : 0 < current := htest
    simp only [exec, if_pos hcurrent, holds, cleanHolds, FdEffect.lost, FdEffect.gained,
      List.flatMap_nil, List.count_nil]
    omega

/-! ## A step of a worker -/

/-- What no call of `handleEvent` changes. -/
structure Kept (env₀ env : Env) : Prop where
  id : env.session.id = env₀.session.id
  clientFd : env.session.clientFd = env₀.session.clientFd
  upstreamFd : env.session.upstreamFd = env₀.session.upstreamFd
  backend : env.session.backend = env₀.session.backend
  active : env.backend.activeConnections = env₀.backend.activeConnections

theorem kept_stable (env₀ : Env) (now : Nat) : Stable now (Kept env₀) where
  close _ h := ⟨h.id, h.clientFd, h.upstreamFd, h.backend, h.active⟩
  readClosed _ side h := by
    cases side <;> exact ⟨h.id, h.clientFd, h.upstreamFd, h.backend, h.active⟩
  writeShutdown _ side h := by
    cases side <;> exact ⟨h.id, h.clientFd, h.upstreamFd, h.backend, h.active⟩
  connected _ h := ⟨h.id, h.clientFd, h.upstreamFd, h.backend, h.active⟩
  connectFailed _ h := ⟨h.id, h.clientFd, h.upstreamFd, h.backend, h.active⟩
  call _ _ _ h := ⟨h.id, h.clientFd, h.upstreamFd, h.backend, h.active⟩
  makeWritable _ side h := by
    cases side <;> exact ⟨h.id, h.clientFd, h.upstreamFd, h.backend, h.active⟩
  recv _ side _ _ h := by
    cases side <;> exact ⟨h.id, h.clientFd, h.upstreamFd, h.backend, h.active⟩
  send _ side _ h := by
    cases side <;> exact ⟨h.id, h.clientFd, h.upstreamFd, h.backend, h.active⟩

theorem handleEvent_kept {env env' : Env} {fd : Fd} {events : EventMask} {now : Nat} {ans : Answers}
    {f : Flow} (h : env.handleEvent fd events now ans = (f, env')) : Kept env env' := by
  have hk := (kept_stable env now).handleEvent fd events ans env ⟨rfl, rfl, rfl, rfl, rfl⟩
  rw [h] at hk
  exact hk

namespace Worker

variable {config : AppConfig} {sh sh' : SharedState} {w w' : Worker} {error : Bool} {eff : FdEffect}
  {p : Ref} {s : ProxySession}

theorem Fresh.lt (h : w.Fresh) (hp : w.heap p = some s) : p < w.nextSessionId := by
  by_contra hle
  rw [h p (Nat.le_of_not_lt hle)] at hp
  cases hp

/-- After an update of another part, control moves from the place of `w` to `pc`. -/
theorem held_goto (w₁ : Worker) (hw : w₁.pc = w.pc) (pc : Pc) (r : Resource) :
    (w₁.goto pc).held r + w.pc.holds.count r = w₁.held r + pc.holds.count r := by
  simp only [held, goto, hw]
  omega

theorem held_setSession (h : w.Fresh) (hp : w.heap p = some s) {s' : ProxySession}
    (hs : s'.holds = s.holds) (r : Resource) : (w.setSession p s').held r = w.held r := by
  have hsum := total_update (Finset.mem_range.mpr (h.lt hp)) (heldBy r) w.heap (some s')
  rw [hp] at hsum
  simp only [heldBy_some, hs] at hsum
  simp only [held, setSession]
  omega

theorem held_free (h : w.Fresh) (hp : w.heap p = some s) (r : Resource) :
    (w.free p).held r + s.holds.count r = w.held r := by
  have hsum := total_update (Finset.mem_range.mpr (h.lt hp)) (heldBy r) w.heap none
  rw [hp] at hsum
  simp only [heldBy_some, heldBy_none] at hsum
  simp only [held, free]
  omega

theorem held_construct (w : Worker) (client upstream : Fd) (connecting : Bool)
    (backend bufferSize now : Nat) (r : Resource) :
    (w.construct client upstream connecting backend bufferSize now).held r =
      w.held r + [Resource.lease backend, .upstream upstream, .client client].count r := by
  have hsum := total_extend (heldBy r) w.heap w.nextSessionId
    (some (.new w.nextSessionId client upstream connecting backend bufferSize now))
  simp only [held, construct]
  rw [hsum]
  show _ + _ + (_ + [Resource.lease backend, .upstream upstream, .client client].count r) = _
  omega

theorem le_held_of_pc (w : Worker) (r : Resource) : w.pc.holds.count r ≤ w.held r := by
  unfold held
  omega

theorem held_goto_of_eq {pc : Pc} (h : pc.holds = w.pc.holds) (r : Resource) :
    (w.goto pc).held r = w.held r := by
  have hg := held_goto w rfl pc r
  rw [h] at hg
  omega

theorem destructor_holds (s : ProxySession) : cleanHolds (destructor s) = s.holds := rfl

/-- A lease held by clean-up code is counted. -/
theorem active_pos_of_clean {op : CleanOp} {rest : List Resource} (hpc : w.pc.holds = op.holds ++ rest)
    (hle : ∀ b, w.held (.lease b) ≤ sh.active b) (b : Nat) (hb : Resource.lease b ∈ op.holds) :
    0 < sh.active b := by
  have hcount : 0 < op.holds.count (.lease b) := List.count_pos_iff.mpr hb
  have hpc_le := w.le_held_of_pc (.lease b)
  rw [hpc, List.count_append] at hpc_le
  have := hle b
  omega

/-- The next clean-up operation of a destructor or of `createSession`. -/
theorem exec_balance {op : CleanOp} {pc : Pc} (rest : List Resource)
    (hpc : w.pc.holds = op.holds ++ rest) (hpc' : pc.holds = cleanHolds (op.exec sh).2.2 ++ rest)
    (hop : op ∈ w.pc.ops) (htest : ∀ op ∈ w.pc.ops, op.Tested)
    (hle : ∀ b, w.held (.lease b) ≤ sh.active b) (r : Resource) :
    (w.goto pc).held r + (op.exec sh).1.lost.count r + sh.level r =
      w.held r + (op.exec sh).1.gained.count r + (op.exec sh).2.1.level r := by
  have hexec := op.exec_balance sh r (htest op hop) (active_pos_of_clean hpc hle)
  have hg := held_goto w rfl pc r
  rw [hpc, hpc', List.count_append, List.count_append] at hg
  omega

/-- **Balance.** A step changes what a worker owns by what it opens, closes,
acquires and releases. -/
theorem Step.balance (hstep : Step config sh w error eff sh' w') (hf : w.Fresh)
    (htest : ∀ op ∈ w.pc.ops, op.Tested) (hle : ∀ b, w.held (.lease b) ≤ sh.active b) (r : Resource) :
    w'.held r + eff.lost.count r + sh.level r = w.held r + eff.gained.count r + sh'.level r := by
  cases hstep
  case handled e events p s now ans result env hpc _ _ hp _ hcall _ =>
    have hk := handleEvent_kept hcall
    have hs : env.session.holds = s.holds := by
      simp only [ProxySession.holds, hk.backend, hk.upstreamFd, hk.clientFd]
    have hlevel : (sh.onBackend s.backend fun _ => env.backend).level r = sh.level r :=
      SharedState.level_onBackend sh s.backend r (f := fun _ => env.backend) hk.active
    rw [SharedState.level_onMetrics, hlevel]
    cases result with
    | true =>
      rw [if_pos rfl, held_goto_of_eq (by rw [setSession, hpc]; rfl), held_setSession hf hp hs]
      rfl
    | false =>
      have hm : env.session.markClosing.holds = s.holds := hs
      rw [if_neg (by simp), held_goto_of_eq (by rw [setSession, hpc]; rfl), held_setSession hf hp hm]
      rfl
  case modifyFailed p s side events hpc hp =>
    have hm : s.markClosing.holds = s.holds := rfl
    rw [held_goto_of_eq (by rw [setSession, hpc]; rfl), held_setSession hf hp hm]
    rfl
  case construct c b u connecting now clients ctx hpc =>
    have hlevel : (if connecting then sh else sh.onBackend b Backend.recordConnectSuccess).level r =
        sh.level r := by
      split
      · rfl
      · exact SharedState.level_onBackend sh b r rfl
    have hg := held_goto (w := w) (w.construct c u connecting b config.bufferSize now) rfl
      (.create (.registerClient w.nextSessionId) clients ctx) r
    rw [held_construct, hpc] at hg
    rw [hlevel]
    simp only [Pc.holds, Job.holds, List.nil_append, List.cons_append, List.count_cons,
      List.count_nil, FdEffect.lost, FdEffect.gained] at hg ⊢
    omega
  case unregister p s clients ctx hpc hp =>
    have hg := held_goto (w := w) (((w.forget s.clientFd).forget s.upstreamFd).free p) rfl
      (.create (.cleanup (destructor s)) clients ctx) r
    have hfree : (((w.forget s.clientFd).forget s.upstreamFd).free p).held r + s.holds.count r =
        w.held r := held_free (w := (w.forget s.clientFd).forget s.upstreamFd) hf hp r
    rw [hpc] at hg
    simp only [Pc.holds, Job.holds, destructor_holds, List.nil_append, List.count_append,
      SharedState.level_onMetrics, FdEffect.lost, FdEffect.gained, List.count_nil] at hg ⊢
    omega
  case dropLast p s refs ctx hpc hp _ =>
    have hg := held_goto (w := w) (w.free p) rfl (.destroy (destructor s) refs ctx) r
    have hfree := held_free hf hp r
    rw [hpc] at hg
    simp only [Pc.holds, destructor_holds, FdEffect.lost, FdEffect.gained, List.count_nil] at hg ⊢
    omega
  case clean op ops clients ctx hpc =>
    apply exec_balance (cleanHolds ops ++ clients.map .client)
    · rw [hpc]
      simp [Pc.holds, Job.holds]
    · simp [Pc.holds, Job.holds]
    · rw [hpc]
      exact List.mem_cons_self
    · exact htest
    · exact hle
  case destroy op ops refs ctx hpc =>
    apply exec_balance (cleanHolds ops)
    · rw [hpc]
      simp [Pc.holds]
    · simp [Pc.holds]
    · rw [hpc]
      exact List.mem_cons_self
    · exact htest
    · exact hle
  case acquired c b clients ctx hpc =>
    have hg := held_goto w rfl (.create (.socket c b) clients ctx) r
    have hacq := sh.level_acquire b r
    rw [hpc] at hg
    simp only [Pc.holds, Job.holds, List.cons_append, List.nil_append, List.count_cons,
      FdEffect.lost, FdEffect.gained, List.count_nil] at hg hacq ⊢
    omega
  case sweep closing refs now sweepNow hpc _ _ =>
    rw [sweepFailures_level]
    simp [held, hpc, Pc.holds, FdEffect.lost, FdEffect.gained]
  case onClosedSub current todo refs ctx hpc =>
    rw [apply_ite (fun x => SharedState.level x r), SharedState.level_onMetrics, ite_self]
    simp [held, goto, hpc, Pc.holds, FdEffect.lost, FdEffect.gained]
  case drained ctx hpc =>
    rw [held_goto_of_eq (by rw [hpc]; cases ctx <;> rfl)]
    rfl
  case allClosed refs ctx hpc =>
    rw [held_goto_of_eq (by rw [hpc]; cases ctx <;> rfl)]
    rfl
  case dropped ctx hpc =>
    rw [held_goto_of_eq (by rw [hpc]; cases ctx <;> rfl)]
    rfl
  case closeQueued c queue hpc hq =>
    simp +arith [held, hpc, hq, Pc.holds, FdEffect.lost, FdEffect.gained, List.count_cons]
  -- what is left moves resources between the queue and local variables, or none
  all_goals
    simp +arith [held, goto, setInterest, Worker.publish, unpublish, forget, ‹w.pc = _›, Pc.holds, Job.holds,
      cleanHolds, CleanOp.holds, FdEffect.lost, FdEffect.gained, List.count_cons]

theorem Fresh.setSession (h : w.Fresh) (hp : w.heap p = some s) (s' : ProxySession) :
    (w.setSession p s').Fresh := by
  intro q hq
  have hlt := h.lt hp
  have hne : q ≠ p := fun he => absurd hq (by rw [he]; exact Nat.not_le_of_lt hlt)
  exact (Function.update_of_ne hne _ _).trans (h q hq)

theorem Fresh.free (h : w.Fresh) (p : Ref) : (w.free p).Fresh := by
  intro q hq
  by_cases hqp : q = p
  · subst hqp
    exact Function.update_self ..
  · exact (Function.update_of_ne hqp _ _).trans (h q hq)

theorem Step.fresh (hstep : Step config sh w error eff sh' w') (hf : w.Fresh) : w'.Fresh := by
  cases hstep
  case handled e events p s now ans result env hpc _ _ hp _ hcall _ =>
    split
    · exact hf.setSession hp env.session
    · exact hf.setSession hp env.session.markClosing
  case modifyFailed p s side events hpc hp => exact hf.setSession hp s.markClosing
  case construct c b u connecting now clients ctx hpc =>
    intro q hq
    have hlt : w.nextSessionId < q := hq
    have hne : q ≠ w.nextSessionId := Nat.ne_of_gt hlt
    exact (Function.update_of_ne hne _ _).trans (hf q (Nat.le_of_lt hlt))
  case unregister p s clients ctx hpc hp => exact Fresh.free (w := w) hf p
  case dropLast p s refs ctx hpc hp _ => exact hf.free p
  all_goals exact hf

/-- The loads of `release()` find a positive counter. -/
theorem exec_tested {op : CleanOp} {ops : List CleanOp} (htest : ∀ o ∈ op :: ops, o.Tested)
    (hpos : ∀ b, Resource.lease b ∈ op.holds → 0 < sh.active b) :
    ∀ o ∈ (op.exec sh).2.2 ++ ops, o.Tested := by
  intro o ho
  rcases List.mem_append.mp ho with ho | ho
  · cases op with
    | releaseLoad b =>
      obtain rfl := List.mem_singleton.mp ho
      exact hpos b (by simp [CleanOp.holds])
    | closeClient fd => cases ho
    | closeUpstream fd => cases ho
    | connectFailed b => cases ho
    | releaseTest b current => cases ho
  · exact htest o (List.mem_cons_of_mem _ ho)

theorem destructor_tested (s : ProxySession) : ∀ op ∈ destructor s, op.Tested := by
  simp [destructor, CleanOp.Tested]

theorem Step.tested (hstep : Step config sh w error eff sh' w') (htest : ∀ op ∈ w.pc.ops, op.Tested)
    (hle : ∀ b, w.held (.lease b) ≤ sh.active b) : ∀ op ∈ w'.pc.ops, op.Tested := by
  cases hstep
  case handled e events p s now ans result env hpc _ _ hp _ hcall _ =>
    cases result <;> simp [goto, Pc.ops]
  case clean op ops clients ctx hpc =>
    rw [hpc] at htest
    exact exec_tested htest (active_pos_of_clean (by rw [hpc]; simp [Pc.holds, Job.holds]; rfl) hle)
  case destroy op ops refs ctx hpc =>
    rw [hpc] at htest
    exact exec_tested htest (active_pos_of_clean (by rw [hpc]; rfl) hle)
  case unregister p s clients ctx hpc hp => exact destructor_tested s
  case dropLast p s refs ctx hpc hp _ => exact destructor_tested s
  case drained ctx hpc => cases ctx <;> simp [goto, DrainCtx.next, Pc.ops]
  case allClosed refs ctx hpc => cases ctx <;> simp [goto, CloseCtx.closed, Pc.ops]
  case dropped ctx hpc => cases ctx <;> simp [goto, CloseCtx.dropped, Pc.ops]
  all_goals simp_all [goto, Pc.ops, CleanOp.Tested]

theorem Step.wakeFd (hstep : Step config sh w error eff sh' w') :
    w'.wakeFd = w.wakeFd ∧ w'.epollFd = w.epollFd := by
  cases hstep
  case handled => split <;> exact ⟨rfl, rfl⟩
  all_goals exact ⟨rfl, rfl⟩

end Worker

/-! ## The whole process -/

def AcceptorPc.holds : AcceptorPc → List Resource
  | .configure fd => [.client fd]
  | .enqueueTest fd _ => [.client fd]
  | .enqueuePush fd _ => [.client fd]
  | .reject fd => [.client fd]
  | _ => []

namespace System

variable {n : Nat} {config : AppConfig} {s s' : System n}

/-- How many owners `r` has among the acceptor and the workers. -/
def owners (s : System n) (r : Resource) : Nat :=
  s.acceptor.holds.count r + ∑ i, (s.workers i).held r

/-- How often `fd` is one of the descriptors that live as long as the workers,
or belongs to the rest of the process. -/
def fixed (s : System n) (fd : Fd) : Nat :=
  s.others.count fd + ∑ i, [(s.workers i).wakeFd, (s.workers i).epollFd].count fd

/-- Every open descriptor has one owner, which an accepted one finds among
the acceptor and the workers; every descriptor handed out was closed as often
as it was given away. -/
structure OwnedFd (s : System n) (fd : Fd) : Prop where
  clients : s.owners (.client fd) = (s.accepted fd).toNat
  isOpen : s.owners (.client fd) + s.owners (.upstream fd) + s.fixed fd = (s.isOpen fd).toNat
  history : s.opened fd = s.closed fd + s.owners (.client fd) + s.owners (.upstream fd)

structure Owned (s : System n) : Prop where
  fds : ∀ fd, s.OwnedFd fd
  leases : ∀ b, s.shared.active b = s.owners (.lease b)
  fresh : ∀ i, (s.workers i).Fresh
  tested : ∀ i, ∀ op ∈ (s.workers i).pc.ops, op.Tested

theorem held_le_owners (s : System n) (i : Fin n) (r : Resource) :
    (s.workers i).held r ≤ s.owners r := by
  have hle := le_total (Finset.mem_univ i) (fun i => (s.workers i).held r)
  unfold owners
  omega

theorem owners_setWorker (s : System n) (i : Fin n) (w : Worker) (r : Resource) :
    (s.setWorker i w).owners r + (s.workers i).held r = s.owners r + w.held r := by
  have hsum := total_update (Finset.mem_univ i) (fun w => Worker.held w r) s.workers w
  simp only [owners, setWorker]
  omega

theorem fixed_setWorker {i : Fin n} {w : Worker} (hw : w.wakeFd = (s.workers i).wakeFd)
    (he : w.epollFd = (s.workers i).epollFd) (fd : Fd) : (s.setWorker i w).fixed fd = s.fixed fd := by
  have hsum := total_update (Finset.mem_univ i)
    (fun w => [Worker.wakeFd w, Worker.epollFd w].count fd) s.workers w
  simp only [hw, he] at hsum
  simp only [fixed, setWorker]
  omega

theorem owners_apply (s : System n) (eff : FdEffect) (r : Resource) :
    (s.apply eff).owners r = s.owners r := by
  cases eff <;> rfl

theorem shared_apply (s : System n) (eff : FdEffect) : (s.apply eff).shared = s.shared := by
  cases eff <;> rfl

theorem fixed_apply (s : System n) (eff : FdEffect) (fd : Fd) :
    (s.apply eff).fixed fd = s.fixed fd := by
  cases eff <;> rfl

section Transitions

variable {x fd : Fd}

/-- A descriptor as the resource its owner takes it for. -/
def ownedAs (client : Bool) (fd : Fd) : List Resource :=
  if client then [.client fd] else [.upstream fd]

/-- Nothing is opened or closed. -/
theorem OwnedFd.same (h : s.OwnedFd fd) (hc : s'.owners (.client fd) = s.owners (.client fd))
    (hu : s'.owners (.upstream fd) = s.owners (.upstream fd)) (hx : s'.fixed fd = s.fixed fd)
    (ha : s'.accepted fd = s.accepted fd) (ho : s'.isOpen fd = s.isOpen fd)
    (hop : s'.opened fd = s.opened fd) (hcl : s'.closed fd = s.closed fd) : s'.OwnedFd fd where
  clients := by rw [hc, ha]; exact h.clients
  isOpen := by rw [hc, hu, hx, ho]; exact h.isOpen
  history := by rw [hc, hu, hop, hcl]; exact h.history

/-- A number that is not open gets an owner. -/
theorem OwnedFd.openFd (h : s.OwnedFd fd) (hfree : s.isOpen x = false) (client : Bool)
    (hc : s'.owners (.client fd) = s.owners (.client fd) + (ownedAs client x).count (.client fd))
    (hu : s'.owners (.upstream fd) = s.owners (.upstream fd) + (ownedAs client x).count (.upstream fd))
    (hx : s'.fixed fd = s.fixed fd) (ha : s'.accepted = (s.openFd x client).accepted)
    (ho : s'.isOpen = (s.openFd x client).isOpen) (hop : s'.opened = (s.openFd x client).opened)
    (hcl : s'.closed = s.closed) : s'.OwnedFd fd := by
  by_cases hfd : fd = x
  · subst hfd
    have h1 := h.isOpen
    have h2 := h.history
    rw [hfree] at h1
    simp only [Bool.toNat_false] at h1
    constructor
    · rw [hc, ha]
      cases client <;> simp [System.openFd, ownedAs] <;> omega
    · rw [hc, hu, hx, ho]
      cases client <;> simp [System.openFd, ownedAs] <;> omega
    · rw [hc, hu, hop, hcl]
      cases client <;> simp [System.openFd, ownedAs] <;> omega
  · have hne : x ≠ fd := fun he => hfd he.symm
    apply h.same
    · rw [hc]
      cases client <;> simp [ownedAs, hne]
    · rw [hu]
      cases client <;> simp [ownedAs, hne]
    · exact hx
    · rw [ha]
      simp [System.openFd, hfd]
    · rw [ho]
      simp [System.openFd, hfd]
    · rw [hop]
      simp [System.openFd, hfd]
    · rw [hcl]

/-- The owner of a descriptor closes it. -/
theorem OwnedFd.closeFd (h : s.OwnedFd fd) (client : Bool)
    (hc : s'.owners (.client fd) + (ownedAs client x).count (.client fd) = s.owners (.client fd))
    (hu : s'.owners (.upstream fd) + (ownedAs client x).count (.upstream fd) = s.owners (.upstream fd))
    (hx : s'.fixed fd = s.fixed fd) (ha : s'.accepted = (s.closeFd x).accepted)
    (ho : s'.isOpen = (s.closeFd x).isOpen) (hop : s'.opened = s.opened)
    (hcl : s'.closed = (s.closeFd x).closed) : s'.OwnedFd fd := by
  by_cases hfd : fd = x
  · subst hfd
    have h1 := h.isOpen
    have h2 := h.history
    have h3 : (s.isOpen fd).toNat ≤ 1 := Bool.toNat_le _
    constructor
    · rw [ha]
      cases client <;> simp [System.closeFd, System.release, ownedAs] at hc hu ⊢ <;> omega
    · rw [hx, ho]
      cases client <;> simp [System.closeFd, System.release, ownedAs] at hc hu ⊢ <;> omega
    · rw [hop, hcl]
      cases client <;> simp [System.closeFd, System.release, ownedAs] at hc hu ⊢ <;> omega
  · have hne : x ≠ fd := fun he => hfd he.symm
    apply h.same
    · cases client <;> simpa [ownedAs, hne] using hc
    · cases client <;> simpa [ownedAs, hne] using hu
    · exact hx
    · rw [ha]
      simp [System.closeFd, System.release, hfd]
    · rw [ho]
      simp [System.closeFd, System.release, hfd]
    · rw [hop]
    · rw [hcl]
      simp [System.closeFd, System.release, hfd]

end Transitions

theorem Owned.lease_le (h : s.Owned) (i : Fin n) (b : Nat) :
    (s.workers i).held (.lease b) ≤ s.shared.active b := by
  rw [h.leases b]
  exact s.held_le_owners i (.lease b)

/-- The workers after a step of worker `i`: the one that stepped, and the
others, except for what closing a descriptor does to epoll sets. -/
theorem workers_apply (s : System n) (eff : FdEffect) (i : Fin n) (w : Worker) (sh : SharedState)
    (j : Fin n) : ∃ e, (({ s.setWorker i w with shared := sh }).apply eff).workers j =
      { (if j = i then w else s.workers j) with epoll := e } := by
  have hj : (s.setWorker i w).workers j = if j = i then w else s.workers j := by
    simp [setWorker, Function.update_apply]
  cases eff with
  | none => exact ⟨_, hj⟩
  | openUpstream fd => exact ⟨_, hj⟩
  | closeClient fd =>
    refine ⟨Function.update (if j = i then w else s.workers j).epoll fd none, ?_⟩
    rw [← hj]
    rfl
  | closeUpstream fd =>
    refine ⟨Function.update (if j = i then w else s.workers j).epoll fd none, ?_⟩
    rw [← hj]
    rfl

/-- A quantity that does not depend on the epoll sets, after a step of worker `i`. -/
theorem total_apply {f : Worker → Nat} (hf : ∀ w e, f { w with epoll := e } = f w) (s : System n)
    (eff : FdEffect) (i : Fin n) (w : Worker) (sh : SharedState) :
    (∑ j, f (({ s.setWorker i w with shared := sh }.apply eff).workers j)) + f (s.workers i) =
      (∑ j, f (s.workers j)) + f w := by
  have hsum : (∑ j, f (({ s.setWorker i w with shared := sh }.apply eff).workers j)) =
      ∑ j, f (Function.update s.workers i w j) := by
    apply Finset.sum_congr rfl
    intro j _
    obtain ⟨e, hj⟩ := s.workers_apply eff i w sh j
    rw [hj, hf, Function.update_apply]
  rw [hsum]
  exact total_update (Finset.mem_univ i) f s.workers w

/-- A worker is changed by the acceptor; the others are as before. -/
theorem forall_setWorker {P : Fin n → Worker → Prop} {i : Fin n} {w : Worker}
    (hothers : ∀ j, j ≠ i → P j (s.workers j)) (hi : P i w) : ∀ j, P j ((s.setWorker i w).workers j) := by
  intro j
  by_cases hj : j = i
  · subst hj
    simpa [setWorker] using hi
  · simpa [setWorker, hj] using hothers j hj

theorem Owned.worker (h : s.Owned) {i : Fin n} {error : Bool} {eff : FdEffect} {sh : SharedState}
    {w : Worker} (hstep : Worker.Step config s.shared (s.workers i) error eff sh w)
    (hfd : s.Allows eff) : (({ s.setWorker i w with shared := sh }).apply eff).Owned := by
  have hle := h.lease_le i
  have hbalance := hstep.balance (h.fresh i) (h.tested i) hle
  obtain ⟨hwake, hepoll⟩ := hstep.wakeFd
  have hown : ∀ r, (({ s.setWorker i w with shared := sh }).apply eff).owners r + eff.lost.count r +
      s.shared.level r = s.owners r + eff.gained.count r + sh.level r := by
    intro r
    have hset : ({ s.setWorker i w with shared := sh } : System n).owners r + (s.workers i).held r =
        s.owners r + w.held r := s.owners_setWorker i w r
    have hb := hbalance r
    rw [owners_apply]
    omega
  have hfix : ∀ fd, (({ s.setWorker i w with shared := sh }).apply eff).fixed fd = s.fixed fd := by
    intro fd
    rw [fixed_apply]
    exact fixed_setWorker hwake hepoll fd
  refine ⟨fun fd => ?_, fun b => ?_, fun j => ?_, fun j => ?_⟩
  · cases eff with
    | none => exact (h.fds fd).same (hown (.client fd)) (hown (.upstream fd)) (hfix fd) rfl rfl rfl rfl
    | openUpstream x =>
      exact (h.fds fd).openFd hfd false (hown (.client fd)) (hown (.upstream fd)) (hfix fd) rfl rfl rfl rfl
    | closeClient x =>
      exact (h.fds fd).closeFd true (hown (.client fd)) (hown (.upstream fd)) (hfix fd) rfl rfl rfl rfl
    | closeUpstream x =>
      exact (h.fds fd).closeFd false (hown (.client fd)) (hown (.upstream fd)) (hfix fd) rfl rfl rfl rfl
  · have hb := hown (.lease b)
    rw [FdEffect.lost_lease, FdEffect.gained_lease, SharedState.level, SharedState.level, h.leases b] at hb
    rw [shared_apply]
    show sh.active b = _
    omega
  · obtain ⟨e, hj⟩ := s.workers_apply eff i w sh j
    rw [hj]
    split
    · exact hstep.fresh (h.fresh i)
    · exact h.fresh j
  · obtain ⟨e, hj⟩ := s.workers_apply eff i w sh j
    rw [hj]
    split
    · exact hstep.tested (h.tested i) hle
    · exact h.tested j

/-- A step after which everything has the owners it had. -/
theorem Owned.same (h : s.Owned) (hown : ∀ r, s'.owners r = s.owners r)
    (hfix : ∀ fd, s'.fixed fd = s.fixed fd) (ha : s'.accepted = s.accepted)
    (ho : s'.isOpen = s.isOpen) (hop : s'.opened = s.opened) (hcl : s'.closed = s.closed)
    (hactive : ∀ b, s'.shared.active b = s.shared.active b) (hfresh : ∀ i, (s'.workers i).Fresh)
    (htested : ∀ i, ∀ op ∈ (s'.workers i).pc.ops, op.Tested) : s'.Owned where
  fds fd := (h.fds fd).same (hown _) (hown _) (hfix fd) (by rw [ha]) (by rw [ho]) (by rw [hop]) (by rw [hcl])
  leases b := by rw [hactive, hown]; exact h.leases b
  fresh := hfresh
  tested := htested

/-- The acceptor moves on, alone. -/
theorem Owned.acceptor (h : s.Owned) {pc : AcceptorPc} (hpc : pc.holds = s.acceptor.holds) :
    ({ s with acceptor := pc } : System n).Owned :=
  h.same (fun r => by simp only [owners, hpc]) (fun _ => rfl) rfl rfl rfl rfl (fun _ => rfl) h.fresh
    h.tested

/-- The acceptor changes a flag, a counter or the queue of a worker. -/
theorem Owned.touch (h : s.Owned) {i : Fin n} {w : Worker} {pc : AcceptorPc}
    (hown : ∀ r, w.held r + pc.holds.count r = (s.workers i).held r + s.acceptor.holds.count r)
    (hfresh : w.Fresh) (hops : w.pc = (s.workers i).pc) (hw : w.wakeFd = (s.workers i).wakeFd)
    (he : w.epollFd = (s.workers i).epollFd) :
    ({ s.setWorker i w with acceptor := pc } : System n).Owned := by
  have hfix : ∀ fd, (s.setWorker i w).fixed fd = s.fixed fd := fixed_setWorker hw he
  refine h.same (fun r => ?_) hfix rfl rfl rfl rfl (fun _ => rfl) (fun j => ?_) (fun j => ?_)
  · have hset := s.owners_setWorker i w r
    have hr := hown r
    simp only [owners, setWorker] at hset ⊢
    omega
  · by_cases hj : j = i
    · subst hj
      simpa [setWorker] using hfresh
    · simpa [setWorker, hj] using h.fresh j
  · by_cases hj : j = i
    · subst hj
      simpa [setWorker, hops] using h.tested j
    · simpa [setWorker, hj] using h.tested j

theorem Owned.accept (h : s.Owned) {fd : Fd} (hpc : s.acceptor = .accepting)
    (hfd : s.isOpen fd = false) :
    ({ s.openFd fd true with
      acceptor := .configure fd
      shared := s.shared.onMetrics Metrics.onAccepted } : System n).Owned := by
  have hown : ∀ r, ({ s.openFd fd true with
      acceptor := .configure fd
      shared := s.shared.onMetrics Metrics.onAccepted } : System n).owners r =
        s.owners r + (ownedAs true fd).count r := by
    intro r
    simp only [owners, openFd, hpc, AcceptorPc.holds, ownedAs, if_true, List.count_nil]
    omega
  refine ⟨fun x => ?_, fun b => ?_, h.fresh, h.tested⟩
  · exact (h.fds x).openFd hfd true (hown _) (hown _) rfl rfl rfl rfl rfl
  · have hb := hown (.lease b)
    simp only [ownedAs, if_true, List.count_cons, List.count_nil] at hb
    rw [hb]
    exact h.leases b

theorem Owned.reject (h : s.Owned) {fd : Fd} (hpc : s.acceptor = .reject fd) :
    ({ s.closeFd fd with
      acceptor := .accepting
      shared := s.shared.onMetrics Metrics.onRejected } : System n).Owned := by
  have hown : ∀ r, ({ s.closeFd fd with
      acceptor := .accepting
      shared := s.shared.onMetrics Metrics.onRejected } : System n).owners r +
        (ownedAs true fd).count r = s.owners r := by
    intro r
    have hheld : ∀ i, ((s.workers i).forget fd).held r = (s.workers i).held r := fun _ => rfl
    simp only [owners, closeFd, release, hheld, hpc, AcceptorPc.holds, ownedAs, if_true,
      List.count_nil]
    omega
  refine ⟨fun x => ?_, fun b => ?_, h.fresh, h.tested⟩
  · exact (h.fds x).closeFd true (hown _) (hown _) rfl rfl rfl rfl rfl
  · have hb := hown (.lease b)
    exact (h.leases b).trans hb.symm

/-- The rest of the process opens a descriptor. -/
theorem Owned.othersOpen (h : s.Owned) {fd : Fd} (hfd : s.isOpen fd = false) :
    ({ s with isOpen := Function.update s.isOpen fd true, others := fd :: s.others } : System n).Owned := by
  refine ⟨fun x => ?_, h.leases, h.fresh, h.tested⟩
  refine ⟨(h.fds x).clients, ?_, (h.fds x).history⟩
  have hx := (h.fds x).isOpen
  by_cases hxf : x = fd
  · subst hxf
    rw [hfd] at hx
    simp only [fixed, List.count_cons_self, Function.update_self, Bool.toNat_false,
      Bool.toNat_true] at hx ⊢
    change s.owners _ + s.owners _ + _ = 1
    omega
  · have hne : fd ≠ x := fun he => hxf he.symm
    simp only [fixed, List.count_cons_of_ne hne, Function.update_of_ne hxf]
    exact hx

/-- The rest of the process closes one of its descriptors. -/
theorem Owned.othersClose (h : s.Owned) {fd : Fd} (hfd : fd ∈ s.others) :
    ({ s.release fd with others := s.others.erase fd } : System n).Owned := by
  have hown : ∀ r, ({ s.release fd with others := s.others.erase fd } : System n).owners r =
      s.owners r := fun _ => rfl
  refine ⟨fun x => ?_, fun b => ?_, h.fresh, h.tested⟩
  · have hx := (h.fds x).isOpen
    by_cases hxf : x = fd
    · subst hxf
      have hpos : 0 < s.others.count x := List.count_pos_iff.mpr hfd
      have hle : (s.isOpen x).toNat ≤ 1 := Bool.toNat_le _
      have herase : (s.others.erase x).count x = s.others.count x - 1 := List.count_erase_self
      unfold fixed at hx
      constructor
      · rw [hown]
        simp only [release, Function.update_self, Bool.toNat_false]
        omega
      · rw [hown, hown]
        simp only [fixed, release, Function.update_self, Bool.toNat_false, herase, Worker.forget]
        omega
      · rw [hown, hown]
        exact (h.fds x).history
    · have herase : (s.others.erase fd).count x = s.others.count x := List.count_erase_of_ne hxf
      apply (h.fds x).same (hown _) (hown _)
      · simp only [fixed, release, herase, Worker.forget]
      · simp [release, hxf]
      · simp [release, hxf]
      · rfl
      · rfl
  · rw [hown]
    exact h.leases b

theorem Owned.step {act : SystemAct n} (h : s.Owned) (hact : act ≠ .acceptor true)
    (hstep : Step config s act s') : s'.Owned := by
  cases hstep with
  | worker hstep hfd => exact h.worker hstep hfd
  | accept fd hpc hfd => exact h.accept hpc hfd
  | configured fd i hpc => exact h.acceptor (by rw [hpc]; rfl)
  | configureFailed fd hpc => exact h.acceptor (by rw [hpc]; rfl)
  | notRunning fd i hpc hrun => exact h.acceptor (by rw [hpc]; rfl)
  | running fd i hpc hrun => exact h.acceptor (by rw [hpc]; rfl)
  | queueFull fd i hpc hlen => exact h.acceptor (by rw [hpc]; rfl)
  | push fd i hpc hlen =>
    refine h.touch (fun r => ?_) (h.fresh i) rfl rfl rfl
    rw [hpc]
    simp +arith [Worker.held, AcceptorPc.holds]
  | notified fd i hpc =>
    exact h.touch (fun _ => by rw [hpc]; rfl) (h.fresh i) rfl rfl rfl
  | notifyAgain fd i hpc hcount => exact h.acceptor (by rw [hpc]; rfl)
  | notifyFailed fd i hpc => exact absurd rfl hact
  | reject fd hpc => exact h.reject hpc
  | shutdown hpc => exact h.acceptor (by rw [hpc]; rfl)
  | stop i hpc hrun => exact h.touch (fun _ => by rw [hpc]; rfl) (h.fresh i) rfl rfl rfl
  | stoppedBefore i hpc hrun => exact h.acceptor (by rw [hpc]; rfl)
  | stopNotified i hpc => exact h.touch (fun _ => by rw [hpc]; rfl) (h.fresh i) rfl rfl rfl
  | stopNotifyIgnored i hpc => exact h.acceptor (by rw [hpc]; rfl)
  | join hpc hstopped => exact h.acceptor (by rw [hpc]; rfl)
  | othersOpen fd hfd => exact h.othersOpen hfd
  | othersClose fd hfd => exact h.othersClose hfd
  | setHealthy b value =>
    exact h.same (fun _ => rfl) (fun _ => rfl) rfl rfl rfl rfl
      (fun b' => SharedState.level_onBackend (f := (·.setHealthy value)) s.shared b (.lease b') rfl)
      h.fresh h.tested

theorem newWorker_held (wakeFd epollFd : Fd) (r : Resource) : (newWorker wakeFd epollFd).held r = 0 := by
  simp [newWorker, Worker.held, Pc.holds]

/-- The descriptors that are open at the start, as one list. -/
theorem fixed_eq_count (s : System n) (fd : Fd) : s.fixed fd = (s.others ++
    (List.finRange n).flatMap fun i => [(s.workers i).wakeFd, (s.workers i).epollFd]).count fd := by
  rw [fixed, List.count_append, List.count_flatMap, Fin.sum_univ_def]
  rfl

theorem Start.fixed_eq (h : Start s) (fd : Fd) : s.fixed fd = (s.isOpen fd).toNat := by
  have hmem : fd ∈ (s.others ++ (List.finRange n).flatMap
      fun i => [(s.workers i).wakeFd, (s.workers i).epollFd]) ↔ s.isOpen fd = true := by
    rw [h.isOpen]
    simp
  rw [fixed_eq_count]
  cases ho : s.isOpen fd with
  | true => exact List.count_eq_one_of_mem h.distinct (hmem.mpr ho)
  | false =>
    apply List.count_eq_zero.mpr
    rw [hmem, ho]
    simp

theorem Start.owned (h : Start s) : s.Owned := by
  have hown : ∀ r, s.owners r = 0 := by
    intro r
    have hheld : ∀ i, (s.workers i).held r = 0 := by
      intro i
      obtain ⟨wakeFd, epollFd, hw⟩ := h.workers i
      rw [hw, newWorker_held]
    simp [owners, h.acceptor, AcceptorPc.holds, hheld]
  refine ⟨fun fd => ⟨?_, ?_, ?_⟩, fun b => ?_, fun i => ?_, fun i => ?_⟩
  · rw [hown, h.accepted]
    rfl
  · rw [hown, hown, h.fixed_eq]
    omega
  · rw [hown, hown, h.opened, h.closed]
  · rw [hown, h.backends]
  · obtain ⟨wakeFd, epollFd, hw⟩ := h.workers i
    rw [hw]
    exact fun _ _ => rfl
  · obtain ⟨wakeFd, epollFd, hw⟩ := h.workers i
    rw [hw]
    simp [newWorker, Pc.ops]

end System

end FluxGate
