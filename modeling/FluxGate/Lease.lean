import FluxGate.BackendPool
import FluxGate.Lib.Count
import FluxGate.Lib.Run

/-!
# Backend leases under concurrency

Any number of threads run programs over their own lease variables: `acquire`,
move construction, move assignment, `reset` and destruction. Every atomic
operation is a step: the loads of the scan, the `fetch_add` of a new lease,
the load and the `fetch_sub` of `Backend::release`; so are the two halves of
a move, which copies the pointer before it clears the source.

A lease variable is counted for its backend unless its `fetch_sub` has run or
it is the source of a move whose copy has been made (`effective`); a lease
that is built but not yet bound is counted for its thread. `accounted` says
that each counter is the number of leases so counted.
-/

namespace FluxGate

open Lib

/-- What a `reset` is part of. -/
inductive After (V : Type) where
  | reset
  | destroy
  | assign (src : V)
  deriving DecidableEq, Repr

/-- Where a thread is in a lease operation. -/
inductive LeasePoint (n : Nat) (V : Type) where
  | idle
  | acquiring (dst : V) (scan : Scan n)
  | constructed (dst : V) (backend : Option (Fin n))
  | releaseLoad (x : V) (backend : Fin n) (after : After V)
  | releaseTest (x : V) (backend : Fin n) (current : Nat) (after : After V)
  | clear (x : V) (after : After V)
  | copy (dst src : V)
  | clearSource (dst src : V)
  deriving DecidableEq, Repr

/-- A thread's lease variables (`none`: no object; `some none`: an empty
lease) and its position. -/
structure LeaseThread (n : Nat) (V : Type) where
  leases : V → Option (Option (Fin n))
  point : LeasePoint n V

inductive LeaseOp (V : Type) where
  | acquire (dst : V)
  | moveConstruct (dst src : V)
  | moveAssign (dst src : V)
  | reset (x : V)
  | destroy (x : V)
  deriving DecidableEq, Repr

structure LeaseState (n : Nat) (T V : Type) where
  pool : BackendPool n
  mutex : Option T
  threads : T → LeaseThread n V
  /-- how often the `fetch_add` and the `fetch_sub` of a backend have run -/
  acquired : Fin n → Nat
  released : Fin n → Nat

inductive LeaseAct (n : Nat) (T V : Type) where
  | call (t : T) (op : LeaseOp V)
  | tick (t : T)
  | setHealthy (b : Fin n) (value : Bool)
  | recordConnect (b : Fin n) (success : Bool)

namespace LeaseThread

variable {n : Nat} {V : Type} [DecidableEq V]

/-- `backend_` of a lease variable. -/
def held (th : LeaseThread n V) (x : V) : Option (Fin n) := (th.leases x).join

def set (th : LeaseThread n V) (x : V) (v : Option (Option (Fin n))) : LeaseThread n V :=
  { th with leases := Function.update th.leases x v }

def goto (th : LeaseThread n V) (p : LeasePoint n V) : LeaseThread n V := { th with point := p }

/-- `reset()` of `x`, as part of `after`; `rest` is what follows on an empty
lease. -/
def reset (th : LeaseThread n V) (x : V) (after : After V) (rest : LeaseThread n V) :
    LeaseThread n V :=
  match th.held x with
  | some b => th.goto (.releaseLoad x b after)
  | none => rest

/-- The first step of an operation that needs no mutex. -/
def begin (th : LeaseThread n V) : LeaseOp V → Option (LeaseThread n V)
  | .acquire _ => none
  | .moveConstruct dst src =>
    if th.leases dst = none ∧ th.leases src ≠ none then some (th.goto (.copy dst src)) else none
  | .moveAssign dst src =>
    if th.leases dst ≠ none ∧ th.leases src ≠ none then
      if dst = src then some th
      else some (th.reset dst (.assign src) (th.goto (.copy dst src)))
    else none
  | .reset x => if th.leases x ≠ none then some (th.reset x .reset th) else none
  | .destroy x =>
    if th.leases x ≠ none then some (th.reset x .destroy (th.set x none)) else none

/-- After `backend_.reset()`. -/
def cleared (th : LeaseThread n V) (x : V) : After V → LeaseThread n V
  | .reset => (th.set x (some none)).goto .idle
  | .destroy => (th.set x none).goto .idle
  | .assign src => (th.set x (some none)).goto (.copy x src)

end LeaseThread

namespace LeaseState

variable {n : Nat} {T V : Type} [NeZero n] [DecidableEq T] [DecidableEq V]

def start (configs : Fin n → BackendConfig) (tieBreaker : Nat) : LeaseState n T V where
  pool := ⟨fun b => .new (configs b), tieBreaker⟩
  mutex := none
  threads := fun _ => ⟨fun _ => none, .idle⟩
  acquired := fun _ => 0
  released := fun _ => 0

def setThread (s : LeaseState n T V) (t : T) (th : LeaseThread n V) : LeaseState n T V :=
  { s with threads := Function.update s.threads t th }

/-- The next atomic step of a thread inside an operation. -/
def tick (s : LeaseState n T V) (t : T) : Option (LeaseState n T V) :=
  let th := s.threads t
  match th.point with
  | .idle => none
  | .acquiring dst (.done selected) =>
    let s := match selected with
      | some b =>
        { s with
          pool := s.pool.onBackend b Backend.acquire
          acquired := Function.update s.acquired b (s.acquired b + 1) }
      | none => s
    some (s.setThread t (th.goto (.constructed dst selected)))
  | .acquiring dst scan =>
    some ({ s with pool := (scan.step s.pool).1 }.setThread t
      (th.goto (.acquiring dst (scan.step s.pool).2)))
  | .constructed dst selected =>
    some ({ s with mutex := none }.setThread t ((th.set dst (some selected)).goto .idle))
  | .releaseLoad x b after =>
    some (s.setThread t (th.goto (.releaseTest x b (s.pool.active b) after)))
  | .releaseTest x b current after =>
    let s := if 0 < current then
        { s with
          pool := s.pool.onBackend b Backend.releaseSub
          released := Function.update s.released b (s.released b + 1) }
      else s
    some (s.setThread t (th.goto (.clear x after)))
  | .clear x after => some (s.setThread t (th.cleared x after))
  | .copy dst src => some (s.setThread t ((th.set dst (th.leases src)).goto (.clearSource dst src)))
  | .clearSource _ src => some (s.setThread t ((th.set src (some none)).goto .idle))

def step (s : LeaseState n T V) : LeaseAct n T V → Option (LeaseState n T V)
  | .call t op =>
    if (s.threads t).point = .idle then
      match op with
      | .acquire dst =>
        if (s.threads t).leases dst = none ∧ s.mutex = none then
          some ({ s with mutex := some t }.setThread t
            ((s.threads t).goto (.acquiring dst .ticket)))
        else none
      | op => ((s.threads t).begin op).map (s.setThread t)
    else none
  | .tick t => s.tick t
  | .setHealthy b value => some { s with pool := s.pool.onBackend b (·.setHealthy value) }
  | .recordConnect b true =>
    some { s with pool := s.pool.onBackend b Backend.recordConnectSuccess }
  | .recordConnect b false =>
    some { s with pool := s.pool.onBackend b Backend.recordConnectFailure }

end LeaseState

/-! ## Counting leases -/

namespace LeaseThread

variable {n : Nat} {V : Type} [DecidableEq V]

/-- The backend a variable is counted for. -/
def effective (th : LeaseThread n V) : V → Option (Fin n) :=
  match th.point with
  | .clear x _ => Function.update th.held x none
  | .clearSource _ src => Function.update th.held src none
  | _ => th.held

/-- A lease that is built and not yet bound. -/
def unbound (th : LeaseThread n V) : Option (Fin n) :=
  match th.point with
  | .constructed _ selected => selected
  | _ => none

def holdings [Fintype V] (th : LeaseThread n V) (b : Fin n) : Nat :=
  countIn th.effective b + unit b th.unbound

/-- What a position says about the variables it works on. -/
def Consistent (th : LeaseThread n V) : Prop :=
  match th.point with
  | .idle => True
  | .acquiring dst _ => th.leases dst = none
  | .constructed dst _ => th.leases dst = none
  | .releaseLoad x b after => th.held x = some b ∧ ∀ src, after = .assign src → x ≠ src
  | .releaseTest x b current after =>
    th.held x = some b ∧ 0 < current ∧ ∀ src, after = .assign src → x ≠ src
  | .clear x after => ∀ src, after = .assign src → x ≠ src
  | .copy dst src => dst ≠ src ∧ th.held dst = none
  | .clearSource dst src => dst ≠ src

theorem held_set (th : LeaseThread n V) (x : V) (v : Option (Option (Fin n))) :
    (th.set x v).held = Function.update th.held x v.join := by
  funext y
  by_cases hy : y = x
  · subst hy
    simp [held, set]
  · simp [held, set, hy]

/-- Positions at which every variable counts for what it holds. -/
def Plain : LeasePoint n V → Prop
  | .constructed _ _ => False
  | .clear _ _ => False
  | .clearSource _ _ => False
  | _ => True

theorem holdings_plain [Fintype V] {th : LeaseThread n V} (h : Plain th.point) (b : Fin n) :
    th.holdings b = countIn th.held b := by
  unfold holdings effective unbound
  cases hp : th.point <;> simp_all [Plain]

theorem holdings_goto [Fintype V] (th : LeaseThread n V) {p : LeasePoint n V} (h : Plain p)
    (b : Fin n) : (th.goto p).holdings b = countIn th.held b :=
  holdings_plain h b

/-- An operation begins with all variables counting as before. -/
theorem begin_spec [Fintype V] {th th' : LeaseThread n V} {op : LeaseOp V} (hidle : th.point = .idle)
    (h : th.begin op = some th') : th'.Consistent ∧ ∀ b, th'.holdings b = th.holdings b := by
  have hth : ∀ b, th.holdings b = countIn th.held b := holdings_plain (by simp [hidle, Plain])
  have hrest : th.Consistent := by simp [Consistent, hidle]
  -- a `reset` goes to the release of what is held, or on to `rest`
  have hreset : ∀ x after rest, (∀ src, after = .assign src → x ≠ src) →
      (th.held x = none → rest.Consistent ∧ ∀ b, rest.holdings b = th.holdings b) →
      (th.reset x after rest).Consistent ∧
        ∀ b, (th.reset x after rest).holdings b = th.holdings b := by
    intro x after rest hne hempty
    unfold reset
    cases hx : th.held x with
    | none => exact hempty hx
    | some c =>
      refine ⟨⟨hx, hne⟩, fun b => ?_⟩
      rw [hth, holdings_goto th (by exact trivial)]
  cases op with
  | acquire dst => cases h
  | moveConstruct dst src =>
    simp only [begin] at h
    split at h
    · rename_i hcond
      cases h
      refine ⟨⟨?_, ?_⟩, fun b => ?_⟩
      · rintro rfl
        exact hcond.2 hcond.1
      · simp [held, goto, hcond.1]
      · rw [hth, holdings_goto th (by exact trivial)]
    · cases h
  | moveAssign dst src =>
    simp only [begin] at h
    split at h
    · split at h
      · cases h
        exact ⟨hrest, fun _ => rfl⟩
      · rename_i hne
        cases h
        refine hreset dst (.assign src) _ (fun s hs => ?_) (fun hempty => ⟨⟨hne, hempty⟩, fun b => ?_⟩)
        · cases hs
          exact hne
        · rw [hth, holdings_goto th (by exact trivial)]
    · cases h
  | reset x =>
    simp only [begin] at h
    split at h
    · cases h
      exact hreset x .reset th (by simp) (fun _ => ⟨hrest, fun _ => rfl⟩)
    · cases h
  | destroy x =>
    simp only [begin] at h
    split at h
    · cases h
      refine hreset x .destroy _ (by simp) (fun hempty => ⟨?_, fun b => ?_⟩)
      · simp [Consistent, set, hidle]
      · rw [hth, holdings_plain (by simp [set, hidle, Plain]), held_set]
        simp [← hempty]
    · cases h

end LeaseThread

namespace LeaseState

variable {n : Nat} {T V : Type} [DecidableEq V] [Fintype T] [Fintype V]

structure Accounted (s : LeaseState n T V) : Prop where
  count : ∀ b, s.pool.active b = ∑ t, (s.threads t).holdings b
  ghost : ∀ b, s.pool.active b + s.released b = s.acquired b
  consistent : ∀ t, (s.threads t).Consistent

section Steps

variable {s s' : LeaseState n T V} {t : T} {th' : LeaseThread n V}

/-- A held lease keeps its counter positive. -/
theorem Accounted.active_pos (h : Accounted s) {x : V} {b : Fin n}
    (hp : LeaseThread.Plain (s.threads t).point) (hx : (s.threads t).held x = some b) :
    0 < s.pool.active b := by
  have hone : 0 < (s.threads t).holdings b := by
    rw [LeaseThread.holdings_plain hp]
    exact countIn_pos hx
  have hle : (s.threads t).holdings b ≤ ∑ u, (s.threads u).holdings b :=
    le_total (Finset.mem_univ t) (fun u => (s.threads u).holdings b)
  rw [h.count b]
  omega

theorem Accounted.pool (h : Accounted s) {pool : BackendPool n}
    (hactive : ∀ b, pool.active b = s.pool.active b) : Accounted { s with pool := pool } :=
  ⟨fun b => (hactive b).trans (h.count b), fun b => by rw [hactive]; exact h.ghost b, h.consistent⟩

variable [DecidableEq T]

/-- One thread moves: its change is the change of the counter. -/
theorem Accounted.move (h : Accounted s) (hthreads : s'.threads = Function.update s.threads t th')
    (hbal : ∀ b, s'.pool.active b + (s.threads t).holdings b = s.pool.active b + th'.holdings b)
    (hghost : ∀ b, s'.pool.active b + s'.released b = s'.acquired b) (hcons : th'.Consistent) :
    Accounted s' := by
  refine ⟨fun b => ?_, hghost, fun u => ?_⟩
  · have hsum := total_update (Finset.mem_univ t) (fun th => th.holdings b) s.threads th'
    have hb := hbal b
    have hc := h.count b
    rw [hthreads]
    omega
  · rw [hthreads]
    by_cases hu : u = t
    · subst hu
      rwa [Function.update_self]
    · rw [Function.update_of_ne hu]
      exact h.consistent u

/-- A step that leaves the counters and what the thread holds alone. -/
theorem Accounted.quiet (h : Accounted s) (hthreads : s'.threads = Function.update s.threads t th')
    (hpool : s'.pool.backends = s.pool.backends) (hacq : s'.acquired = s.acquired)
    (hrel : s'.released = s.released) (hcons : th'.Consistent)
    (hheld : ∀ b, th'.holdings b = (s.threads t).holdings b) : Accounted s' := by
  have hact : ∀ b, s'.pool.active b = s.pool.active b := by
    intro b
    unfold BackendPool.active
    rw [hpool]
  refine h.move hthreads (fun b => ?_) (fun b => ?_) hcons
  · rw [hact, hheld]
  · rw [hact, hacq, hrel]
    exact h.ghost b

variable [NeZero n]

/-- `fetch_add` of a new lease, if a backend was selected. -/
theorem Accounted.construct (h : Accounted s) {dst : V} {selected : Option (Fin n)}
    (hpoint : (s.threads t).point = .acquiring dst (.done selected)) (hs : s.tick t = some s') :
    Accounted s' := by
  have hdst : (s.threads t).leases dst = none := by
    have hc := h.consistent t
    simpa only [LeaseThread.Consistent, hpoint] using hc
  have hplain : LeaseThread.Plain (s.threads t).point := by simp [hpoint, LeaseThread.Plain]
  have hnew : ∀ b, ((s.threads t).goto (.constructed dst selected)).holdings b =
      countIn (s.threads t).held b + unit b selected := fun _ => rfl
  cases selected with
  | none =>
    simp only [tick, hpoint, Option.some.injEq] at hs
    subst hs
    refine h.move rfl (fun b => ?_) h.ghost hdst
    rw [hnew, LeaseThread.holdings_plain hplain]
    rfl
  | some c =>
    simp only [tick, hpoint, Option.some.injEq] at hs
    subst hs
    have hact : ∀ b, (s.pool.onBackend c Backend.acquire).active b =
        s.pool.active b + unit b (some c) := by
      intro b
      rw [BackendPool.active_onBackend]
      by_cases hb : b = c
      · subst hb
        simp [unit, Backend.acquire, BackendPool.active]
      · simp [unit, hb, Ne.symm hb]
    refine h.move rfl (fun b => ?_) (fun b => ?_) hdst
    · rw [hnew, LeaseThread.holdings_plain hplain]
      show (s.pool.onBackend c Backend.acquire).active b + _ = _
      rw [hact]
      omega
    · show (s.pool.onBackend c Backend.acquire).active b + s.released b =
        Function.update s.acquired c (s.acquired c + 1) b
      have hg := h.ghost b
      rw [hact]
      by_cases hb : b = c
      · subst hb
        rw [Function.update_self, unit_self]
        omega
      · rw [Function.update_of_ne hb]
        simp only [unit, Option.some.injEq, Ne.symm hb, ↓reduceIte]
        omega

/-- The guarded `fetch_sub` of `release()`. -/
theorem Accounted.release (h : Accounted s) {x : V} {c : Fin n} {current : Nat} {after : After V}
    (hpoint : (s.threads t).point = .releaseTest x c current after) (hs : s.tick t = some s') :
    Accounted s' := by
  obtain ⟨hx, hcur, hne⟩ : (s.threads t).held x = some c ∧ 0 < current ∧
      ∀ src, after = .assign src → x ≠ src := by
    have hc := h.consistent t
    simpa only [LeaseThread.Consistent, hpoint] using hc
  have hplain : LeaseThread.Plain (s.threads t).point := by simp [hpoint, LeaseThread.Plain]
  have hpos := h.active_pos hplain hx
  simp only [tick, hpoint, hcur, ↓reduceIte, Option.some.injEq] at hs
  subst hs
  have hact : ∀ b, (s.pool.onBackend c Backend.releaseSub).active b + unit b (some c) =
      s.pool.active b := by
    intro b
    rw [BackendPool.active_onBackend]
    by_cases hb : b = c
    · subst hb
      simp only [↓reduceIte, Backend.releaseSub, unit_self]
      unfold BackendPool.active at hpos ⊢
      rw [fetchSub_of_pos hpos]
      omega
    · simp [unit, hb, Ne.symm hb]
  refine h.move rfl (fun b => ?_) (fun b => ?_) hne
  · have hcount := countIn_update (s.threads t).held x none b
    have hnew : ((s.threads t).goto (.clear x after)).holdings b =
        countIn (Function.update (s.threads t).held x none) b := rfl
    have ha := hact b
    rw [hnew, LeaseThread.holdings_plain hplain]
    rw [hx, unit_none] at hcount
    show (s.pool.onBackend c Backend.releaseSub).active b + _ = _
    omega
  · show (s.pool.onBackend c Backend.releaseSub).active b +
      Function.update s.released c (s.released c + 1) b = s.acquired b
    have hg := h.ghost b
    have ha := hact b
    by_cases hb : b = c
    · subst hb
      rw [unit_self] at ha
      rw [Function.update_self]
      omega
    · rw [Function.update_of_ne hb]
      simp only [unit, Option.some.injEq, Ne.symm hb, ↓reduceIte] at ha
      omega

theorem Accounted.tick (h : Accounted s) (hs : s.tick t = some s') : Accounted s' := by
  have hc := h.consistent t
  cases hpoint : (s.threads t).point with
  | idle =>
    rw [LeaseState.tick, hpoint] at hs
    cases hs
  | acquiring dst scan =>
    simp only [LeaseThread.Consistent, hpoint] at hc
    have hplain : LeaseThread.Plain (s.threads t).point := by simp [hpoint, LeaseThread.Plain]
    -- a load of the scan
    have hload : s.tick t = some ({ s with pool := (scan.step s.pool).1 }.setThread t
        ((s.threads t).goto (.acquiring dst (scan.step s.pool).2))) → Accounted s' := by
      intro heq
      rw [heq] at hs
      cases hs
      refine h.quiet rfl (Scan.step_backends s.pool scan) rfl rfl hc (fun b => ?_)
      rw [LeaseThread.holdings_plain hplain]
      exact LeaseThread.holdings_goto _ (by exact trivial) b
    cases scan with
    | done selected => exact h.construct hpoint hs
    | ticket => exact hload (by simp only [LeaseState.tick, hpoint])
    | head start offset selected => exact hload (by simp only [LeaseState.tick, hpoint])
    | loadLeft start offset candidate selected => exact hload (by simp only [LeaseState.tick, hpoint])
    | loadRight start offset candidate selected left =>
      exact hload (by simp only [LeaseState.tick, hpoint])
  | constructed dst selected =>
    simp only [LeaseThread.Consistent, hpoint] at hc
    simp only [LeaseState.tick, hpoint, Option.some.injEq] at hs
    subst hs
    refine h.quiet rfl rfl rfl rfl trivial (fun b => ?_)
    have hold : (s.threads t).holdings b = countIn (s.threads t).held b + unit b selected := by
      simp only [LeaseThread.holdings, LeaseThread.effective, LeaseThread.unbound, hpoint]
    have hbind := countIn_update (s.threads t).held dst selected b
    have hempty : (s.threads t).held dst = none := by simp [LeaseThread.held, hc]
    rw [hempty, unit_none] at hbind
    rw [LeaseThread.holdings_goto _ (by exact trivial), hold, LeaseThread.held_set]
    exact hbind
  | releaseLoad x b after =>
    simp only [LeaseThread.Consistent, hpoint] at hc
    have hplain : LeaseThread.Plain (s.threads t).point := by simp [hpoint, LeaseThread.Plain]
    simp only [LeaseState.tick, hpoint, Option.some.injEq] at hs
    subst hs
    refine h.quiet rfl rfl rfl rfl ⟨hc.1, h.active_pos hplain hc.1, hc.2⟩ (fun b => ?_)
    rw [LeaseThread.holdings_plain hplain]
    exact LeaseThread.holdings_goto _ (by exact trivial) b
  | releaseTest x b current after => exact h.release hpoint hs
  | clear x after =>
    simp only [LeaseThread.Consistent, hpoint] at hc
    simp only [LeaseState.tick, hpoint, Option.some.injEq] at hs
    subst hs
    have hold : ∀ b, (s.threads t).holdings b =
        countIn (Function.update (s.threads t).held x none) b := by
      intro b
      simp only [LeaseThread.holdings, LeaseThread.effective, LeaseThread.unbound, hpoint, unit_none,
        Nat.add_zero]
    have hnew : ((s.threads t).cleared x after).held = Function.update (s.threads t).held x none := by
      cases after <;> exact LeaseThread.held_set _ _ _
    refine h.quiet rfl rfl rfl rfl ?_ (fun b => ?_)
    · cases after with
      | reset => trivial
      | destroy => trivial
      | assign src =>
        refine ⟨hc src rfl, ?_⟩
        rw [hnew, Function.update_self]
    · rw [hold, LeaseThread.holdings_plain (by cases after <;> trivial), hnew]
  | copy dst src =>
    simp only [LeaseThread.Consistent, hpoint] at hc
    have hplain : LeaseThread.Plain (s.threads t).point := by simp [hpoint, LeaseThread.Plain]
    simp only [LeaseState.tick, hpoint, Option.some.injEq] at hs
    subst hs
    refine h.quiet rfl rfl rfl rfl hc.1 (fun b => ?_)
    have hnew : (((s.threads t).set dst ((s.threads t).leases src)).goto
        (.clearSource dst src)).holdings b =
        countIn (Function.update ((s.threads t).set dst ((s.threads t).leases src)).held src none) b :=
      rfl
    rw [hnew, LeaseThread.holdings_plain hplain, LeaseThread.held_set, Function.update_comm hc.1]
    exact countIn_move _ hc.1 hc.2 b
  | clearSource dst src =>
    simp only [LeaseState.tick, hpoint, Option.some.injEq] at hs
    subst hs
    refine h.quiet rfl rfl rfl rfl trivial (fun b => ?_)
    rw [LeaseThread.holdings_goto _ (by exact trivial), LeaseThread.held_set]
    simp only [LeaseThread.holdings, LeaseThread.effective, LeaseThread.unbound, hpoint, unit_none,
      Nat.add_zero]
    rfl

theorem Accounted.step (h : Accounted s) {a : LeaseAct n T V} (hs : s.step a = some s') :
    Accounted s' := by
  cases a with
  | call t op =>
    simp only [LeaseState.step] at hs
    split at hs
    · rename_i hidle
      have hbegin : ∀ op, ((s.threads t).begin op).map (s.setThread t) = some s' → Accounted s' := by
        intro op hb
        obtain ⟨th', hth, rfl⟩ := Option.map_eq_some_iff.mp hb
        obtain ⟨hcons, hheld⟩ := LeaseThread.begin_spec hidle hth
        exact h.quiet rfl rfl rfl rfl hcons hheld
      cases op with
      | acquire dst =>
        simp only at hs
        split at hs
        · rename_i hcond
          cases hs
          refine h.quiet rfl rfl rfl rfl hcond.1 (fun b => ?_)
          rw [LeaseThread.holdings_goto _ (by exact trivial)]
          exact (LeaseThread.holdings_plain (by rw [hidle]; trivial) b).symm
        · cases hs
      | moveConstruct dst src => exact hbegin _ hs
      | moveAssign dst src => exact hbegin _ hs
      | reset x => exact hbegin _ hs
      | destroy x => exact hbegin _ hs
    · cases hs
  | tick t => exact h.tick hs
  | setHealthy b value =>
    cases hs
    refine h.pool (fun c => ?_)
    rw [BackendPool.active_onBackend]
    split
    · rename_i hc
      rw [hc]
      rfl
    · rfl
  | recordConnect b success =>
    have hsame : ∀ f : Backend → Backend, (∀ x, (f x).activeConnections = x.activeConnections) →
        ∀ c, (s.pool.onBackend b f).active c = s.pool.active c := by
      intro f hf c
      rw [BackendPool.active_onBackend]
      split
      · rename_i hc
        rw [hc, hf]
        rfl
      · rfl
    cases success with
    | true =>
      cases hs
      exact h.pool (hsame _ (fun _ => rfl))
    | false =>
      cases hs
      exact h.pool (hsame _ (fun _ => rfl))

end Steps

theorem start_accounted (configs : Fin n → BackendConfig) (tieBreaker : Nat) :
    Accounted (start configs tieBreaker : LeaseState n T V) := by
  refine ⟨fun b => ?_, fun _ => rfl, fun _ => trivial⟩
  symm
  apply Finset.sum_eq_zero
  intro t _
  rw [LeaseThread.holdings_plain (by exact trivial)]
  exact countIn_eq_zero (fun _ => rfl) b

/-- **Lease accounting.** In every reachable state each counter is the number
of leases held, which is the number of acquisitions whose `fetch_sub` has not
run; a thread about to test `current > 0` finds it true and the counter
positive; and once no thread holds a lease or is inside an operation the
counters are back at zero. -/
theorem accounted_run [DecidableEq T] [NeZero n] (configs : Fin n → BackendConfig) (tieBreaker : Nat)
    (acts : List (LeaseAct n T V)) (s : LeaseState n T V)
    (hrun : Run (fun s a t => step s a = some t) (start configs tieBreaker) acts s) :
    (∀ b, s.pool.active b = ∑ t, (s.threads t).holdings b) ∧
      (∀ b, s.pool.active b + s.released b = s.acquired b) ∧
      (∀ t x b current after, (s.threads t).point = .releaseTest x b current after →
        0 < current ∧ 0 < s.pool.active b) ∧
      ((∀ t, (s.threads t).point = .idle ∧ ∀ x, (s.threads t).held x = none) →
        ∀ b, s.pool.active b = 0) := by
  have h : Accounted s :=
    hrun.invariant (fun _ _ _ hs ha => hs.step ha) (start_accounted configs tieBreaker)
  refine ⟨h.count, h.ghost, ?_, ?_⟩
  · intro t x b current after hpoint
    have hc := h.consistent t
    simp only [LeaseThread.Consistent, hpoint] at hc
    exact ⟨hc.2.1, h.active_pos (by simp [hpoint, LeaseThread.Plain]) hc.1⟩
  · intro hgone b
    rw [h.count b]
    apply Finset.sum_eq_zero
    intro t _
    rw [LeaseThread.holdings_plain (by simp [(hgone t).1, LeaseThread.Plain])]
    exact countIn_eq_zero (hgone t).2 b

namespace Demo

/-- Two threads take a lease of the same backend, the other one being down. One moves its lease into another
variable and assigns that onto itself; then both destroy their leases, and each of them loads the counter
before the other's `fetch_sub`. -/
def twoReleases : List (LeaseAct 2 Bool Bool) :=
  .setHealthy 1 false ::
    .call false (.acquire false) :: List.replicate 6 (.tick false) ++
    .call true (.acquire false) :: List.replicate 6 (.tick true) ++
    [.call true (.moveConstruct true false), .tick true, .tick true, .call true (.moveAssign true true),
      .call false (.destroy false), .call true (.destroy true), .tick false, .tick true, .tick false, .tick true,
      .tick true, .tick false]

/-- Two backends of the same weight. -/
def pair : Fin 2 → BackendConfig := fun _ => ⟨"app", "127.0.0.1", 9001, 1⟩

/-- Both leases have been released. -/
theorem twoReleases_run : ∃ s ∈ twoReleases.foldlM step (start pair 0),
    (∀ t, (s.threads t).point = .idle ∧ ∀ x, (s.threads t).held x = none) ∧ s.acquired 0 = 2 ∧ s.released 0 = 2 := by
  decide +kernel

end Demo

/-- The steps of two releases, interleaved: both `fetch_sub` run and the counter is back at zero. -/
theorem accounted_two_releases :
    ∃ acts, ∃ s : LeaseState 2 Bool Bool,
      Run (fun s a t => step s a = some t) (start Demo.pair 0) acts s ∧
      s.acquired 0 = 2 ∧ s.released 0 = 2 ∧ s.pool.active 0 = 0 := by
  obtain ⟨s, hs, hidle, hacquired, hreleased⟩ := Demo.twoReleases_run
  have hrun : Run (fun s a t => step s a = some t) (start Demo.pair 0) Demo.twoReleases s := Run.of_steps hs
  exact ⟨_, s, hrun, hacquired, hreleased, (accounted_run _ 0 _ _ hrun).2.2.2 hidle 0⟩

end LeaseState

end FluxGate
