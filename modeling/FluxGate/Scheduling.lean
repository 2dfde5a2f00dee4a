import FluxGate.Lease
import FluxGate.Lib.Apportion
import FluxGate.Lib.FirstMin
import Mathlib.Algebra.Order.Field.Basic
import Mathlib.Algebra.Order.Field.Rat

/-!
# The choice of a backend

`acquire` is not a snapshot: while it scans, leases are released and health
flags change. What it reads of each backend at its turn is recorded here for
the specification (`Reading`). The selected backend's counter can only shrink
during the scan, since other acquisitions are excluded by the mutex; so each
comparison taken at some moment still bounds what comes later (`Scanned`).
-/

namespace FluxGate

open Lib

/-- What a scan found at a backend's turn: its health, and its counter at
that moment. -/
structure Reading (n : Nat) where
  backend : Fin n
  healthy : Bool
  active : Nat
  deriving DecidableEq, Repr

namespace BackendPool

variable {n : Nat}

def weight (pool : BackendPool n) (b : Fin n) : Nat := (pool.backends b).weight

/-- No product of the scan exceeds 64 bits. -/
def InRange (pool : BackendPool n) : Prop := ∀ b c, pool.active b * pool.weight c < 2 ^ 64

instance (pool : BackendPool n) : Decidable pool.InRange :=
  inferInstanceAs (Decidable (∀ b c, pool.active b * pool.weight c < 2 ^ 64))

/-- Counters may only have shrunk. -/
structure Shrunk (pool pool' : BackendPool n) : Prop where
  active : ∀ b, pool'.active b ≤ pool.active b
  weight : ∀ b, pool'.weight b = pool.weight b

/-- `selected` has at most the score that each healthy reading had. -/
def Least (pool : BackendPool n) (readings : List (Reading n)) (selected : Fin n) : Prop :=
  ∀ r ∈ readings, r.healthy = true →
    pool.active selected * pool.weight r.backend ≤ r.active * pool.weight selected

/-- The selection made from the readings so far. -/
def Selected (pool : BackendPool n) (readings : List (Reading n)) : Option (Fin n) → Prop
  | none => ∀ r ∈ readings, r.healthy = false
  | some b => (∃ r ∈ readings, r.backend = b ∧ r.healthy = true) ∧ pool.Least readings b

theorem Least.shrunk {pool pool' : BackendPool n} {readings : List (Reading n)} {b : Fin n}
    (h : pool.Least readings b) (hs : pool.Shrunk pool') : pool'.Least readings b := by
  intro r hr hh
  rw [hs.weight, hs.weight]
  exact Nat.le_trans (Nat.mul_le_mul_right _ (hs.active b)) (h r hr hh)

theorem Selected.shrunk {pool pool' : BackendPool n} {readings : List (Reading n)}
    {selected : Option (Fin n)} (h : pool.Selected readings selected) (hs : pool.Shrunk pool') :
    pool'.Selected readings selected := by
  cases selected with
  | none => exact h
  | some b => exact ⟨h.1, h.2.shrunk hs⟩

/-- An unhealthy backend is passed over. -/
theorem Selected.skip {pool : BackendPool n} {readings : List (Reading n)} {selected : Option (Fin n)}
    (h : pool.Selected readings selected) (b : Fin n) (a : Nat) :
    pool.Selected (readings ++ [⟨b, false, a⟩]) selected := by
  cases selected with
  | none =>
    intro r hr
    rcases List.mem_append.mp hr with hr | hr
    · exact h r hr
    · rw [List.mem_singleton] at hr
      rw [hr]
  | some c =>
    obtain ⟨⟨r, hr, hread⟩, hleast⟩ := h
    refine ⟨⟨r, List.mem_append_left _ hr, hread⟩, ?_⟩
    intro r hr hh
    rcases List.mem_append.mp hr with hr | hr
    · exact hleast r hr hh
    · rw [List.mem_singleton] at hr
      rw [hr] at hh
      cases hh

/-- The first healthy backend met is selected. -/
theorem Selected.first {pool : BackendPool n} {readings : List (Reading n)}
    (h : pool.Selected readings none) (b : Fin n) :
    pool.Selected (readings ++ [⟨b, true, pool.active b⟩]) (some b) := by
  refine ⟨⟨_, List.mem_append_right _ (List.mem_singleton_self _), rfl, rfl⟩, ?_⟩
  intro r hr hh
  rcases List.mem_append.mp hr with hr | hr
  · rw [h r hr] at hh
    cases hh
  · rw [List.mem_singleton] at hr
    rw [hr]

end BackendPool

namespace Scan

variable {n : Nat} [NeZero n]

/-- The readings after the next step of the scan. -/
def read (pool : BackendPool n) (scan : Scan n) (readings : List (Reading n)) : List (Reading n) :=
  match scan with
  | .ticket => []
  | .head start offset _ =>
    if offset < n then
      let candidate : Fin n := index start offset
      readings ++ [⟨candidate, (pool.backends candidate).healthy, pool.active candidate⟩]
    else readings
  | _ => readings

/-- The backends were read in cyclic order from `start`. -/
def Covers (start offset : Nat) (readings : List (Reading n)) : Prop :=
  readings.map Reading.backend = (List.range offset).map (index start)

/-- The candidate has just been read as healthy, with a score of `a`; the
selection is that of the readings before it. -/
structure Comparing (pool : BackendPool n) (start offset : Nat) (candidate selected : Fin n) (a : Nat)
    (readings : List (Reading n)) : Prop where
  split : ∃ before, readings = before ++ [⟨candidate, true, a⟩] ∧ pool.Selected before (some selected)
  covers : Covers start (offset + 1) readings
  bound : offset < n

/-- What the readings say about the position of the scan. -/
def Scanned (pool : BackendPool n) (readings : List (Reading n)) : Scan n → Prop
  | .ticket => True
  | .head start offset selected =>
    offset ≤ n ∧ Covers start offset readings ∧ pool.Selected readings selected
  | .loadLeft start offset candidate selected =>
    ∃ a, Comparing pool start offset candidate selected a readings ∧ pool.active candidate ≤ a
  | .loadRight start offset candidate selected left =>
    ∃ a x, Comparing pool start offset candidate selected a readings ∧ x ≤ a ∧
      pool.active candidate ≤ x ∧ left = x * pool.weight selected
  | .done selected => (∃ start, Covers start n readings) ∧ pool.Selected readings selected

section Readings

variable {pool pool' : BackendPool n} {readings : List (Reading n)} {start offset a : Nat}
  {candidate selected : Fin n}

/-- Other threads release leases and change health flags. -/
theorem Comparing.shrunk (h : Comparing pool start offset candidate selected a readings)
    (hs : pool.Shrunk pool') : Comparing pool' start offset candidate selected a readings := by
  obtain ⟨before, hsplit, hsel⟩ := h.split
  exact ⟨⟨before, hsplit, hsel.shrunk hs⟩, h.covers, h.bound⟩

theorem Scanned.shrunk {scan : Scan n} (h : Scanned pool readings scan) (hs : pool.Shrunk pool') :
    Scanned pool' readings scan := by
  cases scan with
  | ticket => trivial
  | head start offset selected => exact ⟨h.1, h.2.1, h.2.2.shrunk hs⟩
  | loadLeft start offset candidate selected =>
    obtain ⟨a, hc, ha⟩ := h
    exact ⟨a, hc.shrunk hs, Nat.le_trans (hs.active candidate) ha⟩
  | loadRight start offset candidate selected left =>
    obtain ⟨a, x, hc, hx, hact, hleft⟩ := h
    refine ⟨a, x, hc.shrunk hs, hx, Nat.le_trans (hs.active candidate) hact, ?_⟩
    rw [hs.weight, hleft]
  | done selected => exact ⟨h.1, h.2.shrunk hs⟩

theorem Covers.snoc (h : Covers start offset readings) (healthy : Bool) (a : Nat) :
    Covers start (offset + 1) (readings ++ [⟨index start offset, healthy, a⟩]) := by
  unfold Covers at h ⊢
  rw [List.map_append, h, List.range_succ, List.map_append]
  rfl

/-- A comparison that keeps the selection. -/
theorem Comparing.keep (h : Comparing pool start offset candidate selected a readings)
    (hle : pool.active selected * pool.weight candidate ≤ a * pool.weight selected) :
    pool.Selected readings (some selected) := by
  obtain ⟨before, rfl, ⟨r, hr, hread⟩, hleast⟩ := h.split
  refine ⟨⟨r, List.mem_append_left _ hr, hread⟩, ?_⟩
  intro r hr hh
  rcases List.mem_append.mp hr with hr | hr
  · exact hleast r hr hh
  · rw [List.mem_singleton] at hr
    subst hr
    exact hle

/-- A comparison won by the candidate: the scores compared at different
moments chain up. -/
theorem Comparing.replace (h : Comparing pool start offset candidate selected a readings)
    (hpos : ∀ b, 0 < pool.weight b) (hact : pool.active candidate ≤ a)
    (hlt : pool.active candidate * pool.weight selected ≤ pool.active selected * pool.weight candidate) :
    pool.Selected readings (some candidate) := by
  obtain ⟨before, rfl, -, hleast⟩ := h.split
  refine ⟨⟨_, List.mem_append_right _ (List.mem_singleton_self _), rfl, rfl⟩, ?_⟩
  intro r hr hh
  rcases List.mem_append.mp hr with hr | hr
  · exact score_le_trans (hpos selected) hlt (hleast r hr hh)
  · rw [List.mem_singleton] at hr
    subst hr
    exact Nat.mul_le_mul_right _ hact

/-- One step of the scan. -/
theorem Scanned.step {scan : Scan n} (h : Scanned pool readings scan) (hpos : ∀ b, 0 < pool.weight b)
    (hrange : pool.InRange) :
    Scanned (scan.step pool).1 (scan.read pool readings) (scan.step pool).2 := by
  cases scan with
  | ticket => exact ⟨Nat.zero_le n, rfl, fun r hr => absurd hr List.not_mem_nil⟩
  | head start offset selected =>
    obtain ⟨hle, hcov, hsel⟩ := h
    by_cases hoff : offset < n
    · have hcov' := hcov.snoc (pool.backends (index start offset)).healthy
        (pool.active (index start offset))
      simp only [Scan.step, Scan.read, hoff, ↓reduceIte]
      cases hh : (pool.backends (index start offset)).healthy with
      | false =>
        rw [hh] at hcov'
        exact ⟨hoff, hcov', hsel.skip _ _⟩
      | true =>
        rw [hh] at hcov'
        cases selected with
        | none => exact ⟨hoff, hcov', hsel.first _⟩
        | some b => exact ⟨_, ⟨⟨readings, rfl, hsel⟩, hcov', hoff⟩, Nat.le_refl _⟩
    · have hn : offset = n := by omega
      subst hn
      simp only [Scan.step, Scan.read, Nat.lt_irrefl, ↓reduceIte]
      exact ⟨⟨start, hcov⟩, hsel⟩
  | loadLeft start offset candidate selected =>
    obtain ⟨a, hc, ha⟩ := h
    exact ⟨a, _, hc, ha, Nat.le_refl _, Nat.mod_eq_of_lt (hrange candidate selected)⟩
  | loadRight start offset candidate selected left =>
    obtain ⟨a, x, hc, hx, hact, hleft⟩ := h
    have hright : pool.active selected * (pool.backends candidate).weight % 2 ^ 64 =
        pool.active selected * pool.weight candidate := Nat.mod_eq_of_lt (hrange selected candidate)
    refine ⟨hc.bound, hc.covers, ?_⟩
    show pool.Selected readings (some (if left <
      pool.active selected * (pool.backends candidate).weight % 2 ^ 64 then candidate else selected))
    rw [hright]
    split
    · rename_i hlt
      refine hc.replace hpos (Nat.le_trans hact hx) ?_
      calc pool.active candidate * pool.weight selected
          ≤ x * pool.weight selected := Nat.mul_le_mul_right _ hact
        _ = left := hleft.symm
        _ ≤ pool.active selected * pool.weight candidate := Nat.le_of_lt hlt
    · rename_i hge
      refine hc.keep ?_
      calc pool.active selected * pool.weight candidate
          ≤ left := Nat.le_of_not_lt hge
        _ = x * pool.weight selected := hleft
        _ ≤ a * pool.weight selected := Nat.mul_le_mul_right _ hx
  | done selected => exact h

/-- A full turn meets every backend once. -/
theorem count_of_covers (h : Covers start n readings) (b : Fin n) :
    (readings.map Reading.backend).count b = 1 := by
  have hinj : Function.Injective fun i : Fin n => (index start i : Fin n) := by
    intro i j hij
    exact Fin.ext (turn_injOn i.isLt j.isLt hij)
  have hlist : (List.range n).map (index start) =
      (List.finRange n).map fun i : Fin n => (index start i : Fin n) := by
    rw [← List.map_coe_finRange_eq_range, List.map_map]
    rfl
  rw [h, hlist]
  obtain ⟨i, rfl⟩ := (Finite.injective_iff_surjective.mp hinj) b
  exact (List.count_map_of_injective _ _ hinj i).trans
    (List.count_eq_one_of_mem (List.nodup_finRange n) (List.mem_finRange i))

end Readings

end Scan

/-! ## Scans in a running process -/

/-- The thread is inside `acquire`, with the mutex. -/
def LeasePoint.scanning {n : Nat} {V : Type} : LeasePoint n V → Bool
  | .acquiring _ _ => true
  | .constructed _ _ => true
  | _ => false

namespace LeaseThread

variable {n : Nat} {V : Type}

theorem reset_scanning (th rest : LeaseThread n V) (x : V) (after : After V)
    (h : rest.point.scanning = false) : (th.reset x after rest).point.scanning = false := by
  unfold reset
  cases th.held x with
  | none => exact h
  | some b => rfl

variable [DecidableEq V]

theorem begin_scanning {th th' : LeaseThread n V} {op : LeaseOp V} (hidle : th.point = .idle)
    (h : th.begin op = some th') : th'.point.scanning = false := by
  have hth : th.point.scanning = false := by rw [hidle]; rfl
  cases op with
  | acquire dst => cases h
  | moveConstruct dst src =>
    simp only [begin] at h
    split at h
    · cases h
      rfl
    · cases h
  | moveAssign dst src =>
    simp only [begin] at h
    split at h
    · split at h
      · cases h
        exact hth
      · cases h
        exact reset_scanning _ _ _ _ rfl
    · cases h
  | reset x =>
    simp only [begin] at h
    split at h
    · cases h
      exact reset_scanning _ _ _ _ hth
    · cases h
  | destroy x =>
    simp only [begin] at h
    split at h
    · cases h
      exact reset_scanning _ _ _ _ hth
    · cases h

theorem cleared_scanning (th : LeaseThread n V) (x : V) (after : After V) :
    (th.cleared x after).point.scanning = false := by
  cases after <;> rfl

end LeaseThread

namespace LeaseState

variable {n : Nat} {T V : Type}

/-- Whoever is inside `acquire` holds the mutex. -/
def Locked (s : LeaseState n T V) : Prop :=
  ∀ t, (s.threads t).point.scanning = true → s.mutex = some t

/-- The `fetch_add` of the new lease. -/
def build (s : LeaseState n T V) : Option (Fin n) → LeaseState n T V
  | some b =>
    { s with
      pool := s.pool.onBackend b Backend.acquire
      acquired := Function.update s.acquired b (s.acquired b + 1) }
  | none => s

/-- A step outside `acquire`. -/
structure Aside (s s' : LeaseState n T V) : Prop where
  mutex : s'.mutex = s.mutex
  threads : ∀ u, s'.threads u = s.threads u ∨
    (s.threads u).point.scanning = false ∧ (s'.threads u).point.scanning = false
  config : ∀ b, (s'.pool.backends b).config = (s.pool.backends b).config
  active : ∀ b, s'.pool.active b = s.pool.active b ∨
    ∃ t x current after, (s.threads t).point = .releaseTest x b current after ∧
      s'.pool.active b = fetchSub (s.pool.active b)

section Moves

variable {s s' : LeaseState n T V} {t : T}

/-- An operation on a backend that leaves its counter alone. -/
theorem Aside.onBackend (b : Fin n) {f : Backend → Backend}
    (hf : ∀ x, (f x).activeConnections = x.activeConnections ∧ (f x).config = x.config) :
    Aside s { s with pool := s.pool.onBackend b f } where
  mutex := rfl
  threads _ := Or.inl rfl
  config c := by
    by_cases hc : c = b
    · subst hc
      rw [BackendPool.onBackend_self, (hf _).2]
    · rw [BackendPool.onBackend_of_ne hc]
  active c := by
    left
    rw [BackendPool.active_onBackend]
    split
    · rename_i hc
      rw [hc, (hf _).1]
      rfl
    · rfl

variable [DecidableEq T]

/-- One thread moves outside `acquire`, on the same pool. -/
theorem Aside.thread (th : LeaseThread n V) (hold : (s.threads t).point.scanning = false)
    (hnew : th.point.scanning = false) : Aside s (s.setThread t th) where
  mutex := rfl
  threads u := by
    by_cases hu : u = t
    · subst hu
      right
      refine ⟨hold, ?_⟩
      simpa [setThread] using hnew
    · left
      simp [setThread, hu]
  config _ := rfl
  active _ := Or.inl rfl

/-- The guarded `fetch_sub`. -/
theorem Aside.release {x : V} {b : Fin n} {current : Nat} {after : After V}
    (hpoint : (s.threads t).point = .releaseTest x b current after) {th : LeaseThread n V}
    (hnew : th.point.scanning = false) :
    Aside s ({ s with
      pool := s.pool.onBackend b Backend.releaseSub
      released := Function.update s.released b (s.released b + 1) }.setThread t th) where
  mutex := rfl
  threads u := by
    by_cases hu : u = t
    · subst hu
      right
      refine ⟨by rw [hpoint]; rfl, ?_⟩
      simpa [setThread] using hnew
    · left
      simp [setThread, hu]
  config c := by
    show ((s.pool.onBackend b Backend.releaseSub).backends c).config = _
    by_cases hc : c = b
    · subst hc
      rw [BackendPool.onBackend_self]
      rfl
    · rw [BackendPool.onBackend_of_ne hc]
  active c := by
    show (s.pool.onBackend b Backend.releaseSub).active c = _ ∨ _
    rw [BackendPool.active_onBackend]
    split
    · rename_i hc
      subst hc
      exact Or.inr ⟨t, x, current, after, hpoint, by simp [BackendPool.active, setThread, Backend.releaseSub]⟩
    · exact Or.inl rfl

variable [DecidableEq V] [NeZero n]

/-- The step belongs to no call of `acquire`. -/
def Outside (s : LeaseState n T V) : LeaseAct n T V → Prop
  | .call _ (.acquire _) => False
  | .tick t => (s.threads t).point.scanning = false
  | _ => True

/-- What a step can do, with respect to `acquire`. -/
inductive Moves (s : LeaseState n T V) : LeaseAct n T V → LeaseState n T V → Prop
  | enter (t : T) (dst : V) (hmutex : s.mutex = none) :
      Moves s (.call t (.acquire dst))
        ({ s with mutex := some t }.setThread t ((s.threads t).goto (.acquiring dst .ticket)))
  | scan (t : T) (dst : V) (scan : Scan n) (hpoint : (s.threads t).point = .acquiring dst scan) :
      Moves s (.tick t) ({ s with pool := (scan.step s.pool).1 }.setThread t
        ((s.threads t).goto (.acquiring dst (scan.step s.pool).2)))
  | build (t : T) (dst : V) (selected : Option (Fin n))
      (hpoint : (s.threads t).point = .acquiring dst (.done selected)) :
      Moves s (.tick t)
        ((s.build selected).setThread t ((s.threads t).goto (.constructed dst selected)))
  | bind (t : T) (dst : V) (selected : Option (Fin n))
      (hpoint : (s.threads t).point = .constructed dst selected) :
      Moves s (.tick t)
        ({ s with mutex := none }.setThread t (((s.threads t).set dst (some selected)).goto .idle))
  | aside {a : LeaseAct n T V} {s' : LeaseState n T V} (h : Aside s s') (hout : s.Outside a) :
      Moves s a s'

theorem tick_moves (hs : s.tick t = some s') : Moves s (.tick t) s' := by
  have hout : ∀ {p : LeasePoint n V}, (s.threads t).point = p → p.scanning = false →
      s.Outside (.tick t) := fun hp hs => (congrArg _ hp).trans hs
  cases hpoint : (s.threads t).point with
  | idle =>
    rw [tick, hpoint] at hs
    cases hs
  | acquiring dst scan =>
    cases scan with
    | done selected =>
      simp only [tick, hpoint, Option.some.injEq] at hs
      subst hs
      cases selected with
      | none => exact .build t dst none hpoint
      | some b => exact .build t dst (some b) hpoint
    | ticket =>
      simp only [tick, hpoint, Option.some.injEq] at hs
      subst hs
      exact .scan t dst _ hpoint
    | head start offset selected =>
      simp only [tick, hpoint, Option.some.injEq] at hs
      subst hs
      exact .scan t dst _ hpoint
    | loadLeft start offset candidate selected =>
      simp only [tick, hpoint, Option.some.injEq] at hs
      subst hs
      exact .scan t dst _ hpoint
    | loadRight start offset candidate selected left =>
      simp only [tick, hpoint, Option.some.injEq] at hs
      subst hs
      exact .scan t dst _ hpoint
  | constructed dst selected =>
    simp only [tick, hpoint, Option.some.injEq] at hs
    subst hs
    exact .bind t dst selected hpoint
  | releaseTest x b current after =>
    simp only [tick, hpoint, Option.some.injEq] at hs
    subst hs
    refine .aside ?_ (hout hpoint rfl)
    split
    · exact Aside.release hpoint rfl
    · exact Aside.thread _ (by rw [hpoint]; rfl) rfl
  | releaseLoad x b after =>
    simp only [tick, hpoint, Option.some.injEq] at hs
    subst hs
    exact .aside (Aside.thread _ (by rw [hpoint]; rfl) rfl) (hout hpoint rfl)
  | clear x after =>
    simp only [tick, hpoint, Option.some.injEq] at hs
    subst hs
    exact .aside (Aside.thread _ (by rw [hpoint]; rfl) (LeaseThread.cleared_scanning _ _ _))
      (hout hpoint rfl)
  | copy dst src =>
    simp only [tick, hpoint, Option.some.injEq] at hs
    subst hs
    exact .aside (Aside.thread _ (by rw [hpoint]; rfl) rfl) (hout hpoint rfl)
  | clearSource dst src =>
    simp only [tick, hpoint, Option.some.injEq] at hs
    subst hs
    exact .aside (Aside.thread _ (by rw [hpoint]; rfl) rfl) (hout hpoint rfl)

theorem step_moves {a : LeaseAct n T V} (hs : s.step a = some s') : Moves s a s' := by
  cases a with
  | call t op =>
    simp only [step] at hs
    split at hs
    · rename_i hidle
      have hbegin : ∀ op, ((s.threads t).begin op).map (s.setThread t) = some s' → Aside s s' := by
        intro op hb
        obtain ⟨th, hth, rfl⟩ := Option.map_eq_some_iff.mp hb
        exact Aside.thread th (by rw [hidle]; rfl) (LeaseThread.begin_scanning hidle hth)
      cases op with
      | acquire dst =>
        simp only at hs
        split at hs
        · rename_i hcond
          cases hs
          exact .enter t dst hcond.2
        · cases hs
      | moveConstruct dst src => exact .aside (hbegin _ hs) trivial
      | moveAssign dst src => exact .aside (hbegin _ hs) trivial
      | reset x => exact .aside (hbegin _ hs) trivial
      | destroy x => exact .aside (hbegin _ hs) trivial
    · cases hs
  | tick t => exact tick_moves hs
  | setHealthy b value =>
    cases hs
    exact .aside (Aside.onBackend b (fun _ => ⟨rfl, rfl⟩)) trivial
  | recordConnect b success =>
    cases success with
    | true =>
      cases hs
      exact .aside (Aside.onBackend b (fun _ => ⟨rfl, rfl⟩)) trivial
    | false =>
      cases hs
      exact .aside (Aside.onBackend b (fun _ => ⟨rfl, rfl⟩)) trivial

end Moves

section Mutex

variable {s s' : LeaseState n T V} {t : T}

/-- The thread that moves inside `acquire` is the only one there. -/
theorem Locked.alone (h : s.Locked) (ht : (s.threads t).point.scanning = true) {u : T} (hu : u ≠ t) :
    (s.threads u).point.scanning = false := by
  by_contra hs
  have hmu := h u (by simpa using hs)
  rw [h t ht] at hmu
  exact hu (Option.some.inj hmu).symm

theorem Locked.none_scanning (h : s.Locked) (hm : s.mutex = none) (u : T) :
    (s.threads u).point.scanning = false := by
  by_contra hs
  have hmu := h u (by simpa using hs)
  rw [hm] at hmu
  cases hmu

theorem build_weight (s : LeaseState n T V) (selected : Option (Fin n)) (b : Fin n) :
    (s.build selected).pool.weight b = s.pool.weight b := by
  cases selected with
  | none => rfl
  | some c =>
    show (s.pool.onBackend c Backend.acquire).weight b = _
    unfold BackendPool.weight Backend.weight
    by_cases hb : b = c
    · subst hb
      rw [BackendPool.onBackend_self]
      rfl
    · rw [BackendPool.onBackend_of_ne hb]

theorem Aside.weight (h : Aside s s') (b : Fin n) : s'.pool.weight b = s.pool.weight b := by
  unfold BackendPool.weight Backend.weight
  rw [h.config]

/-- Outside `acquire` counters only shrink. -/
theorem Aside.shrunk [DecidableEq V] [Fintype T] [Fintype V] (h : Aside s s') (hacc : Accounted s) :
    s.pool.Shrunk s'.pool where
  active b := by
    rcases h.active b with heq | ⟨t, x, current, after, hpoint, heq⟩
    · rw [heq]
    · have hc := hacc.consistent t
      simp only [LeaseThread.Consistent, hpoint] at hc
      have hpos : 0 < s.pool.active b :=
        hacc.active_pos (by simp [hpoint, LeaseThread.Plain]) hc.1
      rw [heq, fetchSub_of_pos hpos]
      omega
  weight := h.weight

variable [DecidableEq T]

/-- One thread moves, and the others are outside `acquire`. -/
theorem locked_setThread {th : LeaseThread n V} (hothers : ∀ u, u ≠ t →
    (s.threads u).point.scanning = false) (hth : th.point.scanning = true → s.mutex = some t) :
    (s.setThread t th).Locked := by
  intro u hu
  by_cases hut : u = t
  · subst hut
    simp only [setThread, Function.update_self] at hu
    exact hth hu
  · simp only [setThread, Function.update_of_ne hut] at hu
    rw [hothers u hut] at hu
    cases hu

/-- A property of threads that the moving thread keeps. -/
theorem forall_setThread {P : LeaseThread n V → Prop} {th : LeaseThread n V}
    (h : ∀ u, P (s.threads u)) (hth : P th) : ∀ u, P ((s.setThread t th).threads u) := by
  intro u
  by_cases hu : u = t
  · subst hu
    simpa [setThread] using hth
  · simpa [setThread, hu] using h u

/-- Only one thread can be scanning after the move of `t`. -/
theorem scanned_setThread {t : T} {th : LeaseThread n V} (hothers : ∀ u, u ≠ t →
    (s.threads u).point.scanning = false) {P : Scan n → Prop}
    (hth : ∀ dst scan, th.point = .acquiring dst scan → P scan) :
    ∀ u dst scan, ((s.setThread t th).threads u).point = .acquiring dst scan → P scan := by
  intro u dst scan hu
  by_cases hut : u = t
  · subst hut
    simp only [setThread, Function.update_self] at hu
    exact hth dst scan hu
  · simp only [setThread, Function.update_of_ne hut] at hu
    have hs := hothers u hut
    rw [hu] at hs
    cases hs

variable [DecidableEq V] [NeZero n]

theorem Locked.step (h : s.Locked) {a : LeaseAct n T V} (hm : Moves s a s') : s'.Locked := by
  cases hm with
  | enter t dst hmutex =>
    exact locked_setThread (fun u _ => h.none_scanning hmutex u) (fun _ => rfl)
  | scan t dst scan hpoint =>
    have ht : (s.threads t).point.scanning = true := by rw [hpoint]; rfl
    exact locked_setThread (fun u hu => h.alone ht hu) (fun _ => h t ht)
  | build t dst selected hpoint =>
    have ht : (s.threads t).point.scanning = true := by rw [hpoint]; rfl
    cases selected with
    | none => exact locked_setThread (fun u hu => h.alone ht hu) (fun _ => h t ht)
    | some b => exact locked_setThread (fun u hu => h.alone ht hu) (fun _ => h t ht)
  | bind t dst selected hpoint =>
    have ht : (s.threads t).point.scanning = true := by rw [hpoint]; rfl
    exact locked_setThread (fun u hu => h.alone ht hu) (fun hs => by cases hs)
  | aside haside hout =>
    intro u hu
    rw [haside.mutex]
    rcases haside.threads u with heq | ⟨-, hnew⟩
    · exact h u (heq ▸ hu)
    · rw [hnew] at hu
      cases hu

end Mutex

/-! ## Scans while leases are released -/

section Watching

variable [NeZero n]

/-- The readings of the scan in progress, after a step. -/
def watch (s : LeaseState n T V) (a : LeaseAct n T V) (readings : List (Reading n)) :
    List (Reading n) :=
  match a with
  | .tick t =>
    match (s.threads t).point with
    | .acquiring _ scan => scan.read s.pool readings
    | _ => readings
  | _ => readings

/-- A step, with the readings of the scan in progress beside the state. -/
def WatchStep [DecidableEq T] [DecidableEq V] (p : LeaseState n T V × List (Reading n)) (a : LeaseAct n T V)
    (q : LeaseState n T V × List (Reading n)) : Prop :=
  p.1.step a = some q.1 ∧ q.2 = p.1.watch a p.2

theorem watchStep [DecidableEq T] [DecidableEq V] {p : LeaseState n T V × List (Reading n)}
    {a : LeaseAct n T V} {s : LeaseState n T V} (h : p.1.step a = some s) :
    WatchStep p a (s, p.1.watch a p.2) :=
  ⟨h, rfl⟩

/-- The same as a function, for pools whose products are in range. -/
def watched [DecidableEq T] [DecidableEq V] (p : LeaseState n T V × List (Reading n)) (a : LeaseAct n T V) :
    Option (LeaseState n T V × List (Reading n)) :=
  if p.1.pool.InRange then (p.1.step a).map fun s => (s, p.1.watch a p.2) else none

theorem watch_run [DecidableEq T] [DecidableEq V] {acts : List (LeaseAct n T V)}
    {p q : LeaseState n T V × List (Reading n)} (h : acts.foldlM watched p = some q) :
    Run (Guarded (fun p _ => p.1.pool.InRange) WatchStep) p acts q := by
  have hrun : Run (Guarded (fun p _ => p.1.pool.InRange)
      (fun p a q => (p.1.step a).map (fun s => (s, p.1.watch a p.2)) = some q)) p acts q := Run.of_foldlM h
  refine hrun.mono ?_
  rintro p a q ⟨hrange, hstep⟩
  obtain ⟨s, hs, rfl⟩ := Option.map_eq_some_iff.mp hstep
  exact ⟨hrange, watchStep hs⟩

structure Sound (weight : Fin n → Nat) (s : LeaseState n T V) (readings : List (Reading n)) : Prop where
  locked : s.Locked
  weight : ∀ b, s.pool.weight b = weight b
  scanned : ∀ t dst scan, (s.threads t).point = .acquiring dst scan →
    Scan.Scanned s.pool readings scan

variable {s s' : LeaseState n T V} {readings : List (Reading n)} {w : Fin n → Nat}

theorem watch_outside {a : LeaseAct n T V} (h : s.Outside a) : s.watch a readings = readings := by
  cases a with
  | tick t =>
    have ht : (s.threads t).point.scanning = false := h
    simp only [watch]
    split
    · rename_i hpoint
      rw [hpoint] at ht
      cases ht
    · rfl
  | call t op => rfl
  | setHealthy b value => rfl
  | recordConnect b success => rfl

theorem start_sound (configs : Fin n → BackendConfig) (tieBreaker : Nat) :
    Sound (fun b => (configs b).weight) (start configs tieBreaker : LeaseState n T V) [] where
  locked := by
    intro t ht
    cases ht
  weight _ := rfl
  scanned := by
    rintro t dst scan ⟨⟩

variable [DecidableEq T] [DecidableEq V]

/-- The weights are those of the configuration, whatever happens. -/
theorem Moves.weight {a : LeaseAct n T V} (hm : Moves s a s') (b : Fin n) :
    s'.pool.weight b = s.pool.weight b := by
  cases hm with
  | enter t dst hmutex => rfl
  | scan t dst scan hpoint => exact congrArg (fun f => (f b).weight) (Scan.step_backends s.pool scan)
  | build t dst selected hpoint => exact build_weight s selected b
  | bind t dst selected hpoint => rfl
  | aside haside hout => exact haside.weight b

theorem Sound.step [Fintype T] [Fintype V] {a : LeaseAct n T V} (h : Sound w s readings)
    (hacc : Accounted s) (hw : ∀ b, 0 < w b) (hrange : s.pool.InRange) (hm : Moves s a s') :
    Sound w s' (s.watch a readings) := by
  have hpos : ∀ b, 0 < s.pool.weight b := fun b => by rw [h.weight]; exact hw b
  refine ⟨h.locked.step hm, fun b => (hm.weight b).trans (h.weight b), ?_⟩
  cases hm with
  | enter t dst hmutex =>
    refine scanned_setThread (fun u _ => h.locked.none_scanning hmutex u) ?_
    rintro dst scan ⟨⟩
    trivial
  | scan t dst scan hpoint =>
    have ht : (s.threads t).point.scanning = true := by rw [hpoint]; rfl
    have hwatch : s.watch (.tick t) readings = scan.read s.pool readings := by
      simp only [watch, hpoint]
    refine scanned_setThread (fun u hu => h.locked.alone ht hu) ?_
    rintro dst' scan' ⟨⟩
    rw [hwatch]
    exact (h.scanned t dst scan hpoint).step hpos hrange
  | build t dst selected hpoint =>
    have ht : (s.threads t).point.scanning = true := by rw [hpoint]; rfl
    have hothers : ∀ u, u ≠ t → ((s.build selected).threads u).point.scanning = false := by
      intro u hu
      cases selected <;> exact h.locked.alone ht hu
    refine scanned_setThread hothers ?_
    rintro dst' scan' ⟨⟩
  | bind t dst selected hpoint =>
    have ht : (s.threads t).point.scanning = true := by rw [hpoint]; rfl
    refine scanned_setThread (fun u hu => h.locked.alone ht hu) ?_
    rintro dst' scan' ⟨⟩
  | aside haside hout =>
    intro u dst scan hu
    rw [watch_outside hout]
    rcases haside.threads u with heq | ⟨-, hnew⟩
    · exact (h.scanned u dst scan (heq ▸ hu)).shrunk (haside.shrunk hacc)
    · rw [hu] at hnew
      cases hnew

/-- **Selection under concurrent releases.** At the end of every scan, each
backend has been read once; the selection is empty iff all were read as
unhealthy; otherwise the selected backend was read as healthy, and its score
now is at most the score that each backend read as healthy had when its health
was read. -/
theorem acquire_least [Fintype T] [Fintype V] (configs : Fin n → BackendConfig)
    (hweight : ∀ b, 1 ≤ (configs b).weight) (tieBreaker : Nat) (acts : List (LeaseAct n T V))
    (s : LeaseState n T V) (readings : List (Reading n))
    (hrun : Run (Guarded (fun p _ => p.1.pool.InRange) WatchStep) (start configs tieBreaker, []) acts
      (s, readings))
    (t : T) (dst : V) (selected : Option (Fin n))
    (hdone : (s.threads t).point = .acquiring dst (.done selected)) :
    (∀ b, (readings.map Reading.backend).count b = 1) ∧
      (selected = none ↔ ∀ r ∈ readings, r.healthy = false) ∧
      ∀ b, selected = some b → (∃ r ∈ readings, r.backend = b ∧ r.healthy = true) ∧
        ∀ r ∈ readings, r.healthy = true →
          (s.pool.active b : ℚ) / (configs b).weight ≤ r.active / (configs r.backend).weight := by
  have hinv : Accounted s ∧ Sound (fun b => (configs b).weight) s readings := by
    refine Run.invariant (I := fun p => Accounted p.1 ∧
      Sound (fun b => (configs b).weight) p.1 p.2) ?_
      ⟨start_accounted configs tieBreaker, start_sound configs tieBreaker⟩ hrun
    rintro ⟨s, readings⟩ a ⟨s', readings'⟩ ⟨hacc, hsound⟩ ⟨hrange, hstep, rfl⟩
    exact ⟨hacc.step hstep, hsound.step hacc hweight hrange (step_moves hstep)⟩
  obtain ⟨⟨start, hcovers⟩, hsel⟩ := hinv.2.scanned t dst _ hdone
  refine ⟨Scan.count_of_covers hcovers, ?_, ?_⟩
  · cases selected with
    | none => exact ⟨fun _ => hsel, fun _ => rfl⟩
    | some b =>
      obtain ⟨⟨r, hr, -, hh⟩, -⟩ := hsel
      constructor
      · rintro ⟨⟩
      · intro hall
        rw [hall r hr] at hh
        cases hh
  · rintro b rfl
    refine ⟨hsel.1, fun r hr hh => ?_⟩
    have hle : s.pool.active b * (configs r.backend).weight ≤ r.active * (configs b).weight := by
      have h := hsel.2 r hr hh
      rwa [hinv.2.weight, hinv.2.weight] at h
    have hb : (0 : ℚ) < (configs b).weight := by exact_mod_cast hweight b
    have hc : (0 : ℚ) < (configs r.backend).weight := by exact_mod_cast hweight r.backend
    rw [div_le_div_iff₀ hb hc]
    exact_mod_cast hle

namespace Demo

/-- One thread holds a lease of each backend. The other scans: it has read the first backend when the lease
of that one is being released; the `fetch_sub` comes between the two loads of the comparison, and the health
check fails right after. -/
def midScan : List (LeaseAct 2 Bool Bool) :=
  .call true (.acquire false) :: List.replicate 8 (.tick true) ++
    .call true (.acquire true) :: List.replicate 8 (.tick true) ++
    [.call false (.acquire false), .tick false, .tick false, .call true (.destroy false), .tick true, .tick false,
      .tick false, .tick true, .setHealthy ⟨0, Nat.two_pos⟩ false, .tick false, .tick false]

/-- The scan has just ended: it has chosen the backend that was released and then went down. -/
theorem midScan_runs : ∃ q ∈ midScan.foldlM watched (start pair 0, []),
    (q.1.threads false).point = .acquiring false (.done (some 0)) ∧ q.2.map Reading.active = [1, 1] ∧
      q.1.pool.active 0 = 0 ∧ (q.1.pool.backends 0).healthy = false := by
  decide +kernel

end Demo

/-- A lease is released and a backend goes down while another thread scans: the backend it selects has fewer
connections now than when it was read. -/
theorem acquire_least_two_backends :
    ∃ acts s readings, Run (Guarded (fun p _ => p.1.pool.InRange) WatchStep)
        ((start Demo.pair 0 : LeaseState 2 Bool Bool), []) acts (s, readings) ∧
      (s.threads false).point = .acquiring false (.done (some 0)) ∧
      readings.map Reading.active = [1, 1] ∧ s.pool.active 0 = 0 ∧ (s.pool.backends 0).healthy = false ∧
      ∀ r ∈ readings, r.healthy = true →
        (s.pool.active 0 : ℚ) / (Demo.pair 0).weight ≤ r.active / (Demo.pair r.backend).weight := by
  obtain ⟨⟨s, readings⟩, hq, hdone, hreadings, hactive, hdown⟩ := Demo.midScan_runs
  have hrun : Run (Guarded (fun p _ => p.1.pool.InRange) WatchStep) (start Demo.pair 0, []) Demo.midScan
      (s, readings) := watch_run hq
  have hleast := (acquire_least Demo.pair (by decide) 0 _ _ _ hrun false false _ hdone).2.2 0 rfl
  exact ⟨_, s, readings, hrun, hdone, hreadings, hactive, hdown, hleast.2⟩

end Watching

/-! ## Proportional distribution -/

section Growing

/-- Only `acquire` is called. -/
def AcquireOnly : LeaseAct n T V → Prop
  | .call _ (.acquire _) => True
  | .tick _ => True
  | _ => False

instance (a : LeaseAct n T V) : Decidable (AcquireOnly a) :=
  match a with
  | .call _ (.acquire _) => .isTrue trivial
  | .tick _ => .isTrue trivial
  | .call _ (.moveConstruct _ _) => .isFalse id
  | .call _ (.moveAssign _ _) => .isFalse id
  | .call _ (.reset _) => .isFalse id
  | .call _ (.destroy _) => .isFalse id
  | .setHealthy _ _ => .isFalse id
  | .recordConnect _ _ => .isFalse id

/-- All backends healthy and no lease ever released. -/
structure Growing [NeZero n] (w : Fin n → Nat) (s : LeaseState n T V) : Prop where
  locked : s.Locked
  weight : ∀ b, s.pool.weight b = w b
  healthy : ∀ b, (s.pool.backends b).healthy = true
  acquired : ∀ b, s.acquired b = s.pool.active b
  even : Even w s.pool.active
  /-- nobody is in an operation other than `acquire` -/
  taking : ∀ t, (s.threads t).point = .idle ∨ (s.threads t).point.scanning = true
  nonempty : ∀ t dst, (s.threads t).point ≠ .constructed dst none
  /-- what a scan has read is still so -/
  scanned : ∀ t dst scan, (s.threads t).point = .acquiring dst scan → ∃ readings,
    Scan.Scanned s.pool readings scan ∧
      ∀ r ∈ readings, r.healthy = true ∧ r.active = s.pool.active r.backend

variable [NeZero n] {s s' : LeaseState n T V} {w : Fin n → Nat}

/-- A full scan selects a backend of least score. -/
theorem Growing.least (h : Growing w s) {t : T} {dst : V} {selected : Option (Fin n)}
    (hpoint : (s.threads t).point = .acquiring dst (.done selected)) :
    ∃ b, selected = some b ∧ ∀ c, s.pool.active b * w c ≤ s.pool.active c * w b := by
  obtain ⟨readings, ⟨⟨start, hcovers⟩, hsel⟩, hsame⟩ := h.scanned t dst _ hpoint
  have hmem : ∀ c, ∃ r ∈ readings, r.backend = c := by
    intro c
    have hc : c ∈ readings.map Reading.backend := by
      rw [← List.count_pos_iff, Scan.count_of_covers hcovers]
      exact Nat.one_pos
    exact List.mem_map.mp hc
  cases selected with
  | none =>
    obtain ⟨r, hr, -⟩ := hmem 0
    have hh := (hsame r hr).1
    rw [hsel r hr] at hh
    cases hh
  | some b =>
    refine ⟨b, rfl, fun c => ?_⟩
    obtain ⟨r, hr, rfl⟩ := hmem c
    have hle := hsel.2 r hr (hsame r hr).1
    rwa [h.weight, h.weight, (hsame r hr).2] at hle

/-- One more reading that is still so. -/
theorem read_same (pool : BackendPool n) (hhealthy : ∀ b, (pool.backends b).healthy = true)
    (scan : Scan n) {readings : List (Reading n)}
    (h : ∀ r ∈ readings, r.healthy = true ∧ r.active = pool.active r.backend) :
    ∀ r ∈ scan.read pool readings, r.healthy = true ∧ r.active = pool.active r.backend := by
  cases scan with
  | ticket =>
    intro r hr
    cases hr
  | head start offset selected =>
    intro r hr
    simp only [Scan.read] at hr
    split at hr
    · rcases List.mem_append.mp hr with hr | hr
      · exact h r hr
      · rw [List.mem_singleton] at hr
        rw [hr]
        exact ⟨hhealthy _, rfl⟩
    · exact h r hr
  | loadLeft start offset candidate selected => exact h
  | loadRight start offset candidate selected left => exact h
  | done selected => exact h

theorem start_growing (configs : Fin n → BackendConfig) (tieBreaker : Nat) :
    Growing (fun b => (configs b).weight) (start configs tieBreaker : LeaseState n T V) where
  locked := (start_sound configs tieBreaker).locked
  weight _ := rfl
  healthy _ := rfl
  acquired _ := rfl
  even := even_zero fun _ => rfl
  taking _ := Or.inl rfl
  nonempty := by rintro t dst ⟨⟩
  scanned := by rintro t dst scan ⟨⟩

variable [DecidableEq T]

/-- The lease goes to a backend of least score. -/
theorem Growing.build (h : Growing w s) {t : T} {dst : V} {selected : Option (Fin n)}
    (hpoint : (s.threads t).point = .acquiring dst (.done selected)) :
    Growing w ((s.build selected).setThread t ((s.threads t).goto (.constructed dst selected))) := by
  obtain ⟨b, rfl, hmin⟩ := h.least hpoint
  have ht : (s.threads t).point.scanning = true := by rw [hpoint]; rfl
  have hactive : (s.pool.onBackend b Backend.acquire).active =
      Function.update s.pool.active b (s.pool.active b + 1) := by
    funext c
    rw [BackendPool.active_onBackend]
    by_cases hc : c = b
    · subst hc
      simp [Backend.acquire, BackendPool.active]
    · simp [hc]
  constructor
  case locked => exact locked_setThread (fun u hu => h.locked.alone ht hu) (fun _ => h.locked t ht)
  case weight => exact fun c => (build_weight s (some b) c).trans (h.weight c)
  case healthy =>
    intro c
    show ((s.pool.onBackend b Backend.acquire).backends c).healthy = true
    by_cases hc : c = b
    · subst hc
      rw [BackendPool.onBackend_self]
      exact h.healthy c
    · rw [BackendPool.onBackend_of_ne hc]
      exact h.healthy c
  case acquired =>
    intro c
    show Function.update s.acquired b (s.acquired b + 1) c = (s.pool.onBackend b Backend.acquire).active c
    rw [hactive, funext h.acquired]
  case even =>
    show Even w (s.pool.onBackend b Backend.acquire).active
    rw [hactive]
    exact h.even.give hmin
  case taking =>
    exact forall_setThread (P := fun th => th.point = .idle ∨ th.point.scanning = true) h.taking
      (Or.inr rfl)
  case nonempty =>
    refine forall_setThread (P := fun th => ∀ dst, th.point ≠ .constructed dst none) h.nonempty ?_
    rintro dst ⟨⟩
  case scanned =>
    refine scanned_setThread (fun u hu => h.locked.alone ht hu) ?_
    rintro dst scan ⟨⟩

/-- A step that leaves the backends alone. -/
theorem Growing.same (h : Growing w s) {t : T} {th : LeaseThread n V}
    (hpool : s'.pool.backends = s.pool.backends) (hacq : s'.acquired = s.acquired)
    (hthreads : s'.threads = Function.update s.threads t th) (hlocked : s'.Locked)
    (htaking : th.point = .idle ∨ th.point.scanning = true)
    (hnonempty : ∀ dst, th.point ≠ .constructed dst none)
    (hscanned : ∀ t dst scan, (s'.threads t).point = .acquiring dst scan → ∃ readings,
      Scan.Scanned s'.pool readings scan ∧
        ∀ r ∈ readings, r.healthy = true ∧ r.active = s'.pool.active r.backend) : Growing w s' := by
  have hactive : s'.pool.active = s.pool.active := by
    funext b
    unfold BackendPool.active
    rw [hpool]
  constructor
  case locked => exact hlocked
  case weight =>
    intro b
    rw [← h.weight b]
    unfold BackendPool.weight
    rw [hpool]
  case healthy =>
    intro b
    rw [hpool]
    exact h.healthy b
  case acquired =>
    intro b
    rw [hacq, hactive]
    exact h.acquired b
  case even =>
    rw [hactive]
    exact h.even
  case taking =>
    rw [hthreads]
    exact forall_setThread (P := fun th => th.point = .idle ∨ th.point.scanning = true) h.taking
      htaking
  case nonempty =>
    rw [hthreads]
    exact forall_setThread (P := fun th => ∀ dst, th.point ≠ .constructed dst none) h.nonempty hnonempty
  case scanned => exact hscanned

variable [DecidableEq V]

/-- Nothing happens outside `acquire`. -/
theorem Growing.not_outside {a : LeaseAct n T V} (h : Growing w s) (hact : AcquireOnly a)
    (hs : s.step a = some s') : ¬ s.Outside a := by
  intro hout
  cases a with
  | call t op => cases op <;> first | exact hout | exact hact
  | tick t =>
    have hout' : (s.threads t).point.scanning = false := hout
    rcases h.taking t with hidle | hscan
    · simp only [LeaseState.step, tick, hidle] at hs
      cases hs
    · rw [hscan] at hout'
      cases hout'
  | setHealthy b value => exact hact
  | recordConnect b success => exact hact

theorem Growing.step {a : LeaseAct n T V} (h : Growing w s) (hact : AcquireOnly a)
    (hw : ∀ b, 0 < w b) (hrange : s.pool.InRange) (hs : s.step a = some s') : Growing w s' := by
  have hmoves := step_moves hs
  have hlocked := h.locked.step hmoves
  cases hmoves with
  | enter t dst hmutex =>
    refine h.same rfl rfl rfl hlocked (Or.inr rfl) (by rintro dst ⟨⟩) ?_
    refine scanned_setThread (fun u _ => h.locked.none_scanning hmutex u) ?_
    rintro dst scan ⟨⟩
    exact ⟨[], trivial, fun r hr => by cases hr⟩
  | scan t dst scan hpoint =>
    have ht : (s.threads t).point.scanning = true := by rw [hpoint]; rfl
    have hback := Scan.step_backends s.pool scan
    refine h.same hback rfl rfl hlocked (Or.inr rfl) (by rintro dst ⟨⟩) ?_
    refine scanned_setThread (fun u hu => h.locked.alone ht hu) ?_
    rintro dst' scan' ⟨⟩
    obtain ⟨readings, hscanned, hsame⟩ := h.scanned t dst scan hpoint
    refine ⟨scan.read s.pool readings, hscanned.step (fun b => by rw [h.weight]; exact hw b) hrange, ?_⟩
    intro r hr
    have hread := read_same s.pool h.healthy scan hsame r hr
    refine ⟨hread.1, hread.2.trans ?_⟩
    exact congrArg (fun f => (f r.backend).activeConnections) hback.symm
  | build t dst selected hpoint => exact h.build hpoint
  | bind t dst selected hpoint =>
    have ht : (s.threads t).point.scanning = true := by rw [hpoint]; rfl
    refine h.same rfl rfl rfl hlocked (Or.inl rfl) (by rintro dst ⟨⟩) ?_
    refine scanned_setThread (fun u hu => h.locked.alone ht hu) ?_
    rintro dst' scan' ⟨⟩
  | aside haside hout => exact absurd hout (h.not_outside hact hs)

/-- **Proportional distribution.** In every run of acquisitions on healthy
backends, no backend is more than one lease ahead of its share, no lease is
empty, and after `k` times the total weight of acquisitions every backend
holds exactly `k` times its weight. -/
theorem acquire_proportional (configs : Fin n → BackendConfig) (hweight : ∀ b, 1 ≤ (configs b).weight)
    (tieBreaker : Nat) (acts : List (LeaseAct n T V)) (s : LeaseState n T V)
    (hrun : Run (Guarded (fun s a => AcquireOnly a ∧ s.pool.InRange) (fun s a t => s.step a = some t))
      (start configs tieBreaker) acts s) :
    (∀ i j, 1 ≤ s.pool.active i →
        (s.pool.active i - 1) * (configs j).weight ≤ s.pool.active j * (configs i).weight) ∧
      (∀ t dst, (s.threads t).point ≠ .constructed dst none) ∧
      ∀ k, ∑ b, s.acquired b = k * ∑ b, (configs b).weight →
        ∀ b, s.pool.active b = k * (configs b).weight := by
  have h : Growing (fun b => (configs b).weight) s := by
    refine Run.invariant (I := Growing fun b => (configs b).weight) ?_
      (start_growing configs tieBreaker) hrun
    rintro s a s' hs ⟨⟨hact, hrange⟩, hstep⟩
    exact hs.step hact hweight hrange hstep
  refine ⟨h.even, h.nonempty, fun k hsum => ?_⟩
  refine h.even.exact hweight ?_
  rw [← hsum]
  exact Finset.sum_congr rfl fun b _ => (h.acquired b).symm

namespace Demo

/-- Weights 1 and 2. -/
def oneAndTwo : Fin 2 → BackendConfig := fun b => ⟨"app", "127.0.0.1", 9001, b + 1⟩

/-- Three leases, taken by two threads in turn. -/
def threeLeases : List (LeaseAct 2 Bool Bool) :=
  .call false (.acquire false) :: List.replicate 8 (.tick false) ++
    .call true (.acquire false) :: List.replicate 8 (.tick true) ++
    .call false (.acquire true) :: List.replicate 8 (.tick false)

end Demo

/-- Three leases of two backends with weights 1 and 2, taken by two threads: one lease of the first backend
and two of the second. -/
theorem acquire_proportional_two_backends :
    ∃ acts, ∃ s : LeaseState 2 Bool Bool,
      Run (Guarded (fun s a => AcquireOnly a ∧ s.pool.InRange) (fun s a t => s.step a = some t))
        (start Demo.oneAndTwo 7) acts s ∧
      ∑ b, s.acquired b = 1 * ∑ b, (Demo.oneAndTwo b).weight ∧ s.pool.active 0 = 1 * 1 ∧ s.pool.active 1 = 1 * 2 := by
  have hrun : Run (Guarded (fun s a => AcquireOnly a ∧ s.pool.InRange)
      (fun s a t => s.step a = some t)) (start Demo.oneAndTwo 7) Demo.threeLeases _ := Run.of_foldlM rfl
  have hshare := (acquire_proportional Demo.oneAndTwo (by decide) 7 _ _ hrun).2.2 1 rfl
  exact ⟨_, _, hrun, rfl, hshare 0, hshare 1⟩

end Growing

end LeaseState

end FluxGate
