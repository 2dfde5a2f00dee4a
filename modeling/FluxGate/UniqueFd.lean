import FluxGate.Session
import FluxGate.Lib.Run

/-!
# `UniqueFd`: one owner for each descriptor

The class as the header has it, and then what it is for: a program with any
number of `UniqueFd` variables that are constructed, moved from, moved into
(also from themselves), reset, released and destroyed in any order, next to
code that keeps descriptors as plain integers. `raw` says which open
descriptors are in the hands of that code; it may hand over a descriptor it
has and close it, and nothing else.
-/

namespace FluxGate

open Lib

/-- `fd_`; nothing is held when it is negative. -/
structure UniqueFd where
  fd : Int
  deriving DecidableEq, Repr

namespace UniqueFd

def empty : UniqueFd := ⟨-1⟩

def valid (u : UniqueFd) : Bool := decide (0 ≤ u.fd)

/-- The descriptor the object will close. -/
def held (u : UniqueFd) : Option Fd := if u.valid then some u.fd.toNat else none

/-- The returned value, and the object after the call. -/
def release (u : UniqueFd) : Int × UniqueFd := (u.fd, empty)

/-- The descriptor that is closed, and the object after the call. -/
def reset (u : UniqueFd) (fd : Int) : Option Fd × UniqueFd := (u.held, ⟨fd⟩)

@[simp] theorem held_empty : empty.held = none := rfl

@[simp] theorem held_natCast (fd : Fd) : (UniqueFd.mk (fd : Int)).held = some fd := by
  simp [held, valid]

theorem held_of_neg {fd : Int} (h : fd < 0) : (UniqueFd.mk fd).held = none := by
  have hn : ¬ 0 ≤ fd := by omega
  simp [held, valid, hn]

theorem held_eq_some {u : UniqueFd} {fd : Fd} (h : u.held = some fd) : u.fd = fd := by
  unfold held at h
  split at h
  · rename_i hv
    have hle : 0 ≤ u.fd := of_decide_eq_true hv
    rw [← Option.some.inj h, Int.toNat_of_nonneg hle]
  · cases h

end UniqueFd

/-! ## Programs with `UniqueFd` variables -/

/-- The variables in scope, and the descriptors of the process. -/
structure FdHeap (V : Type) where
  vars : V → Option UniqueFd
  isOpen : Fd → Bool
  /-- descriptors kept as plain integers -/
  raw : Fd → Bool
  opened : Fd → Nat
  closed : Fd → Nat
  /-- calls of `close` on a descriptor that was not open -/
  badCloses : Nat

inductive FdOp (V : Type) where
  /-- a system call returns a new descriptor -/
  | sysOpen (fd : Fd)
  /-- plain code closes a descriptor -/
  | sysClose (fd : Fd)
  /-- `UniqueFd v(fd)` -/
  | construct (v : V) (fd : Int)
  /-- `UniqueFd v(std::move(w))` -/
  | moveConstruct (v w : V)
  /-- `v = std::move(w)` -/
  | moveAssign (v w : V)
  /-- `v.release()` -/
  | release (v : V)
  /-- `v.reset(fd)` -/
  | reset (v : V) (fd : Int)
  /-- `v` goes out of scope -/
  | destroy (v : V)
  deriving DecidableEq, Repr

namespace FdHeap

variable {V : Type} {h h' : FdHeap V}

/-- The descriptor a variable will close. -/
def holds (h : FdHeap V) (v : V) : Option Fd := (h.vars v).bind UniqueFd.held

/-- The owners of a descriptor: a variable, or (`none`) the plain code. -/
def owns (h : FdHeap V) (fd : Fd) : Option V → Prop
  | some v => h.holds v = some fd
  | none => h.raw fd = true

/-- Every open descriptor has one owner, and what was opened is open or was closed once. -/
structure Owned (h : FdHeap V) : Prop where
  isOpen : ∀ fd, h.isOpen fd = true ↔ ∃ o, h.owns fd o
  unique : ∀ {fd o p}, h.owns fd o → h.owns fd p → o = p
  history : ∀ fd, h.opened fd = h.closed fd + (h.isOpen fd).toNat
  clean : h.badCloses = 0

/-- What a descriptor's owner does to it, told by the owners before and after. -/
theorem Owned.transfer (hown : h.Owned) (fd : Fd) (o p : Option V) (ho : h.owns fd o)
    (hothers : ∀ fd', fd' ≠ fd → ∀ q, h'.owns fd' q ↔ h.owns fd' q) (hfd : ∀ q, h'.owns fd q ↔ q = p)
    (hopen : h'.isOpen = h.isOpen) (hopened : h'.opened = h.opened) (hclosed : h'.closed = h.closed)
    (hbad : h'.badCloses = h.badCloses) : h'.Owned where
  isOpen fd' := by
    rw [hopen, hown.isOpen fd']
    by_cases he : fd' = fd
    · subst he
      exact ⟨fun _ => ⟨p, (hfd p).mpr rfl⟩, fun _ => ⟨o, ho⟩⟩
    · exact exists_congr fun q => (hothers fd' he q).symm
  unique {fd' q r} hq hr := by
    by_cases he : fd' = fd
    · subst he
      exact ((hfd q).mp hq).trans ((hfd r).mp hr).symm
    · exact hown.unique ((hothers fd' he q).mp hq) ((hothers fd' he r).mp hr)
  history fd' := by
    rw [hopen, hopened, hclosed]
    exact hown.history fd'
  clean := hbad.trans hown.clean

/-- Nobody owned anything else before or after. -/
theorem Owned.same (hown : h.Owned) (howns : ∀ fd q, h'.owns fd q ↔ h.owns fd q)
    (hopen : h'.isOpen = h.isOpen) (hopened : h'.opened = h.opened) (hclosed : h'.closed = h.closed)
    (hbad : h'.badCloses = h.badCloses) : h'.Owned where
  isOpen fd := by
    rw [hopen, hown.isOpen fd]
    exact exists_congr fun q => (howns fd q).symm
  unique hq hr := hown.unique ((howns _ _).mp hq) ((howns _ _).mp hr)
  history fd := by
    rw [hopen, hopened, hclosed]
    exact hown.history fd
  clean := hbad.trans hown.clean

/-- The owner of a descriptor closes it. -/
theorem Owned.closing (hown : h.Owned) (fd : Fd) (o : Option V) (ho : h.owns fd o)
    (hothers : ∀ fd', fd' ≠ fd → ∀ q, h'.owns fd' q ↔ h.owns fd' q) (hfd : ∀ q, ¬ h'.owns fd q)
    (hopen : h'.isOpen = Function.update h.isOpen fd false) (hopened : h'.opened = h.opened)
    (hclosed : h'.closed = Function.update h.closed fd (h.closed fd + 1))
    (hbad : h'.badCloses = h.badCloses) : h'.Owned where
  isOpen fd' := by
    by_cases he : fd' = fd
    · subst he
      simp [hopen, hfd]
    · rw [hopen, Function.update_of_ne he, hown.isOpen fd']
      exact exists_congr fun q => (hothers fd' he q).symm
  unique {fd' q r} hq hr := by
    by_cases he : fd' = fd
    · subst he
      exact absurd hq (hfd q)
    · exact hown.unique ((hothers fd' he q).mp hq) ((hothers fd' he r).mp hr)
  history fd' := by
    have hh := hown.history fd'
    by_cases he : fd' = fd
    · subst he
      have hopened' : h.isOpen fd' = true := (hown.isOpen fd').mpr ⟨o, ho⟩
      simp [hopen, hopened, hclosed, hh, hopened']
    · rw [hopen, hopened, hclosed, Function.update_of_ne he, Function.update_of_ne he]
      exact hh
  clean := hbad.trans hown.clean

/-- `::close(fd)`; a descriptor that is not open is left alone, and the call fails. -/
def close (h : FdHeap V) (fd : Fd) : FdHeap V :=
  if h.isOpen fd then
    { h with isOpen := Function.update h.isOpen fd false, closed := Function.update h.closed fd (h.closed fd + 1) }
  else { h with badCloses := h.badCloses + 1 }

def close? (h : FdHeap V) : Option Fd → FdHeap V
  | some fd => h.close fd
  | none => h

theorem close_of_isOpen {fd : Fd} (hopen : h.isOpen fd = true) :
    h.close fd = { h with
      isOpen := Function.update h.isOpen fd false
      closed := Function.update h.closed fd (h.closed fd + 1) } := by
  simp [close, hopen]

/-- Plain code gives a descriptor away; a negative number is no descriptor. -/
def give (h : FdHeap V) (fd : Int) : FdHeap V :=
  if 0 ≤ fd then { h with raw := Function.update h.raw fd.toNat false } else h

/-- Plain code receives a descriptor. -/
def receive (h : FdHeap V) (fd : Int) : FdHeap V :=
  if 0 ≤ fd then { h with raw := Function.update h.raw fd.toNat true } else h

/-- What may be handed to a `UniqueFd`: a failed call's negative result, or a descriptor of one's own. -/
def MayGive (h : FdHeap V) (fd : Int) : Prop := 0 ≤ fd → h.raw fd.toNat = true

instance (h : FdHeap V) (fd : Int) : Decidable (h.MayGive fd) := inferInstanceAs (Decidable (_ → _))

theorem close?_vars (h : FdHeap V) (fd : Option Fd) : (h.close? fd).vars = h.vars := by
  cases fd with
  | none => rfl
  | some fd =>
    simp only [close?, close]
    split <;> rfl

theorem close?_raw (h : FdHeap V) (fd : Option Fd) : (h.close? fd).raw = h.raw := by
  cases fd with
  | none => rfl
  | some fd =>
    simp only [close?, close]
    split <;> rfl

theorem close?_give (h : FdHeap V) (fd : Option Fd) (g : Int) :
    (h.give g).close? fd = (h.close? fd).give g := by
  cases fd with
  | none => rfl
  | some fd =>
    by_cases ho : h.isOpen fd <;> by_cases hg : 0 ≤ g <;> simp [close?, close, give, ho, hg]

theorem Owned.sysOpen (hown : h.Owned) {fd : Fd} (hfd : h.isOpen fd = false) :
    Owned { h with
      isOpen := Function.update h.isOpen fd true
      raw := Function.update h.raw fd true
      opened := Function.update h.opened fd (h.opened fd + 1) } := by
  have hnone : ∀ o, ¬ h.owns fd o := by
    intro o ho
    have := (hown.isOpen fd).mpr ⟨o, ho⟩
    rw [hfd] at this
    cases this
  have howns : ∀ fd' o, owns { h with
      isOpen := Function.update h.isOpen fd true
      raw := Function.update h.raw fd true
      opened := Function.update h.opened fd (h.opened fd + 1) } fd' o ↔
        if fd' = fd then o = none else h.owns fd' o := by
    intro fd' o
    by_cases he : fd' = fd
    · subst he
      cases o with
      | none => simp [owns]
      | some v =>
        have hv := hnone (some v)
        simp only [owns, holds] at hv
        simp [owns, holds, hv]
    · cases o with
      | none => simp [owns, he]
      | some v => simp [owns, holds, he]
  refine ⟨fun fd' => ?_, fun {fd' o q} ho hq => ?_, fun fd' => ?_, hown.clean⟩
  · by_cases he : fd' = fd
    · subst he
      simp [howns]
    · simp only [howns, he, if_false, Function.update_of_ne he]
      exact hown.isOpen fd'
  · rw [howns] at ho hq
    by_cases he : fd' = fd
    · rw [if_pos he] at ho hq
      exact ho.trans hq.symm
    · rw [if_neg he] at ho hq
      exact hown.unique ho hq
  · have hh := hown.history fd'
    by_cases he : fd' = fd
    · subst he
      rw [hfd] at hh
      simpa using hh
    · simpa [he] using hh

theorem Owned.sysClose (hown : h.Owned) {fd : Fd} (hraw : h.raw fd = true) : ((h.give fd).close fd).Owned := by
  have hopen : h.isOpen fd = true := (hown.isOpen fd).mpr ⟨none, hraw⟩
  have hgiven : h.give fd = { h with raw := Function.update h.raw fd false } := by simp [give]
  have hclosed : (h.give fd).close fd = { h with
      isOpen := Function.update h.isOpen fd false
      raw := Function.update h.raw fd false
      closed := Function.update h.closed fd (h.closed fd + 1) } := by
    rw [hgiven]
    exact close_of_isOpen hopen
  rw [hclosed]
  refine hown.closing fd none hraw (fun fd' hne q => ?_) (fun q hq => ?_) rfl rfl rfl rfl
  · cases q with
    | none => simp [owns, hne]
    | some w => exact Iff.rfl
  · cases q with
    | none => simp [owns] at hq
    | some w => cases hown.unique (h := h) (o := some w) (p := none) hq hraw

section Exec

variable [DecidableEq V]

def set (h : FdHeap V) (v : V) (u : Option UniqueFd) : FdHeap V :=
  { h with vars := Function.update h.vars v u }

/-- `v.reset(fd)` on an object. -/
def resetVar (h : FdHeap V) (v : V) (u : UniqueFd) (fd : Int) : FdHeap V :=
  (h.close? (u.reset fd).1).set v (some (u.reset fd).2)

/-- One statement of the program; `none` where it is not well formed. -/
def exec (h : FdHeap V) : FdOp V → Option (FdHeap V)
  | .sysOpen fd =>
    if h.isOpen fd then none
    else some { h with
      isOpen := Function.update h.isOpen fd true
      raw := Function.update h.raw fd true
      opened := Function.update h.opened fd (h.opened fd + 1) }
  | .sysClose fd => if h.raw fd then some ((h.give fd).close fd) else none
  | .construct v fd =>
    match h.vars v with
    | none => if h.MayGive fd then some ((h.give fd).set v (some ⟨fd⟩)) else none
    | some _ => none
  | .moveConstruct v w =>
    match h.vars v, h.vars w with
    | none, some u => some ((h.set w (some u.release.2)).set v (some ⟨u.release.1⟩))
    | _, _ => none
  | .moveAssign v w =>
    match h.vars v, h.vars w with
    | some t, some u => if v = w then some h else some ((h.set w (some u.release.2)).resetVar v t u.release.1)
    | _, _ => none
  | .release v =>
    match h.vars v with
    | some u => some ((h.set v (some u.release.2)).receive u.release.1)
    | none => none
  | .reset v fd =>
    match h.vars v with
    | some u => if h.MayGive fd then some ((h.give fd).resetVar v u fd) else none
    | none => none
  | .destroy v =>
    match h.vars v with
    | some u => some ((h.close? (u.reset (-1)).1).set v none)
    | none => none

theorem holds_set (h : FdHeap V) (v w : V) (u : Option UniqueFd) :
    (h.set v u).holds w = if w = v then u.bind UniqueFd.held else h.holds w := by
  unfold holds set
  by_cases hw : w = v
  · subst hw
    simp
  · simp [hw]

/-! ### What the statements do to the owners -/

theorem owns_set (h : FdHeap V) (v : V) (u : Option UniqueFd) (fd : Fd) (o : Option V) :
    (h.set v u).owns fd o ↔ if o = some v then u.bind UniqueFd.held = some fd else h.owns fd o := by
  cases o with
  | none => simp [owns, set]
  | some w =>
    by_cases hw : w = v
    · subst hw
      simp [owns, holds_set]
    · simp [owns, holds_set, hw]

/-- A variable closes what it holds. -/
theorem Owned.dispose (hown : h.Owned) {v : V} {u : UniqueFd} (hv : h.vars v = some u) {x : Option UniqueFd}
    (hx : x.bind UniqueFd.held = none) : ((h.close? u.held).set v x).Owned := by
  have hold : h.holds v = u.held := by simp [holds, hv]
  cases hu : u.held with
  | none =>
    refine hown.same (fun fd q => ?_) rfl rfl rfl rfl
    rw [close?, owns_set, hx]
    by_cases hq : q = some v
    · subst hq
      simp [owns, hold, hu]
    · simp [hq]
  | some fd =>
    have hopen : h.isOpen fd = true := (hown.isOpen fd).mpr ⟨some v, hold.trans hu⟩
    rw [close?, close_of_isOpen hopen]
    refine hown.closing fd (some v) (hold.trans hu) (fun fd' hne q => ?_) (fun q hq => ?_)
      rfl rfl rfl rfl
    · rw [owns_set, hx]
      by_cases hq : q = some v
      · subst hq
        simp [owns, hold, hu, hne.symm]
      · rw [if_neg hq]
        exact Iff.rfl
    · rw [owns_set, hx] at hq
      by_cases hqv : q = some v
      · simp [hqv] at hq
      · rw [if_neg hqv] at hq
        exact hqv (hown.unique (h := h) hq (hold.trans hu))

/-- `release` of one variable into another that holds nothing. -/
theorem Owned.move (hown : h.Owned) {v w : V} {u : UniqueFd} (hne : v ≠ w) (hv : h.holds v = none)
    (hw : h.vars w = some u) : ((h.set w (some u.release.2)).set v (some ⟨u.release.1⟩)).Owned := by
  have hold : h.holds w = u.held := by simp [holds, hw]
  have howns : ∀ fd q, ((h.set w (some u.release.2)).set v (some ⟨u.release.1⟩)).owns fd q ↔
      if q = some v then u.held = some fd else if q = some w then False else h.owns fd q := by
    intro fd q
    rw [owns_set, owns_set]
    simp [UniqueFd.release]
  cases hu : u.held with
  | none =>
    refine hown.same (fun fd q => ?_) rfl rfl rfl rfl
    rw [howns]
    by_cases hqv : q = some v
    · subst hqv
      simp [owns, hv, hu]
    · by_cases hqw : q = some w
      · subst hqw
        simp [owns, hold, hu, hqv]
      · simp [hqv, hqw]
  | some fd =>
    refine hown.transfer fd (some w) (some v) (hold.trans hu) (fun fd' hfd q => ?_) (fun q => ?_)
      rfl rfl rfl rfl
    · rw [howns]
      by_cases hqv : q = some v
      · subst hqv
        simp [owns, hv, hu, hfd.symm]
      · by_cases hqw : q = some w
        · subst hqw
          simp [owns, hold, hu, hqv, hfd.symm]
        · simp [hqv, hqw]
    · rw [howns]
      by_cases hqv : q = some v
      · simp [hqv, hu]
      · by_cases hqw : q = some w
        · simp [hqw, hne.symm]
        · simp only [hqv, hqw, if_false, iff_false]
          exact fun hq => hqw (hown.unique (h := h) hq (hold.trans hu))

/-- Plain code hands a descriptor to a variable that holds nothing. -/
theorem Owned.adopt (hown : h.Owned) {v : V} (fd : Int) (hv : h.holds v = none) (hgive : h.MayGive fd) :
    ((h.give fd).set v (some ⟨fd⟩)).Owned := by
  by_cases hfd : 0 ≤ fd
  · lift fd to Fd using hfd
    have hraw : h.raw fd = true := by simpa using hgive (Int.natCast_nonneg fd)
    have hgiven : h.give fd = { h with raw := Function.update h.raw fd false } := by simp [give]
    rw [hgiven]
    refine hown.transfer fd none (some v) hraw (fun fd' hne q => ?_) (fun q => ?_)
      rfl rfl rfl rfl
    · rw [owns_set]
      cases q with
      | none => simp [owns, hne]
      | some w =>
        by_cases hw : w = v
        · subst hw
          simp [owns, hv, hne.symm]
        · simp only [Option.some.injEq, hw, if_false]
          exact Iff.rfl
    · rw [owns_set]
      cases q with
      | none => simp [owns]
      | some w =>
        by_cases hw : w = v
        · simp [hw]
        · simp only [Option.some.injEq, hw, if_false, iff_false]
          intro hq
          cases hown.unique (h := h) (o := some w) (p := none) hq hraw
  · have hneg : (UniqueFd.mk fd).held = none := UniqueFd.held_of_neg (by omega)
    have hgiven : h.give fd = h := by simp [give, hfd]
    rw [hgiven]
    refine hown.same (fun fd' q => ?_) rfl rfl rfl rfl
    rw [owns_set]
    by_cases hq : q = some v
    · subst hq
      simp [owns, hv, hneg]
    · simp [hq]

/-- A variable releases what it holds to plain code. -/
theorem Owned.released (hown : h.Owned) {v : V} {u : UniqueFd} (hv : h.vars v = some u) :
    ((h.set v (some u.release.2)).receive u.release.1).Owned := by
  have hold : h.holds v = u.held := by simp [holds, hv]
  by_cases hfd : 0 ≤ u.fd
  · obtain ⟨fd, hu⟩ : ∃ fd : Fd, u.fd = fd := ⟨u.fd.toNat, (Int.toNat_of_nonneg hfd).symm⟩
    have hheld : u.held = some fd := by simp [UniqueFd.held, UniqueFd.valid, hu]
    have hgot : (h.set v (some u.release.2)).receive u.release.1 =
        { h.set v (some UniqueFd.empty) with raw := Function.update h.raw fd true } := by
      simp [receive, UniqueFd.release, hu, set]
    rw [hgot]
    refine hown.transfer fd (some v) none (hold.trans hheld) (fun fd' hne q => ?_) (fun q => ?_)
      rfl rfl rfl rfl
    · cases q with
      | none => simp [owns, hne]
      | some w =>
        show (h.set v _).holds w = some fd' ↔ h.holds w = some fd'
        by_cases hw : w = v
        · subst hw
          simp [holds_set, hold, hheld, hne.symm]
        · simp [holds_set, hw]
    · cases q with
      | none => simp [owns]
      | some w =>
        show (h.set v _).holds w = some fd ↔ _
        by_cases hw : w = v
        · simp [holds_set, hw]
        · simp only [holds_set, hw, if_false, reduceCtorEq, iff_false]
          intro hq
          have he := hown.unique (h := h) (o := some w) (p := some v) hq (hold.trans hheld)
          exact hw (Option.some.inj he)
  · have hheld : u.held = none := UniqueFd.held_of_neg (by omega)
    have hgot : (h.set v (some u.release.2)).receive u.release.1 = h.set v (some UniqueFd.empty) := by
      simp [receive, UniqueFd.release, hfd]
    rw [hgot]
    refine hown.same (fun fd' q => ?_) rfl rfl rfl rfl
    rw [owns_set]
    by_cases hq : q = some v
    · subst hq
      simp [owns, hold, hheld]
    · simp [hq]

theorem close?_set (h : FdHeap V) (fd : Option Fd) (v : V) (u : Option UniqueFd) :
    (h.set v u).close? fd = (h.close? fd).set v u := by
  cases fd with
  | none => rfl
  | some fd =>
    by_cases ho : h.isOpen fd <;> simp [close?, close, set, ho]

theorem give_set (h : FdHeap V) (g : Int) (v : V) (u : Option UniqueFd) :
    (h.set v u).give g = (h.give g).set v u := by
  by_cases hg : 0 ≤ g <;> simp [give, set, hg]

theorem set_set (h : FdHeap V) (v : V) (t u : Option UniqueFd) : (h.set v t).set v u = h.set v u := by
  simp [set]

/-- **One statement keeps every descriptor with one owner.** -/
theorem Owned.exec (hown : h.Owned) {op : FdOp V} (hop : h.exec op = some h') : h'.Owned := by
  cases op with
  | sysOpen fd =>
    simp only [FdHeap.exec] at hop
    split at hop
    · cases hop
    · rename_i hfd
      obtain rfl := Option.some.inj hop
      exact hown.sysOpen (by simpa using hfd)
  | sysClose fd =>
    simp only [FdHeap.exec] at hop
    split at hop
    · rename_i hraw
      obtain rfl := Option.some.inj hop
      exact hown.sysClose hraw
    · cases hop
  | construct v fd =>
    simp only [FdHeap.exec] at hop
    split at hop
    · rename_i hv
      split at hop
      · rename_i hgive
        obtain rfl := Option.some.inj hop
        exact hown.adopt fd (by simp [holds, hv]) hgive
      · cases hop
    · cases hop
  | moveConstruct v w =>
    simp only [FdHeap.exec] at hop
    split at hop
    · rename_i u hv hw
      obtain rfl := Option.some.inj hop
      have hne : v ≠ w := by
        rintro rfl
        rw [hv] at hw
        cases hw
      exact hown.move hne (by simp [holds, hv]) hw
    · cases hop
  | moveAssign v w =>
    simp only [FdHeap.exec] at hop
    split at hop
    · rename_i t u hv hw
      split at hop
      · obtain rfl := Option.some.inj hop
        exact hown
      · rename_i hne
        obtain rfl := Option.some.inj hop
        -- `v` closes what it holds, and then takes what `w` releases
        have hfirst := hown.dispose hv (x := some .empty) rfl
        have hthen := hfirst.move (v := v) (w := w) (u := u) hne (by simp [holds_set]) (by
          simp [set, close?_vars, hw, Ne.symm hne])
        rw [resetVar, UniqueFd.reset, close?_set]
        convert hthen using 1
        simp [set, Function.update_comm hne]
    · cases hop
  | release v =>
    simp only [FdHeap.exec] at hop
    split at hop
    · rename_i u hv
      obtain rfl := Option.some.inj hop
      exact hown.released hv
    · cases hop
  | reset v fd =>
    simp only [FdHeap.exec] at hop
    split at hop
    · rename_i u hv
      split at hop
      · rename_i hgive
        obtain rfl := Option.some.inj hop
        -- the old descriptor is closed, and then the new one is taken
        have hfirst := hown.dispose hv (x := some .empty) rfl
        have hthen := hfirst.adopt (v := v) fd (by simp [holds_set]) (by
          rwa [MayGive, set, close?_raw])
        rw [resetVar, UniqueFd.reset, close?_give]
        rwa [give_set, set_set] at hthen
      · cases hop
    · cases hop
  | destroy v =>
    simp only [FdHeap.exec] at hop
    split at hop
    · rename_i u hv
      obtain rfl := Option.some.inj hop
      exact hown.dispose hv rfl
    · cases hop

/-- No variable is in scope; the open descriptors are with plain code. -/
def start (isOpen : Fd → Bool) : FdHeap V :=
  ⟨fun _ => none, isOpen, isOpen, fun fd => (isOpen fd).toNat, fun _ => 0, 0⟩

omit [DecidableEq V] in
theorem start_owned (isOpen : Fd → Bool) : (start isOpen : FdHeap V).Owned where
  isOpen fd := by
    refine ⟨fun h => ⟨none, h⟩, fun ⟨o, ho⟩ => ?_⟩
    cases o with
    | none => exact ho
    | some v => cases ho
  unique {fd o p} ho hp := by
    cases o with
    | some v => cases ho
    | none =>
      cases p with
      | none => rfl
      | some w => cases hp
  history fd := (Nat.zero_add _).symm
  clean := rfl

/-- The statements of a program, one after another. -/
def Exec (h : FdHeap V) (op : FdOp V) (h' : FdHeap V) : Prop := h.exec op = some h'

theorem run_owned {isOpen : Fd → Bool} {ops : List (FdOp V)} (hrun : Run Exec (start isOpen) ops h) : h.Owned :=
  Run.invariant (fun _ _ _ hown hop => hown.exec hop) (start_owned isOpen) hrun

end Exec

end FdHeap

/-- **No descriptor is leaked and none is closed twice.** Whatever `UniqueFd` variables a program has and
whatever it does with them (construct, move, self-move, release, reset, destroy, in any order), as long as
it only hands over descriptors that it has: every `close` hits an open descriptor, every open descriptor
has exactly one owner (one variable, or the code that was given it), what was opened is open or was closed
exactly once per opening, and once all variables are gone the open descriptors are those of the plain code. -/
theorem unique_fd_sound {V : Type} [DecidableEq V] {isOpen : Fd → Bool} {ops : List (FdOp V)} {h : FdHeap V}
    (hrun : Run FdHeap.Exec (FdHeap.start isOpen) ops h) :
    h.badCloses = 0 ∧ (∀ fd, h.isOpen fd = true → ∃! o, h.owns fd o) ∧
    (∀ v fd, h.holds v = some fd → h.isOpen fd = true) ∧
    (∀ fd, h.opened fd = h.closed fd + (h.isOpen fd).toNat) ∧
    ((∀ v, h.vars v = none) → ∀ fd, h.isOpen fd = h.raw fd) := by
  have hown := FdHeap.run_owned hrun
  refine ⟨hown.clean, fun fd hfd => ?_, fun v fd hv => (hown.isOpen fd).mpr ⟨some v, hv⟩, hown.history,
    fun hnone fd => ?_⟩
  · obtain ⟨o, ho⟩ := (hown.isOpen fd).mp hfd
    exact ⟨o, ho, fun p hp => hown.unique hp ho⟩
  · rw [Bool.eq_iff_iff, hown.isOpen fd]
    refine ⟨fun ⟨o, ho⟩ => ?_, fun hr => ⟨none, hr⟩⟩
    cases o with
    | none => exact ho
    | some v => simp [FdHeap.owns, FdHeap.holds, hnone v] at ho

/-- Two sockets: the second is moved over the first, which closes it, and then released. -/
theorem unique_fd_sound_moved : ∃ h : FdHeap Bool,
    Run FdHeap.Exec (FdHeap.start fun _ => false) [.sysOpen 5, .construct true 5, .sysOpen 6, .construct false 6,
      .moveAssign true true, .moveAssign true false, .release true, .destroy true, .destroy false] h ∧
    h.badCloses = 0 ∧ h.isOpen 5 = false ∧ ∃! o, h.owns 6 o := by
  have snoc : ∀ {ops : List (FdOp Bool)} {h h' : FdHeap Bool} (op : FdOp Bool),
      Run FdHeap.Exec (FdHeap.start fun _ => false) ops h → h.exec op = some h' →
      Run FdHeap.Exec (FdHeap.start fun _ => false) (ops ++ [op]) h' := fun _ hr hop => hr.snoc hop
  have hrun := snoc (.sysOpen 5) .nil rfl
  have hrun := snoc (.construct true 5) hrun rfl
  have hrun := snoc (.sysOpen 6) hrun rfl
  have hrun := snoc (.construct false 6) hrun rfl
  have hrun := snoc (.moveAssign true true) hrun rfl
  have hrun := snoc (.moveAssign true false) hrun rfl
  have hrun := snoc (.release true) hrun rfl
  have hrun := snoc (.destroy true) hrun rfl
  have hrun := snoc (.destroy false) hrun rfl
  have h := unique_fd_sound hrun
  exact ⟨_, hrun, h.1, rfl, h.2.1 6 rfl⟩

end FluxGate
