import Mathlib.Algebra.Group.Fin.Basic
import Mathlib.Algebra.Ring.Nat
import Mathlib.Data.List.Nodup
import Mathlib.Data.List.Perm.Subperm
import Mathlib.Order.Lattice

/-!
# The first minimum of a sequence, and turns around a circle

A loop that walks along a sequence and replaces the best candidate so far only
by a strictly better one ends with the first candidate of least score
(`FirstMin`); `Found` is its invariant, with one lemma for each way through the
loop's body.

`turn start k` is the `k`-th index met from `start` on in cyclic order. A full
turn meets every index once, and the first `ok` index met from each of `n`
consecutive starts is a given `ok` index once for itself and once for every
index of the gap before it (`countP_firstOk`).
-/

namespace Lib

/-! ## The first minimum -/

section FirstMin

variable {α β : Type} [LinearOrder β]

/-- `p` is the first of the positions below `N` that are `ok` and of least score. -/
structure FirstMin (f : Nat → α) (ok : α → Prop) (score : α → β) (N p : Nat) : Prop where
  lt : p < N
  isOk : ok (f p)
  least : ∀ q, q < N → ok (f q) → score (f p) ≤ score (f q)
  first : ∀ q, q < p → ok (f q) → score (f p) < score (f q)

/-- The best candidate after `N` positions. -/
def Found (f : Nat → α) (ok : α → Prop) (score : α → β) (N : Nat) : Option α → Prop
  | none => ∀ q, q < N → ¬ ok (f q)
  | some a => ∃ p, FirstMin f ok score N p ∧ f p = a

variable {f : Nat → α} {ok : α → Prop} {score : α → β} {N p q : Nat} {a : α}

theorem FirstMin.unique (hp : FirstMin f ok score N p) (hq : FirstMin f ok score N q) : p = q := by
  rcases Nat.lt_trichotomy p q with h | h | h
  · exact absurd (hq.first p h hp.isOk) (not_lt_of_ge (hp.least q hq.lt hq.isOk))
  · exact h
  · exact absurd (hp.first q h hq.isOk) (not_lt_of_ge (hq.least p hp.lt hp.isOk))

theorem found_zero : Found f ok score 0 none := fun q hq => absurd hq (Nat.not_lt_zero q)

/-- A position that is not a candidate. -/
theorem Found.skip {best : Option α} (h : Found f ok score N best) (hN : ¬ ok (f N)) :
    Found f ok score (N + 1) best := by
  have hlast : ∀ q, q < N + 1 → ok (f q) → q < N := by
    intro q hq hok
    rcases Nat.lt_succ_iff_lt_or_eq.mp hq with hlt | rfl
    · exact hlt
    · exact absurd hok hN
  cases best with
  | none => exact fun q hq hok => h q (hlast q hq hok) hok
  | some a =>
    obtain ⟨p, hp, hpa⟩ := h
    exact ⟨p, ⟨Nat.lt_succ_of_lt hp.lt, hp.isOk, fun q hq hok => hp.least q (hlast q hq hok) hok,
      hp.first⟩, hpa⟩

/-- The first candidate. -/
theorem Found.take (h : Found f ok score N none) (hN : ok (f N)) :
    Found f ok score (N + 1) (some (f N)) := by
  refine ⟨N, ⟨Nat.lt_succ_self N, hN, fun q hq hok => ?_, fun q hq hok => absurd hok (h q hq)⟩, rfl⟩
  rcases Nat.lt_succ_iff_lt_or_eq.mp hq with hlt | rfl
  · exact absurd hok (h q hlt)
  · exact le_refl _

/-- A strictly better candidate. -/
theorem Found.replace (h : Found f ok score N (some a)) (hN : ok (f N))
    (hlt : score (f N) < score a) : Found f ok score (N + 1) (some (f N)) := by
  obtain ⟨p, hp, rfl⟩ := h
  refine ⟨N, ⟨Nat.lt_succ_self N, hN, fun q hq hok => ?_,
    fun q hq hok => lt_of_lt_of_le hlt (hp.least q hq hok)⟩, rfl⟩
  rcases Nat.lt_succ_iff_lt_or_eq.mp hq with hlt' | rfl
  · exact le_of_lt (lt_of_lt_of_le hlt (hp.least q hlt' hok))
  · exact le_refl _

/-- A candidate that is not strictly better. -/
theorem Found.keep (h : Found f ok score N (some a)) (hge : score a ≤ score (f N)) :
    Found f ok score (N + 1) (some a) := by
  obtain ⟨p, hp, rfl⟩ := h
  refine ⟨p, ⟨Nat.lt_succ_of_lt hp.lt, hp.isOk, fun q hq hok => ?_, hp.first⟩, rfl⟩
  rcases Nat.lt_succ_iff_lt_or_eq.mp hq with hlt | rfl
  · exact hp.least q hlt hok
  · exact hge

theorem exists_found (f : Nat → α) (ok : α → Prop) (score : α → β) (N : Nat) :
    ∃ best, Found f ok score N best := by
  induction N with
  | zero => exact ⟨none, found_zero⟩
  | succ N ih =>
    obtain ⟨best, hbest⟩ := ih
    by_cases hN : ok (f N)
    · cases best with
      | none => exact ⟨_, hbest.take hN⟩
      | some a =>
        rcases lt_or_ge (score (f N)) (score a) with hlt | hge
        · exact ⟨_, hbest.replace hN hlt⟩
        · exact ⟨_, hbest.keep hge⟩
    · exact ⟨_, hbest.skip hN⟩

theorem exists_firstMin (hq : q < N) (hok : ok (f q)) : ∃ p, FirstMin f ok score N p := by
  obtain ⟨best, hbest⟩ := exists_found f ok score N
  cases best with
  | none => exact absurd hok (hbest q hq)
  | some a =>
    obtain ⟨p, hp, -⟩ := hbest
    exact ⟨p, hp⟩

end FirstMin

/-! ## Turns -/

section Turn

variable {n : Nat} [NeZero n]

def turn (n : Nat) [NeZero n] (start k : Nat) : Fin n := Fin.ofNat n (start + k)

theorem ofNat_add_ofNat (a b : Nat) : Fin.ofNat n a + Fin.ofNat n b = Fin.ofNat n (a + b) := by
  apply Fin.ext
  simp [Fin.val_add]

theorem ofNat_val (b : Fin n) : Fin.ofNat n b.val = b := Fin.ext (Nat.mod_eq_of_lt b.isLt)

theorem turn_eq (start k : Nat) : turn n start k = Fin.ofNat n start + Fin.ofNat n k :=
  (ofNat_add_ofNat start k).symm

/-- How many steps it is from `start` to `b`. -/
def steps (start : Nat) (b : Fin n) : Nat := (b - Fin.ofNat n start).val

theorem steps_lt (start : Nat) (b : Fin n) : steps start b < n := (b - Fin.ofNat n start).isLt

theorem turn_steps (start : Nat) (b : Fin n) : turn n start (steps start b) = b := by
  rw [turn_eq, steps, ofNat_val, add_sub_cancel]

/-- Every index is met once in a full turn. -/
theorem eq_steps {start k : Nat} {b : Fin n} (hk : k < n) (h : turn n start k = b) :
    k = steps start b := by
  have hval : (Fin.ofNat n k : Fin n).val = k := Nat.mod_eq_of_lt hk
  rw [steps, ← h, turn_eq, add_sub_cancel_left, hval]

theorem turn_injOn {start i j : Nat} (hi : i < n) (hj : j < n) (h : turn n start i = turn n start j) :
    i = j :=
  (eq_steps hi h).trans (eq_steps hj rfl).symm

/-- Going back from `b`. -/
theorem turn_back {start k i j : Nat} {b : Fin n} (h : turn n start k = b) (hk : j + i = k) :
    turn n start j = b - Fin.ofNat n i := by
  rw [← h, ← hk, turn_eq, turn_eq, ← ofNat_add_ofNat, ← add_assoc, add_sub_cancel_right]

@[simp] theorem ofNat_mod (start : Nat) : Fin.ofNat n (start % n) = Fin.ofNat n start :=
  Fin.ext (Nat.mod_mod start n)

@[simp] theorem turn_mod (start k : Nat) : turn n (start % n) k = turn n start k := by
  rw [turn_eq, turn_eq, ofNat_mod]

@[simp] theorem steps_mod (start : Nat) (b : Fin n) : steps (start % n) b = steps start b := by
  rw [steps, steps, ofNat_mod]

/-! ### The first index of least score -/

/-- `b` is, of the `ok` indices of least score, the one met first from `start` on. -/
structure Elected {β : Type} [LinearOrder β] (ok : Fin n → Prop) (score : Fin n → β) (start : Nat)
    (b : Fin n) : Prop where
  isOk : ok b
  least : ∀ c, ok c → score b ≤ score c
  first : ∀ c, ok c → score c ≤ score b → steps start b ≤ steps start c

/-- The minimum of a full turn. -/
theorem FirstMin.elected {β : Type} [LinearOrder β] {ok : Fin n → Prop} {score : Fin n → β}
    {start p : Nat} (h : FirstMin (turn n start) ok score n p) :
    Elected ok score start (turn n start p) where
  isOk := h.isOk
  least c hc := by
    have hle := h.least (steps start c) (steps_lt start c)
    rw [turn_steps] at hle
    exact hle hc
  first c hc hle := by
    rw [← eq_steps h.lt rfl]
    by_contra hlt
    have hgt := h.first (steps start c) (by omega)
    rw [turn_steps] at hgt
    exact absurd hle (not_le_of_gt (hgt hc))

theorem Elected.unique {β : Type} [LinearOrder β] {ok : Fin n → Prop} {score : Fin n → β}
    {start : Nat} {b c : Fin n} (hb : Elected ok score start b) (hc : Elected ok score start c) :
    b = c := by
  have hbc := hb.first c hc.isOk (hc.least b hb.isOk)
  have hcb := hc.first b hb.isOk (hb.least c hc.isOk)
  rw [← turn_steps start b, ← turn_steps start c, Nat.le_antisymm hbc hcb]

/-! ### The first `ok` index -/

/-- `b` is the first index from `start` on that is `ok`. -/
def FirstOk (ok : Fin n → Bool) (start : Nat) (b : Fin n) : Prop :=
  ok b = true ∧ ∀ j, j < steps start b → ok (turn n start j) = false

/-- It is the election in which all have the same score. -/
theorem firstOk_iff_elected {ok : Fin n → Bool} {start : Nat} {b : Fin n} :
    FirstOk ok start b ↔ Elected (fun b => ok b = true) (fun _ => 0) start b := by
  constructor
  · rintro ⟨hb, hnone⟩
    refine ⟨hb, fun _ _ => Nat.le_refl 0, fun c hc _ => ?_⟩
    by_contra hlt
    have hbefore := hnone (steps start c) (by omega)
    rw [turn_steps, hc] at hbefore
    cases hbefore
  · intro h
    refine ⟨h.isOk, fun j hj => ?_⟩
    by_contra hok
    have hle := h.first (turn n start j) (by simpa using hok) (Nat.le_refl 0)
    rw [← eq_steps (Nat.lt_trans hj (steps_lt start b)) rfl] at hle
    omega

/-- The number of indices immediately before `b`, in cyclic order, that are not `ok`. -/
def gap (ok : Fin n → Bool) (b : Fin n) : Nat :=
  ((List.range (n - 1)).map fun j => b - Fin.ofNat n (j + 1)).findIdx ok

theorem gap_lt (ok : Fin n → Bool) (b : Fin n) : gap ok b < n := by
  have hle : gap ok b ≤ ((List.range (n - 1)).map fun j => b - Fin.ofNat n (j + 1)).length :=
    List.findIdx_le_length
  rw [List.length_map, List.length_range] at hle
  have hpos := Nat.pos_of_ne_zero (NeZero.ne n)
  omega

theorem gap_eq_zero {ok : Fin n → Bool} (h : ∀ c, ok c = true) (b : Fin n) : gap ok b = 0 := by
  unfold gap
  cases n - 1 with
  | zero => rfl
  | succ m => simp [List.range_succ_eq_map, List.findIdx_cons, h]

theorem not_ok_of_lt_gap {ok : Fin n → Bool} {b : Fin n} {j : Nat} (hj : j < gap ok b) :
    ok (b - Fin.ofNat n (j + 1)) = false := by
  have h := List.not_of_lt_findIdx hj
  simpa using h

theorem ok_gap {ok : Fin n → Bool} {b : Fin n} (h : gap ok b < n - 1) :
    ok (b - Fin.ofNat n (gap ok b + 1)) = true := by
  have hlen : gap ok b < ((List.range (n - 1)).map fun j => b - Fin.ofNat n (j + 1)).length := by
    simpa using h
  have hget : ok (((List.range (n - 1)).map fun j => b - Fin.ofNat n (j + 1)).get
      ⟨gap ok b, hlen⟩) = true := List.findIdx_getElem
  simpa only [List.get_eq_getElem, List.getElem_map, List.getElem_range] using hget

/-- `b` is met first exactly from the starts in the gap before it, and from itself. -/
theorem firstOk_iff {ok : Fin n → Bool} {b : Fin n} (hb : ok b = true) (start : Nat) :
    FirstOk ok start b ↔ steps start b ≤ gap ok b := by
  have hlt := steps_lt start b
  have hback : ∀ i j, j + i = steps start b → turn n start j = b - Fin.ofNat n i :=
    fun i j h => turn_back (turn_steps start b) h
  constructor
  · rintro ⟨-, hnone⟩
    by_contra hgt
    have hok : ok (b - Fin.ofNat n (gap ok b + 1)) = true := ok_gap (by omega)
    rw [← hback (gap ok b + 1) (steps start b - (gap ok b + 1)) (by omega),
      hnone _ (by omega)] at hok
    cases hok
  · intro hle
    refine ⟨hb, fun j hj => ?_⟩
    rw [hback (steps start b - j - 1 + 1) j (by omega)]
    exact not_ok_of_lt_gap (by omega)

theorem countP_range_le {g m : Nat} (h : g < m) : (List.range m).countP (fun k => k ≤ g) = g + 1 := by
  induction m with
  | zero => omega
  | succ m ih =>
    rw [List.range_succ, List.countP_append, List.countP_singleton]
    by_cases hm : g < m
    · rw [ih hm, if_neg (by simpa using hm)]
    · have hg : g = m := by omega
      subst hg
      have hall : (List.range g).countP (fun k => k ≤ g) = g := by
        rw [List.countP_eq_length.mpr, List.length_range]
        intro k hk
        simpa using Nat.le_of_lt (List.mem_range.mp hk)
      simp [hall]

/-- The distances from `n` consecutive starts are the numbers below `n`. -/
theorem steps_perm (start : Nat) (b : Fin n) :
    ((List.range n).map fun i => steps (start + i) b).Perm (List.range n) := by
  have hinj : ∀ i ∈ List.range n, ∀ j ∈ List.range n, steps (start + i) b = steps (start + j) b →
      i = j := by
    intro i hi j hj h
    have hsame : Fin.ofNat n (start + i) = Fin.ofNat n (start + j) :=
      sub_right_injective (Fin.ext h)
    exact turn_injOn (List.mem_range.mp hi) (List.mem_range.mp hj) hsame
  have hnodup : ((List.range n).map fun i => steps (start + i) b).Nodup :=
    List.Nodup.map_on hinj List.nodup_range
  have hsub : ((List.range n).map fun i => steps (start + i) b) ⊆ List.range n := by
    intro k hk
    obtain ⟨i, -, rfl⟩ := List.mem_map.mp hk
    exact List.mem_range.mpr (steps_lt _ b)
  exact (hnodup.subperm hsub).perm_of_length_le (by simp)

/-- From `n` consecutive starts, `b` is met first `1 + gap` times. -/
theorem countP_firstOk {ok : Fin n → Bool} {b : Fin n} (hb : ok b = true) (start : Nat)
    {chosen : Nat → Bool} (hchosen : ∀ i, i < n → (chosen i = true ↔ FirstOk ok (start + i) b)) :
    (List.range n).countP chosen = 1 + gap ok b := by
  have hsame : (List.range n).countP chosen =
      (List.range n).countP ((fun k => decide (k ≤ gap ok b)) ∘ fun i => steps (start + i) b) := by
    refine List.countP_congr fun i hi => ?_
    rw [hchosen i (List.mem_range.mp hi), firstOk_iff hb]
    simp
  rw [hsame, ← List.countP_map, (steps_perm start b).countP_eq, countP_range_le (gap_lt ok b),
    Nat.add_comm]

end Turn

end Lib
