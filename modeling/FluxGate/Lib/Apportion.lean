import Mathlib.Algebra.BigOperators.Group.Finset.Basic
import Mathlib.Algebra.BigOperators.Ring.Finset
import Mathlib.Algebra.Order.BigOperators.Group.Finset
import Mathlib.Tactic.Ring

/-!
# Sharing by least score

Shares `a i` of holders with weights `w i` are compared by the score
`a i / w i`, without dividing: `a i * w j ≤ a j * w i`. If a unit always goes
to a holder of least score, no holder is ever more than one unit ahead of its
part (`Even`), and at every multiple of the total weight all parts are exact.
-/

namespace Lib

/-- Scores `a / u`, `b / v` and `c / w`: their comparison is transitive. -/
theorem score_le_trans {a b c u v w : Nat} (hv : 0 < v) (h₁ : a * v ≤ b * u) (h₂ : b * w ≤ c * v) :
    a * w ≤ c * u := by
  refine Nat.le_of_mul_le_mul_right ?_ hv
  calc a * w * v = a * v * w := by ring
    _ ≤ b * u * w := Nat.mul_le_mul_right w h₁
    _ = b * w * u := by ring
    _ ≤ c * v * u := Nat.mul_le_mul_right u h₂
    _ = c * u * v := by ring

section Shares

variable {ι : Type} {w a : ι → Nat}

/-- Without its last unit, no holder has a larger score than another. -/
def Even (w a : ι → Nat) : Prop := ∀ i j, 1 ≤ a i → (a i - 1) * w j ≤ a j * w i

theorem even_zero (h : ∀ i, a i = 0) : Even w a := by
  intro i j hi
  rw [h i] at hi
  omega

/-- A unit goes to a holder of least score. -/
theorem Even.give [DecidableEq ι] (h : Even w a) {i : ι} (hmin : ∀ j, a i * w j ≤ a j * w i) :
    Even w (Function.update a i (a i + 1)) := by
  have hle : ∀ j, a j ≤ Function.update a i (a i + 1) j := by
    intro j
    by_cases hj : j = i
    · subst hj
      rw [Function.update_self]
      omega
    · rw [Function.update_of_ne hj]
  intro j k hj
  by_cases hji : j = i
  · subst hji
    rw [Function.update_self, Nat.add_sub_cancel]
    exact Nat.le_trans (hmin k) (Nat.mul_le_mul_right _ (hle k))
  · rw [Function.update_of_ne hji] at hj ⊢
    exact Nat.le_trans (h j k hj) (Nat.mul_le_mul_right _ (hle k))

/-- A holder with more than its part leaves another with less. -/
theorem exists_short [Fintype ι] {k : Nat} (hsum : ∑ i, a i = k * ∑ i, w i) {i : ι}
    (hi : k * w i < a i) : ∃ j, a j < k * w j := by
  by_contra hnone
  push Not at hnone
  have hlt : ∑ j, k * w j < ∑ j, a j :=
    Finset.sum_lt_sum (fun j _ => hnone j) ⟨i, Finset.mem_univ i, hi⟩
  rw [hsum, Finset.mul_sum] at hlt
  exact absurd hlt (Nat.lt_irrefl _)

/-- Nobody has more than its part of a multiple of the total weight. -/
theorem Even.le_part [Fintype ι] (h : Even w a) (hw : ∀ i, 0 < w i) {k : Nat}
    (hsum : ∑ i, a i = k * ∑ i, w i) (i : ι) : a i ≤ k * w i := by
  by_contra hi
  obtain ⟨j, hj⟩ := exists_short hsum (Nat.lt_of_not_le hi)
  have heven : (a i - 1) * w j ≤ a j * w i := h i j (by omega)
  have hlow : k * w i * w j ≤ (a i - 1) * w j := Nat.mul_le_mul_right _ (by omega)
  have hhigh : a j * w i < k * w j * w i := Nat.mul_lt_mul_of_pos_right hj (hw i)
  have hcomm : k * w i * w j = k * w j * w i := by ring
  omega

/-- At a multiple of the total weight all parts are exact. -/
theorem Even.exact [Fintype ι] (h : Even w a) (hw : ∀ i, 0 < w i) {k : Nat}
    (hsum : ∑ i, a i = k * ∑ i, w i) (i : ι) : a i = k * w i := by
  have hle := h.le_part hw hsum
  have hall : ∑ j, a j = ∑ j, k * w j := by rw [hsum, Finset.mul_sum]
  exact (Finset.sum_eq_sum_iff_of_le (fun j _ => hle j)).mp hall i (Finset.mem_univ i)

end Shares

end Lib
