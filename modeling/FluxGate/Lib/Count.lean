import Mathlib.Algebra.BigOperators.Group.Finset.Piecewise
import Mathlib.Algebra.Order.BigOperators.Group.Finset

/-!
# Counting over a finite family

A family of holders, each of which accounts for a number of units: changing
one member changes the total by the difference of that member alone.
`countIn` is the case of optional contents: how many members hold `b`.
-/

namespace Lib

variable {ι β : Type}

theorem total_update [DecidableEq ι] {S : Finset ι} {a : ι} (ha : a ∈ S) (f : β → Nat) (g : ι → β)
    (v : β) :
    (∑ i ∈ S, f (Function.update g a v i)) + f (g a) = (∑ i ∈ S, f (g i)) + f v := by
  have hcomp : (fun i => f (Function.update g a v i)) = Function.update (f ∘ g) a (f v) :=
    Function.comp_update f g a v
  rw [hcomp, Finset.sum_update_of_mem ha,
    Finset.sum_eq_add_sum_sdiff_singleton_of_mem ha (fun i => f (g i))]
  simp only [Function.comp_apply]
  omega

/-- A family indexed by the numbers below `n` gets a new member. -/
theorem total_extend (f : β → Nat) (g : Nat → β) (n : Nat) (v : β) :
    (∑ i ∈ Finset.range (n + 1), f (Function.update g n v i)) =
      (∑ i ∈ Finset.range n, f (g i)) + f v := by
  rw [Finset.sum_range_succ, Function.update_self]
  congr 1
  apply Finset.sum_congr rfl
  intro i hi
  rw [Function.update_of_ne (Nat.ne_of_lt (Finset.mem_range.mp hi))]

theorem le_total {S : Finset ι} {a : ι} (ha : a ∈ S) (f : ι → Nat) : f a ≤ ∑ i ∈ S, f i :=
  Finset.single_le_sum (fun _ _ => Nat.zero_le _) ha

theorem pair_le_total {S : Finset ι} {a c : ι} (ha : a ∈ S) (hc : c ∈ S) (hne : a ≠ c) (f : ι → Nat) :
    f a + f c ≤ ∑ i ∈ S, f i :=
  Finset.add_le_sum (fun _ _ => Nat.zero_le _) ha hc hne

/-- Counting the members of a list by their key. -/
theorem sum_countP_fiber [DecidableEq ι] (S : Finset ι) (key : β → ι) (p : β → Bool) (l : List β) :
    ∑ k ∈ S, l.countP (fun a => key a == k && p a) = l.countP fun a => decide (key a ∈ S) && p a := by
  induction l with
  | nil => simp
  | cons a l ih =>
    have hone : ∑ k ∈ S, (if (key a == k && p a) = true then 1 else 0) =
        if (decide (key a ∈ S) && p a) = true then 1 else 0 := by
      cases p a <;> simp
    simp only [List.countP_cons]
    rw [Finset.sum_add_distrib, ih, hone]

/-- Something that happens again and again is counted as often as one likes. -/
theorem exists_lt_countP {p : β → Bool} {f : Nat → β} (h : ∀ i, ∃ j, i ≤ j ∧ p (f j) = true) (k : Nat) :
    ∃ m, k < ((List.range m).map f).countP p := by
  -- one more occurrence after the first `m`
  have hnext : ∀ m, ∃ m', ((List.range m).map f).countP p < ((List.range m').map f).countP p := by
    intro m
    obtain ⟨j, hj, hp⟩ := h m
    refine ⟨j + 1, ?_⟩
    have hle : ((List.range m).map f).countP p ≤ ((List.range j).map f).countP p :=
      ((List.range_sublist.mpr hj).map f).countP_le
    rw [List.range_succ, List.map_append, List.countP_append]
    simp only [List.map_cons, List.map_nil, List.countP_singleton, hp, ↓reduceIte]
    omega
  induction k with
  | zero =>
    obtain ⟨m', hm'⟩ := hnext 0
    exact ⟨m', Nat.lt_of_le_of_lt (Nat.zero_le _) hm'⟩
  | succ k ih =>
    obtain ⟨m, hm⟩ := ih
    obtain ⟨m', hm'⟩ := hnext m
    exact ⟨m', by omega⟩

/-- Members with a yield are no more than the whole yield. -/
theorem countP_le_length_flatMap {γ : Type} {p : β → Bool} {f : β → List γ} {l : List β}
    (h : ∀ a ∈ l, p a = true → f a ≠ []) : l.countP p ≤ (l.flatMap f).length := by
  induction l with
  | nil => simp
  | cons a l ih =>
    have hl := ih fun b hb => h b (List.mem_cons_of_mem a hb)
    rw [List.countP_cons, List.flatMap_cons, List.length_append]
    by_cases ha : p a = true
    · have hpos := List.length_pos_iff.mpr (h a List.mem_cons_self ha)
      rw [if_pos ha]
      omega
    · rw [if_neg ha]
      omega

variable [Fintype ι]

section CountIn

variable [DecidableEq β]

/-- One unit where the content is `b`. -/
def unit (b : β) (content : Option β) : Nat := if content = some b then 1 else 0

@[simp] theorem unit_none (b : β) : unit b none = 0 := rfl

theorem unit_self (b : β) : unit b (some b) = 1 := if_pos rfl

def countIn (g : ι → Option β) (b : β) : Nat := ∑ i, unit b (g i)

theorem countIn_update [DecidableEq ι] (g : ι → Option β) (a : ι) (v : Option β) (b : β) :
    countIn (Function.update g a v) b + unit b (g a) = countIn g b + unit b v :=
  total_update (Finset.mem_univ a) (unit b) g v

/-- Moving a content from one member to an empty one. -/
theorem countIn_move [DecidableEq ι] (g : ι → Option β) {a c : ι} (hne : c ≠ a) (hc : g c = none) (b : β) :
    countIn (Function.update (Function.update g a none) c (g a)) b = countIn g b := by
  have h1 := countIn_update (Function.update g a none) c (g a) b
  have h2 := countIn_update g a none b
  rw [Function.update_of_ne hne, hc] at h1
  simp only [unit_none] at h1 h2
  omega

theorem countIn_eq_zero {g : ι → Option β} (h : ∀ i, g i = none) (b : β) : countIn g b = 0 := by
  apply Finset.sum_eq_zero
  intro i _
  rw [h i, unit_none]

theorem countIn_pos {g : ι → Option β} {a : ι} {b : β} (h : g a = some b) : 0 < countIn g b := by
  have hle : unit b (g a) ≤ countIn g b := le_total (Finset.mem_univ a) (fun i => unit b (g i))
  rw [h, unit_self] at hle
  omega

end CountIn

end Lib
