import Mathlib.Algebra.BigOperators.Group.List.Basic
import Mathlib.Algebra.Ring.Int.Defs

/-!
# Runs in which one party is watched

`Watched mine other s moves t`: steps of one party and of the others lead from
`s` to `t`, and `moves` lists the party's own steps, each with the states
before and after it. `growth f moves` is what these steps alone add to a
quantity that the others may change as well: where each own step pays for it
with a quantity that the others leave alone, the growth is known at the end.
-/

namespace Lib

variable {σ : Type} {mine other : σ → σ → Prop} {s t : σ} {moves : List (σ × σ)}

inductive Watched (mine other : σ → σ → Prop) (s : σ) : List (σ × σ) → σ → Prop
  | start : Watched mine other s [] s
  | mine {moves : List (σ × σ)} {t u : σ} :
      Watched mine other s moves t → mine t u → Watched mine other s (moves ++ [(t, u)]) u
  | other {moves : List (σ × σ)} {t u : σ} :
      Watched mine other s moves t → other t u → Watched mine other s moves u

/-- What the own steps add to `f`. -/
def growth (f : σ → Nat) (moves : List (σ × σ)) : Int :=
  (moves.map fun m => (f m.2 : Int) - f m.1).sum

theorem growth_snoc (f : σ → Nat) (moves : List (σ × σ)) (t u : σ) :
    growth f (moves ++ [(t, u)]) = growth f moves + (f u - f t) := by
  simp [growth]

/-- A step keeps `I`, whoever makes it. -/
structure Keeps (mine other : σ → σ → Prop) (I : σ → Prop) : Prop where
  mine : ∀ t u, I t → mine t u → I u
  other : ∀ t u, I t → other t u → I u

namespace Watched

variable {I : σ → Prop}

theorem keeps (h : Watched mine other s moves t) (hI : Keeps mine other I) (hs : I s) : I t := by
  induction h with
  | start => exact hs
  | mine _ hstep ih => exact hI.mine _ _ ih hstep
  | other _ hstep ih => exact hI.other _ _ ih hstep

theorem forall_moves (h : Watched mine other s moves t) (hI : Keeps mine other I) (hs : I s)
    {P : σ × σ → Prop} (hmine : ∀ t u, I t → mine t u → P (t, u)) : ∀ m ∈ moves, P m := by
  induction h with
  | start => simp
  | mine h hstep ih =>
    intro m hm
    rw [List.mem_append, List.mem_singleton] at hm
    rcases hm with hm | rfl
    · exact ih m hm
    · exact hmine _ _ (h.keeps hI hs) hstep
  | other _ _ ih => exact ih

/-- **Accounting rule.** Every own step pays for what it adds to `f` from `pay`,
which the others leave alone, or lists it in `g`. -/
theorem growth_eq {β : Type} (h : Watched mine other s moves t) (hI : Keeps mine other I) (hs : I s)
    (f : σ → Nat) (pay : σ → Int) (g : σ × σ → List β) (p : β → Bool)
    (hmine : ∀ t u, I t → mine t u → (f u : Int) + pay u = f t + pay t + (g (t, u)).countP p)
    (hother : ∀ t u, I t → other t u → pay u = pay t) :
    growth f moves + pay t = pay s + (moves.flatMap g).countP p := by
  induction h with
  | start => simp [growth]
  | mine h hstep ih =>
    have hm := hmine _ _ (h.keeps hI hs) hstep
    rw [growth_snoc, List.flatMap_append, List.countP_append, List.flatMap_singleton]
    push_cast
    omega
  | other h hstep ih =>
    rw [hother _ _ (h.keeps hI hs) hstep]
    exact ih

/-- Every own step pays for all it adds to `f`. -/
theorem growth_eq_pay (h : Watched mine other s moves t) (hI : Keeps mine other I) (hs : I s)
    (f : σ → Nat) (pay : σ → Int)
    (hmine : ∀ t u, I t → mine t u → (f u : Int) + pay u = f t + pay t)
    (hother : ∀ t u, I t → other t u → pay u = pay t) : growth f moves + pay t = pay s := by
  have hg := h.growth_eq hI hs f pay (fun _ => ([] : List Unit)) (fun _ => true)
    (fun t u ht hstep => by simpa using hmine t u ht hstep) hother
  simpa using hg

/-- A bound on the number of own steps of a kind: each of them uses up some of `left`. -/
theorem length_flatMap_le {β : Type} (h : Watched mine other s moves t) (hI : Keeps mine other I) (hs : I s)
    (g : σ × σ → List β) (left : σ → Nat)
    (hmine : ∀ t u, I t → mine t u → (g (t, u)).length + left u ≤ left t)
    (hother : ∀ t u, I t → other t u → left u = left t) :
    (moves.flatMap g).length + left t ≤ left s := by
  induction h with
  | start => simp
  | mine h hstep ih =>
    have hm := hmine _ _ (h.keeps hI hs) hstep
    rw [List.flatMap_append, List.length_append, List.flatMap_singleton]
    omega
  | other h hstep ih =>
    rw [hother _ _ (h.keeps hI hs) hstep]
    exact ih

theorem mono {other' : σ → σ → Prop} (h : Watched mine other s moves t)
    (hother : ∀ t u, other t u → other' t u) : Watched mine other' s moves t := by
  induction h with
  | start => exact .start
  | mine _ hstep ih => exact ih.mine hstep
  | other _ hstep ih => exact ih.other (hother _ _ hstep)

/-- Nobody else moves: the quantity has grown by what the own steps add. -/
theorem growth_alone (h : Watched mine (fun _ _ => False) s moves t) (f : σ → Nat) :
    (f t : Int) = f s + growth f moves := by
  induction h with
  | start => simp [growth]
  | mine _ _ ih =>
    rw [growth_snoc]
    omega
  | other _ hstep => exact hstep.elim

end Watched

end Lib
