import Mathlib.Data.List.Basic

/-!
# Phases: straight-line code with early returns

A phase transforms a state and says how control goes on: fall through to
the next phase, leave the enclosing function with a Boolean, or stop in the
middle because an answer of the environment is still missing. `Spec` is the
Hoare triple for phases; its postcondition sees the way control left, so one
rule (`Spec.andThen`) covers both the fall-through path and every exit.
-/

namespace Lib

/-- How control leaves a phase. -/
inductive Flow where
  | next
  | ret (result : Bool)
  | blocked
  deriving DecidableEq, Repr

abbrev Phase (σ : Type) := σ → Flow × σ

namespace Phase

variable {σ : Type}

/-- Run `q` after `p`, unless `p` has already left. -/
def andThen (p q : Phase σ) : Phase σ := fun s =>
  match p s with
  | (.next, t) => q t
  | r => r

/-- `p`, started in a state satisfying `P`, leaves in a state satisfying `Q`. -/
def Spec (P : σ → Prop) (p : Phase σ) (Q : Flow → σ → Prop) : Prop :=
  ∀ s, P s → Q (p s).1 (p s).2

/-- The postcondition of a first phase: `M` where control falls through and
`Q` at every exit. -/
def Mid (M : σ → Prop) (Q : Flow → σ → Prop) (f : Flow) (s : σ) : Prop :=
  (f = .next → M s) ∧ (f ≠ .next → Q f s)

theorem Spec.andThen {P M : σ → Prop} {p q : Phase σ} {Q : Flow → σ → Prop}
    (hp : Spec P p (Mid M Q)) (hq : Spec M q Q) : Spec P (p.andThen q) Q := by
  intro s hs
  obtain ⟨hnext, hexit⟩ := hp s hs
  unfold Phase.andThen
  cases h : p s with
  | mk f t =>
    rw [h] at hnext hexit
    cases f with
    | next => exact hq t (hnext rfl)
    | ret b => exact hexit (by simp)
    | blocked => exact hexit (by simp)

theorem andThen_assoc (p q r : Phase σ) : (p.andThen q).andThen r = p.andThen (q.andThen r) := by
  funext s
  unfold Phase.andThen
  cases h : p s with
  | mk f t => cases f <;> rfl

/-- How a sequence of two phases may have left. -/
theorem andThen_cases {p q : Phase σ} {s t : σ} {f : Flow} (h : (p.andThen q) s = (f, t)) :
    (∃ u, p s = (.next, u) ∧ q u = (f, t)) ∨ (f ≠ .next ∧ p s = (f, t)) := by
  unfold Phase.andThen at h
  cases hp : p s with
  | mk g u =>
    rw [hp] at h
    cases g with
    | next => exact Or.inl ⟨u, rfl, h⟩
    | ret b =>
      cases h
      exact Or.inr ⟨by simp, rfl⟩
    | blocked =>
      cases h
      exact Or.inr ⟨by simp, rfl⟩

theorem Spec.weaken {P P' : σ → Prop} {p : Phase σ} {Q Q' : Flow → σ → Prop}
    (h : Spec P p Q) (hP : ∀ s, P' s → P s) (hQ : ∀ f s, Q f s → Q' f s) : Spec P' p Q' :=
  fun s hs => hQ _ _ (h s (hP s hs))

/-- A phase that keeps `I` on every way out keeps it in front of `q`. -/
theorem Spec.keep {I : σ → Prop} {p q : Phase σ}
    (hp : Spec I p (fun _ => I)) (hq : Spec I q (fun _ => I)) :
    Spec I (p.andThen q) (fun _ => I) :=
  Spec.andThen (hp.weaken (fun _ h => h) (fun _ _ h => ⟨fun _ => h, fun _ => h⟩)) hq

end Phase

end Lib
