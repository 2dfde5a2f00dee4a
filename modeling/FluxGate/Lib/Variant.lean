import FluxGate.Lib.Run

/-!
# Variants: bounds on how long a run can go on

A variant is a natural number that the steps of interest lower and no other
step raises. It bounds how many of the steps of interest a run can contain.
-/

namespace Lib

variable {σ α : Type} {step : σ → α → σ → Prop} {I : σ → Prop} {μ : σ → Nat} {own : α → Bool}

/-- `own` steps lower `μ`, the other steps do not raise it, and all keep `I`. -/
structure Variant (step : σ → α → σ → Prop) (I : σ → Prop) (μ : σ → Nat) (own : α → Bool) : Prop where
  keep : ∀ s a t, I s → step s a t → I t
  lower : ∀ s a t, I s → step s a t → μ t + (own a).toNat ≤ μ s

theorem Variant.invariant (h : Variant step I μ own) {s t : σ} {as : List α} (hs : I s)
    (hrun : Run step s as t) : I t :=
  hrun.invariant h.keep hs

end Lib
