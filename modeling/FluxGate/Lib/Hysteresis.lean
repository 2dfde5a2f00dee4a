import Mathlib.Data.List.Basic
import Mathlib.Data.List.Induction

/-!
# Hysteresis over a history

A history is a list of observations, oldest first. It is tripped when some
prefix ends with enough bad observations in a row and no longer prefix ends
with enough good ones. `tripped_snoc` is the same notion read one observation
at a time, and `tailRun` is the counter that decides it.
-/

namespace Lib

variable {α : Type}

/-- The history ends with `n` observations `v` in a row. -/
def EndsIn (n : Nat) (v : α) (h : List α) : Prop := List.replicate n v <:+ h

/-- Tripped by `F` bad observations in a row, not cleared since by `S` good ones. -/
def Tripped (bad good : α) (F S : Nat) (h : List α) : Prop :=
  ∃ pre, pre <+: h ∧ EndsIn F bad pre ∧
    ∀ longer, longer <+: h → pre.length < longer.length → ¬ EndsIn S good longer

/-- The length of the run of `v` that the history ends with. -/
def tailRun [DecidableEq α] (v : α) (h : List α) : Nat :=
  (h.reverse.takeWhile (fun x => decide (x = v))).length

section TailRun

variable [DecidableEq α] {v x : α} {h : List α}

@[simp] theorem tailRun_nil : tailRun v ([] : List α) = 0 := rfl

theorem tailRun_snoc_same : tailRun v (h ++ [v]) = tailRun v h + 1 := by
  simp [tailRun]

theorem tailRun_snoc_other (hx : x ≠ v) : tailRun v (h ++ [x]) = 0 := by
  simp [tailRun, hx]

theorem endsIn_iff_le_tailRun (n : Nat) : EndsIn n v h ↔ n ≤ tailRun v h := by
  induction h using List.reverseRecOn generalizing n with
  | nil =>
    cases n with
    | zero => simp [EndsIn]
    | succ n => simp [EndsIn, List.replicate_succ]
  | append_singleton h x ih =>
    cases n with
    | zero => simp [EndsIn]
    | succ n =>
      have hsplit : EndsIn (n + 1) v (h ++ [x]) ↔ v = x ∧ EndsIn n v h := by
        unfold EndsIn
        rw [List.replicate_succ']
        constructor
        · rintro ⟨t, ht⟩
          rw [← List.append_assoc] at ht
          obtain ⟨h1, h2⟩ := List.append_inj' ht rfl
          exact ⟨List.cons.inj h2 |>.1, t, h1⟩
        · rintro ⟨rfl, t, rfl⟩
          exact ⟨t, by simp⟩
      rw [hsplit, ih]
      by_cases hx : x = v
      · subst hx
        rw [tailRun_snoc_same]
        constructor
        · rintro ⟨-, hn⟩
          omega
        · intro hn
          exact ⟨rfl, by omega⟩
      · rw [tailRun_snoc_other hx]
        constructor
        · rintro ⟨hv, -⟩
          exact absurd hv.symm hx
        · intro hn
          omega

end TailRun

section Tripped

variable {bad good : α} {F S : Nat} {h : List α}

theorem tripped_snoc (x : α) : Tripped bad good F S (h ++ [x]) ↔
    EndsIn F bad (h ++ [x]) ∨ (Tripped bad good F S h ∧ ¬ EndsIn S good (h ++ [x])) := by
  constructor
  · rintro ⟨pre, hpre, hbad, hgood⟩
    rcases List.prefix_concat_iff.mp hpre with rfl | hpre'
    · exact Or.inl hbad
    · refine Or.inr ⟨⟨pre, hpre', hbad, fun longer hl => hgood longer (hl.trans (List.prefix_append _ _))⟩,
        hgood _ (List.prefix_refl _) ?_⟩
      have := hpre'.length_le
      simp only [List.length_append, List.length_singleton]
      omega
  · rintro (hbad | ⟨⟨pre, hpre, hbad, hgood⟩, hnot⟩)
    · refine ⟨h ++ [x], List.prefix_refl _, hbad, fun longer hl hlen => ?_⟩
      have := hl.length_le
      omega
    · refine ⟨pre, hpre.trans (List.prefix_append _ _), hbad, fun longer hl hlen => ?_⟩
      rcases List.prefix_concat_iff.mp hl with rfl | hl'
      · exact hnot
      · exact hgood longer hl' hlen

variable [DecidableEq α]

theorem not_tripped_nil (hF : 1 ≤ F) : ¬ Tripped bad good F S [] := by
  rintro ⟨pre, hpre, hbad, -⟩
  rw [List.prefix_nil.mp hpre, endsIn_iff_le_tailRun, tailRun_nil] at hbad
  omega

/-- A history that is not tripped does not end with `F` bad observations. -/
theorem tailRun_bad_lt (h' : ¬ Tripped bad good F S h) : tailRun bad h < F := by
  by_contra hle
  apply h'
  refine ⟨h, List.prefix_refl _, (endsIn_iff_le_tailRun F).mpr (by omega), fun longer hl hlen => ?_⟩
  have := hl.length_le
  omega

/-- A tripped history does not end with `S` good observations. -/
theorem tailRun_good_lt (hne : bad ≠ good) (hF : 1 ≤ F) (hS : 1 ≤ S)
    (h' : Tripped bad good F S h) : tailRun good h < S := by
  induction h using List.reverseRecOn with
  | nil => exact absurd h' (not_tripped_nil hF)
  | append_singleton h x _ =>
    rcases (tripped_snoc x).mp h' with hbad | ⟨-, hgood⟩
    · rw [endsIn_iff_le_tailRun] at hbad
      by_cases hx : x = bad
      · subst hx
        rw [tailRun_snoc_other hne]
        omega
      · rw [tailRun_snoc_other hx] at hbad
        omega
    · rw [endsIn_iff_le_tailRun] at hgood
      omega

end Tripped

end Lib
