import Mathlib.Data.List.Basic
import Mathlib.Data.List.Induction

/-!
# Runs of labelled steps, and logs

`Run step s as t`: the labels `as`, in order, lead from `s` to `t`. The rule
`Run.invariant` turns what one step preserves into what every run preserves.
`Along ok log`: every entry of an append-only log was admissible given the
entries before it.
-/

namespace Lib

variable {σ α : Type}

/-- Runs, extended at the end so that the induction follows the last step. -/
inductive Run (step : σ → α → σ → Prop) (s : σ) : List α → σ → Prop
  | nil : Run step s [] s
  | snoc {as : List α} {t u : σ} {a : α} :
      Run step s as t → step t a u → Run step s (as ++ [a]) u

/-- **Invariant rule.** `I` is kept by every step whose label and source
state meet `ok`. -/
theorem Run.invariant {step : σ → α → σ → Prop} {I : σ → Prop} {s t : σ} {as : List α}
    (hstep : ∀ s a t, I s → step s a t → I t) (hs : I s) (h : Run step s as t) : I t := by
  induction h with
  | nil => exact hs
  | snoc _ ha ih => exact hstep _ _ _ ih ha

theorem Run.append {step : σ → α → σ → Prop} {s t u : σ} {as bs : List α} (h : Run step s as t)
    (h' : Run step t bs u) : Run step s (as ++ bs) u := by
  induction h' with
  | nil => simpa using h
  | snoc _ ha ih => simpa using ih.snoc ha

theorem Run.mono {step step' : σ → α → σ → Prop} {s t : σ} {as : List α}
    (hstep : ∀ s a t, step s a t → step' s a t) (h : Run step s as t) : Run step' s as t := by
  induction h with
  | nil => exact .nil
  | snoc _ ha ih => exact ih.snoc (hstep _ _ _ ha)

/-- Steps restricted to those whose source state and label meet `ok`. -/
def Guarded (ok : σ → α → Prop) (step : σ → α → σ → Prop) (s : σ) (a : α) (t : σ) : Prop :=
  ok s a ∧ step s a t

/-- Steps with a record of the run beside the state: `write` says what a step adds to it. -/
def Recording {β : Type} (step : σ → α → σ → Prop) (write : σ → α → σ → β → β → Prop) (x : β × σ)
    (a : α) (y : β × σ) : Prop :=
  step x.2 a y.2 ∧ write x.2 a y.2 x.1 y.1

/-- Every run can be recorded. -/
theorem Run.exists_recording {β : Type} {step : σ → α → σ → Prop}
    {write : σ → α → σ → β → β → Prop} {s t : σ} {as : List α}
    (hwrite : ∀ s a t b, step s a t → ∃ b', write s a t b b') (h : Run step s as t) (b : β) :
    ∃ b', Run (Recording step write) (b, s) as (b', t) := by
  induction h with
  | nil => exact ⟨b, .nil⟩
  | @snoc as t u a _ ha ih =>
    obtain ⟨b₁, hrun⟩ := ih
    obtain ⟨b₂, hb₂⟩ := hwrite t a u b₁ ha
    exact ⟨b₂, hrun.snoc ⟨ha, hb₂⟩⟩

/-- An executable step function, run on a list of labels. -/
theorem Run.of_steps {f : σ → α → Option σ} {s t : σ} {as : List α} (h : as.foldlM f s = some t) :
    Run (fun s a t => f s a = some t) s as t := by
  induction as using List.reverseRecOn generalizing t with
  | nil =>
    cases h
    exact .nil
  | append_singleton as a ih =>
    rw [List.foldlM_append] at h
    obtain ⟨u, hu, ha⟩ := Option.bind_eq_some_iff.mp h
    simp only [List.foldlM_cons, List.foldlM_nil, bind_pure] at ha
    exact (ih hu).snoc ha

/-- The same with a guard. -/
theorem Run.of_foldlM {ok : σ → α → Prop} [∀ s a, Decidable (ok s a)] {f : σ → α → Option σ}
    {s t : σ} {as : List α}
    (h : as.foldlM (fun s a => if ok s a then f s a else none) s = some t) :
    Run (Guarded ok (fun s a t => f s a = some t)) s as t := by
  refine (Run.of_steps h).mono fun s a t ha => ?_
  split at ha
  · rename_i hok
    exact ⟨hok, ha⟩
  · cases ha

/-- Every entry of the log is admissible after the entries before it. -/
def Along (ok : List α → α → Prop) (log : List α) : Prop :=
  ∀ pre c post, log = pre ++ c :: post → ok pre c

theorem along_nil (ok : List α → α → Prop) : Along ok [] := by
  intro pre c post h
  simp at h

theorem Along.append {ok : List α → α → Prop} {log calls : List α} (h : Along ok log)
    (hc : ∀ pre c post, calls = pre ++ c :: post → ok (log ++ pre) c) :
    Along ok (log ++ calls) := by
  intro pre c post he
  rcases List.append_eq_append_iff.mp he with ⟨mid, hpre, hcalls⟩ | ⟨mid, hlog, hrest⟩
  · rw [hpre]
    exact hc mid c post hcalls
  · cases mid with
    | nil =>
      rw [List.append_nil] at hlog
      rw [← hlog, ← List.append_nil log]
      exact hc [] c post hrest.symm
    | cons d mid =>
      obtain ⟨rfl, -⟩ := List.cons.inj hrest
      exact h pre c mid hlog

theorem Along.snoc {ok : List α → α → Prop} {log : List α} {c : α} (h : Along ok log)
    (hc : ok log c) : Along ok (log ++ [c]) := by
  apply h.append
  intro pre d post he
  rcases List.singleton_eq_append_iff.mp he with ⟨rfl, hd⟩ | ⟨-, hd⟩
  · obtain ⟨rfl, -⟩ := List.cons.inj hd
    simpa using hc
  · simp at hd

/-- An entry that never follows itself occurs at most once. -/
theorem count_le_one_of_fresh [DecidableEq α] {x : α} {log : List α}
    (h : ∀ pre post, log = pre ++ x :: post → x ∉ pre) : log.count x ≤ 1 := by
  induction log using List.reverseRecOn with
  | nil => simp
  | append_singleton log c ih =>
    rw [List.count_append, List.count_singleton]
    by_cases hc : c = x
    · subst hc
      have : log.count c = 0 := List.count_eq_zero.mpr (h log [] rfl)
      simp [this]
    · have hlog : log.count x ≤ 1 := ih (fun pre post he => h pre (post ++ [c]) (by simp [he]))
      simpa [hc] using hlog

end Lib
