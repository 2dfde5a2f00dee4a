import Mathlib.Data.List.Basic
import Mathlib.Data.List.Forall2
import Mathlib.Data.List.Induction

/-!
# Runs of fallible writes

`l.foldlM f s` applies the writes of `l` one after the other, and fails at the
first that is refused. What such a run leaves in a field of the state is what
the last write to that field says, or what was there before.
-/

namespace Lib

variable {σ α β γ : Type}

/-- `b` is what the last element of `l` says of it, or `d` if there is none. -/
def Latest (P : α → β → Prop) (d : β) (l : List α) (b : β) : Prop :=
  match l.getLast? with
  | none => b = d
  | some a => P a b

section Latest

variable {P Q : α → β → Prop} {d b b' : β} {l l' : List α}

@[simp] theorem latest_nil : Latest P d [] b ↔ b = d := Iff.rfl

@[simp] theorem latest_append_singleton {a : α} : Latest P d (l ++ [a]) b ↔ P a b := by
  unfold Latest
  rw [List.getLast?_append, List.getLast?_singleton, Option.some_or]

theorem latest_singleton {a : α} : Latest P d [a] b ↔ P a b :=
  latest_append_singleton (l := [])

theorem Latest.append (h : Latest P d l b) (h' : Latest P b l' b') : Latest P d (l ++ l') b' := by
  induction l' using List.reverseRecOn with
  | nil =>
    rw [latest_nil] at h'
    rw [List.append_nil, h']
    exact h
  | append_singleton l' a ih =>
    rw [latest_append_singleton] at h'
    rw [← List.append_assoc, latest_append_singleton]
    exact h'

theorem Latest.unique (hP : ∀ a b b', P a b → P a b' → b = b') (h : Latest P d l b)
    (h' : Latest P d l b') : b = b' := by
  induction l using List.reverseRecOn with
  | nil =>
    rw [latest_nil] at h h'
    rw [h, h']
  | append_singleton l a ih =>
    rw [latest_append_singleton] at h h'
    exact hP a b b' h h'

theorem latest_congr (h : ∀ a ∈ l, P a b ↔ Q a b) : Latest P d l b ↔ Latest Q d l b := by
  induction l using List.reverseRecOn with
  | nil => rfl
  | append_singleton l a ih =>
    rw [latest_append_singleton, latest_append_singleton]
    exact h a (by simp)

end Latest

section Runs

variable {f : σ → α → Option σ} {I : σ → Prop} {l : List α} {s s' : σ}

theorem foldlM_inv (hinv : ∀ s a s', I s → f s a = some s' → I s') (hs : I s)
    (h : l.foldlM f s = some s') : I s' := by
  induction l generalizing s with
  | nil =>
    cases h
    exact hs
  | cons a l ih =>
    obtain ⟨s₁, h₁, h₂⟩ := Option.bind_eq_some_iff.mp h
    exact ih (hinv s a s₁ hs h₁) h₂

theorem foldlM_map {τ : Type} {g : τ → σ} {f' : τ → α → Option τ} {t : τ}
    (h : ∀ t a, f (g t) a = (f' t a).map g) : l.foldlM f (g t) = (l.foldlM f' t).map g := by
  induction l generalizing t with
  | nil => rfl
  | cons a l ih =>
    rw [List.foldlM_cons, List.foldlM_cons, h]
    cases f' t a with
    | none => rfl
    | some t' => exact ih

/-- A run succeeds when every write does, if that does not depend on the state. -/
theorem foldlM_isSome {ok : α → Prop} (hinv : ∀ s a s', I s → f s a = some s' → I s')
    (hok : ∀ s a, I s → ((∃ s', f s a = some s') ↔ ok a)) (hs : I s) :
    (∃ s', l.foldlM f s = some s') ↔ ∀ a ∈ l, ok a := by
  induction l generalizing s with
  | nil => exact ⟨fun _ a ha => absurd ha List.not_mem_nil, fun _ => ⟨s, rfl⟩⟩
  | cons a l ih =>
    constructor
    · rintro ⟨s', h⟩ b hb
      obtain ⟨s₁, h₁, h₂⟩ := Option.bind_eq_some_iff.mp h
      rcases List.mem_cons.mp hb with rfl | hb
      · exact (hok s b hs).mp ⟨s₁, h₁⟩
      · exact (ih (hinv s a s₁ hs h₁)).mp ⟨s', h₂⟩ b hb
    · intro h
      obtain ⟨s₁, h₁⟩ := (hok s a hs).mpr (h a List.mem_cons_self)
      obtain ⟨s', h₂⟩ := (ih (hinv s a s₁ hs h₁)).mpr fun b hb => h b (List.mem_cons_of_mem a hb)
      exact ⟨s', Option.bind_eq_some_iff.mpr ⟨s₁, h₁, h₂⟩⟩

/-- After a run a field holds what the last of all the values written to it says. -/
theorem foldlM_latest {g : σ → β} {w : α → List γ} {P : γ → β → Prop}
    (hinv : ∀ s a s', I s → f s a = some s' → I s')
    (hstep : ∀ s a s', I s → f s a = some s' → Latest P (g s) (w a) (g s'))
    (hs : I s) (h : l.foldlM f s = some s') : Latest P (g s) (l.flatMap w) (g s') := by
  induction l generalizing s with
  | nil =>
    cases h
    exact latest_nil.mpr rfl
  | cons a l ih =>
    obtain ⟨s₁, h₁, h₂⟩ := Option.bind_eq_some_iff.mp h
    exact (hstep s a s₁ hs h₁).append (ih (hinv s a s₁ hs h₁) h₂)

/-- A list field to which every write appends holds, after a run, all that was appended. -/
theorem foldlM_appends {g : σ → List β} {w : α → List γ} {R : γ → β → Prop}
    (hstep : ∀ s a s', f s a = some s' → ∃ bs, g s' = g s ++ bs ∧ List.Forall₂ R (w a) bs)
    (h : l.foldlM f s = some s') :
    ∃ bs, g s' = g s ++ bs ∧ List.Forall₂ R (l.flatMap w) bs := by
  induction l generalizing s with
  | nil =>
    cases h
    exact ⟨[], (List.append_nil _).symm, .nil⟩
  | cons a l ih =>
    obtain ⟨s₁, h₁, h₂⟩ := Option.bind_eq_some_iff.mp h
    obtain ⟨bs, hbs, hR⟩ := hstep s a s₁ h₁
    obtain ⟨bs', hbs', hR'⟩ := ih h₂
    refine ⟨bs ++ bs', ?_, List.rel_append hR hR'⟩
    rw [hbs', hbs, List.append_assoc]

end Runs

section Related

variable {R : α → β → Prop} {l : List α} {l' : List β}

theorem forall_mem_iff_of_forall₂ {P : α → Prop} {Q : β → Prop} (h : List.Forall₂ R l l')
    (hPQ : ∀ a b, R a b → (P a ↔ Q b)) : (∀ a ∈ l, P a) ↔ ∀ b ∈ l', Q b := by
  induction h with
  | nil => simp
  | cons hab _ ih => rw [List.forall_mem_cons, List.forall_mem_cons, hPQ _ _ hab, ih]

theorem exists_forall₂ (h : ∀ a ∈ l, ∃ b, R a b) : ∃ l', List.Forall₂ R l l' := by
  induction l with
  | nil => exact ⟨[], .nil⟩
  | cons a l ih =>
    obtain ⟨b, hb⟩ := h a List.mem_cons_self
    obtain ⟨l', hl'⟩ := ih fun a' ha' => h a' (List.mem_cons_of_mem a ha')
    exact ⟨b :: l', .cons hb hl'⟩

theorem pairwise_iff_of_forall₂ {S : α → α → Prop} {T : β → β → Prop} (h : List.Forall₂ R l l')
    (hST : ∀ a b a' b', R a b → R a' b' → (S a a' ↔ T b b')) : l.Pairwise S ↔ l'.Pairwise T := by
  induction h with
  | nil => simp
  | cons hab hrest ih =>
    rw [List.pairwise_cons, List.pairwise_cons, ih,
      forall_mem_iff_of_forall₂ hrest fun a' b' hab' => hST _ _ a' b' hab hab']

end Related

/-- Elements that give nothing may be left out. -/
theorem flatMap_filter_of_nil {l : List α} {p : α → Bool} {g : α → List β}
    (h : ∀ a ∈ l, p a = false → g a = []) : (l.filter p).flatMap g = l.flatMap g := by
  induction l with
  | nil => rfl
  | cons a l ih =>
    rw [List.flatMap_cons, ← ih fun b hb => h b (List.mem_cons_of_mem a hb)]
    cases hp : p a with
    | true => rw [List.filter_cons_of_pos hp, List.flatMap_cons]
    | false =>
      rw [List.filter_cons_of_neg (by simp [hp]), h a List.mem_cons_self hp, List.nil_append]

end Lib
