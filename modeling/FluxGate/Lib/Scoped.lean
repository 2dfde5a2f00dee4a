import Mathlib.Logic.Basic

/-!
# Programs that throw, and objects with a scope

A program works on a state; it returns a value, throws, or does not come back
because an answer of its environment is still missing. `withObject` gives a
program a local object whose destructor runs on every way out of the scope.
The triples are total, with one postcondition for a return and one for an
exception.
-/

namespace Lib

/-- A program that returns, throws, or waits (`none`). -/
def Prog (σ ε α : Type) := σ → Option (Except ε α × σ)

namespace Prog

variable {σ ε α β γ : Type}

protected def pure (a : α) : Prog σ ε α := fun s => some (.ok a, s)

protected def bind (x : Prog σ ε α) (f : α → Prog σ ε β) : Prog σ ε β := fun s =>
  match x s with
  | some (.ok a, t) => f a t
  | some (.error e, t) => some (.error e, t)
  | none => none

instance : Monad (Prog σ ε) where
  pure := Prog.pure
  bind := Prog.bind

def throw (e : ε) : Prog σ ε α := fun s => some (.error e, s)

/-- `try { x } catch (e) { handler }`. -/
def tryCatch (x : Prog σ ε α) (handler : ε → Prog σ ε α) : Prog σ ε α := fun s =>
  match x s with
  | some (.error e, t) => handler e t
  | r => r

/-- The environment does not answer. -/
def waits : Prog σ ε α := fun _ => none

/-- A total step that does not throw. -/
def step (f : σ → α × σ) : Prog σ ε α := fun s => some (.ok (f s).1, (f s).2)

/-- A program that does not use the local object. -/
def outer (x : Prog σ ε α) : Prog (γ × σ) ε α := fun s =>
  (x s.2).map fun r => (r.1, (s.1, r.2))

/-- A step of the local object. -/
def object (f : γ → α × γ) : Prog (γ × σ) ε α := fun s =>
  some (.ok (f s.1).1, ((f s.1).2, s.2))

/-- A local object: its destructor runs when the scope is left, by a return or by an exception. -/
def withObject (destroy : γ → σ → σ) (g : γ) (body : Prog (γ × σ) ε α) : Prog σ ε α := fun s =>
  (body (g, s)).map fun r => (r.1, destroy r.2.1 r.2.2)

/-- What is done when a scope is left, by a return or by an exception. -/
def ensuring (x : Prog σ ε α) (leave : σ → σ) : Prog σ ε α := fun s =>
  (x s).map fun r => (r.1, leave r.2)

/-- Started in `P`, the program comes back; a return ends in `Q` and an exception in `E`. -/
def Spec (P : σ → Prop) (x : Prog σ ε α) (Q : α → σ → Prop) (E : ε → σ → Prop) : Prop :=
  ∀ s, P s → (∃ a t, x s = some (.ok a, t) ∧ Q a t) ∨ ∃ e t, x s = some (.error e, t) ∧ E e t

variable {P : σ → Prop} {x : Prog σ ε α} {Q : α → σ → Prop} {E : ε → σ → Prop}

theorem Spec.pure {a : α} (h : ∀ s, P s → Q a s) : Spec P (pure a : Prog σ ε α) Q E :=
  fun s hs => Or.inl ⟨a, s, rfl, h s hs⟩

theorem Spec.throw {e : ε} (h : ∀ s, P s → E e s) : Spec P (throw e : Prog σ ε α) Q E :=
  fun s hs => Or.inr ⟨e, s, rfl, h s hs⟩

theorem Spec.weaken {P' : σ → Prop} {Q' : α → σ → Prop} {E' : ε → σ → Prop} (h : Spec P x Q E)
    (hP : ∀ s, P' s → P s) (hQ : ∀ a s, Q a s → Q' a s) (hE : ∀ e s, E e s → E' e s) :
    Spec P' x Q' E' := by
  intro s hs
  rcases h s (hP s hs) with ⟨a, t, ha, hq⟩ | ⟨e, t, he, hexn⟩
  · exact Or.inl ⟨a, t, ha, hQ a t hq⟩
  · exact Or.inr ⟨e, t, he, hE e t hexn⟩

/-- A fact about the start that is not about the state. -/
theorem Spec.of_fact {φ : Prop} (h : φ → Spec P x Q E) : Spec (fun s => φ ∧ P s) x Q E :=
  fun s hs => h hs.1 s hs.2

theorem bind_ok {f : α → Prog σ ε β} {s t : σ} {a : α} (h : x s = some (.ok a, t)) : (x >>= f) s = f a t := by
  show Prog.bind x f s = f a t
  rw [Prog.bind, h]

theorem bind_error {f : α → Prog σ ε β} {s t : σ} {e : ε} (h : x s = some (.error e, t)) :
    (x >>= f) s = some (.error e, t) := by
  show Prog.bind x f s = _
  rw [Prog.bind, h]

theorem ok_of_bind {f : α → Prog σ ε β} {s u : σ} {b : β} (h : (x >>= f) s = some (.ok b, u)) :
    ∃ a t, x s = some (.ok a, t) ∧ f a t = some (.ok b, u) := by
  have h : Prog.bind x f s = some (.ok b, u) := h
  unfold Prog.bind at h
  split at h
  · exact ⟨_, _, by assumption, h⟩
  · cases h
  · cases h

/-- What has been done when a scope is entered does not matter to the scope. -/
theorem ensuring_bind_ok {f : α → Prog σ ε β} {leave : σ → σ} {s t : σ} {a : α} (h : x s = some (.ok a, t)) :
    ensuring (x >>= f) leave s = ensuring (f a) leave t := by
  rw [ensuring, bind_ok h, ensuring]

/-- A scope inside a scope: its end comes first. -/
theorem ensuring_ensuring (inner outer : σ → σ) :
    ensuring (ensuring x inner) outer = ensuring x fun s => outer (inner s) := by
  funext s
  rw [ensuring, ensuring, ensuring, Option.map_map]
  rfl

theorem Spec.bind {M : α → σ → Prop} {f : α → Prog σ ε β} {Q : β → σ → Prop} (hx : Spec P x M E)
    (hf : ∀ a, Spec (M a) (f a) Q E) : Spec P (x >>= f) Q E := by
  intro s hs
  rcases hx s hs with ⟨a, t, ha, hm⟩ | ⟨e, t, he, hexn⟩
  · rw [bind_ok ha]
    exact hf a t hm
  · rw [bind_error he]
    exact Or.inr ⟨e, t, rfl, hexn⟩

theorem Spec.tryCatch {F : ε → σ → Prop} {handler : ε → Prog σ ε α} (hx : Spec P x Q F)
    (hh : ∀ e, Spec (F e) (handler e) Q E) : Spec P (tryCatch x handler) Q E := by
  intro s hs
  unfold Prog.tryCatch
  rcases hx s hs with ⟨a, t, ha, hq⟩ | ⟨e, t, he, hexn⟩
  · rw [ha]
    exact Or.inl ⟨a, t, rfl, hq⟩
  · rw [he]
    exact hh e t hexn

theorem Spec.step {f : σ → α × σ} (h : ∀ s, P s → Q (f s).1 (f s).2) : Spec P (step f : Prog σ ε α) Q E :=
  fun s hs => Or.inl ⟨_, _, rfl, h s hs⟩

theorem Spec.object {P : γ × σ → Prop} {f : γ → α × γ} {Q : α → γ × σ → Prop} {E : ε → γ × σ → Prop}
    (h : ∀ g s, P (g, s) → Q (f g).1 ((f g).2, s)) : Spec P (object f : Prog (γ × σ) ε α) Q E :=
  fun s hs => Or.inl ⟨_, _, rfl, h s.1 s.2 hs⟩

theorem outer_ok {s t : σ} {a : α} (g : γ) (h : x s = some (.ok a, t)) :
    (outer x : Prog (γ × σ) ε α) (g, s) = some (.ok a, (g, t)) := by simp [outer, h]

theorem outer_error {s t : σ} {e : ε} (g : γ) (h : x s = some (.error e, t)) :
    (outer x : Prog (γ × σ) ε α) (g, s) = some (.error e, (g, t)) := by simp [outer, h]

/-- The frame rule for the local object: what does not use it leaves it as it is. -/
theorem Spec.outer {P : γ × σ → Prop} {Q : α → γ × σ → Prop} {E : ε → γ × σ → Prop}
    (h : ∀ g, Spec (fun s => P (g, s)) x (fun a s => Q a (g, s)) (fun e s => E e (g, s))) :
    Spec P (outer x : Prog (γ × σ) ε α) Q E := by
  rintro ⟨g, s⟩ hs
  rcases h g s hs with ⟨a, t, ha, hq⟩ | ⟨e, t, he, hexn⟩
  · exact Or.inl ⟨a, (g, t), outer_ok g ha, hq⟩
  · exact Or.inr ⟨e, (g, t), outer_error g he, hexn⟩

/-- The same for a local object whose value is known. -/
theorem Spec.keep {g : γ} (h : Spec P x Q E) :
    Spec (fun s => s.1 = g ∧ P s.2) (Prog.outer x : Prog (γ × σ) ε α) (fun a s => s.1 = g ∧ Q a s.2)
      (fun e s => s.1 = g ∧ E e s.2) := by
  refine .outer fun g' s hs => ?_
  rcases h s hs.2 with ⟨a, t, ha, hq⟩ | ⟨e, t, he, hexn⟩
  · exact Or.inl ⟨a, t, ha, hs.1, hq⟩
  · exact Or.inr ⟨e, t, he, hs.1, hexn⟩

/-- The rule of the destructor: it runs after a return and after an exception. -/
theorem Spec.withObject {destroy : γ → σ → σ} {g : γ} {body : Prog (γ × σ) ε α}
    (h : Spec (fun s => s.1 = g ∧ P s.2) body (fun a s => Q a (destroy s.1 s.2))
      (fun e s => E e (destroy s.1 s.2))) : Spec P (withObject destroy g body) Q E := by
  intro s hs
  rcases h (g, s) ⟨rfl, hs⟩ with ⟨a, t, ha, hq⟩ | ⟨e, t, he, hexn⟩
  · exact Or.inl ⟨a, _, by simp [Prog.withObject, ha], hq⟩
  · exact Or.inr ⟨e, _, by simp [Prog.withObject, he], hexn⟩

theorem Spec.ensuring {leave : σ → σ} (h : Spec P x (fun a s => Q a (leave s)) (fun e s => E e (leave s))) :
    Spec P (ensuring x leave) Q E := by
  intro s hs
  rcases h s hs with ⟨a, t, ha, hq⟩ | ⟨e, t, he, hexn⟩
  · exact Or.inl ⟨a, _, by simp [Prog.ensuring, ha], hq⟩
  · exact Or.inr ⟨e, _, by simp [Prog.ensuring, he], hexn⟩

/-- A condition is decided before the rest runs. -/
theorem Spec.ite {c : Prop} [Decidable c] {y : Prog σ ε α} (hx : c → Spec P x Q E)
    (hy : ¬ c → Spec P y Q E) : Spec P (if c then x else y) Q E := by
  split
  · exact hx ‹_›
  · exact hy ‹_›

end Prog

end Lib
