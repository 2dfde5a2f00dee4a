import Mathlib.Data.List.Basic

/-!
# Pipes

A pipe remembers everything pushed into it and everything popped from it;
what it holds is the difference. The balance is a field, so a pipe that
lost, duplicated or reordered an element cannot be built.
-/

namespace Lib

structure Pipe (α : Type) where
  pushed : List α
  popped : List α
  held : List α
  balance : pushed = popped ++ held

namespace Pipe

variable {α : Type}

def empty : Pipe α := ⟨[], [], [], rfl⟩

def push (p : Pipe α) (xs : List α) : Pipe α :=
  ⟨p.pushed ++ xs, p.popped, p.held ++ xs, by rw [p.balance, List.append_assoc]⟩

def pop (p : Pipe α) (n : Nat) : Pipe α :=
  ⟨p.pushed, p.popped ++ p.held.take n, p.held.drop n, by
    rw [p.balance, List.append_assoc, List.take_append_drop]⟩

@[simp] theorem push_held (p : Pipe α) (xs : List α) : (p.push xs).held = p.held ++ xs := rfl
@[simp] theorem push_pushed (p : Pipe α) (xs : List α) :
    (p.push xs).pushed = p.pushed ++ xs := rfl
@[simp] theorem push_popped (p : Pipe α) (xs : List α) : (p.push xs).popped = p.popped := rfl
@[simp] theorem pop_held (p : Pipe α) (n : Nat) : (p.pop n).held = p.held.drop n := rfl
@[simp] theorem pop_pushed (p : Pipe α) (n : Nat) : (p.pop n).pushed = p.pushed := rfl
@[simp] theorem pop_popped (p : Pipe α) (n : Nat) :
    (p.pop n).popped = p.popped ++ p.held.take n := rfl

/-- Two pipes in a row, both empty: what left the second is what entered
the first. -/
theorem chain_drained (p q : Pipe α) (hpq : p.popped = q.pushed) (hp : p.held = [])
    (hq : q.held = []) : q.popped = p.pushed := by
  rw [p.balance, hp, hpq, q.balance, hq, List.append_nil, List.append_nil]

end Pipe

end Lib
