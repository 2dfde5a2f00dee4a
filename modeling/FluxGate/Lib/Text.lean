import Mathlib

/-!
# Cutting up lists of characters

`stripBy p` removes what satisfies `p` from both ends; `records sep` cuts a
list into the pieces ended by `sep` (a last piece may lack its end, and is
there only if it is not empty); `before p` cuts at the first element with `p`.
All for lists over any type.
-/

namespace Lib

variable {α : Type} {p : α → Bool}

/-- What can be computed of each element of a list. -/
theorem forall_mem_of_all {P : α → Prop} [DecidablePred P] {l : List α}
    (h : (l.all fun c => decide (P c)) = true) : ∀ c ∈ l, P c := by
  intro c hc
  exact of_decide_eq_true (List.all_eq_true.mp h c hc)

/-! ## Stripping -/

def stripBy (p : α → Bool) (l : List α) : List α := (l.dropWhile p).rdropWhile p

@[simp] theorem stripBy_nil : stripBy p [] = [] := rfl

theorem rdropWhile_append_of_all {a : List α} (h : ∀ c ∈ a, p c = true) (l : List α) :
    (l ++ a).rdropWhile p = l.rdropWhile p := by
  induction a using List.reverseRecOn with
  | nil => rw [List.append_nil]
  | append_singleton a c ih =>
    rw [← List.append_assoc, List.rdropWhile_concat_pos _ _ _ (h c (by simp))]
    exact ih fun d hd => h d (List.mem_append_left _ hd)

/-- Stripping from the left commutes with what is stripped from the right. -/
theorem stripBy_append_left {a : List α} (h : ∀ c ∈ a, p c = true) (l : List α) :
    stripBy p (a ++ l) = stripBy p l := by
  unfold stripBy
  rw [List.dropWhile_append_of_pos h]

theorem stripBy_append_right {a : List α} (h : ∀ c ∈ a, p c = true) (l : List α) :
    stripBy p (l ++ a) = stripBy p l := by
  unfold stripBy
  rw [List.dropWhile_append]
  split
  · rename_i hempty
    rw [List.isEmpty_iff.mp hempty]
    have hall : a.dropWhile p = [] := List.dropWhile_eq_nil_iff.mpr h
    rw [hall]
  · exact rdropWhile_append_of_all h _

theorem rdropWhile_append_cons (a b : List α) {c : α} (hc : p c = false) :
    (a ++ c :: b).rdropWhile p = a ++ c :: b.rdropWhile p := by
  induction b using List.reverseRecOn with
  | nil => exact List.rdropWhile_concat_neg p a c (by simp [hc])
  | append_singleton b d ih =>
    rw [← List.cons_append, ← List.append_assoc]
    by_cases hd : p d = true
    · rw [List.rdropWhile_concat_pos p _ d hd, List.rdropWhile_concat_pos p _ d hd, ih]
    · rw [List.rdropWhile_concat_neg p _ d hd, List.rdropWhile_concat_neg p _ d hd,
        List.append_assoc, List.cons_append]

/-- An element to keep separates what is stripped on its two sides. -/
theorem stripBy_append_cons (a b : List α) {c : α} (hc : p c = false) :
    stripBy p (a ++ c :: b) = a.dropWhile p ++ c :: b.rdropWhile p := by
  have hdrop : (a ++ c :: b).dropWhile p = a.dropWhile p ++ c :: b := by
    induction a with
    | nil => exact List.dropWhile_cons_of_neg (by simp [hc])
    | cons d a ih =>
      by_cases hd : p d = true
      · rw [List.cons_append, List.dropWhile_cons_of_pos hd, List.dropWhile_cons_of_pos hd, ih]
      · rw [List.cons_append, List.dropWhile_cons_of_neg hd, List.dropWhile_cons_of_neg hd,
          List.cons_append]
  unfold stripBy
  rw [hdrop, rdropWhile_append_cons _ _ hc]

theorem stripBy_dropWhile (l : List α) : stripBy p (l.dropWhile p) = stripBy p l := by
  unfold stripBy
  rw [List.dropWhile_idempotent]

theorem stripBy_rdropWhile (l : List α) : stripBy p (l.rdropWhile p) = stripBy p l := by
  conv_rhs => rw [← List.rdropWhile_append_rtakeWhile (p := p) (l := l)]
  exact (stripBy_append_right (fun c hc => List.mem_rtakeWhile_imp hc) _).symm

theorem stripBy_map {β : Type} {q : β → Bool} {f : α → β} (h : ∀ c, q (f c) = p c) (l : List α) :
    stripBy q (l.map f) = (stripBy p l).map f := by
  have hcomp : q ∘ f = p := funext h
  unfold stripBy List.rdropWhile
  rw [List.dropWhile_map, ← List.map_reverse, List.dropWhile_map, ← List.map_reverse, hcomp]

/-- What is left begins and ends with elements to keep. -/
structure Bare (p : α → Bool) (l : List α) : Prop where
  head : ∀ c, l.head? = some c → p c = false
  last : ∀ c, l.getLast? = some c → p c = false

theorem stripBy_of_bare {l : List α} (h : Bare p l) : stripBy p l = l := by
  have hdrop : l.dropWhile p = l := by
    cases l with
    | nil => rfl
    | cons c l => exact List.dropWhile_cons_of_neg (by simp [h.head c rfl])
  unfold stripBy
  rw [hdrop, List.rdropWhile_eq_self_iff]
  intro hne
  have hlast := h.last (l.getLast hne) (List.getLast?_eq_some_getLast hne)
  simp [hlast]

theorem bare_stripBy (l : List α) : Bare p (stripBy p l) where
  head c hc := by
    have hpre : stripBy p l <+: l.dropWhile p := List.rdropWhile_prefix p _
    have hhead : (l.dropWhile p).head? = some c := by
      obtain ⟨t, ht⟩ := hpre
      rw [← ht]
      cases hs : stripBy p l with
      | nil =>
        rw [hs] at hc
        cases hc
      | cons d s =>
        rw [hs] at hc
        exact hc
    have hnot := List.head?_dropWhile_not p l
    rw [hhead] at hnot
    simpa using hnot
  last c hc := by
    have hne : stripBy p l ≠ [] := by
      intro hnil
      rw [hnil] at hc
      cases hc
    have hlast := List.rdropWhile_last_not p (l.dropWhile p) hne
    rw [List.getLast?_eq_some_getLast hne, Option.some.injEq] at hc
    have hc' : ((l.dropWhile p).rdropWhile p).getLast hne = c := hc
    rw [hc'] at hlast
    simpa using hlast

/-! ## Cutting at the first element of a kind -/

/-- What stands before the first element with `p`. -/
def before (p : α → Bool) (l : List α) : List α := l.takeWhile (fun c => !p c)

theorem before_append_of_none {a : List α} (h : ∀ c ∈ a, p c = false) (l : List α) :
    before p (a ++ l) = a ++ before p l := by
  induction a with
  | nil => rfl
  | cons c a ih =>
    have hc : p c = false := h c List.mem_cons_self
    unfold before
    rw [List.cons_append, List.takeWhile_cons_of_pos (by simp [hc]), List.cons_append]
    exact congrArg (c :: ·) (ih fun d hd => h d (List.mem_cons_of_mem c hd))

theorem before_of_none {l : List α} (h : ∀ c ∈ l, p c = false) : before p l = l := by
  have := before_append_of_none h []
  rw [List.append_nil] at this
  simpa [before] using this

/-- An element with `p` ends the part before it, and nothing after it counts. -/
theorem before_append_cons (a l : List α) {c : α} (hc : p c = true) :
    before p (a ++ c :: l) = before p a := by
  induction a with
  | nil => simp [before, hc]
  | cons d a ih =>
    unfold before at ih ⊢
    rw [List.cons_append, List.takeWhile_cons, List.takeWhile_cons, ih]

/-- What has no `p` in it, put at the end, is cut off or left as it is. -/
theorem before_append_none (a : List α) {b : List α} (h : ∀ c ∈ b, p c = false) :
    before p (a ++ b) = before p a ∨ before p a = a ∧ before p (a ++ b) = a ++ b := by
  induction a with
  | nil => exact .inr ⟨rfl, before_of_none h⟩
  | cons c a ih =>
    unfold before at ih ⊢
    rw [List.cons_append, List.takeWhile_cons, List.takeWhile_cons]
    split
    · rcases ih with ih | ⟨ha, hab⟩
      · exact .inl (by rw [ih])
      · exact .inr ⟨by rw [ha], by rw [hab]⟩
    · exact .inl rfl

theorem before_map {β : Type} {q : β → Bool} {f : α → β} (h : ∀ c, q (f c) = p c) (l : List α) :
    before q (l.map f) = (before p l).map f := by
  have hcomp : (fun c => !q c) ∘ f = fun c => !p c := by
    funext c
    simp [h]
  unfold before
  rw [List.takeWhile_map, hcomp]

/-! ## Records -/

/-- The pieces of a list that `sep` ends. -/
def records [DecidableEq α] (sep : α) : List α → List (List α)
  | [] => []
  | c :: l =>
    if c = sep then [] :: records sep l
    else match records sep l with
      | [] => [[c]]
      | r :: rs => (c :: r) :: rs

variable [DecidableEq α] {sep : α}

theorem records_append_sep {r : List α} (h : sep ∉ r) (l : List α) :
    records sep (r ++ sep :: l) = r :: records sep l := by
  induction r with
  | nil => simp [records]
  | cons c r ih =>
    have hc : c ≠ sep := fun he => h (by simp [he])
    have hr : sep ∉ r := fun hm => h (List.mem_cons_of_mem c hm)
    rw [List.cons_append, records, if_neg hc, ih hr]

/-- Pieces without `sep`, each ended by it, are found again. -/
theorem records_flatMap {rs : List (List α)} (h : ∀ r ∈ rs, sep ∉ r) :
    records sep (rs.flatMap (· ++ [sep])) = rs := by
  induction rs with
  | nil => rfl
  | cons r rs ih =>
    rw [List.flatMap_cons, List.append_assoc, List.singleton_append,
      records_append_sep (h r List.mem_cons_self), ih fun s hs => h s (List.mem_cons_of_mem r hs)]

/-! ## Letter case -/

/-- Only letters change case. -/
theorem toLower_eq_iff {c d : Char} (hd : d.isAlpha = false) : c.toLower = d ↔ c = d := by
  have hnot : ∀ {c : Char}, c.isAlpha = false → c.toLower = c := fun h =>
    Char.toLower_eq_of_not_isUpper (by simp [(Bool.or_eq_false_iff.mp h).1])
  constructor
  · rintro rfl
    rw [Char.isAlpha_toLower_eq_isAlpha] at hd
    exact (hnot hd).symm
  · rintro rfl
    exact hnot hd

end Lib
