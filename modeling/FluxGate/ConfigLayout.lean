import FluxGate.ConfigSections
import Mathlib.Logic.Relation

/-!
# The layout of a configuration file does not matter

`Respelled` is what may be done to one line: space around it and around its
first `=`, a comment after it, the case of a key, of the words `server` and
`health_check`, and of the word `backend`. `Relaid` is what may be done to a
file: respell a line, insert or delete one that says nothing, move sections
past sections of another kind. A respelled line is the same item, and the
configuration depends on the order of sections of one kind only; so a file that
is accepted is accepted in every layout, as the same configuration.
-/

namespace FluxGate.ConfigLoader

open Lib Loader

/-- Space that does not end the line. -/
def Blanks (u : Text) : Prop := ∀ c ∈ u, isspace c = true ∧ c ≠ '\n'

inductive Respelled : Text → Text → Prop where
  | space {u u' v v' : Text} (line : Text) (hu : Blanks u) (hu' : Blanks u') (hv : Blanks v)
    (hv' : Blanks v') : Respelled (u ++ line ++ v) (u' ++ line ++ v')
  | comment {c : Char} {t : Text} (line : Text) (hc : c = '#' ∨ c = ';') (ht : '\n' ∉ t) :
    Respelled line (line ++ c :: t)
  /-- space around the `=` of an assignment `x = y` -/
  | separator {u u' v v' x : Text} (y : Text) (hu : Blanks u) (hu' : Blanks u') (hv : Blanks v)
    (hv' : Blanks v') (hx : ∀ c ∈ x, c ≠ '=' ∧ c ≠ '#' ∧ c ≠ ';')
    (hheader : isHeader (clean (x ++ u ++ '=' :: (v ++ y))) = false) :
    Respelled (x ++ u ++ '=' :: (v ++ y)) (x ++ u' ++ '=' :: (v' ++ y))
  | key {x x' : Text} (y : Text) (hx : ∀ c ∈ x, c ≠ '=' ∧ c ≠ '#' ∧ c ≠ ';')
    (hcase : lower x' = lower x) (hheader : isHeader (clean (x ++ '=' :: y)) = false) :
    Respelled (x ++ '=' :: y) (x' ++ '=' :: y)
  | header {line line' : Text} {kind : Kind} (hkind : kind = .server ∨ kind = .healthCheck)
    (hline : itemOf line = some (.header kind)) (hcase : lower line' = lower line) :
    Respelled line line'
  | backendWord {s t word word' : Text} (r : Text) (hs : Blanks s) (ht : Blanks t)
    (hword : lower word = "backend".toList) (hword' : lower word' = "backend".toList)
    (hheader : isHeader (clean (s ++ '[' :: (t ++ (word ++ ' ' :: r)))) = true) :
    Respelled (s ++ '[' :: (t ++ (word ++ ' ' :: r))) (s ++ '[' :: (t ++ (word' ++ ' ' :: r)))

/-! ## A respelled line is the same item -/

theorem isComment_iff {c : Char} : isComment c = true ↔ c = '#' ∨ c = ';' := by simp [isComment]

theorem isComment_of_ne {x : Text} (hx : ∀ c ∈ x, c ≠ '=' ∧ c ≠ '#' ∧ c ≠ ';') :
    ∀ c ∈ x, c ≠ '=' ∧ isComment c = false := by
  intro c hc
  refine ⟨(hx c hc).1, ?_⟩
  rw [← Bool.not_eq_true, isComment_iff, not_or]
  exact (hx c hc).2

theorem isComment_of_isspace {c : Char} (h : isspace c = true) : isComment c = false := by
  simp only [isspace, Bool.or_eq_true, decide_eq_true_eq] at h
  rcases h with ((((rfl | rfl) | rfl) | rfl) | rfl) | rfl <;> rfl

theorem Blanks.isspace {u : Text} (h : Blanks u) : ∀ c ∈ u, isspace c = true := fun c hc => (h c hc).1

theorem Blanks.isComment {u : Text} (h : Blanks u) : ∀ c ∈ u, isComment c = false := fun c hc =>
  isComment_of_isspace (h c hc).1

theorem itemOf_congr {line line' : Text} (h : clean line = clean line') :
    itemOf line = itemOf line' := by
  unfold itemOf
  rw [h]

theorem clean_space {u v : Text} (line : Text) (hu : Blanks u) (hv : Blanks v) :
    clean (u ++ line ++ v) = clean line := by
  unfold clean trim
  rw [List.append_assoc, before_append_of_none hu.isComment, stripBy_append_left hu.isspace]
  rcases before_append_none line hv.isComment with h | ⟨hline, happend⟩
  · rw [h]
  · rw [happend, hline, stripBy_append_right hv.isspace]

theorem clean_comment {c : Char} (hc : isComment c = true) (line t : Text) :
    clean (line ++ c :: t) = clean line := by
  unfold clean
  rw [before_append_cons line t hc]

/-- The parts of a line on the two sides of its first `=`. -/
theorem clean_separator {x y : Text} (hx : ∀ c ∈ x, c ≠ '=' ∧ isComment c = false) :
    clean (x ++ '=' :: y) =
      x.dropWhile isspace ++ '=' :: (before isComment y).rdropWhile isspace := by
  have hsep : before isComment ('=' :: y) = '=' :: before isComment y :=
    before_append_of_none (a := ['=']) (forall_mem_of_all (by decide)) y
  unfold clean trim
  rw [before_append_of_none (fun c hc => (hx c hc).2), hsep, stripBy_append_cons _ _ rfl]

theorem isHeader_separator (a b : Text) : isHeader (a ++ '=' :: b) =
    (a.head? = some '[' && b.getLast? = some ']') := by
  have hhead : (a ++ '=' :: b).head? = some '[' ↔ a.head? = some '[' := by
    cases a <;> simp
  have hlast : (a ++ '=' :: b).getLast? = some ']' ↔ b.getLast? = some ']' := by
    cases b using List.reverseRecOn with
    | nil => simp
    | append_singleton b c _ =>
      rw [← List.cons_append, ← List.append_assoc, List.getLast?_concat, List.getLast?_concat]
  unfold isHeader
  rw [decide_eq_decide.mpr hhead, decide_eq_decide.mpr hlast]

/-- An assignment, from the two sides of its first `=`. -/
theorem itemOf_separator {x y : Text} (hx : ∀ c ∈ x, c ≠ '=' ∧ isComment c = false)
    (hheader : isHeader (clean (x ++ '=' :: y)) = false) :
    itemOf (x ++ '=' :: y) =
      if trim x ≠ [] ∧ trim (before isComment y) ≠ [] then
        some (.assignment (lower (trim x)) (trim (before isComment y))) else none := by
  have hclean := clean_separator (y := y) hx
  have hmem : '=' ∉ x.dropWhile isspace := fun h =>
    (hx _ ((List.dropWhile_suffix isspace).mem h)).1 rfl
  rw [hclean] at hheader
  have hkey : trim (x.dropWhile isspace) = trim x := stripBy_dropWhile x
  have hvalue : trim ((before isComment y).rdropWhile isspace) = trim (before isComment y) :=
    stripBy_rdropWhile _
  rw [itemOf_assignment hclean hmem hheader, hkey, hvalue]

theorem head?_dropWhile_append {x u : Text} (hu : Blanks u) :
    ((x ++ u).dropWhile isspace).head? = (x.dropWhile isspace).head? := by
  rw [List.dropWhile_append]
  split
  · rename_i hempty
    rw [List.isEmpty_iff.mp hempty, List.dropWhile_eq_nil_iff.mpr hu.isspace]
  · rename_i hne
    cases h : x.dropWhile isspace with
    | nil => simp [h] at hne
    | cons c l => rfl

theorem getLast?_rdropWhile_append {v y : Text} (hv : Blanks v) :
    ((v ++ y).rdropWhile isspace).getLast? = (y.rdropWhile isspace).getLast? := by
  unfold List.rdropWhile
  rw [List.getLast?_reverse, List.getLast?_reverse, List.reverse_append]
  exact head?_dropWhile_append fun c hc => hv c (List.mem_reverse.mp hc)

theorem forall_mem_append_blanks {x u : Text} (hu : Blanks u)
    (hx : ∀ c ∈ x, c ≠ '=' ∧ isComment c = false) :
    ∀ c ∈ x ++ u, c ≠ '=' ∧ isComment c = false := by
  intro c hc
  rcases List.mem_append.mp hc with hc | hc
  · exact hx c hc
  · refine ⟨?_, hu.isComment c hc⟩
    rintro rfl
    cases hu.isspace _ hc

section Separator

variable {u v x : Text} (hu : Blanks u) (hv : Blanks v)
  (hx : ∀ c ∈ x, c ≠ '=' ∧ isComment c = false)
include hu hv hx

theorem isHeader_spaced (y : Text) : isHeader (clean (x ++ u ++ '=' :: (v ++ y))) =
    ((x.dropWhile isspace).head? = some '[' &&
      ((before isComment y).rdropWhile isspace).getLast? = some ']') := by
  rw [clean_separator (forall_mem_append_blanks hu hx), isHeader_separator,
    head?_dropWhile_append hu, before_append_of_none hv.isComment, getLast?_rdropWhile_append hv]

theorem itemOf_spaced {y : Text}
    (hheader : isHeader (clean (x ++ u ++ '=' :: (v ++ y))) = false) :
    itemOf (x ++ u ++ '=' :: (v ++ y)) =
      if trim x ≠ [] ∧ trim (before isComment y) ≠ [] then
        some (.assignment (lower (trim x)) (trim (before isComment y))) else none := by
  have hkey : trim (x ++ u) = trim x := stripBy_append_right hu.isspace x
  have hvalue : trim (before isComment (v ++ y)) = trim (before isComment y) := by
    rw [before_append_of_none hv.isComment]
    exact stripBy_append_left hv.isspace _
  rw [itemOf_separator (forall_mem_append_blanks hu hx) hheader, hkey, hvalue]

end Separator

/-! ### Letter case -/

theorem isspace_toLower (c : Char) : isspace c.toLower = isspace c := by
  have h : ∀ d : Char, d.isAlpha = false → decide (c.toLower = d) = decide (c = d) :=
    fun d hd => decide_eq_decide.mpr (toLower_eq_iff hd)
  unfold isspace
  rw [h ' ' rfl, h '\t' rfl, h '\n' rfl, h '\x0b' rfl, h '\x0c' rfl, h '\r' rfl]

theorem isComment_toLower (c : Char) : isComment c.toLower = isComment c := by
  have h : ∀ d : Char, d.isAlpha = false → decide (c.toLower = d) = decide (c = d) :=
    fun d hd => decide_eq_decide.mpr (toLower_eq_iff hd)
  unfold isComment
  rw [h '#' rfl, h ';' rfl]

theorem lower_eq_nil {t : Text} : lower t = [] ↔ t = [] := List.map_eq_nil_iff

theorem trim_lower (t : Text) : trim (lower t) = lower (trim t) := stripBy_map isspace_toLower t

theorem clean_lower (line : Text) : clean (lower line) = lower (clean line) := by
  unfold clean
  rw [lower, before_map isComment_toLower]
  exact trim_lower _

theorem isHeader_lower (line : Text) : isHeader (lower line) = isHeader line := by
  have h : ∀ (o : Option Char) (d : Char), d.isAlpha = false →
      (o.map Char.toLower = some d ↔ o = some d) := by
    intro o d hd
    cases o with
    | none => simp
    | some c => rw [Option.map_some, Option.some_inj, Option.some_inj, toLower_eq_iff hd]
  unfold isHeader lower
  rw [List.head?_map, List.getLast?_map, decide_eq_decide.mpr (h _ '[' rfl),
    decide_eq_decide.mpr (h _ ']' rfl)]

theorem inside_lower (line : Text) : inside (lower line) = lower (inside line) := by
  unfold inside
  rw [lower, List.length_map, ← List.map_drop, ← List.map_take]
  exact trim_lower _

/-- What is true of a character in either case is true of all characters of a respelled text. -/
theorem forall_mem_of_lower_eq {x x' : Text} {P : Char → Prop} (hP : ∀ c, P c.toLower ↔ P c)
    (hcase : lower x' = lower x) (h : ∀ c ∈ x, P c) : ∀ c ∈ x', P c := by
  intro c hc
  have hmem : c.toLower ∈ lower x := by
    rw [← hcase]
    exact List.mem_map_of_mem hc
  obtain ⟨d, hd, heq⟩ := List.mem_map.mp hmem
  rw [← hP c, ← heq, hP d]
  exact h d hd

theorem itemOf_key {x x' y : Text} (hx : ∀ c ∈ x, c ≠ '=' ∧ isComment c = false)
    (hcase : lower x' = lower x) (hheader : isHeader (clean (x ++ '=' :: y)) = false) :
    itemOf (x ++ '=' :: y) = itemOf (x' ++ '=' :: y) := by
  have hx' : ∀ c ∈ x', c ≠ '=' ∧ isComment c = false := by
    refine forall_mem_of_lower_eq (fun c => ?_) hcase hx
    rw [isComment_toLower, Ne, toLower_eq_iff rfl]
  have hheader' : isHeader (clean (x' ++ '=' :: y)) = false := by
    have hlower : ∀ x : Text, lower (x ++ '=' :: y) = lower x ++ lower ('=' :: y) :=
      fun x => List.map_append
    rw [← isHeader_lower, ← clean_lower, hlower, hcase, ← hlower, clean_lower, isHeader_lower]
    exact hheader
  have htrim : lower (trim x') = lower (trim x) := by
    rw [← trim_lower, ← trim_lower, hcase]
  have hnil : trim x' = [] ↔ trim x = [] := by
    rw [← lower_eq_nil, htrim, lower_eq_nil]
  rw [itemOf_separator hx hheader, itemOf_separator hx' hheader', htrim]
  simp only [ne_eq, hnil]

theorem itemOf_scalarHeader {line line' : Text} {kind : Kind}
    (hkind : kind = .server ∨ kind = .healthCheck) (hline : itemOf line = some (.header kind))
    (hcase : lower line' = lower line) : itemOf line' = some (.header kind) := by
  have hclean : lower (clean line') = lower (clean line) := by
    rw [← clean_lower, ← clean_lower, hcase]
  have hheader : isHeader (clean line') = isHeader (clean line) := by
    rw [← isHeader_lower, hclean, isHeader_lower]
  have hinside : lower (inside (clean line')) = lower (inside (clean line)) := by
    rw [← inside_lower, ← inside_lower, hclean]
  rw [itemOf_eq_header] at hline ⊢
  rw [hheader]
  exact ⟨hline.1, kindOf_scalar hkind hline.2 hinside⟩

/-! ### The word `backend` -/

section BackendWord

variable {word : Text}

theorem length_of_lower_eq (h : lower word = "backend".toList) : word.length = 7 := by
  rw [← List.length_map (f := Char.toLower)]
  exact congrArg List.length h

theorem drop_backend (h : lower word = "backend".toList) (r : Text) :
    (word ++ r).drop 8 = r.drop 1 := by
  have hlength := length_of_lower_eq h
  rw [List.drop_append, List.drop_eq_nil_of_le (by omega), hlength, List.nil_append]

/-- The word is letters: it is neither stripped nor cut. -/
theorem backend_ordinary (h : lower word = "backend".toList) :
    ∀ c ∈ word, isspace c = false ∧ isComment c = false ∧ c ≠ ']' := by
  refine forall_mem_of_lower_eq (x := "backend".toList) (fun c => ?_) (h.trans (by decide))
    (forall_mem_of_all (by decide))
  rw [isspace_toLower, isComment_toLower, Ne, toLower_eq_iff rfl]

theorem backend_split (h : lower word = "backend".toList) :
    ∃ w d, word = w ++ [d] ∧ w ≠ [] := by
  have hlength := length_of_lower_eq h
  cases word using List.reverseRecOn with
  | nil => cases hlength
  | append_singleton w d _ =>
    refine ⟨w, d, rfl, ?_⟩
    rintro rfl
    cases hlength

/-- Space on the left of the word goes, and the rest is stripped on the right only. -/
theorem trim_backend (h : lower word = "backend".toList) {t : Text} (ht : Blanks t) (r : Text) :
    trim (t ++ (word ++ r)) = word ++ r.rdropWhile isspace := by
  have hord := backend_ordinary h
  obtain ⟨w, d, rfl, hw⟩ := backend_split h
  obtain ⟨c, w, rfl⟩ := List.exists_cons_of_ne_nil hw
  have hc : isspace c = false := (hord c (by simp)).1
  have hd : isspace d = false := (hord d (by simp)).1
  unfold trim
  rw [stripBy_append_left ht.isspace, List.append_assoc, List.singleton_append,
    stripBy_append_cons _ _ hd, List.dropWhile_cons_of_neg (by simp [hc]), List.append_assoc,
    List.singleton_append]

theorem clean_backend (h : lower word = "backend".toList) {s t : Text} (hs : Blanks s)
    (ht : Blanks t) (r : Text) : clean (s ++ '[' :: (t ++ (word ++ r))) =
      '[' :: (t ++ (word ++ (before isComment r).rdropWhile isspace)) := by
  have hord := backend_ordinary h
  have hbefore : before isComment (s ++ '[' :: (t ++ (word ++ r))) =
      s ++ '[' :: (t ++ (word ++ before isComment r)) := by
    rw [before_append_of_none hs.isComment, ← List.singleton_append,
      before_append_of_none (a := ['[']) (forall_mem_of_all (by decide)), before_append_of_none ht.isComment,
      before_append_of_none fun c hc => (hord c hc).2.1]
    rfl
  obtain ⟨w, d, rfl, hw⟩ := backend_split h
  have hd : isspace d = false := (hord d (by simp)).1
  unfold clean trim
  rw [hbefore, stripBy_append_left hs.isspace]
  have hassoc : ∀ r : Text, '[' :: (t ++ (w ++ [d] ++ r)) = ('[' :: (t ++ w)) ++ d :: r := by
    intro r
    simp
  rw [hassoc, hassoc, stripBy_append_cons _ _ hd, List.dropWhile_cons_of_neg (by decide)]

theorem itemOf_backendWord (h : lower word = "backend".toList) {s t : Text} (hs : Blanks s)
    (ht : Blanks t) {r q : Text} (hr : (before isComment r).rdropWhile isspace = q ++ [']']) :
    itemOf (s ++ '[' :: (t ++ (word ++ r))) =
      (kindOf (word ++ q.rdropWhile isspace)).map .header := by
  have hclean : clean (s ++ '[' :: (t ++ (word ++ r))) = '[' :: ((t ++ (word ++ q)) ++ [']']) := by
    rw [clean_backend h hs ht, hr, List.append_assoc, List.append_assoc]
  rw [itemOf_header hclean, trim_backend h ht]

end BackendWord

theorem itemOf_backendWord_congr {word word' s t r : Text} (hword : lower word = "backend".toList)
    (hword' : lower word' = "backend".toList) (hs : Blanks s) (ht : Blanks t)
    (hheader : isHeader (clean (s ++ '[' :: (t ++ (word ++ r)))) = true) :
    itemOf (s ++ '[' :: (t ++ (word ++ r))) = itemOf (s ++ '[' :: (t ++ (word' ++ r))) := by
  obtain ⟨q, hq⟩ : ∃ q, (before isComment r).rdropWhile isspace = q ++ [']'] := by
    rw [clean_backend hword hs ht] at hheader
    cases hr : (before isComment r).rdropWhile isspace using List.reverseRecOn with
    | nil =>
      exfalso
      obtain ⟨w, d, rfl, -⟩ := backend_split hword
      rw [hr, List.append_nil, ← List.append_assoc, ← List.cons_append, isHeader,
        List.getLast?_concat] at hheader
      have hd := (backend_ordinary hword d (by simp)).2.2
      simp [hd] at hheader
    | append_singleton q c _ =>
      rw [hr, ← List.append_assoc, ← List.append_assoc, ← List.cons_append, isHeader,
        List.getLast?_concat] at hheader
      obtain rfl : c = ']' := by
        simpa using hheader
      exact ⟨q, rfl⟩
  rw [itemOf_backendWord hword hs ht hq, itemOf_backendWord hword' hs ht hq]
  refine congrArg (Option.map Item.header) (kindOf_congr ?_ ?_)
  · unfold lower at hword hword' ⊢
    rw [List.map_append, List.map_append, hword, hword']
  · rw [drop_backend hword, drop_backend hword']

theorem Respelled.itemOf_eq {line line' : Text} (h : Respelled line line') :
    itemOf line = itemOf line' := by
  cases h with
  | space line hu hu' hv hv' =>
    exact itemOf_congr ((clean_space line hu hv).trans (clean_space line hu' hv').symm)
  | comment line hc _ => exact itemOf_congr (clean_comment (isComment_iff.mpr hc) _ _).symm
  | separator y hu hu' hv hv' hx hheader =>
    have hx := isComment_of_ne hx
    have hheader' := hheader
    rw [isHeader_spaced hu hv hx, ← isHeader_spaced hu' hv' hx] at hheader'
    rw [itemOf_spaced hu hv hx hheader, itemOf_spaced hu' hv' hx hheader']
  | key y hx hcase hheader => exact itemOf_key (isComment_of_ne hx) hcase hheader
  | header hkind hline hcase => rw [hline, itemOf_scalarHeader hkind hline hcase]
  | backendWord r hs ht hword hword' hheader =>
    exact itemOf_backendWord_congr hword hword' hs ht hheader

/-! ## Files -/

def Kind.sectionName : Kind → SectionName
  | .server => .server
  | .healthCheck => .healthCheck
  | .backend _ => .backend

/-- A header with the lines up to the next one. -/
structure IsBlock (block : List Text) : Prop where
  header : ∃ line lines, block = line :: lines ∧ isHeader (clean line) = true ∧
    ∀ line' ∈ lines, isHeader (clean line') = false

/-- Which section a block is. -/
def blockName : List Text → SectionName
  | [] => .none
  | line :: _ =>
    match kindOf (inside (clean line)) with
    | some kind => kind.sectionName
    | none => .none

/-- The same blocks, those of each kind in the same order. -/
structure Moved (blocks blocks' : List (List Text)) : Prop where
  perm : blocks'.Perm blocks
  server : blocks'.filter (blockName · = .server) = blocks.filter (blockName · = .server)
  healthCheck :
    blocks'.filter (blockName · = .healthCheck) = blocks.filter (blockName · = .healthCheck)
  backend : blocks'.filter (blockName · = .backend) = blocks.filter (blockName · = .backend)

inductive Relaid : List Text → List Text → Prop where
  | insert {line : Text} (a b : List Text) (hline : clean line = []) (hnewline : '\n' ∉ line) :
    Relaid (a ++ b) (a ++ line :: b)
  | delete {line : Text} (a b : List Text) (hline : clean line = []) :
    Relaid (a ++ line :: b) (a ++ b)
  | respell {line line' : Text} (a b : List Text) (h : Respelled line line') :
    Relaid (a ++ line :: b) (a ++ line' :: b)
  | move {top : List Text} {blocks blocks' : List (List Text)}
    (htop : ∀ line ∈ top, isHeader (clean line) = false) (hblocks : ∀ b ∈ blocks, IsBlock b)
    (h : Moved blocks blocks') : Relaid (top ++ blocks.flatten) (top ++ blocks'.flatten)

theorem mapM_itemOf_append (a b : List Text) : (a ++ b).mapM itemOf =
    (a.mapM itemOf).bind fun is => (b.mapM itemOf).map fun js => is ++ js := by
  rw [List.mapM_append]
  cases a.mapM itemOf <;> cases b.mapM itemOf <;> rfl

theorem mapM_itemOf_cons (line : Text) (lines : List Text) : (line :: lines).mapM itemOf =
    (itemOf line).bind fun i => (lines.mapM itemOf).map fun is => i :: is := by
  rw [List.mapM_cons]
  cases itemOf line <;> cases lines.mapM itemOf <;> rfl

theorem group_append_blank (is js : List Item) : group (is ++ .blank :: js) = group (is ++ js) := by
  induction is with
  | nil => rfl
  | cons i is ih =>
    cases i with
    | blank => exact ih
    | assignment key value => rw [List.cons_append, List.cons_append, group, group, ih]
    | header kind => rw [List.cons_append, List.cons_append, group, group, ih]

theorem reading_insert {line : Text} (a b : List Text) (hline : clean line = []) :
    reading (a ++ line :: b) = reading (a ++ b) := by
  have hblank : itemOf line = some .blank := by
    unfold itemOf
    rw [hline]
    rfl
  unfold reading
  rw [mapM_itemOf_append, mapM_itemOf_append, mapM_itemOf_cons, hblank]
  cases a.mapM itemOf with
  | none => rfl
  | some is =>
    cases b.mapM itemOf with
    | none => rfl
    | some js =>
      simp only [Option.bind_some, Option.map_some]
      rw [group_append_blank]

theorem reading_respell {line line' : Text} (a b : List Text) (h : itemOf line = itemOf line') :
    reading (a ++ line :: b) = reading (a ++ line' :: b) := by
  unfold reading
  rw [mapM_itemOf_append, mapM_itemOf_append, mapM_itemOf_cons, mapM_itemOf_cons, h]

/-! ### Moving sections -/

theorem group_append (is : List Item) {js : List Item} (h : (group js).1 = []) :
    group (is ++ js) = ((group is).1, (group is).2 ++ (group js).2) := by
  induction is with
  | nil => exact Prod.ext h rfl
  | cons i is ih =>
    cases i with
    | blank => exact ih
    | assignment key value => rw [List.cons_append, group, group, ih]
    | header kind =>
      rw [List.cons_append, group, group, ih]
      rfl

/-- Lines that start with a header or are none, so that nothing in them adds to what is before. -/
def Opens (lines : List Text) : Prop :=
  ∀ items, lines.mapM itemOf = some items → (group items).1 = []

theorem reading_append (a : List Text) {b : List Text} (hb : Opens b) : reading (a ++ b) =
    (reading a).bind fun secs => (reading b).map fun secs' => secs ++ secs' := by
  unfold reading
  rw [mapM_itemOf_append]
  cases a.mapM itemOf with
  | none => rfl
  | some is =>
    cases hitems : b.mapM itemOf with
    | none =>
      simp only [Option.bind_some, Option.map_none, Option.bind_none]
      split <;> rfl
    | some js =>
      have hjs : (group js).1 = [] := hb js hitems
      simp only [Option.bind_some, Option.map_some, group_append is hjs, hjs, if_true]
      split <;> rfl

theorem IsBlock.opens {block : List Text} (h : IsBlock block) (rest : List Text) :
    Opens (block ++ rest) := by
  obtain ⟨line, lines, rfl, hheader, -⟩ := h.header
  intro items hitems
  rw [List.cons_append, mapM_itemOf_cons, Option.bind_eq_some_iff] at hitems
  obtain ⟨i, hi, hitems⟩ := hitems
  obtain ⟨is, -, rfl⟩ := Option.map_eq_some_iff.mp hitems
  obtain ⟨kind, rfl⟩ := (isHeader_iff hi).mp hheader
  rfl

theorem opens_flatten {blocks : List (List Text)} (h : ∀ b ∈ blocks, IsBlock b) :
    Opens blocks.flatten := by
  cases blocks with
  | nil =>
    intro items hitems
    cases hitems
    rfl
  | cons b blocks => exact (h b List.mem_cons_self).opens blocks.flatten

theorem group_of_no_header {lines : List Text} {items : List Item}
    (h : ∀ line ∈ lines, isHeader (clean line) = false) (hitems : lines.mapM itemOf = some items) :
    (group items).2 = [] := by
  induction lines generalizing items with
  | nil =>
    cases hitems
    rfl
  | cons line lines ih =>
    rw [mapM_itemOf_cons, Option.bind_eq_some_iff] at hitems
    obtain ⟨i, hi, hitems⟩ := hitems
    obtain ⟨is, his, rfl⟩ := Option.map_eq_some_iff.mp hitems
    have hrest := ih (fun l hl => h l (List.mem_cons_of_mem line hl)) his
    have hline := h line List.mem_cons_self
    cases i with
    | blank => exact hrest
    | assignment key value => exact hrest
    | header kind =>
      rw [(isHeader_iff hi).mpr ⟨kind, rfl⟩] at hline
      cases hline

theorem reading_top {top : List Text} {secs : List Section}
    (h : ∀ line ∈ top, isHeader (clean line) = false) (hsecs : reading top = some secs) :
    secs = [] := by
  obtain ⟨items, hitems, hgroup⟩ := Option.bind_eq_some_iff.mp hsecs
  rw [group_of_no_header h hitems] at hgroup
  split at hgroup
  · cases hgroup
    rfl
  · cases hgroup

/-- A block is read as one section, of the kind its header says. -/
theorem IsBlock.sectionName {block : List Text} {secs : List Section} (h : IsBlock block)
    (hsecs : reading block = some secs) : ∀ sec ∈ secs, sec.kind.sectionName = blockName block := by
  obtain ⟨line, lines, rfl, hheader, hlines⟩ := h.header
  obtain ⟨items, hitems, hgroup⟩ := Option.bind_eq_some_iff.mp hsecs
  rw [mapM_itemOf_cons, Option.bind_eq_some_iff] at hitems
  obtain ⟨i, hi, hitems⟩ := hitems
  obtain ⟨is, his, rfl⟩ := Option.map_eq_some_iff.mp hitems
  obtain ⟨kind, rfl⟩ := (isHeader_iff hi).mp hheader
  have hkind := (itemOf_eq_header.mp hi).2
  rw [group, group_of_no_header hlines his] at hgroup
  cases hgroup
  intro sec hsec
  rw [List.mem_singleton.mp hsec, blockName, hkind]

/-- The sections of a block; none if the block cannot be read. -/
def sectionsOf (block : List Text) : List Section := (reading block).getD []

theorem reading_flatten {blocks : List (List Text)} (h : ∀ b ∈ blocks, IsBlock b)
    {secs : List Section} : reading blocks.flatten = some secs ↔
      (∀ b ∈ blocks, ∃ s, reading b = some s) ∧ secs = blocks.flatMap sectionsOf := by
  induction blocks generalizing secs with
  | nil =>
    rw [List.flatten_nil, List.flatMap_nil]
    constructor
    · intro hsecs
      cases hsecs
      exact ⟨fun _ hb => absurd hb List.not_mem_nil, rfl⟩
    · rintro ⟨-, rfl⟩
      rfl
  | cons b blocks ih =>
    have hblocks : ∀ b ∈ blocks, IsBlock b := fun b' hb' => h b' (List.mem_cons_of_mem b hb')
    rw [List.flatten_cons, reading_append b (opens_flatten hblocks), List.forall_mem_cons,
      List.flatMap_cons, Option.bind_eq_some_iff]
    simp only [Option.map_eq_some_iff, ih hblocks]
    constructor
    · rintro ⟨s, hs, _, ⟨hall, rfl⟩, rfl⟩
      exact ⟨⟨⟨s, hs⟩, hall⟩, by rw [sectionsOf, hs, Option.getD_some]⟩
    · rintro ⟨⟨⟨s, hs⟩, hall⟩, rfl⟩
      exact ⟨s, hs, _, ⟨hall, rfl⟩, by rw [sectionsOf, hs, Option.getD_some]⟩

theorem reading_blocks {top : List Text} {blocks : List (List Text)}
    (htop : ∀ line ∈ top, isHeader (clean line) = false) (h : ∀ b ∈ blocks, IsBlock b)
    {secs : List Section} : reading (top ++ blocks.flatten) = some secs ↔
      reading top = some [] ∧ (∀ b ∈ blocks, ∃ s, reading b = some s) ∧
        secs = blocks.flatMap sectionsOf := by
  rw [reading_append top (opens_flatten h), Option.bind_eq_some_iff]
  simp only [Option.map_eq_some_iff, reading_flatten h]
  constructor
  · rintro ⟨s, hs, _, ⟨hall, rfl⟩, rfl⟩
    cases reading_top htop hs
    exact ⟨hs, hall, rfl⟩
  · rintro ⟨hs, hall, rfl⟩
    exact ⟨[], hs, _, ⟨hall, rfl⟩, rfl⟩

theorem Moved.flatMap_eq {α : Type} {blocks blocks' : List (List Text)} (h : Moved blocks blocks')
    (hread : ∀ b ∈ blocks, IsBlock b ∧ ∃ s, reading b = some s) {name : SectionName}
    (hname : name ≠ .none) {g : Section → List α}
    (hg : ∀ sec, sec.kind.sectionName ≠ name → g sec = []) :
    (blocks'.flatMap sectionsOf).flatMap g = (blocks.flatMap sectionsOf).flatMap g := by
  have hnil : ∀ b ∈ blocks, decide (blockName b = name) = false → (sectionsOf b).flatMap g = [] := by
    intro b hb hne
    obtain ⟨hblock, s, hs⟩ := hread b hb
    rw [List.flatMap_eq_nil_iff, sectionsOf, hs, Option.getD_some]
    intro sec hsec
    refine hg sec ?_
    rw [hblock.sectionName hs sec hsec]
    exact of_decide_eq_false hne
  have hfilter : blocks'.filter (blockName · = name) = blocks.filter (blockName · = name) := by
    cases name with
    | none => exact absurd rfl hname
    | server => exact h.server
    | healthCheck => exact h.healthCheck
    | backend => exact h.backend
  rw [List.flatMap_assoc, List.flatMap_assoc, ← flatMap_filter_of_nil hnil, ← hfilter,
    flatMap_filter_of_nil fun b hb => hnil b (h.perm.mem_iff.mp hb)]

/-! ## The configuration does not depend on the layout -/

/-- What `load` asks of the lines of a file. -/
def Accepts (lines : List Text) (c : AppConfig) : Prop :=
  ∃ secs, reading lines = some secs ∧ (∀ sec ∈ secs, sec.Valid) ∧ Describes secs c ∧ Acceptable c

variable {c : AppConfig}

theorem writes_eq_nil {sec : Section} {k : ScalarKey}
    (h : sec.kind.sectionName ≠ k.kind.sectionName) : sec.writes k = [] := by
  unfold Section.writes
  rw [List.flatMap_eq_nil_iff]
  intro a _
  refine if_neg fun hkind => h ?_
  rw [hkind.1]

theorem backend?_eq_nil {sec : Section} (h : sec.kind.sectionName ≠ .backend) :
    sec.backend?.toList = [] := by
  obtain ⟨kind, body⟩ := sec
  cases kind with
  | server => rfl
  | healthCheck => rfl
  | backend name => exact absurd rfl h

theorem Moved.describes {blocks blocks' : List (List Text)} (h : Moved blocks blocks')
    (hread : ∀ b ∈ blocks, IsBlock b ∧ ∃ s, reading b = some s)
    (hc : Describes (blocks.flatMap sectionsOf) c) : Describes (blocks'.flatMap sectionsOf) c where
  scalar k := by
    have hname : k.kind.sectionName ≠ .none := by cases k <;> decide
    rw [h.flatMap_eq hread hname fun sec hsec => writes_eq_nil hsec]
    exact hc.scalar k
  backends := by
    rw [h.flatMap_eq hread (by decide) fun sec hsec => backend?_eq_nil hsec]
    exact hc.backends

theorem Relaid.accepts {lines lines' : List Text} (h : Relaid lines lines')
    (hc : Accepts lines c) : Accepts lines' c := by
  cases h with
  | insert a b hline _ =>
    unfold Accepts
    rw [reading_insert a b hline]
    exact hc
  | delete a b hline =>
    unfold Accepts
    rw [← reading_insert a b hline]
    exact hc
  | respell a b h =>
    unfold Accepts
    rw [← reading_respell a b h.itemOf_eq]
    exact hc
  | @move top blocks blocks' htop hblocks h =>
    obtain ⟨secs, hsecs, hvalid, hdescribes, haccept⟩ := hc
    obtain ⟨hs, hall, rfl⟩ := (reading_blocks htop hblocks).mp hsecs
    have hblocks' : ∀ b ∈ blocks', IsBlock b := fun b hb => hblocks b (h.perm.mem_iff.mp hb)
    have hall' : ∀ b ∈ blocks', ∃ s, reading b = some s := fun b hb =>
      hall b (h.perm.mem_iff.mp hb)
    refine ⟨_, (reading_blocks htop hblocks').mpr ⟨hs, hall', rfl⟩, ?_,
      h.describes (fun b hb => ⟨hblocks b hb, hall b hb⟩) hdescribes, haccept⟩
    intro sec hsec
    obtain ⟨b, hb, hsec⟩ := List.mem_flatMap.mp hsec
    exact hvalid sec (List.mem_flatMap.mpr ⟨b, h.perm.mem_iff.mp hb, hsec⟩)

/-- A file in another layout is accepted too, as the same configuration. -/
theorem load_relaid (path file file' : Text) (c : AppConfig)
    (hload : load path (some file) = .ok c)
    (hlayout : Relation.ReflTransGen Relaid (records '\n' file) (records '\n' file')) :
    load path (some file') = .ok c := by
  have hsteps : ∀ lines, Relation.ReflTransGen Relaid (records '\n' file) lines →
      Accepts lines c := by
    intro lines h
    induction h with
    | refl => exact (load_eq_ok path file).mp hload
    | tail _ hstep ih => exact hstep.accepts ih
  exact (load_eq_ok path file').mpr (hsteps _ hlayout)

namespace Demo

def serverFirst : Text := "[server]\nworkers=2\n[backend a]\nhost=h\nport=80\n".toList

def backendFirst : Text := "[backend a]\nhost=h\nport=80\n\n[server]\nWorkers=2\n".toList

/-- The sections change places, an empty line comes between them, and a key gets a capital. -/
theorem relaid_backendFirst :
    Relation.ReflTransGen Relaid (records '\n' serverFirst) (records '\n' backendFirst) := by
  have hserver : IsBlock ["[server]".toList, "workers=2".toList] :=
    ⟨_, _, rfl, by decide, by decide⟩
  have hbackend : IsBlock ["[backend a]".toList, "host=h".toList, "port=80".toList] :=
    ⟨_, _, rfl, by decide, by decide⟩
  have hmove := @Relaid.move []
    [["[server]".toList, "workers=2".toList],
      ["[backend a]".toList, "host=h".toList, "port=80".toList]]
    [["[backend a]".toList, "host=h".toList, "port=80".toList],
      ["[server]".toList, "workers=2".toList]]
    (fun _ h => absurd h List.not_mem_nil)
    (List.forall_mem_cons.mpr ⟨hserver, List.forall_mem_singleton.mpr hbackend⟩)
    ⟨List.Perm.swap _ _ _, rfl, rfl, rfl⟩
  have hinsert := @Relaid.insert []
    ["[backend a]".toList, "host=h".toList, "port=80".toList]
    ["[server]".toList, "workers=2".toList] rfl List.not_mem_nil
  have hrespell := Relaid.respell
    ["[backend a]".toList, "host=h".toList, "port=80".toList, [], "[server]".toList] []
    (@Respelled.key "workers".toList "Workers".toList "2".toList (forall_mem_of_all (by decide))
      (by decide) (by decide))
  exact .tail (.tail (.single hmove) hinsert) hrespell

def twoWorkers : AppConfig where
  workers := 2
  backends := [{ name := "a", host := "h", port := 80, weight := 1 }]

end Demo

theorem load_relaid_backendFirst : load [] (some Demo.backendFirst) = .ok Demo.twoWorkers :=
  load_relaid [] Demo.serverFirst Demo.backendFirst Demo.twoWorkers rfl Demo.relaid_backendFirst

end FluxGate.ConfigLoader
