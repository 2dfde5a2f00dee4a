import FluxGate.ConfigSections

/-!
# The grammar of the configuration file

A file is judged by its significant lines: those that are not empty once the
comment and the space around are gone. They are headers and assignments; a
header opens a section that reaches to the next one. `Grammar` says which files
are configurations, `Meaning` which configuration a file is, without a loop or
a state; `load_grammar` says that the loader computes just that.
-/

namespace FluxGate.ConfigLoader

open Lib Loader

/-! ## Values -/

def Digits (digits : Text) : Prop := digits ≠ [] ∧ ∀ c ∈ digits, c.isDigit = true

/-- `value` is `[+-]?digits`, and writes the number `n`. -/
inductive Denotes : Text → Int → Prop where
  | plain {digits : Text} (h : Digits digits) : Denotes digits (magnitude digits)
  | plus {digits : Text} (h : Digits digits) : Denotes ('+' :: digits) (magnitude digits)
  | minus {digits : Text} (h : Digits digits) : Denotes ('-' :: digits) (-magnitude digits)

def Form.Reads : Form → Text → Setting → Prop
  | verbatim, value, x => x = .text value
  | lowered, value, x => x = .text (lower value)
  | number minimum maximum, value, x =>
    ∃ n, x = .number n ∧ Denotes value n ∧ minimum ≤ n ∧ n ≤ maximum

theorem splitSign_of_digits {digits : Text} (h : Digits digits) :
    splitSign digits = (false, digits) := by
  cases digits with
  | nil => exact absurd rfl h.1
  | cons c digits =>
    have hc : c.isDigit = true := h.2 c List.mem_cons_self
    unfold splitSign
    split
    · rename_i heq
      cases heq
      exact absurd hc (by decide)
    · rename_i heq
      cases heq
      exact absurd hc (by decide)
    · rfl

theorem denotes_iff {value : Text} {n : Int} : Denotes value n ↔
    Digits (splitSign value).2 ∧
      n = withSign (splitSign value).1 (magnitude (splitSign value).2) := by
  constructor
  · intro h
    cases h with
    | plain h =>
      rw [splitSign_of_digits h]
      exact ⟨h, rfl⟩
    | plus h => exact ⟨h, rfl⟩
    | minus h => exact ⟨h, rfl⟩
  · rintro ⟨hdigits, rfl⟩
    revert hdigits
    unfold splitSign
    split
    · exact Denotes.minus
    · exact Denotes.plus
    · exact Denotes.plain

theorem splitSign_length (value : Text) : (splitSign value).2.length ≤ value.length := by
  unfold splitSign
  split <;> simp

theorem digits_iff {rest : Text} : Digits rest ↔
    rest.takeWhile Char.isDigit ≠ [] ∧ rest.dropWhile Char.isDigit = [] := by
  rw [List.dropWhile_eq_nil_iff]
  constructor
  · rintro ⟨hne, hall⟩
    rw [List.takeWhile_eq_self_iff.mpr hall]
    exact ⟨hne, hall⟩
  · rintro ⟨hne, hall⟩
    rw [List.takeWhile_eq_self_iff.mpr hall] at hne
    exact ⟨hne, hall⟩

/-- On a trimmed value `stol` takes the whole text if that is a number, and no other text whole. -/
theorem stol_eq_some {value : Text} (hv : Bare isspace value) {n : Int} :
    stol value = some (n, value.length) ↔ Denotes value n ∧ -2 ^ 63 ≤ n ∧ n < 2 ^ 63 := by
  have hspace : value.dropWhile isspace = value := by
    cases value with
    | nil => rfl
    | cons c value => exact List.dropWhile_cons_of_neg (by simp [hv.head c rfl])
  have hlength := splitSign_length value
  unfold stol
  rw [hspace, denotes_iff, digits_iff]
  dsimp only
  generalize splitSign value = signed at hlength ⊢
  obtain ⟨negative, rest⟩ := signed
  dsimp only at hlength ⊢
  have hsum : (rest.takeWhile Char.isDigit).length + (rest.dropWhile Char.isDigit).length =
      rest.length := by
    rw [← List.length_append, List.takeWhile_append_dropWhile]
  constructor
  · intro h
    split at h
    · cases h
    · rename_i hok
      rw [Option.some.injEq, Prod.mk.injEq] at h
      obtain ⟨hn, hconsumed⟩ := h
      have hne : rest.takeWhile Char.isDigit ≠ [] := fun hnil => hok (.inl hnil)
      have hpos : 0 < (rest.takeWhile Char.isDigit).length := List.length_pos_iff.mpr hne
      have hnil : rest.dropWhile Char.isDigit = [] := by
        rw [← List.length_eq_zero_iff]
        omega
      have hwhole : rest.takeWhile Char.isDigit = rest := by
        have happend := List.takeWhile_append_dropWhile (p := Char.isDigit) (l := rest)
        rwa [hnil, List.append_nil] at happend
      rw [hwhole] at hn hok
      rw [← hn]
      exact ⟨⟨⟨hne, hnil⟩, rfl⟩, by omega, by omega⟩
  · rintro ⟨⟨⟨hne, hnil⟩, hn⟩, hmin, hmax⟩
    have hwhole : rest.takeWhile Char.isDigit = rest := by
      have happend := List.takeWhile_append_dropWhile (p := Char.isDigit) (l := rest)
      rwa [hnil, List.append_nil] at happend
    rw [hwhole] at hne ⊢
    rw [if_neg, hnil, ← hn]
    · rfl
    · rw [← hn]
      rintro (h | h | h)
      · exact hne h
      · omega
      · omega

theorem Form.read_eq_some {value : Text} (hv : Bare isspace value) {minimum maximum : Int}
    (hmin : 0 ≤ minimum) (hmax : maximum < 2 ^ 63) {x : Setting} :
    (Form.number minimum maximum).read value = some x ↔
      (Form.number minimum maximum).Reads value x := by
  have hparse : ∀ n, parseLong value [] minimum maximum = .ok n ↔
      Denotes value n ∧ minimum ≤ n ∧ n ≤ maximum := by
    intro n
    unfold parseLong
    constructor
    · intro h
      split at h
      · cases h
      · rename_i result consumed hstol
        split at h
        · cases h
        · cases h
          obtain rfl : consumed = value.length := by omega
          exact ⟨((stol_eq_some hv).mp hstol).1, by omega, by omega⟩
    · rintro ⟨hn, hlo, hhi⟩
      have hstol := (stol_eq_some hv).mpr ⟨hn, by omega, by omega⟩
      rw [hstol]
      dsimp only
      rw [if_neg]
      omega
  unfold Form.read Form.Reads
  simp only [Option.map_eq_some_iff, toOption_eq_some, hparse]
  constructor
  · rintro ⟨n, hn, rfl⟩
    exact ⟨n, rfl, hn⟩
  · rintro ⟨n, rfl, hn⟩
    exact ⟨n, hn, rfl⟩

/-! ## Lines -/

/-- The text between the brackets of a header names the kind of its section. -/
inductive Heading : Text → Kind → Prop where
  | server {name : Text} (h : lower name = "server".toList) : Heading name .server
  | healthCheck {name : Text} (h : lower name = "health_check".toList) : Heading name .healthCheck
  | backend {word rest : Text} (hword : lower word = "backend".toList) (hrest : trim rest ≠ []) :
    Heading (word ++ ' ' :: rest) (.backend (trim rest))

theorem take_eight_iff {name : Text} : (lower name).take 8 = "backend ".toList ↔
    ∃ word, lower word = "backend".toList ∧ name = word ++ ' ' :: name.drop 8 := by
  constructor
  · intro h
    have hlower : lower (name.take 8) = "backend ".toList := by
      rw [← h]
      exact List.map_take
    have hlength : (name.take 8).length = 8 := by
      rw [← List.length_map (f := Char.toLower)]
      exact congrArg List.length hlower
    obtain ⟨word, c, hword⟩ : ∃ word c, name.take 8 = word ++ [c] := by
      cases hcase : name.take 8 using List.reverseRecOn with
      | nil =>
        rw [hcase] at hlength
        cases hlength
      | append_singleton word c _ => exact ⟨word, c, rfl⟩
    rw [hword] at hlower
    have hsplit : lower word ++ [c.toLower] = "backend".toList ++ [' '] := by
      rw [← List.map_singleton (f := Char.toLower), lower, ← List.map_append]
      exact hlower
    obtain ⟨hw, hc⟩ := List.append_inj' hsplit rfl
    obtain rfl : c = ' ' := (toLower_eq_iff (by decide)).mp (List.singleton_inj.mp hc)
    refine ⟨word, hw, ?_⟩
    rw [← List.singleton_append, ← List.append_assoc, ← hword, List.take_append_drop]
  · rintro ⟨word, hword, hname⟩
    rw [hname]
    unfold lower at hword ⊢
    rw [List.map_append, hword, List.map_cons]
    rfl

theorem kindOf_eq_some {name : Text} {kind : Kind} :
    kindOf name = some kind ↔ Heading name kind := by
  constructor
  · intro h
    unfold kindOf at h
    split at h
    · rename_i hserver
      cases h
      exact .server hserver
    split at h
    · rename_i hhealth
      cases h
      exact .healthCheck hhealth
    split at h
    · rename_i hbackend
      split at h
      · cases h
      · rename_i hname
        cases h
        obtain ⟨word, hword, heq⟩ := take_eight_iff.mp hbackend
        have hheading := Heading.backend hword hname
        rwa [← heq] at hheading
    · cases h
  · intro h
    unfold kindOf
    cases h with
    | server h => rw [if_pos h]
    | healthCheck h =>
      rw [if_neg, if_pos h]
      rw [h]
      decide
    | @backend word rest hword hrest =>
      have hlength : word.length = 7 := by
        rw [← List.length_map (f := Char.toLower)]
        exact congrArg List.length hword
      have hdrop : (word ++ ' ' :: rest).drop 8 = rest := by
        rw [List.drop_append, List.drop_eq_nil_of_le (by omega), hlength]
        rfl
      have htake : (lower (word ++ ' ' :: rest)).take 8 = "backend ".toList := by
        refine take_eight_iff.mpr ⟨word, hword, ?_⟩
        rw [hdrop]
      rw [if_neg, if_neg, if_pos htake, hdrop, if_neg hrest]
      · intro hhealth
        rw [hhealth] at htake
        revert htake
        decide
      · intro hserver
        rw [hserver] at htake
        revert htake
        decide

instance (name : Text) (kind : Kind) : Decidable (Heading name kind) :=
  decidable_of_iff _ kindOf_eq_some

/-- A header and the lines up to the next one. -/
structure Paragraph where
  header : Text
  body : List Text
  deriving DecidableEq, Repr

def paragraphs : List Text → List Text × List Paragraph
  | [] => ([], [])
  | line :: lines =>
    if isHeader line then ([], ⟨line, (paragraphs lines).1⟩ :: (paragraphs lines).2)
    else (line :: (paragraphs lines).1, (paragraphs lines).2)

def significant (file : Text) : List Text := ((records '\n' file).map clean).filter (· ≠ [])

/-- The lines before the first header. -/
def preamble (file : Text) : List Text := (paragraphs (significant file)).1

def sections (file : Text) : List Paragraph := (paragraphs (significant file)).2

structure IsAssignment (line : Text) : Prop where
  separator : '=' ∈ line
  key : keyOf line ≠ []
  value : valueOf line ≠ []

namespace Paragraph

def Is (p : Paragraph) (kind : Kind) : Prop := Heading (inside p.header) kind

instance (p : Paragraph) (kind : Kind) : Decidable (p.Is kind) :=
  inferInstanceAs (Decidable (Heading _ _))

/-- The values that the section assigns to a key, in order. -/
def values (p : Paragraph) (key : Text) : List Text :=
  (p.body.filter fun line => lower (keyOf line) = key).map valueOf

def isBackend (p : Paragraph) : Bool :=
  match kindOf (inside p.header) with
  | some (.backend _) => true
  | _ => false

theorem isBackend_iff {p : Paragraph} : p.isBackend = true ↔ ∃ name, p.Is (.backend name) := by
  unfold isBackend Is
  simp only [← kindOf_eq_some]
  constructor
  · intro h
    split at h
    · rename_i name heq
      exact ⟨name, heq⟩
    · cases h
  · rintro ⟨name, heq⟩
    rw [heq]

end Paragraph

/-! ## The grammar -/

/-- The values that the file assigns to a scalar key, in order. -/
def assignments (file : Text) (k : ScalarKey) : List Text :=
  ((sections file).filter (·.Is k.kind)).flatMap (·.values k.name)

/-- The setting that a file gives a scalar key: that of the last assignment, or the default. -/
def Yields (file : Text) (k : ScalarKey) : Setting → Prop :=
  Latest k.form.Reads (k.get {}) (assignments file k)

/-- The key of an assignment belongs to the section, and takes its value. -/
def Takes : Kind → Text → Text → Prop
  | .backend _, key, value => ∃ k : BackendKey, k.name = key ∧ ∃ x, k.form.Reads value x
  | kind, key, value => ∃ k : ScalarKey, k.kind = kind ∧ k.name = key ∧ ∃ x, k.form.Reads value x

structure Grammar (file : Text) : Prop where
  line : ∀ line ∈ significant file, isHeader line = true ∨ IsAssignment line
  header : ∀ line ∈ significant file, isHeader line = true → ∃ kind, Heading (inside line) kind
  headed : preamble file = []
  known : ∀ p ∈ sections file, ∀ kind, p.Is kind →
    ∀ line ∈ p.body, Takes kind (lower (keyOf line)) (valueOf line)
  complete : ∀ p ∈ sections file, ∀ name, p.Is (.backend name) →
    p.values BackendKey.host.name ≠ [] ∧ p.values BackendKey.port.name ≠ []
  backend : ∃ p ∈ sections file, ∃ name, p.Is (.backend name)
  distinct : (sections file).Pairwise fun p q =>
    ∀ name name', p.Is (.backend name) → q.Is (.backend name') → name ≠ name'
  timeout : ∃ timeout interval, Yields file .timeoutMs (.number timeout) ∧
    Yields file .intervalMs (.number interval) ∧ timeout < interval

/-- The backend of a section: the name in its header, and the last value of each key; the weight
is one if the section gives none. -/
structure DefinesBackend (p : Paragraph) (b : BackendConfig) : Prop where
  name : p.Is (.backend b.name.toList)
  field : ∀ k : BackendKey, Latest k.form.Reads k.initial (p.values k.name) (k.get b)

structure Meaning (file : Text) (c : AppConfig) : Prop where
  scalar : ∀ k : ScalarKey, Yields file k (k.get c)
  backends : List.Forall₂ DefinesBackend ((sections file).filter (·.isBackend)) c.backends

/-! ## The loader's sections are the grammar's -/

/-- An assignment as the loader sees it. -/
def pairOf (line : Text) : Text × Text := (lower (keyOf line), valueOf line)

structure ReadsAs (p : Paragraph) (sec : Section) : Prop where
  kind : p.Is sec.kind
  body : sec.body = p.body.map pairOf

theorem itemOf_of_blank {line : Text} (h : clean line = []) : itemOf line = some .blank := by
  unfold itemOf
  rw [h]
  rfl

theorem itemOf_of_header {line : Text} (hne : clean line ≠ []) (h : isHeader (clean line) = true)
    {item : Item} : itemOf line = some item ↔
      ∃ kind, Heading (inside (clean line)) kind ∧ item = .header kind := by
  unfold itemOf
  dsimp only
  rw [if_neg hne, if_pos h, Option.map_eq_some_iff]
  simp only [kindOf_eq_some]
  exact exists_congr fun kind => and_congr_right fun _ => eq_comm

theorem itemOf_of_not_header {line : Text} (hne : clean line ≠ [])
    (h : isHeader (clean line) = false) {item : Item} : itemOf line = some item ↔
      IsAssignment (clean line) ∧
        item = .assignment (pairOf (clean line)).1 (pairOf (clean line)).2 := by
  unfold itemOf
  dsimp only
  rw [if_neg hne, if_neg (by simp [h])]
  split
  · rename_i hok
    rw [Option.some.injEq]
    exact ⟨fun h => ⟨⟨hok.1, hok.2.1, hok.2.2⟩, h.symm⟩, fun h => h.2.symm⟩
  · rename_i hbad
    exact ⟨fun h => (by cases h), fun h => absurd ⟨h.1.separator, h.1.key, h.1.value⟩ hbad⟩

theorem group_mapM_itemOf (lines : List Text) (pre : List (Text × Text)) (secs : List Section) :
    (∃ items, lines.mapM itemOf = some items ∧ group items = (pre, secs)) ↔
      (∀ line ∈ (lines.map clean).filter (· ≠ []), isHeader line = false → IsAssignment line) ∧
      pre = (paragraphs ((lines.map clean).filter (· ≠ []))).1.map pairOf ∧
      List.Forall₂ ReadsAs (paragraphs ((lines.map clean).filter (· ≠ []))).2 secs := by
  induction lines generalizing pre secs with
  | nil =>
    simp only [List.mapM_nil, List.map_nil, List.filter_nil, List.not_mem_nil, paragraphs]
    constructor
    · rintro ⟨items, hitems, hgroup⟩
      cases hitems
      cases hgroup
      exact ⟨fun _ h => (by cases h), rfl, .nil⟩
    · rintro ⟨-, rfl, hsecs⟩
      cases hsecs
      exact ⟨[], rfl, rfl⟩
  | cons line lines ih =>
    have hmapM : ∀ items, (line :: lines).mapM itemOf = some items ↔
        ∃ item items', itemOf line = some item ∧ lines.mapM itemOf = some items' ∧
          items = item :: items' := by
      intro items
      rw [List.mapM_cons]
      cases itemOf line <;> cases lines.mapM itemOf <;> simp [eq_comm]
    simp only [hmapM, List.map_cons]
    generalize hls : (lines.map clean).filter (· ≠ []) = ls at ih
    by_cases hblank : clean line = []
    · rw [List.filter_cons_of_neg (by simp [hblank]), hls, ← ih]
      rw [itemOf_of_blank hblank]
      constructor
      · rintro ⟨_, ⟨item, items', hitem, hitems', rfl⟩, hgroup⟩
        cases hitem
        exact ⟨items', hitems', hgroup⟩
      · rintro ⟨items', hitems', hgroup⟩
        exact ⟨_, ⟨.blank, items', rfl, hitems', rfl⟩, hgroup⟩
    rw [List.filter_cons_of_pos (by simp [hblank]), hls, paragraphs]
    cases hheader : isHeader (clean line) with
    | true =>
      simp only [itemOf_of_header hblank hheader, if_true, List.forall_mem_cons, hheader,
        List.map_nil]
      constructor
      · rintro ⟨_, ⟨_, items', ⟨kind, hkind, rfl⟩, hitems', rfl⟩, hgroup⟩
        obtain ⟨hlines, hpre, hsecs⟩ := (ih _ _).mp ⟨items', hitems', rfl⟩
        cases hgroup
        exact ⟨⟨fun h => (by cases h), hlines⟩, rfl, .cons ⟨hkind, hpre⟩ hsecs⟩
      · rintro ⟨⟨-, hlines⟩, rfl, hsecs⟩
        cases hsecs with
        | @cons _ sec _ secs hsec hsecs =>
          obtain ⟨items', hitems', hgroup⟩ := (ih _ _).mpr ⟨hlines, rfl, hsecs⟩
          refine ⟨_, ⟨_, items', ⟨sec.kind, hsec.kind, rfl⟩, hitems', rfl⟩, ?_⟩
          rw [group, hgroup, ← hsec.body]
    | false =>
      simp only [itemOf_of_not_header hblank hheader, Bool.false_eq_true, if_false,
        List.forall_mem_cons, hheader, List.map_cons, forall_true_left]
      constructor
      · rintro ⟨_, ⟨_, items', ⟨hassign, rfl⟩, hitems', rfl⟩, hgroup⟩
        obtain ⟨hlines, hpre, hsecs⟩ := (ih _ _).mp ⟨items', hitems', rfl⟩
        cases hgroup
        exact ⟨⟨hassign, hlines⟩, by rw [hpre], hsecs⟩
      · rintro ⟨⟨hassign, hlines⟩, rfl, hsecs⟩
        obtain ⟨items', hitems', hgroup⟩ := (ih _ _).mpr ⟨hlines, rfl, hsecs⟩
        refine ⟨_, ⟨_, items', ⟨hassign, rfl⟩, hitems', rfl⟩, ?_⟩
        rw [group, hgroup]

theorem reading_eq_some {file : Text} {secs : List Section} :
    reading (records '\n' file) = some secs ↔
      (∀ line ∈ significant file, isHeader line = false → IsAssignment line) ∧
        preamble file = [] ∧ List.Forall₂ ReadsAs (sections file) secs := by
  have hgroup : reading (records '\n' file) = some secs ↔
      ∃ items, (records '\n' file).mapM itemOf = some items ∧ group items = ([], secs) := by
    unfold reading
    rw [Option.bind_eq_some_iff]
    refine exists_congr fun items => and_congr_right fun _ => ?_
    rw [Prod.ext_iff]
    split
    · rename_i hnil
      simp [hnil]
    · rename_i hne
      simp [hne]
  rw [hgroup, group_mapM_itemOf]
  refine and_congr_right fun _ => and_congr_left fun _ => ?_
  rw [eq_comm, List.map_eq_nil_iff]
  rfl

/-- The range of a key lies within the natural numbers of a `long`. -/
def Form.Fits : Form → Prop
  | number minimum maximum => 0 ≤ minimum ∧ maximum < 2 ^ 63
  | _ => True

theorem Form.read_iff_reads {form : Form} (hform : form.Fits) {value : Text}
    (hv : Bare isspace value) {x : Setting} : form.read value = some x ↔ form.Reads value x := by
  cases form with
  | verbatim => exact Option.some_inj.trans eq_comm
  | lowered => exact Option.some_inj.trans eq_comm
  | number minimum maximum => exact Form.read_eq_some hv hform.1 hform.2

theorem ScalarKey.fits (k : ScalarKey) : k.form.Fits := by
  cases k <;> trivial

theorem BackendKey.fits (k : BackendKey) : k.form.Fits := by
  cases k <;> trivial

theorem known_iff_takes (kind : Kind) (line : Text) :
    Known kind (pairOf line) ↔ Takes kind (lower (keyOf line)) (valueOf line) := by
  have hv : Bare isspace (valueOf line) := bare_stripBy _
  cases kind with
  | backend name =>
    refine exists_congr fun k => and_congr_right fun _ => exists_congr fun x => ?_
    exact Form.read_iff_reads k.fits hv
  | server =>
    refine exists_congr fun k => and_congr_right fun _ => and_congr_right fun _ => ?_
    exact exists_congr fun x => Form.read_iff_reads k.fits hv
  | healthCheck =>
    refine exists_congr fun k => and_congr_right fun _ => and_congr_right fun _ => ?_
    exact exists_congr fun x => Form.read_iff_reads k.fits hv

theorem Heading.unique {name : Text} {kind kind' : Kind} (h : Heading name kind)
    (h' : Heading name kind') : kind = kind' := by
  rw [← kindOf_eq_some] at h h'
  exact Option.some.inj (h.symm.trans h')

theorem Heading.name_ne_nil {text name : Text} (h : Heading text (.backend name)) : name ≠ [] := by
  cases h with
  | backend _ hrest => exact hrest

/-- The values of a key, collected line by line. -/
theorem flatMap_pairOf (lines : List Text) (key : Text) :
    ((lines.map pairOf).flatMap fun a => if a.1 = key then [a.2] else []) =
      (lines.filter fun line => lower (keyOf line) = key).map valueOf := by
  induction lines with
  | nil => rfl
  | cons line lines ih =>
    rw [List.map_cons, List.flatMap_cons, ih]
    by_cases h : lower (keyOf line) = key
    · rw [List.filter_cons_of_pos (by simp [h]), List.map_cons,
        if_pos (show (pairOf line).1 = key from h)]
      rfl
    · rw [List.filter_cons_of_neg (by simp [h]), if_neg (show ¬(pairOf line).1 = key from h)]
      rfl

namespace ReadsAs

variable {p : Paragraph} {sec : Section}

theorem is_iff (h : ReadsAs p sec) {kind : Kind} : p.Is kind ↔ sec.kind = kind := by
  constructor
  · exact fun hkind => h.kind.unique hkind
  · rintro rfl
    exact h.kind

theorem writes (h : ReadsAs p sec) (k : ScalarKey) :
    sec.writes k = if p.Is k.kind then p.values k.name else [] := by
  unfold Section.writes Paragraph.values
  simp only [h.is_iff]
  split
  · rename_i hkind
    rw [h.body, ← flatMap_pairOf]
    simp only [hkind, true_and]
  · rename_i hkind
    simp [hkind]

theorem valuesOf (h : ReadsAs p sec) (k : BackendKey) :
    valuesOf sec.body k = p.values k.name := by
  unfold ConfigLoader.valuesOf Paragraph.values
  rw [h.body, flatMap_pairOf]

theorem valid_iff (h : ReadsAs p sec) : sec.Valid ↔
    (∀ line ∈ p.body, Takes sec.kind (lower (keyOf line)) (valueOf line)) ∧
      ∀ name, p.Is (.backend name) →
        p.values BackendKey.host.name ≠ [] ∧ p.values BackendKey.port.name ≠ [] := by
  have hknown : (∀ a ∈ sec.body, Known sec.kind a) ↔
      ∀ line ∈ p.body, Takes sec.kind (lower (keyOf line)) (valueOf line) := by
    rw [h.body, List.forall_mem_map]
    exact forall₂_congr fun line _ => known_iff_takes sec.kind line
  have hcomplete : Complete sec ↔ ∀ name, p.Is (.backend name) →
      p.values BackendKey.host.name ≠ [] ∧ p.values BackendKey.port.name ≠ [] := by
    simp only [h.is_iff, ← h.valuesOf]
    have hkind := h.kind
    obtain ⟨kind, body⟩ := sec
    cases kind with
    | server => exact ⟨fun _ _ hname => (by cases hname), fun _ => trivial⟩
    | healthCheck => exact ⟨fun _ _ hname => (by cases hname), fun _ => trivial⟩
    | backend name =>
      constructor
      · rintro ⟨-, hvalues⟩ _ _
        exact hvalues
      · intro hvalues
        exact ⟨hkind.name_ne_nil, hvalues name rfl⟩
  rw [← hknown, ← hcomplete]
  exact ⟨fun h => ⟨h.known, h.complete⟩, fun h => ⟨h.1, h.2⟩⟩

end ReadsAs

variable {ps : List Paragraph} {secs : List Section} {c : AppConfig}

theorem writes_eq (h : List.Forall₂ ReadsAs ps secs) (k : ScalarKey) :
    secs.flatMap (·.writes k) = (ps.filter (·.Is k.kind)).flatMap (·.values k.name) := by
  induction h with
  | nil => rfl
  | @cons p sec ps secs hsec _ ih =>
    rw [List.flatMap_cons, ih, hsec.writes]
    by_cases hkind : p.Is k.kind
    · rw [if_pos hkind, List.filter_cons_of_pos (by simp [hkind]), List.flatMap_cons]
    · rw [if_neg hkind, List.filter_cons_of_neg (by simp [hkind]), List.nil_append]

theorem bare_of_mem_values {p : Paragraph} {key value : Text} (h : value ∈ p.values key) :
    Bare isspace value := by
  obtain ⟨line, -, rfl⟩ := List.mem_map.mp h
  exact bare_stripBy _

theorem describesBackend_iff {p : Paragraph} {name : Text} {body : List (Text × Text)}
    (h : ReadsAs p ⟨.backend name, body⟩) {b : BackendConfig} :
    DescribesBackend (name, body) b ↔ DefinesBackend p b := by
  have hname : b.name.toList = name ↔ p.Is (.backend b.name.toList) := by
    rw [h.is_iff, Kind.backend.injEq]
    exact eq_comm
  have hfield : ∀ k : BackendKey,
      Latest (fun v x => k.form.read v = some x) k.initial (valuesOf body k) (k.get b) ↔
        Latest k.form.Reads k.initial (p.values k.name) (k.get b) := by
    intro k
    rw [← h.valuesOf k]
    refine latest_congr fun v hv => Form.read_iff_reads k.fits ?_
    rw [h.valuesOf k] at hv
    exact bare_of_mem_values hv
  constructor
  · intro hb
    exact ⟨hname.mp hb.name, fun k => (hfield k).mp (hb.field k)⟩
  · intro hb
    exact ⟨hname.mpr hb.name, fun k => (hfield k).mpr (hb.field k)⟩

theorem describesBackends_iff (h : List.Forall₂ ReadsAs ps secs) {bs : List BackendConfig} :
    List.Forall₂ DescribesBackend (secs.flatMap (·.backend?.toList)) bs ↔
      List.Forall₂ DefinesBackend (ps.filter (·.isBackend)) bs := by
  induction h generalizing bs with
  | nil => simp
  | @cons p sec ps secs hsec _ ih =>
    rw [List.flatMap_cons]
    obtain ⟨kind, body⟩ := sec
    cases kind with
    | backend name =>
      have hp : p.isBackend = true := Paragraph.isBackend_iff.mpr ⟨name, hsec.is_iff.mpr rfl⟩
      rw [List.filter_cons_of_pos hp]
      change List.Forall₂ _ ((name, body) :: _) bs ↔ _
      cases bs with
      | nil => simp
      | cons b bs =>
        rw [List.forall₂_cons, List.forall₂_cons, describesBackend_iff hsec]
        exact and_congr_right fun _ => ih
    | server =>
      have hp : ¬p.isBackend = true := by
        rw [Paragraph.isBackend_iff]
        rintro ⟨name, hname⟩
        cases hsec.is_iff.mp hname
      rw [List.filter_cons_of_neg hp]
      exact ih
    | healthCheck =>
      have hp : ¬p.isBackend = true := by
        rw [Paragraph.isBackend_iff]
        rintro ⟨name, hname⟩
        cases hsec.is_iff.mp hname
      rw [List.filter_cons_of_neg hp]
      exact ih

theorem describes_iff_meaning {file : Text} (h : List.Forall₂ ReadsAs (sections file) secs) :
    Describes secs c ↔ Meaning file c := by
  have hscalar : ∀ k : ScalarKey,
      Latest (fun v x => k.form.read v = some x) (k.get {}) (secs.flatMap (·.writes k)) (k.get c) ↔
        Yields file k (k.get c) := by
    intro k
    rw [writes_eq h]
    refine latest_congr fun v hv => Form.read_iff_reads k.fits ?_
    obtain ⟨p, -, hp⟩ := List.mem_flatMap.mp hv
    exact bare_of_mem_values hp
  constructor
  · intro hc
    exact ⟨fun k => (hscalar k).mp (hc.scalar k), (describesBackends_iff h).mp hc.backends⟩
  · intro hc
    exact ⟨fun k => (hscalar k).mpr (hc.scalar k), (describesBackends_iff h).mpr hc.backends⟩

/-! ## The loader and the grammar -/

theorem Denotes.unique {value : Text} {n n' : Int} (h : Denotes value n) (h' : Denotes value n') :
    n = n' := by
  rw [(denotes_iff.mp h).2, (denotes_iff.mp h').2]

theorem Form.Reads.unique {form : Form} {value : Text} {x x' : Setting} (h : form.Reads value x)
    (h' : form.Reads value x') : x = x' := by
  cases form with
  | verbatim => exact Eq.trans h (Eq.symm h')
  | lowered => exact Eq.trans h (Eq.symm h')
  | number minimum maximum =>
    obtain ⟨n, rfl, hn, -⟩ := h
    obtain ⟨n', rfl, hn', -⟩ := h'
    rw [hn.unique hn']

theorem Yields.unique {file : Text} {k : ScalarKey} {x x' : Setting} (h : Yields file k x)
    (h' : Yields file k x') : x = x' :=
  Latest.unique (fun _ _ _ hx hx' => hx.unique hx') h h'

theorem nodup_names_iff {bs : List BackendConfig} (h : List.Forall₂ DefinesBackend ps bs) :
    (bs.map (·.name)).Nodup ↔ ps.Pairwise fun p q =>
      ∀ name name', p.Is (.backend name) → q.Is (.backend name') → name ≠ name' := by
  have hname : ∀ {p b}, DefinesBackend p b → ∀ {name}, p.Is (.backend name) →
      name = b.name.toList := by
    intro p b hb name hp
    exact Kind.backend.inj (hp.unique hb.name)
  unfold List.Nodup
  rw [List.pairwise_map]
  refine (pairwise_iff_of_forall₂ h ?_).symm
  intro p b q b' hb hb'
  constructor
  · intro hne heq
    exact hne _ _ hb.name hb'.name (by rw [heq])
  · intro hne name name' hp hq heq
    refine hne (String.toList_inj.mp ?_)
    rw [← hname hb hp, ← hname hb' hq, heq]

theorem acceptable_iff {file : Text} (h : Meaning file c) : Acceptable c ↔
    (∃ p ∈ sections file, ∃ name, p.Is (.backend name)) ∧
      ((sections file).Pairwise fun p q =>
        ∀ name name', p.Is (.backend name) → q.Is (.backend name') → name ≠ name') ∧
      ∃ timeout interval, Yields file .timeoutMs (.number timeout) ∧
        Yields file .intervalMs (.number interval) ∧ timeout < interval := by
  have hnonempty : c.backends ≠ [] ↔ ∃ p ∈ sections file, ∃ name, p.Is (.backend name) := by
    have hlength := h.backends.length_eq
    rw [← List.length_pos_iff, ← hlength, List.length_pos_iff_exists_mem]
    simp only [List.mem_filter, Paragraph.isBackend_iff]
  have hnames : (c.backends.map (·.name)).Nodup ↔ (sections file).Pairwise fun p q =>
      ∀ name name', p.Is (.backend name) → q.Is (.backend name') → name ≠ name' := by
    rw [nodup_names_iff h.backends, List.pairwise_filter]
    refine List.Pairwise.iff fun p q => ⟨?_, fun hne _ _ => hne⟩
    intro hne name name' hp hq
    exact hne (Paragraph.isBackend_iff.mpr ⟨name, hp⟩) (Paragraph.isBackend_iff.mpr ⟨name', hq⟩)
      name name' hp hq
  have htimeout : c.healthCheckTimeoutMs < c.healthCheckIntervalMs ↔
      ∃ timeout interval, Yields file .timeoutMs (.number timeout) ∧
        Yields file .intervalMs (.number interval) ∧ timeout < interval := by
    constructor
    · intro hlt
      exact ⟨c.healthCheckTimeoutMs, c.healthCheckIntervalMs, h.scalar .timeoutMs,
        h.scalar .intervalMs, by omega⟩
    · rintro ⟨timeout, interval, htimeout, hinterval, hlt⟩
      cases htimeout.unique (h.scalar .timeoutMs)
      cases hinterval.unique (h.scalar .intervalMs)
      omega
  rw [← hnonempty, ← hnames, ← htimeout]
  exact ⟨fun h => ⟨h.nonempty, h.names, h.timeout⟩, fun h => ⟨h.1, h.2.2, h.2.1⟩⟩

theorem mem_headers {lines : List Text} {line : Text} :
    (∃ p ∈ (paragraphs lines).2, p.header = line) ↔ line ∈ lines ∧ isHeader line = true := by
  induction lines with
  | nil => simp [paragraphs]
  | cons line' lines ih =>
    rw [paragraphs]
    split
    · rename_i hheader
      simp only [List.mem_cons, exists_eq_or_imp, ih]
      constructor
      · rintro (rfl | ⟨hmem, h⟩)
        · exact ⟨.inl rfl, hheader⟩
        · exact ⟨.inr hmem, h⟩
      · rintro ⟨rfl | hmem, h⟩
        · exact .inl rfl
        · exact .inr ⟨hmem, h⟩
    · rename_i hheader
      simp only [List.mem_cons, ih]
      constructor
      · rintro ⟨hmem, h⟩
        exact ⟨.inr hmem, h⟩
      · rintro ⟨rfl | hmem, h⟩
        · exact absurd h hheader
        · exact ⟨hmem, h⟩

theorem headings_iff {file : Text} :
    (∀ line ∈ significant file, isHeader line = true → ∃ kind, Heading (inside line) kind) ↔
      ∀ p ∈ sections file, ∃ kind, p.Is kind := by
  constructor
  · intro h p hp
    obtain ⟨hmem, hheader⟩ := mem_headers.mp ⟨p, hp, rfl⟩
    exact h p.header hmem hheader
  · intro h line hmem hheader
    obtain ⟨p, hp, rfl⟩ := mem_headers.mpr ⟨hmem, hheader⟩
    exact h p hp

theorem valid_iff {file : Text} (h : List.Forall₂ ReadsAs (sections file) secs) :
    (∀ sec ∈ secs, sec.Valid) ↔
      (∀ p ∈ sections file, ∀ kind, p.Is kind →
        ∀ line ∈ p.body, Takes kind (lower (keyOf line)) (valueOf line)) ∧
      ∀ p ∈ sections file, ∀ name, p.Is (.backend name) →
        p.values BackendKey.host.name ≠ [] ∧ p.values BackendKey.port.name ≠ [] := by
  have hsec : (∀ p ∈ sections file,
      (∀ kind, p.Is kind → ∀ line ∈ p.body, Takes kind (lower (keyOf line)) (valueOf line)) ∧
        ∀ name, p.Is (.backend name) →
          p.values BackendKey.host.name ≠ [] ∧ p.values BackendKey.port.name ≠ []) ↔
      ∀ sec ∈ secs, sec.Valid := by
    refine forall_mem_iff_of_forall₂ h fun p sec hreads => ?_
    rw [hreads.valid_iff]
    refine and_congr_left fun _ => ⟨fun hall => hall sec.kind hreads.kind, ?_⟩
    rintro hall kind hkind
    rw [← hreads.is_iff.mp hkind]
    exact hall
  rw [← hsec]
  exact ⟨fun hall => ⟨fun p hp => (hall p hp).1, fun p hp => (hall p hp).2⟩,
    fun hall p hp => ⟨hall.1 p hp, hall.2 p hp⟩⟩

/-- The loader accepts the files of the grammar, and no other; what it returns is what the file
means. -/
theorem load_grammar (path file : Text) :
    ((∃ c, load path (some file) = .ok c) ↔ Grammar file) ∧
      ∀ c, load path (some file) = .ok c → Meaning file c := by
  simp only [load_eq_ok]
  refine ⟨⟨?_, ?_⟩, ?_⟩
  · rintro ⟨c, secs, hsecs, hvalid, hdescribes, hc⟩
    obtain ⟨hlines, hpre, hreads⟩ := reading_eq_some.mp hsecs
    have hmeaning := (describes_iff_meaning hreads).mp hdescribes
    obtain ⟨hknown, hcomplete⟩ := (valid_iff hreads).mp hvalid
    obtain ⟨hbackend, hdistinct, htimeout⟩ := (acceptable_iff hmeaning).mp hc
    have hheadings : ∀ p ∈ sections file, ∃ kind, p.Is kind :=
      (forall_mem_iff_of_forall₂ hreads fun p sec h => iff_of_true ⟨sec.kind, h.kind⟩ trivial).mpr
        fun _ _ => trivial
    refine ⟨fun line hline => ?_, headings_iff.mpr hheadings, hpre, hknown, hcomplete, hbackend,
      hdistinct, htimeout⟩
    cases hheader : isHeader line with
    | true => exact .inl rfl
    | false => exact .inr (hlines line hline hheader)
  · intro h
    obtain ⟨secs, hreads⟩ : ∃ secs, List.Forall₂ ReadsAs (sections file) secs := by
      refine exists_forall₂ fun p hp => ?_
      obtain ⟨kind, hkind⟩ := headings_iff.mp h.header p hp
      exact ⟨⟨kind, p.body.map pairOf⟩, hkind, rfl⟩
    have hsecs : reading (records '\n' file) = some secs := by
      refine reading_eq_some.mpr ⟨fun line hline hheader => ?_, h.headed, hreads⟩
      refine (h.line line hline).resolve_left ?_
      rw [hheader]
      exact Bool.false_ne_true
    have hvalid := (valid_iff hreads).mpr ⟨h.known, h.complete⟩
    obtain ⟨c, hdescribes⟩ := exists_describes hvalid
    have hmeaning := (describes_iff_meaning hreads).mp hdescribes
    exact ⟨c, secs, hsecs, hvalid, hdescribes,
      (acceptable_iff hmeaning).mpr ⟨h.backend, h.distinct, h.timeout⟩⟩
  · rintro c ⟨secs, hsecs, -, hdescribes, -⟩
    obtain ⟨-, -, hreads⟩ := reading_eq_some.mp hsecs
    exact (describes_iff_meaning hreads).mp hdescribes

namespace Demo

/-- One backend, and all else left to the defaults. -/
def smallFile : Text := "[backend a]\nhost = h # not a name\nport=+80\n".toList

def smallConfig : AppConfig where
  backends := [{ name := "a", host := "h", port := 80, weight := 1 }]

end Demo

theorem load_grammar_small : Grammar Demo.smallFile ∧ Meaning Demo.smallFile Demo.smallConfig :=
  ⟨(load_grammar [] Demo.smallFile).1.mp ⟨Demo.smallConfig, rfl⟩,
    (load_grammar [] Demo.smallFile).2 Demo.smallConfig rfl⟩

end FluxGate.ConfigLoader
