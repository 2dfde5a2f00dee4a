import FluxGate.ConfigGrammar

/-!
# Writing a configuration and reading it back

`render` writes a configuration in the layout of `config/fluxgate.conf`: every
field as `key = value`, under `[server]`, `[health_check]` and one
`[backend NAME]` for each backend. A configuration within the loader's ranges
whose texts can stand in a line comes back as it was.
-/

namespace FluxGate.ConfigLoader

open Lib Loader

/-! ## The text of a configuration -/

def Setting.spell : Setting → Text
  | .text t => t
  | .number n => Nat.toDigits 10 n.toNat

def Kind.line : Kind → Text
  | .server => "[server]".toList
  | .healthCheck => "[health_check]".toList
  | .backend name => "[backend ".toList ++ name ++ "]".toList

theorem Kind.line_backend (name : Text) :
    Kind.line (.backend name) = "[backend ".toList ++ name ++ "]".toList := rfl

def assignmentLine (a : Text × Text) : Text := a.1 ++ " = ".toList ++ a.2

/-- A section, and an empty line after it. -/
def Section.lines (sec : Section) : List Text :=
  sec.kind.line :: (sec.body.map assignmentLine ++ [[]])

def serverKeys : List ScalarKey :=
  [.listenHost, .listenPort, .workers, .backlog, .maxEvents, .bufferSize, .connectTimeoutMs,
    .idleTimeoutSeconds, .statsIntervalSeconds, .logLevel]

def healthKeys : List ScalarKey := [.intervalMs, .timeoutMs, .failureThreshold, .successThreshold]

def scalarSection (kind : Kind) (keys : List ScalarKey) (c : AppConfig) : Section :=
  ⟨kind, keys.map fun k => (k.name, (k.get c).spell)⟩

/-- The weight may be left out where `omitWeight` says so. -/
def backendKeys (omitWeight : BackendConfig → Bool) (b : BackendConfig) : List BackendKey :=
  if omitWeight b then [.host, .port] else [.host, .port, .weight]

def backendSection (omitWeight : BackendConfig → Bool) (b : BackendConfig) : Section :=
  ⟨.backend b.name.toList, (backendKeys omitWeight b).map fun k => (k.name, (k.get b).spell)⟩

def configSections (omitWeight : BackendConfig → Bool) (c : AppConfig) : List Section :=
  scalarSection .server serverKeys c :: scalarSection .healthCheck healthKeys c ::
    c.backends.map (backendSection omitWeight)

def render (omitWeight : BackendConfig → Bool) (c : AppConfig) : Text :=
  ((configSections omitWeight c).flatMap Section.lines).flatMap (· ++ ['\n'])

/-! ## Lines and their items -/

/-- A text that can be a value or a name: not empty, no space around it, and no character that
ends a line or starts a comment. -/
structure Plain (t : Text) : Prop where
  ne_nil : t ≠ []
  bare : Bare isspace t
  ordinary : ∀ c ∈ t, c ≠ '\n' ∧ c ≠ '#' ∧ c ≠ ';'

/-- A text such as the keys are. -/
def KeyLike (key : Text) : Prop := key ≠ [] ∧ ∀ c ∈ key, (c.isLower || c = '_') = true

theorem isComment_eq_false {c : Char} (h : c ≠ '\n' ∧ c ≠ '#' ∧ c ≠ ';') : isComment c = false := by
  simp [isComment, h.2.1, h.2.2]

/-- Letters and underscores are none of the characters that the loader looks for. -/
theorem KeyLike.ordinary {c : Char} (h : (c.isLower || c = '_') = true) :
    isspace c = false ∧ isComment c = false ∧ c ≠ '=' ∧ c ≠ '[' ∧ c ≠ '\n' := by
  have hne : ∀ d : Char, (d.isLower || d = '_') = false → c ≠ d := by
    rintro d hd rfl
    rw [h] at hd
    cases hd
  simp [isspace, isComment, hne ' ' rfl, hne '\t' rfl, hne '\n' rfl, hne '\x0b' rfl,
    hne '\x0c' rfl, hne '\r' rfl, hne '#' rfl, hne ';' rfl, hne '=' rfl, hne '[' rfl]

theorem KeyLike.lower_eq {key : Text} (h : KeyLike key) : lower key = key := by
  unfold lower
  conv_rhs => rw [← List.map_id key]
  refine List.map_congr_left fun c hc => ?_
  have hc := h.2 c hc
  rw [Bool.or_eq_true, decide_eq_true_eq] at hc
  rcases hc with hc | rfl
  · exact Char.toLower_eq_of_not_isUpper (Char.not_isUpper_of_isLower hc)
  · rfl

theorem trim_of_bare {t : Text} (h : Bare isspace t) : trim t = t := stripBy_of_bare h

theorem clean_of_bare {line : Text} (hbare : Bare isspace line)
    (h : ∀ c ∈ line, isComment c = false) : clean line = line := by
  unfold clean
  rw [before_of_none h, trim_of_bare hbare]

theorem itemOf_assignmentLine {key value : Text} (hkey : KeyLike key) (hvalue : Plain value) :
    itemOf (assignmentLine (key, value)) = some (.assignment key value) := by
  obtain ⟨c, key', rfl⟩ := List.exists_cons_of_ne_nil hkey.1
  have hc := KeyLike.ordinary (hkey.2 c List.mem_cons_self)
  have hline : assignmentLine (c :: key', value) = (c :: key' ++ [' ']) ++ '=' :: (' ' :: value) := by
    simp [assignmentLine]
  have hkeybare : Bare isspace (c :: key') := by
    refine ⟨fun d hd => ?_, fun d hd => ?_⟩
    · exact (KeyLike.ordinary (hkey.2 d (List.mem_of_mem_head? hd))).1
    · exact (KeyLike.ordinary (hkey.2 d (List.mem_of_mem_getLast? hd))).1
  have hbare : Bare isspace (assignmentLine (c :: key', value)) := by
    rw [hline]
    refine ⟨fun d hd => ?_, fun d hd => hvalue.bare.last d ?_⟩
    · cases hd
      exact hc.1
    · obtain ⟨v, value', rfl⟩ := List.exists_cons_of_ne_nil hvalue.ne_nil
      rw [List.getLast?_append, List.getLast?_cons_cons, List.getLast?_cons_cons] at hd
      rw [← hd]
      cases h : (v :: value').getLast? with
      | none => simp at h
      | some w => rfl
  have hcomment : ∀ d ∈ assignmentLine (c :: key', value), isComment d = false := by
    intro d hd
    simp only [assignmentLine, List.mem_append] at hd
    rcases hd with (hd | hd) | hd
    · exact (KeyLike.ordinary (hkey.2 d hd)).2.1
    · have hall : ∀ d ∈ " = ".toList, isComment d = false := forall_mem_of_all (by decide)
      exact hall d hd
    · exact isComment_eq_false (hvalue.ordinary d hd)
  have hsep : '=' ∉ c :: key' ++ [' '] := by
    rw [List.mem_append]
    rintro (h | h)
    · exact (KeyLike.ordinary (hkey.2 _ h)).2.2.1 rfl
    · revert h
      decide
  have hheader : isHeader ((c :: key' ++ [' ']) ++ '=' :: (' ' :: value)) = false := by
    simp [isHeader, hc.2.2.2.1]
  have hspace : ∀ d ∈ [' '], isspace d = true := forall_mem_of_all (by decide)
  rw [itemOf_assignment ((clean_of_bare hbare hcomment).trans hline) hsep hheader]
  have hkeytrim : trim (c :: key' ++ [' ']) = c :: key' := by
    rw [trim, stripBy_append_right hspace, stripBy_of_bare hkeybare]
  have hvaluetrim : trim (' ' :: value) = value := by
    rw [← List.singleton_append, trim, stripBy_append_left hspace, stripBy_of_bare hvalue.bare]
  rw [hkeytrim, hvaluetrim, if_pos ⟨hkey.1, hvalue.ne_nil⟩, hkey.lower_eq]

theorem itemOf_kindLine {kind : Kind} (h : ∀ name, kind = .backend name → Plain name) :
    itemOf kind.line = some (.header kind) := by
  cases kind with
  | server => rfl
  | healthCheck => rfl
  | backend name =>
    have hname := h name rfl
    have hline : Kind.line (.backend name) = '[' :: (("backend".toList ++ ' ' :: name) ++ [']']) := by
      rw [Kind.line_backend, show "[backend ".toList = '[' :: ("backend".toList ++ [' ']) from rfl,
        List.cons_append, List.cons_append, List.append_assoc, List.append_assoc,
        List.append_assoc]
      rfl
    have hbare : Bare isspace (Kind.line (.backend name)) := by
      rw [hline]
      refine ⟨fun c hc => ?_, fun c hc => ?_⟩
      · cases hc
        rfl
      · rw [← List.cons_append, List.getLast?_concat] at hc
        cases hc
        rfl
    have hcomment : ∀ c ∈ Kind.line (.backend name), isComment c = false := by
      intro c hc
      simp only [Kind.line_backend, List.mem_append] at hc
      rcases hc with (hc | hc) | hc
      · have hall : ∀ c ∈ "[backend ".toList, isComment c = false := forall_mem_of_all (by decide)
        exact hall c hc
      · exact isComment_eq_false (hname.ordinary c hc)
      · have hall : ∀ c ∈ "]".toList, isComment c = false := forall_mem_of_all (by decide)
        exact hall c hc
    have hinside : Bare isspace ("backend".toList ++ ' ' :: name) := by
      obtain ⟨n, name', rfl⟩ := List.exists_cons_of_ne_nil hname.ne_nil
      refine ⟨fun c hc => ?_, fun c hc => hname.bare.last c ?_⟩
      · cases hc
        rfl
      · rw [List.getLast?_append, List.getLast?_cons_cons] at hc
        rw [← hc]
        cases h : (n :: name').getLast? with
        | none => simp at h
        | some w => rfl
    have hkind : kindOf ("backend".toList ++ ' ' :: name) = some (.backend name) := by
      have htrim : trim name = name := trim_of_bare hname.bare
      have hheading := @Heading.backend "backend".toList name rfl (by rw [htrim]; exact hname.ne_nil)
      rw [htrim] at hheading
      exact kindOf_eq_some.mpr hheading
    rw [itemOf_header ((clean_of_bare hbare hcomment).trans hline), trim_of_bare hinside, hkind]
    rfl

/-! ## Sections and their lines -/

/-- A section that can be written. -/
structure Writable (sec : Section) : Prop where
  name : ∀ name, sec.kind = .backend name → Plain name
  body : ∀ a ∈ sec.body, KeyLike a.1 ∧ Plain a.2

def Section.items (sec : Section) : List Item :=
  .header sec.kind :: (sec.body.map (fun a => Item.assignment a.1 a.2) ++ [.blank])

theorem mapM_assignmentLine {body : List (Text × Text)} (h : ∀ a ∈ body, KeyLike a.1 ∧ Plain a.2) :
    (body.map assignmentLine).mapM itemOf = some (body.map fun a => Item.assignment a.1 a.2) := by
  induction body with
  | nil => rfl
  | cons a body ih =>
    have ha := h a List.mem_cons_self
    rw [List.map_cons, List.mapM_cons, itemOf_assignmentLine ha.1 ha.2,
      ih fun b hb => h b (List.mem_cons_of_mem a hb)]
    rfl

theorem mapM_lines {sec : Section} (h : Writable sec) :
    sec.lines.mapM itemOf = some sec.items := by
  have hblank : itemOf [] = some .blank := rfl
  unfold Section.lines Section.items
  rw [List.mapM_cons, List.mapM_append, itemOf_kindLine h.name,
    mapM_assignmentLine h.body, List.mapM_cons, hblank]
  rfl

theorem group_items (sec : Section) (items : List Item) :
    group (sec.items ++ items) =
      ([], ⟨sec.kind, sec.body ++ (group items).1⟩ :: (group items).2) := by
  have hbody : group (sec.body.map (fun a => Item.assignment a.1 a.2) ++ .blank :: items) =
      (sec.body ++ (group items).1, (group items).2) := by
    induction sec.body with
    | nil => rfl
    | cons a body ih =>
      rw [List.map_cons, List.cons_append, group, ih]
      rfl
  rw [Section.items, List.cons_append, List.append_assoc, List.singleton_append, group, hbody]

theorem group_flatMap_items (secs : List Section) :
    group (secs.flatMap Section.items) = ([], secs) := by
  induction secs with
  | nil => rfl
  | cons sec secs ih => rw [List.flatMap_cons, group_items, ih, List.append_nil]

/-- What is written section by section is read as these sections. -/
theorem reading_lines {secs : List Section} (h : ∀ sec ∈ secs, Writable sec) :
    reading (secs.flatMap Section.lines) = some secs := by
  have hitems : (secs.flatMap Section.lines).mapM itemOf = some (secs.flatMap Section.items) := by
    induction secs with
    | nil => rfl
    | cons sec secs ih =>
      rw [List.flatMap_cons, List.flatMap_cons, List.mapM_append,
        mapM_lines (h sec List.mem_cons_self),
        ih fun s hs => h s (List.mem_cons_of_mem sec hs)]
      rfl
  unfold reading
  rw [hitems, Option.bind_some, group_flatMap_items]
  rfl

theorem newline_not_mem_lines {sec : Section} (h : Writable sec) :
    ∀ line ∈ sec.lines, '\n' ∉ line := by
  intro line hline
  rw [Section.lines, List.mem_cons, List.mem_append, List.mem_map, List.mem_singleton] at hline
  rcases hline with rfl | ⟨a, ha, rfl⟩ | rfl
  · cases hkind : sec.kind with
    | server => decide
    | healthCheck => decide
    | backend name =>
      simp only [Kind.line_backend, List.mem_append]
      rintro ((hmem | hmem) | hmem)
      · revert hmem
        decide
      · exact ((h.name name hkind).ordinary _ hmem).1 rfl
      · revert hmem
        decide
  · obtain ⟨hkey, hvalue⟩ := h.body a ha
    simp only [assignmentLine, List.mem_append]
    rintro ((hmem | hmem) | hmem)
    · exact (KeyLike.ordinary (hkey.2 _ hmem)).2.2.2.2 rfl
    · revert hmem
      decide
    · exact (hvalue.ordinary _ hmem).1 rfl
  · exact List.not_mem_nil

/-! ## Reading back -/

/-- A setting that the loader can read in this form. -/
def Form.Holds : Form → Setting → Prop
  | verbatim, .text t => Plain t
  | lowered, .text t => Plain t ∧ lower t = t
  | number minimum maximum, .number n => minimum ≤ n ∧ n ≤ maximum
  | _, _ => False

theorem plain_toDigits (n : Nat) : Plain (Nat.toDigits 10 n) := by
  have hdigit : ∀ c ∈ Nat.toDigits 10 n, c.isDigit = true := fun c hc =>
    Nat.isDigit_of_mem_toDigits (by decide) (by decide) hc
  have hne : ∀ c ∈ Nat.toDigits 10 n, ∀ d : Char, d.isDigit = false → c ≠ d := by
    rintro c hc d hd rfl
    rw [hdigit c hc] at hd
    cases hd
  have hspace : ∀ c ∈ Nat.toDigits 10 n, isspace c = false := by
    intro c hc
    have hc := hne c hc
    simp [isspace, hc ' ' rfl, hc '\t' rfl, hc '\n' rfl, hc '\x0b' rfl, hc '\x0c' rfl, hc '\r' rfl]
  refine ⟨Nat.toDigits_ne_nil, ⟨fun c hc => ?_, fun c hc => ?_⟩, fun c hc => ?_⟩
  · exact hspace c (List.mem_of_mem_head? hc)
  · exact hspace c (List.mem_of_mem_getLast? hc)
  · exact ⟨hne c hc _ rfl, hne c hc _ rfl, hne c hc _ rfl⟩

theorem Form.Holds.plain {form : Form} {x : Setting} (h : form.Holds x) : Plain x.spell := by
  cases form <;> cases x <;> first | exact h | exact h.1 | exact plain_toDigits _ | cases h

theorem Form.Holds.read {form : Form} (hform : form.Fits) {x : Setting} (h : form.Holds x) :
    form.read x.spell = some x := by
  rw [Form.read_iff_reads hform h.plain.bare]
  cases form with
  | verbatim =>
    cases x with
    | text t => rfl
    | number n => cases h
  | lowered =>
    cases x with
    | text t => exact congrArg Setting.text h.2.symm
    | number n => cases h
  | number minimum maximum =>
    cases x with
    | text t => cases h
    | number n =>
      have hdigits : Digits (Nat.toDigits 10 n.toNat) := ⟨Nat.toDigits_ne_nil, fun c hc =>
        Nat.isDigit_of_mem_toDigits (by decide) (by decide) hc⟩
      have hmagnitude : magnitude (Nat.toDigits 10 n.toNat) = n.toNat :=
        Nat.ofDigitChars_ten_toDigits
      have hdenotes := Denotes.plain hdigits
      rw [hmagnitude, Int.toNat_of_nonneg (Int.le_trans hform.1 h.1)] at hdenotes
      exact ⟨n, rfl, hdenotes, h⟩

/-- A configuration within the ranges of the loader. -/
structure Expressible (c : AppConfig) : Prop where
  scalar : ∀ k : ScalarKey, k.form.Holds (k.get c)
  name : ∀ b ∈ c.backends, Plain b.name.toList
  backend : ∀ b ∈ c.backends, ∀ k : BackendKey, k.form.Holds (k.get b)
  nonempty : c.backends ≠ []
  names : (c.backends.map (·.name)).Nodup
  timeout : c.healthCheckTimeoutMs < c.healthCheckIntervalMs

theorem ScalarKey.keyLike (k : ScalarKey) : KeyLike k.name := by
  cases k <;> exact ⟨by decide, forall_mem_of_all (by decide)⟩

theorem BackendKey.keyLike (k : BackendKey) : KeyLike k.name := by
  cases k <;> exact ⟨by decide, forall_mem_of_all (by decide)⟩

variable {c : AppConfig} {omitWeight : BackendConfig → Bool}

theorem scalarSection_writable (h : Expressible c) {kind : Kind} {keys : List ScalarKey}
    (hkind : ∀ name, kind ≠ .backend name) : Writable (scalarSection kind keys c) where
  name name hname := absurd hname (hkind name)
  body := by
    rw [scalarSection, List.forall_mem_map]
    exact fun k _ => ⟨k.keyLike, (h.scalar k).plain⟩

theorem backendSection_writable (h : Expressible c) {b : BackendConfig} (hb : b ∈ c.backends) :
    Writable (backendSection omitWeight b) where
  name name hname := by
    cases hname
    exact h.name b hb
  body := by
    rw [backendSection, List.forall_mem_map]
    exact fun k _ => ⟨k.keyLike, (h.backend b hb k).plain⟩

theorem forall_configSections {P : Section → Prop}
    (hserver : P (scalarSection .server serverKeys c))
    (hhealth : P (scalarSection .healthCheck healthKeys c))
    (hbackend : ∀ b ∈ c.backends, P (backendSection omitWeight b)) :
    ∀ sec ∈ configSections omitWeight c, P sec := by
  intro sec hsec
  rw [configSections, List.mem_cons, List.mem_cons, List.mem_map] at hsec
  rcases hsec with rfl | rfl | ⟨b, hb, rfl⟩
  · exact hserver
  · exact hhealth
  · exact hbackend b hb

theorem configSections_writable (h : Expressible c) :
    ∀ sec ∈ configSections omitWeight c, Writable sec :=
  forall_configSections (scalarSection_writable h fun _ => Kind.noConfusion)
    (scalarSection_writable h fun _ => Kind.noConfusion)
    fun _ hb => backendSection_writable h hb

theorem backendSection_valid (h : Expressible c) {b : BackendConfig} (hb : b ∈ c.backends) :
    (backendSection omitWeight b).Valid where
  known := by
    rw [backendSection, List.forall_mem_map]
    exact fun k _ => ⟨k, rfl, _, (h.backend b hb k).read k.fits⟩
  complete := by
    refine ⟨(h.name b hb).ne_nil, ?_⟩
    unfold backendKeys
    split <;> exact ⟨List.cons_ne_nil _ _, List.cons_ne_nil _ _⟩

theorem configSections_valid (h : Expressible c) :
    ∀ sec ∈ configSections omitWeight c, sec.Valid := by
  refine forall_configSections ⟨?_, trivial⟩ ⟨?_, trivial⟩ fun _ hb => backendSection_valid h hb
  · have hkind : ∀ k ∈ serverKeys, k.kind = .server := by decide
    rw [scalarSection, List.forall_mem_map]
    exact fun k hk => ⟨k, hkind k hk, rfl, _, (h.scalar k).read k.fits⟩
  · have hkind : ∀ k ∈ healthKeys, k.kind = .healthCheck := by decide
    rw [scalarSection, List.forall_mem_map]
    exact fun k hk => ⟨k, hkind k hk, rfl, _, (h.scalar k).read k.fits⟩

/-- Every scalar key is written once, in the section it belongs to. -/
theorem configSections_writes (k : ScalarKey) :
    (configSections omitWeight c).flatMap (·.writes k) = [(k.get c).spell] := by
  have hbackends : (c.backends.map (backendSection omitWeight)).flatMap (·.writes k) = [] := by
    rw [List.flatMap_eq_nil_iff, List.forall_mem_map]
    intro b _
    unfold Section.writes
    rw [List.flatMap_eq_nil_iff]
    intro a _
    exact if_neg fun h => by cases k <;> cases h.1
  rw [configSections, List.flatMap_cons, List.flatMap_cons, hbackends]
  cases k <;> rfl

theorem backendSection_describes (h : Expressible c)
    (homit : ∀ b ∈ c.backends, omitWeight b = true → b.weight = 1) {b : BackendConfig}
    (hb : b ∈ c.backends) :
    DescribesBackend (b.name.toList, (backendSection omitWeight b).body) b where
  name := rfl
  field k := by
    have hread := (h.backend b hb k).read k.fits
    unfold backendSection backendKeys
    cases homitted : omitWeight b with
    | true =>
      cases k with
      | host => exact latest_singleton.mpr hread
      | port => exact latest_singleton.mpr hread
      | weight =>
        have hweight := homit b hb homitted
        exact congrArg (fun w : Nat => Setting.number w) hweight
    | false => cases k <;> exact latest_singleton.mpr hread

theorem configSections_describes (h : Expressible c)
    (homit : ∀ b ∈ c.backends, omitWeight b = true → b.weight = 1) :
    Describes (configSections omitWeight c) c where
  scalar k := by
    rw [configSections_writes, latest_singleton]
    exact (h.scalar k).read k.fits
  backends := by
    have hbackends : (configSections omitWeight c).flatMap (·.backend?.toList) =
        c.backends.map fun b => (b.name.toList, (backendSection omitWeight b).body) := by
      rw [configSections, List.flatMap_cons, List.flatMap_cons]
      change (c.backends.map (backendSection omitWeight)).flatMap _ = _
      rw [List.flatMap_map, List.map_eq_flatMap]
      rfl
    rw [hbackends, List.forall₂_map_left_iff, List.forall₂_same]
    exact fun b hb => backendSection_describes h homit hb

/-- A configuration that is written and read again is unchanged, also where the weight one is
left out. -/
theorem load_render (path : Text) (c : AppConfig) (omitWeight : BackendConfig → Bool)
    (h : Expressible c) (homit : ∀ b ∈ c.backends, omitWeight b = true → b.weight = 1) :
    load path (some (render omitWeight c)) = .ok c := by
  have hlines : ∀ line ∈ (configSections omitWeight c).flatMap Section.lines, '\n' ∉ line := by
    intro line hline
    obtain ⟨sec, hsec, hline⟩ := List.mem_flatMap.mp hline
    exact newline_not_mem_lines (configSections_writable h sec hsec) line hline
  rw [load_eq_ok, render, records_flatMap hlines]
  exact ⟨configSections omitWeight c, reading_lines (configSections_writable h),
    configSections_valid h, configSections_describes h homit, h.nonempty, h.timeout, h.names⟩

namespace Demo

theorem plain_of_trim {t : Text} (hne : t ≠ []) (htrim : trim t = t)
    (h : ∀ c ∈ t, c ≠ '\n' ∧ c ≠ '#' ∧ c ≠ ';') : Plain t := by
  have hbare : Bare isspace (trim t) := bare_stripBy t
  rw [htrim] at hbare
  exact ⟨hne, hbare, h⟩

/-- A name with a bracket and a sign in it, and one of the words that the loader knows. -/
def twoBackends : AppConfig where
  backends := [{ name := "a]=b", host := "[::1]", port := 80, weight := 1 },
    { name := "server", host := "127.0.0.1", port := 9002, weight := 2 }]

theorem expressible_twoBackends : Expressible twoBackends where
  scalar k := by
    cases k
    case listenHost => exact plain_of_trim (by decide) (by decide) (forall_mem_of_all (by decide))
    case logLevel =>
      exact ⟨plain_of_trim (by decide) (by decide) (forall_mem_of_all (by decide)), by decide⟩
    all_goals exact ⟨by decide, by decide⟩
  name := by
    rw [twoBackends, List.forall_mem_cons, List.forall_mem_singleton]
    exact ⟨plain_of_trim (by decide) (by decide) (forall_mem_of_all (by decide)),
      plain_of_trim (by decide) (by decide) (forall_mem_of_all (by decide))⟩
  backend := by
    rw [twoBackends, List.forall_mem_cons, List.forall_mem_singleton]
    refine ⟨fun k => ?_, fun k => ?_⟩
    · cases k
      case host => exact plain_of_trim (by decide) (by decide) (forall_mem_of_all (by decide))
      all_goals exact ⟨by decide, by decide⟩
    · cases k
      case host => exact plain_of_trim (by decide) (by decide) (forall_mem_of_all (by decide))
      all_goals exact ⟨by decide, by decide⟩
  nonempty := List.cons_ne_nil _ _
  names := by decide
  timeout := by decide

end Demo

theorem load_render_twoBackends :
    load [] (some (render (fun b => b.weight = 1) Demo.twoBackends)) = .ok Demo.twoBackends :=
  load_render [] Demo.twoBackends (fun b => b.weight = 1) Demo.expressible_twoBackends
    fun _ _ h => of_decide_eq_true h

end FluxGate.ConfigLoader
