import FluxGate.ConfigGrammar
import FluxGate.ConfigLayout

/-!
# Why a configuration file is refused

`Grammar` says which files are configurations; here is what the others are
told. A line is judged by itself and by its place: the section it stands in,
and whether that section has a host and a port by then. `Diagnosis` names the
first line at fault, or else what is missing in the file as a whole, without a
loop or a state; `load_diagnosis` says that the loader throws just that.
-/

namespace FluxGate.ConfigLoader

open Lib Loader

/-! ## Numbers -/

/-- The text begins with a number of type `long`; the rest does not go on with a digit. -/
structure BeginsWith (value : Text) (n : Int) (rest : Text) : Prop where
  number : ∃ number, Denotes number n ∧ value = number ++ rest
  ends : ∀ c, rest.head? = some c → c.isDigit = false
  fits : -2 ^ 63 ≤ n ∧ n < 2 ^ 63

/-- What a key of this form says about a value it does not take. -/
inductive Form.Rejects (key value : Text) : Form → ConfigError → Prop where
  | invalid {minimum maximum : Int} (h : ∀ n rest, ¬ BeginsWith value n rest) :
    Rejects key value (.number minimum maximum) (.invalidInteger key value)
  | outOfRange {minimum maximum n : Int} {rest : Text} (h : BeginsWith value n rest)
    (hbad : rest ≠ [] ∨ n < minimum ∨ maximum < n) :
    Rejects key value (.number minimum maximum) (.outOfRange key value)

/-- The digits a text goes on with are the longest run of them. -/
theorem takeWhile_digits {digits rest : Text} (h : ∀ c ∈ digits, c.isDigit = true)
    (hends : ∀ c, rest.head? = some c → c.isDigit = false) :
    (digits ++ rest).takeWhile Char.isDigit = digits ∧ (digits ++ rest).dropWhile Char.isDigit = rest := by
  rw [List.takeWhile_append_of_pos h, List.dropWhile_append_of_pos h]
  cases rest with
  | nil => simp
  | cons c rest => simp [hends c rfl]

theorem splitSign_append {number rest : Text} {n : Int} (h : Denotes number n) :
    splitSign (number ++ rest) = ((splitSign number).1, (splitSign number).2 ++ rest) := by
  cases h with
  | plus h => rfl
  | minus h => rfl
  | plain h =>
    obtain ⟨hne, hdigits⟩ := h
    cases number with
    | nil => exact absurd rfl hne
    | cons c number =>
      have hdigit : c.isDigit = true := hdigits c List.mem_cons_self
      have hminus : c ≠ '-' := by rintro rfl; exact absurd hdigit (by decide)
      have hplus : c ≠ '+' := by rintro rfl; exact absurd hdigit (by decide)
      simp [splitSign, hminus, hplus]

/-- The sign and the digits after it are a number. -/
theorem exists_number {value : Text} (h : (splitSign value).2.takeWhile Char.isDigit ≠ []) :
    ∃ number, Denotes number (withSign (splitSign value).1 (magnitude ((splitSign value).2.takeWhile Char.isDigit))) ∧
      value = number ++ (splitSign value).2.dropWhile Char.isDigit := by
  have hdigits : ∀ rest : Text, rest.takeWhile Char.isDigit ≠ [] → Digits (rest.takeWhile Char.isDigit) :=
    fun rest hne => ⟨hne, fun c hc => List.mem_takeWhile_imp hc⟩
  revert h
  unfold splitSign
  split
  · intro h
    exact ⟨_, .minus (hdigits _ h), by simp⟩
  · intro h
    exact ⟨_, .plus (hdigits _ h), by simp⟩
  · intro h
    exact ⟨_, .plain (hdigits _ h), by simp⟩

theorem stol_iff {value : Text} (hv : Bare isspace value) {n : Int} {consumed : Nat} :
    stol value = some (n, consumed) ↔
      ∃ rest, BeginsWith value n rest ∧ consumed = value.length - rest.length := by
  have hspace : value.dropWhile isspace = value := by
    cases value with
    | nil => rfl
    | cons c value => exact List.dropWhile_cons_of_neg (by simp [hv.head c rfl])
  unfold stol
  rw [hspace]
  dsimp only
  constructor
  · intro h
    split at h
    · cases h
    · rename_i hok
      cases h
      obtain ⟨number, hnumber, hvalue⟩ := exists_number fun hnil => hok (.inl hnil)
      refine ⟨_, ⟨⟨number, hnumber, hvalue⟩, fun c hc => ?_, by omega⟩, rfl⟩
      have hhead := List.head?_dropWhile_not Char.isDigit (splitSign value).2
      rw [hc] at hhead
      simpa using hhead
  · rintro ⟨rest, ⟨⟨number, hnumber, rfl⟩, hends, hfits⟩, rfl⟩
    obtain ⟨hdigits, hn⟩ := denotes_iff.mp hnumber
    rw [splitSign_append hnumber]
    obtain ⟨htake, hdrop⟩ := takeWhile_digits hdigits.2 hends
    simp only [htake, hdrop, ← hn]
    rw [if_neg]
    rintro (hnil | hlow | hhigh)
    · exact hdigits.1 hnil
    · omega
    · omega

/-- The number is not all of the text. -/
theorem BeginsWith.rest_iff {value rest : Text} {n : Int} (h : BeginsWith value n rest) :
    value.length - rest.length ≠ value.length ↔ rest ≠ [] := by
  obtain ⟨number, -, rfl⟩ := h.number
  rw [← List.length_pos_iff, List.length_append]
  omega

theorem parseLong_eq_error {value key : Text} (hv : Bare isspace value) {minimum maximum : Int} {e : ConfigError} :
    parseLong value key minimum maximum = .error e ↔ (Form.number minimum maximum).Rejects key value e := by
  unfold parseLong
  cases hstol : stol value with
  | none =>
    have hnone : ∀ n rest, ¬ BeginsWith value n rest := by
      intro n rest hbegins
      have hsome := (stol_iff hv).mpr ⟨rest, hbegins, rfl⟩
      rw [hstol] at hsome
      cases hsome
    constructor
    · intro h
      cases h
      exact .invalid hnone
    · intro h
      cases h with
      | invalid => rfl
      | outOfRange hbegins => exact absurd hbegins (hnone _ _)
  | some r =>
    obtain ⟨n, consumed⟩ := r
    dsimp only
    constructor
    · intro h
      split at h
      · rename_i hbad
        cases h
        obtain ⟨rest, hbegins, rfl⟩ := (stol_iff hv).mp hstol
        exact .outOfRange hbegins (hbad.imp_left hbegins.rest_iff.mp)
      · cases h
    · intro h
      cases h with
      | invalid hnone =>
        obtain ⟨rest, hbegins, -⟩ := (stol_iff hv).mp hstol
        exact absurd hbegins (hnone _ _)
      | outOfRange hbegins hbad =>
        have hsame := (stol_iff hv).mpr ⟨_, hbegins, rfl⟩
        rw [hstol] at hsame
        cases hsame
        rw [if_pos (hbad.imp_left hbegins.rest_iff.mpr)]

/-! ## Assignments -/

/-- What an assignment is refused for. -/
inductive BadAssignment (lineNumber : Nat) (key value : Text) : SectionName → ConfigError → Prop where
  | outside : BadAssignment lineNumber key value .none (.keyBeforeSection lineNumber)
  | unknownServer (h : ∀ k : ScalarKey, k.kind = .server → k.name ≠ key) :
    BadAssignment lineNumber key value .server (.unknownServerKey key)
  | unknownHealth (h : ∀ k : ScalarKey, k.kind = .healthCheck → k.name ≠ key) :
    BadAssignment lineNumber key value .healthCheck (.unknownHealthKey key)
  | unknownBackend (h : ∀ k : BackendKey, k.name ≠ key) :
    BadAssignment lineNumber key value .backend (.unknownBackendKey lineNumber key)
  | scalar {k : ScalarKey} {name : SectionName} {e : ConfigError} (hkind : k.kind.sectionName = name)
    (hname : k.name = key) (h : k.form.Rejects key value e) : BadAssignment lineNumber key value name e
  | backend {k : BackendKey} {e : ConfigError} (hname : k.name = key) (h : k.form.Rejects key value e) :
    BadAssignment lineNumber key value .backend e

variable {c : AppConfig} {key value : Text} {e : ConfigError} {s s' : Loader} {lineNumber : Nat}

theorem map_parseLong_eq_error {α : Type} (hv : Bare isspace value) {minimum maximum : Int} {f : Int → α} :
    (parseLong value key minimum maximum).map f = .error e ↔ (Form.number minimum maximum).Rejects key value e := by
  rw [← parseLong_eq_error hv]
  cases parseLong value key minimum maximum <;> simp [Except.map]

/-- A section refuses the keys it does not know, and the values that the others do not take. -/
theorem eq_error_iff {K α : Type} {name : K → Text} {form : K → Form} {belongs : K → Prop} {x : Except ConfigError α}
    {unknown : ConfigError} (hinj : Function.Injective name)
    (hknown : ∀ k, belongs k → name k = key → (x = .error e ↔ (form k).Rejects key value e))
    (hunknown : (∀ k, belongs k → key ≠ name k) → x = .error unknown) :
    x = .error e ↔ ((∀ k, belongs k → name k ≠ key) ∧ e = unknown) ∨
      ∃ k, belongs k ∧ name k = key ∧ (form k).Rejects key value e := by
  by_cases hk : ∃ k, belongs k ∧ name k = key
  · obtain ⟨k, hbelongs, hname⟩ := hk
    rw [hknown k hbelongs hname]
    constructor
    · exact fun h => Or.inr ⟨k, hbelongs, hname, h⟩
    · rintro (⟨hnone, -⟩ | ⟨k', -, hname', h⟩)
      · exact absurd hname (hnone k hbelongs)
      · rwa [hinj (hname'.trans hname.symm)] at h
  · have hnone : ∀ k, belongs k → name k ≠ key := fun k hbelongs hname => hk ⟨k, hbelongs, hname⟩
    rw [hunknown fun k hbelongs hname => hnone k hbelongs hname.symm]
    constructor
    · intro h
      cases h
      exact Or.inl ⟨hnone, rfl⟩
    · rintro (⟨-, rfl⟩ | ⟨k, hbelongs, hname, -⟩)
      · rfl
      · exact absurd hname (hnone k hbelongs)

theorem not_rejects_verbatim : ¬ Form.verbatim.Rejects key value e := fun h => (by cases h)

theorem not_rejects_lowered : ¬ Form.lowered.Rejects key value e := fun h => (by cases h)

theorem assignServerValue_eq_error (hv : Bare isspace value) : assignServerValue c key value = .error e ↔
    ((∀ k : ScalarKey, k.kind = .server → k.name ≠ key) ∧ e = .unknownServerKey key) ∨
      ∃ k : ScalarKey, k.kind = .server ∧ k.name = key ∧ k.form.Rejects key value e := by
  refine eq_error_iff ScalarKey.name_injective ?_ fun hnone => ?_
  · rintro k hkind rfl
    cases k
    case listenHost => exact iff_of_false (fun h => (by cases h)) not_rejects_verbatim
    case logLevel => exact iff_of_false (fun h => (by cases h)) not_rejects_lowered
    case intervalMs | timeoutMs | failureThreshold | successThreshold => cases hkind
    all_goals exact map_parseLong_eq_error hv
  · exact (if_neg (hnone .listenHost rfl)).trans <| (if_neg (hnone .listenPort rfl)).trans <|
      (if_neg (hnone .workers rfl)).trans <| (if_neg (hnone .backlog rfl)).trans <|
      (if_neg (hnone .maxEvents rfl)).trans <| (if_neg (hnone .bufferSize rfl)).trans <|
      (if_neg (hnone .connectTimeoutMs rfl)).trans <| (if_neg (hnone .idleTimeoutSeconds rfl)).trans <|
      (if_neg (hnone .statsIntervalSeconds rfl)).trans <| if_neg (hnone .logLevel rfl)

theorem assignHealthValue_eq_error (hv : Bare isspace value) : assignHealthValue c key value = .error e ↔
    ((∀ k : ScalarKey, k.kind = .healthCheck → k.name ≠ key) ∧ e = .unknownHealthKey key) ∨
      ∃ k : ScalarKey, k.kind = .healthCheck ∧ k.name = key ∧ k.form.Rejects key value e := by
  refine eq_error_iff ScalarKey.name_injective ?_ fun hnone => ?_
  · rintro k hkind rfl
    cases k
    case intervalMs | timeoutMs | failureThreshold | successThreshold => exact map_parseLong_eq_error hv
    all_goals cases hkind
  · exact (if_neg (hnone .intervalMs rfl)).trans <| (if_neg (hnone .timeoutMs rfl)).trans <|
      (if_neg (hnone .failureThreshold rfl)).trans <| if_neg (hnone .successThreshold rfl)

theorem assignBackendValue_eq_error (hv : Bare isspace value) : s.assignBackendValue lineNumber key value = .error e ↔
    ((∀ k : BackendKey, True → k.name ≠ key) ∧ e = .unknownBackendKey lineNumber key) ∨
      ∃ k : BackendKey, True ∧ k.name = key ∧ k.form.Rejects key value e := by
  refine eq_error_iff BackendKey.name_injective ?_ fun hnone => ?_
  · rintro k - rfl
    cases k
    case host => exact iff_of_false (fun h => (by cases h)) not_rejects_verbatim
    all_goals exact map_parseLong_eq_error hv
  · exact (if_neg (hnone .host trivial)).trans <| (if_neg (hnone .port trivial)).trans <|
      if_neg (hnone .weight trivial)

/-- Inside a backend section a backend is being collected. -/
def Loader.Placed (s : Loader) : Prop := s.sectionName = .backend → s.insideBackend = true

theorem Kind.sectionName_ne_none (kind : Kind) : kind.sectionName ≠ .none := by
  cases kind <;> simp [Kind.sectionName]

theorem Kind.sectionName_eq_server {kind : Kind} : kind.sectionName = .server ↔ kind = .server := by
  cases kind <;> simp [Kind.sectionName]

theorem Kind.sectionName_eq_healthCheck {kind : Kind} : kind.sectionName = .healthCheck ↔ kind = .healthCheck := by
  cases kind <;> simp [Kind.sectionName]

theorem ScalarKey.sectionName_ne_backend (k : ScalarKey) : k.kind.sectionName ≠ .backend := by
  cases k <;> simp [ScalarKey.kind, Kind.sectionName]

theorem map_eq_error {α β : Type} {x : Except ConfigError α} {f : α → β} : x.map f = .error e ↔ x = .error e := by
  cases x <;> simp [Except.map]

theorem assignValue_eq_error (hs : s.Placed) (hv : Bare isspace value) :
    s.assignValue lineNumber key value = .error e ↔ BadAssignment lineNumber key value s.sectionName e := by
  unfold assignValue
  cases hsection : s.sectionName with
  | none =>
    constructor
    · intro h
      cases h
      exact .outside
    · intro h
      cases h with
      | outside => rfl
      | scalar hkind => exact absurd hkind (Kind.sectionName_ne_none _)
  | server =>
    refine map_eq_error.trans ((assignServerValue_eq_error hv).trans ⟨?_, fun h => ?_⟩)
    · rintro (⟨hnone, rfl⟩ | ⟨k, hkind, hname, h⟩)
      · exact .unknownServer hnone
      · exact .scalar (Kind.sectionName_eq_server.mpr hkind) hname h
    · cases h with
      | unknownServer hnone => exact Or.inl ⟨hnone, rfl⟩
      | scalar hkind hname h => exact Or.inr ⟨_, Kind.sectionName_eq_server.mp hkind, hname, h⟩
  | healthCheck =>
    refine map_eq_error.trans ((assignHealthValue_eq_error hv).trans ⟨?_, fun h => ?_⟩)
    · rintro (⟨hnone, rfl⟩ | ⟨k, hkind, hname, h⟩)
      · exact .unknownHealth hnone
      · exact .scalar (Kind.sectionName_eq_healthCheck.mpr hkind) hname h
    · cases h with
      | unknownHealth hnone => exact Or.inl ⟨hnone, rfl⟩
      | scalar hkind hname h => exact Or.inr ⟨_, Kind.sectionName_eq_healthCheck.mp hkind, hname, h⟩
  | backend =>
    dsimp only
    rw [if_pos (hs hsection), assignBackendValue_eq_error hv]
    constructor
    · rintro (⟨hnone, rfl⟩ | ⟨k, -, hname, h⟩)
      · exact .unknownBackend fun k => hnone k trivial
      · exact .backend hname h
    · intro h
      cases h with
      | unknownBackend hnone => exact Or.inl ⟨fun k _ => hnone k, rfl⟩
      | scalar hkind => exact absurd hkind (ScalarKey.sectionName_ne_backend _)
      | backend hname h => exact Or.inr ⟨_, trivial, hname, h⟩

/-! ## Lines -/

/-- What the lines before say about a line: the section it stands in, and what that one has given. -/
structure Place where
  sectionName : SectionName
  hasHost : Bool
  hasPort : Bool
  deriving DecidableEq, Repr

/-- The section can end here. -/
def Place.Complete (p : Place) : Prop := p.sectionName = .backend → p.hasHost = true ∧ p.hasPort = true

/-- The section of a header. -/
def headedBy (line : Text) : SectionName :=
  match kindOf (inside line) with
  | some kind => kind.sectionName
  | none => .none

/-- The place after some lines: in the section of the last header. -/
def placeAfter (lines : List Text) : Place :=
  match (paragraphs ((lines.map clean).filter (· ≠ []))).2.getLast? with
  | some p => ⟨headedBy p.header, p.values BackendKey.host.name ≠ [], p.values BackendKey.port.name ≠ []⟩
  | none => ⟨.none, false, false⟩

/-- A line, without its comment and the space around, is at fault in its place. -/
inductive LineFault (place : Place) (lineNumber : Nat) (line : Text) : ConfigError → Prop where
  | incompleteBackend (hheader : isHeader line = true) (h : ¬ place.Complete) :
    LineFault place lineNumber line .incompleteBackend
  | unknownSection (hheader : isHeader line = true) (hplace : place.Complete)
    (h : ∀ kind, ¬ Heading (inside line) kind) :
    LineFault place lineNumber line (.unknownSection lineNumber (inside line))
  | expectedKeyValue (hheader : isHeader line = false) (h : '=' ∉ line) :
    LineFault place lineNumber line (.expectedKeyValue lineNumber)
  | emptyKeyOrValue (hheader : isHeader line = false) (hsep : '=' ∈ line)
    (h : keyOf line = [] ∨ valueOf line = []) : LineFault place lineNumber line (.emptyKeyOrValue lineNumber)
  | assignment {e : ConfigError} (hheader : isHeader line = false) (hline : IsAssignment line)
    (h : BadAssignment lineNumber (lower (keyOf line)) (valueOf line) place.sectionName e) :
    LineFault place lineNumber line e

/-- A line of a file is at fault. -/
def FaultAt (lines : List Text) (i : Nat) (e : ConfigError) : Prop :=
  ∃ line, lines[i]? = some line ∧ clean line ≠ [] ∧ LineFault (placeAfter (lines.take i)) (i + 1) (clean line) e

/-- What a configuration is refused for that no line is at fault for. -/
inductive ConfigFault (c : AppConfig) : ConfigError → Prop where
  | noBackend (h : c.backends = []) : ConfigFault c .noBackend
  | timeout (hne : c.backends ≠ []) (h : c.healthCheckIntervalMs ≤ c.healthCheckTimeoutMs) :
    ConfigFault c .timeoutNotBelowInterval
  | duplicateName {pre post : List BackendConfig} {b : BackendConfig} (hsplit : c.backends = pre ++ b :: post)
    (htimeout : c.healthCheckTimeoutMs < c.healthCheckIntervalMs) (hfirst : (pre.map (·.name)).Nodup)
    (h : b.name ∈ pre.map (·.name)) : ConfigFault c (.duplicateName b.name.toList)

/-- Why a file is refused: the first line at fault, or the end of the last section, or the whole. -/
inductive Diagnosis (file : Text) : ConfigError → Prop where
  | line {i : Nat} {e : ConfigError} (hfirst : ∀ j < i, ∀ e', ¬ FaultAt (records '\n' file) j e')
    (h : FaultAt (records '\n' file) i e) : Diagnosis file e
  | unfinished (hlines : ∀ i e, ¬ FaultAt (records '\n' file) i e)
    (h : ¬ (placeAfter (records '\n' file)).Complete) : Diagnosis file .incompleteBackend
  | whole {c : AppConfig} {e : ConfigError} (hlines : ∀ i e, ¬ FaultAt (records '\n' file) i e)
    (hplace : (placeAfter (records '\n' file)).Complete) (hmeaning : Meaning file c) (h : ConfigFault c e) :
    Diagnosis file e

/-! ## The loader knows its place -/

/-- What the loader's locals say about the place. -/
structure Agrees (s : Loader) (p : Place) : Prop where
  sectionName : s.sectionName = p.sectionName
  inside : s.insideBackend = true ↔ p.sectionName = .backend
  name : p.sectionName = .backend → s.currentBackend.name ≠ ""
  host : p.sectionName = .backend → s.backendHasHost = p.hasHost
  port : p.sectionName = .backend → s.backendHasPort = p.hasPort

variable {p : Place} {line : Text} {lines : List Text}

theorem Agrees.placed (h : Agrees s p) : s.Placed := fun hs => h.inside.mpr (h.sectionName ▸ hs)

/-- A backend can be finished iff its section is complete. -/
theorem Agrees.finishBackend (h : Agrees s p) :
    s.finishBackend = .error e ↔ ¬ p.Complete ∧ e = .incompleteBackend := by
  unfold Loader.finishBackend
  by_cases hb : p.sectionName = .backend
  · have hc : ¬ p.Complete ↔
        s.currentBackend.name = "" ∨ s.backendHasHost = false ∨ s.backendHasPort = false := by
      rw [Place.Complete, h.host hb, h.port hb, or_iff_right (h.name hb)]
      cases p.hasHost <;> cases p.hasPort <;> simp [hb]
    rw [if_neg (by simp [h.inside.mpr hb]), hc]
    split
    · rename_i hbad
      simp only [hbad, true_and, Except.error.injEq]
      exact eq_comm
    · rename_i hok
      simp [hok]
  · have hout : s.insideBackend = false := by
      rw [← Bool.not_eq_true]
      exact fun hin => hb (h.inside.mp hin)
    rw [if_pos hout]
    simp [Place.Complete, hb]

theorem Agrees.complete (h : Agrees s p) (hfinish : s.finishBackend = .ok s') : p.Complete := by
  by_contra hplace
  have hfail := h.finishBackend.mpr ⟨hplace, rfl⟩
  rw [hfinish] at hfail
  cases hfail

/-- The text between the brackets is trimmed, so a backend's name is never empty: the check for it
in the code has no effect. -/
theorem trim_drop_ne_nil {name : Text} (hname : Bare isspace name) (h : (lower name).take 8 = "backend ".toList) :
    trim (name.drop 8) ≠ [] := by
  obtain ⟨word, -, hsplit⟩ := take_eight_iff.mp h
  cases hrest : name.drop 8 using List.reverseRecOn with
  | nil =>
    rw [hrest] at hsplit
    have hspace := hname.last ' ' (by rw [hsplit]; simp)
    exact absurd hspace (by decide)
  | append_singleton rest c _ =>
    have hc : isspace c = false := hname.last c (by
      rw [hsplit, hrest, ← List.cons_append, ← List.append_assoc, List.getLast?_concat])
    unfold trim
    rw [stripBy_append_cons rest [] hc]
    simp

/-- The faults of a header. -/
theorem lineFault_header (hheader : isHeader line = true) : LineFault p lineNumber line e ↔
    (¬ p.Complete ∧ e = .incompleteBackend) ∨
      (p.Complete ∧ (∀ kind, ¬ Heading (inside line) kind) ∧ e = .unknownSection lineNumber (inside line)) := by
  have hnot : isHeader line ≠ false := by simp [hheader]
  constructor
  · intro h
    cases h with
    | incompleteBackend _ h => exact Or.inl ⟨h, rfl⟩
    | unknownSection _ hplace h => exact Or.inr ⟨hplace, h, rfl⟩
    | expectedKeyValue h => exact absurd h hnot
    | emptyKeyOrValue h => exact absurd h hnot
    | assignment h => exact absurd h hnot
  · rintro (⟨h, rfl⟩ | ⟨hplace, h, rfl⟩)
    · exact .incompleteBackend hheader h
    · exact .unknownSection hheader hplace h

/-- The faults of the other lines. -/
theorem lineFault_line (hheader : isHeader line = false) : LineFault p lineNumber line e ↔
    ('=' ∉ line ∧ e = .expectedKeyValue lineNumber) ∨
      ('=' ∈ line ∧ (keyOf line = [] ∨ valueOf line = []) ∧ e = .emptyKeyOrValue lineNumber) ∨
      (IsAssignment line ∧ BadAssignment lineNumber (lower (keyOf line)) (valueOf line) p.sectionName e) := by
  have hnot : isHeader line ≠ true := by simp [hheader]
  constructor
  · intro h
    cases h with
    | incompleteBackend h => exact absurd h hnot
    | unknownSection h => exact absurd h hnot
    | expectedKeyValue _ h => exact Or.inl ⟨h, rfl⟩
    | emptyKeyOrValue _ hsep h => exact Or.inr (Or.inl ⟨hsep, h, rfl⟩)
    | assignment _ hline h => exact Or.inr (Or.inr ⟨hline, h⟩)
  · rintro (⟨h, rfl⟩ | ⟨hsep, h, rfl⟩ | ⟨hline, h⟩)
    · exact .expectedKeyValue hheader h
    · exact .emptyKeyOrValue hheader hsep h
    · exact .assignment hheader hline h

theorem openSection_eq_error (h : Agrees s p) (hheader : isHeader line = true) :
    s.openSection lineNumber line = .error e ↔ LineFault p lineNumber line e := by
  have hbare : Bare isspace (inside line) := bare_stripBy _
  rw [lineFault_header hheader]
  unfold openSection
  cases hfinish : s.finishBackend with
  | error e₀ =>
    obtain ⟨hplace, rfl⟩ := h.finishBackend.mp hfinish
    show Except.error _ = Except.error e ↔ _
    simp [hplace, eq_comm]
  | ok s₁ =>
    have hplace : p.Complete := h.complete hfinish
    simp only [hplace, not_true_eq_false, false_and, false_or, true_and, ← kindOf_eq_some, kindOf, bind, Except.bind]
    split
    · simp [pure, Except.pure]
    split
    · simp [pure, Except.pure]
    split
    · rename_i hword
      have hnamed := trim_drop_ne_nil hbare hword
      simp [hnamed, pure, Except.pure]
    · simp [throw, throwThe, MonadExceptOf.throw, eq_comm]

theorem readAssignment_eq_error (h : Agrees s p) (hheader : isHeader line = false) :
    s.readAssignment lineNumber line = .error e ↔ LineFault p lineNumber line e := by
  have hv : Bare isspace (valueOf line) := bare_stripBy _
  rw [lineFault_line hheader]
  unfold readAssignment
  by_cases hsep : '=' ∈ line
  · rw [if_neg (not_not_intro hsep)]
    dsimp only
    by_cases hempty : keyOf line = [] ∨ valueOf line = []
    · have hno : ¬ IsAssignment line := fun hline => hempty.elim hline.key hline.value
      rw [if_pos (hempty.imp_left lower_eq_nil.mpr), Except.error.injEq]
      simp only [hsep, hempty, hno, not_true_eq_false, false_and, false_or, true_and, or_false]
      exact eq_comm
    · have hline : IsAssignment line := ⟨hsep, fun hk => hempty (.inl hk), fun hk => hempty (.inr hk)⟩
      rw [if_neg (fun hbad => hempty (hbad.imp_left lower_eq_nil.mp)), assignValue_eq_error h.placed hv,
        h.sectionName]
      simp [hsep, hempty, hline]
  · have hno : ¬ IsAssignment line := fun hline => hsep hline.separator
    rw [if_pos hsep, Except.error.injEq]
    simp only [hsep, hno, not_false_eq_true, true_and, false_and, or_false]
    exact eq_comm

/-- The loader refuses the lines at fault. -/
theorem readLine_eq_error (h : Agrees s p) :
    s.readLine lineNumber line = .error e ↔ clean line ≠ [] ∧ LineFault p lineNumber (clean line) e := by
  unfold readLine
  dsimp only
  by_cases hnil : clean line = []
  · rw [if_pos hnil]
    simp [hnil]
  · rw [if_neg hnil]
    cases hheader : isHeader (clean line) with
    | true => simpa [hnil] using openSection_eq_error h hheader
    | false => simpa [hnil] using readAssignment_eq_error h hheader

/-! ## Places along a file -/

theorem paragraphs_header {l : Text} (hl : isHeader l = true) (ls : List Text) :
    (paragraphs (ls ++ [l])).2 = (paragraphs ls).2 ++ [⟨l, []⟩] := by
  induction ls with
  | nil => simp [paragraphs, hl]
  | cons first ls ih =>
    rw [List.cons_append, paragraphs, paragraphs]
    split
    · have hsame : (paragraphs (ls ++ [l])).1 = (paragraphs ls).1 := by
        clear ih
        induction ls with
        | nil => simp [paragraphs, hl]
        | cons a ls ih =>
          rw [List.cons_append, paragraphs, paragraphs]
          split <;> simp [ih]
      simp [ih, hsame]
    · exact ih

/-- A line that is no header goes to the last section. -/
theorem paragraphs_line {l : Text} (hl : isHeader l = false) (ls : List Text) :
    ((paragraphs ls).2 = [] → paragraphs (ls ++ [l]) = ((paragraphs ls).1 ++ [l], [])) ∧
      ∀ ps q, (paragraphs ls).2 = ps ++ [q] →
        paragraphs (ls ++ [l]) = ((paragraphs ls).1, ps ++ [⟨q.header, q.body ++ [l]⟩]) := by
  induction ls with
  | nil => simp [paragraphs, hl]
  | cons first ls ih =>
    obtain ⟨hempty, hlast⟩ := ih
    rw [List.cons_append, paragraphs, paragraphs]
    split
    · refine ⟨fun h => (by cases h), fun ps q hps => ?_⟩
      cases ps with
      | nil =>
        obtain ⟨rfl, hnil⟩ := List.cons.inj hps
        rw [hempty hnil]
        rfl
      | cons p₀ ps =>
        obtain ⟨rfl, hrest⟩ := List.cons.inj hps
        rw [hlast ps q hrest]
        rfl
    · refine ⟨fun h => ?_, fun ps q hps => ?_⟩
      · rw [hempty h]
        rfl
      · rw [hlast ps q hps]

theorem placeAfter_blank (h : clean line = []) : placeAfter (lines ++ [line]) = placeAfter lines := by
  simp [placeAfter, h]

theorem significant_snoc (hne : clean line ≠ []) :
    ((lines ++ [line]).map clean).filter (· ≠ []) = (lines.map clean).filter (· ≠ []) ++ [clean line] := by
  simp [hne]

theorem placeAfter_header (hheader : isHeader (clean line) = true) :
    placeAfter (lines ++ [line]) = ⟨headedBy (clean line), false, false⟩ := by
  have hne : clean line ≠ [] := by
    intro hnil
    rw [hnil] at hheader
    cases hheader
  unfold placeAfter
  rw [significant_snoc hne, paragraphs_header hheader, List.getLast?_concat]
  simp [Paragraph.values]

theorem decide_values_append (q : Paragraph) (l key : Text) :
    decide ((Paragraph.mk q.header (q.body ++ [l])).values key ≠ []) =
      (decide (q.values key ≠ []) || decide (lower (keyOf l) = key)) := by
  by_cases hk : lower (keyOf l) = key
  · simp [Paragraph.values, hk]
  · simp [Paragraph.values, hk]

/-- An assignment adds its key to what its section has given. -/
def Place.give (p : Place) (key : Text) : Place :=
  ⟨p.sectionName, p.hasHost || key = BackendKey.host.name, p.hasPort || key = BackendKey.port.name⟩

theorem placeAfter_assignment (hne : clean line ≠ []) (hheader : isHeader (clean line) = false)
    (hplace : (placeAfter lines).sectionName ≠ .none) :
    placeAfter (lines ++ [line]) = (placeAfter lines).give (lower (keyOf (clean line))) := by
  have hline := paragraphs_line hheader ((lines.map clean).filter (· ≠ []))
  unfold placeAfter at hplace ⊢
  rw [significant_snoc hne]
  cases hps : (paragraphs ((lines.map clean).filter (· ≠ []))).2 using List.reverseRecOn with
  | nil =>
    rw [hps] at hplace
    exact absurd rfl hplace
  | append_singleton ps q _ =>
    rw [hline.2 ps q hps]
    dsimp only
    rw [List.getLast?_concat, List.getLast?_concat]
    simp only [Place.give, Place.mk.injEq, true_and]
    exact ⟨decide_values_append _ _ _, decide_values_append _ _ _⟩

/-- What an assignment leaves, and what it adds. -/
structure Assigned (s s' : Loader) (key : Text) : Prop where
  headed : s.sectionName ≠ .none
  sectionName : s'.sectionName = s.sectionName
  inside : s'.insideBackend = s.insideBackend
  name : s'.currentBackend.name = s.currentBackend.name
  host : s.sectionName = .backend → s'.backendHasHost = (s.backendHasHost || key = BackendKey.host.name)
  port : s.sectionName = .backend → s'.backendHasPort = (s.backendHasPort || key = BackendKey.port.name)

theorem assigned_backend (hsection : s.sectionName = .backend)
    (h : s.assignBackendValue lineNumber key value = .ok s') : Assigned s s' key := by
  -- whether the key is a given one is decided on the keys, not on their names
  have hname : ∀ k l : BackendKey, k.name = l.name ↔ k = l := fun _ _ => BackendKey.name_injective.eq_iff
  have hheaded : s.sectionName ≠ .none := by simp [hsection]
  obtain ⟨k, rfl, x, hx, rfl⟩ := assignBackendValue_eq_ok.mp h
  cases k with
  | host =>
    cases hx
    exact ⟨hheaded, rfl, rfl, rfl, fun _ => by simp [Loader.put], fun _ => by simp [Loader.put, hname]⟩
  | port =>
    obtain ⟨n, rfl, -⟩ := Form.read_number hx
    exact ⟨hheaded, rfl, rfl, rfl, fun _ => by simp [Loader.put, hname], fun _ => by simp [Loader.put]⟩
  | weight =>
    obtain ⟨n, rfl, -⟩ := Form.read_number hx
    exact ⟨hheaded, rfl, rfl, rfl, fun _ => by simp [Loader.put, hname],
      fun _ => by simp [Loader.put, hname]⟩

theorem assigned_of_assignValue (hs : s.Placed) (h : s.assignValue lineNumber key value = .ok s') :
    Assigned s s' key := by
  unfold assignValue at h
  cases hsection : s.sectionName with
  | none =>
    rw [hsection] at h
    cases h
  | server =>
    rw [hsection] at h
    cases hc : assignServerValue s.config key value with
    | error e =>
      rw [hc] at h
      cases h
    | ok c =>
      rw [hc] at h
      cases h
      exact ⟨by simp [hsection], hsection.symm, rfl, rfl, fun hno => (by simp [hsection] at hno),
        fun hno => (by simp [hsection] at hno)⟩
  | healthCheck =>
    rw [hsection] at h
    cases hc : assignHealthValue s.config key value with
    | error e =>
      rw [hc] at h
      cases h
    | ok c =>
      rw [hc] at h
      cases h
      exact ⟨by simp [hsection], hsection.symm, rfl, rfl, fun hno => (by simp [hsection] at hno),
        fun hno => (by simp [hsection] at hno)⟩
  | backend =>
    rw [hsection] at h
    dsimp only at h
    rw [if_pos (hs hsection)] at h
    exact assigned_backend hsection h

theorem Agrees.assigned (h : Agrees s p) (ha : Assigned s s' key) : Agrees s' (p.give key) where
  sectionName := ha.sectionName.trans h.sectionName
  inside := by
    rw [ha.inside]
    exact h.inside
  name hb := by
    rw [ha.name]
    exact h.name hb
  host hb := by
    have hb : p.sectionName = .backend := hb
    rw [ha.host (h.sectionName.trans hb), h.host hb]
    rfl
  port hb := by
    have hb : p.sectionName = .backend := hb
    rw [ha.port (h.sectionName.trans hb), h.port hb]
    rfl

/-- A section has been opened. -/
theorem agrees_enter {kind : Kind} (hname : ∀ name, kind = .backend name → name ≠ []) :
    Agrees (enter c kind) ⟨kind.sectionName, false, false⟩ := by
  cases kind with
  | server => exact ⟨rfl, by simp [enter, reset, Kind.sectionName], fun h => (by cases h), fun h => (by cases h),
      fun h => (by cases h)⟩
  | healthCheck => exact ⟨rfl, by simp [enter, reset, Kind.sectionName], fun h => (by cases h), fun h => (by cases h),
      fun h => (by cases h)⟩
  | backend name =>
    refine ⟨rfl, by simp [enter, Kind.sectionName], fun _ hempty => ?_, fun _ => rfl, fun _ => rfl⟩
    have hlist : (String.ofList name).toList = [] := by
      have hempty : String.ofList name = "" := hempty
      rw [hempty]
      rfl
    rw [String.toList_ofList] at hlist
    exact hname name rfl hlist

/-- **One line**: the loader knows its place after it. -/
theorem Agrees.step (h : Agrees s (placeAfter lines)) (hline : s.readLine lineNumber line = .ok s') :
    Agrees s' (placeAfter (lines ++ [line])) := by
  unfold readLine at hline
  dsimp only at hline
  by_cases hnil : clean line = []
  · rw [if_pos hnil] at hline
    cases hline
    rwa [placeAfter_blank hnil]
  rw [if_neg hnil] at hline
  cases hheader : isHeader (clean line) with
  | true =>
    rw [if_pos hheader] at hline
    have hopen := openSection_toOption (s := s) lineNumber (clean line)
    rw [hline] at hopen
    obtain ⟨kind, hkind, hcommit⟩ := Option.bind_eq_some_iff.mp hopen.symm
    obtain ⟨c, -, rfl⟩ := Option.map_eq_some_iff.mp hcommit
    rw [placeAfter_header hheader, headedBy, hkind]
    refine agrees_enter fun name hname => ?_
    rw [hname] at hkind
    exact (kindOf_eq_some.mp hkind).name_ne_nil
  | false =>
    rw [if_neg (by simp [hheader])] at hline
    unfold readAssignment at hline
    by_cases hsep : '=' ∈ clean line
    · rw [if_neg (not_not_intro hsep)] at hline
      dsimp only at hline
      split at hline
      · cases hline
      · have ha := assigned_of_assignValue h.placed hline
        rw [placeAfter_assignment hnil hheader (h.sectionName ▸ ha.headed)]
        exact h.assigned ha
    · rw [if_pos hsep] at hline
      cases hline

theorem faultAt_length {post : List Text} : FaultAt (lines ++ line :: post) lines.length e ↔
    clean line ≠ [] ∧ LineFault (placeAfter lines) (lines.length + 1) (clean line) e := by
  unfold FaultAt
  rw [List.getElem?_append_right (Nat.le_refl _), Nat.sub_self, List.take_left]
  simp

/-- **All lines**: the loader stops at the first one at fault, or knows its place at the end. -/
theorem readLines_spec (pre post : List Text) (h : Agrees s (placeAfter pre)) :
    (∀ e, s.readLines pre.length post = .error e ↔ ∃ i, pre.length ≤ i ∧
      (∀ j, pre.length ≤ j → j < i → ∀ e', ¬ FaultAt (pre ++ post) j e') ∧ FaultAt (pre ++ post) i e) ∧
      ∀ s', s.readLines pre.length post = .ok s' → Agrees s' (placeAfter (pre ++ post)) := by
  induction post generalizing s pre with
  | nil =>
    refine ⟨fun e => ⟨fun herror => (by cases herror), ?_⟩, fun s' hok => ?_⟩
    · rintro ⟨i, hi, -, line, hline, -⟩
      rw [List.append_nil, List.getElem?_eq_none hi] at hline
      cases hline
    · cases hok
      rwa [List.append_nil]
  | cons line post ih =>
    cases hline : s.readLine (pre.length + 1) line with
    | error e₀ =>
      have hread : s.readLines pre.length (line :: post) = .error e₀ := by
        rw [readLines, hline]
        rfl
      have hfault : ∀ e, FaultAt (pre ++ line :: post) pre.length e ↔ e₀ = e := by
        intro e
        rw [faultAt_length, ← readLine_eq_error h, hline, Except.error.injEq]
      rw [hread]
      refine ⟨fun e => ?_, fun s' hok => (by cases hok)⟩
      rw [Except.error.injEq]
      constructor
      · rintro rfl
        exact ⟨pre.length, Nat.le_refl _, fun j hle hlt => absurd hle (Nat.not_le.mpr hlt), (hfault _).mpr rfl⟩
      · rintro ⟨i, hi, hfirst, hat⟩
        rcases Nat.eq_or_lt_of_le hi with rfl | hlt
        · exact (hfault e).mp hat
        · exact absurd ((hfault e₀).mpr rfl) (hfirst _ (Nat.le_refl _) hlt e₀)
    | ok s₁ =>
      have hread : s.readLines pre.length (line :: post) = s₁.readLines (pre ++ [line]).length post := by
        rw [readLines, hline, List.length_append]
        rfl
      have hnone : ∀ e, ¬ FaultAt (pre ++ line :: post) pre.length e := by
        intro e hfault
        rw [faultAt_length, ← readLine_eq_error h, hline] at hfault
        cases hfault
      obtain ⟨herror, hok⟩ := ih (pre ++ [line]) (h.step hline)
      have happend : pre ++ [line] ++ post = pre ++ line :: post := by simp
      rw [happend] at herror hok
      rw [hread]
      refine ⟨fun e => (herror e).trans ⟨?_, ?_⟩, hok⟩
      · rintro ⟨i, hi, hfirst, hat⟩
        rw [List.length_append, List.length_singleton] at hi hfirst
        refine ⟨i, by omega, fun j hle hlt e' => ?_, hat⟩
        rcases Nat.eq_or_lt_of_le hle with rfl | hgt
        · exact hnone e'
        · exact hfirst j hgt hlt e'
      · rintro ⟨i, hi, hfirst, hat⟩
        rw [List.length_append, List.length_singleton]
        have hne : i ≠ pre.length := fun he => hnone e (he ▸ hat)
        exact ⟨i, by omega, fun j hle hlt => hfirst j (by omega) hlt, hat⟩

/-! ## The end of the file -/

theorem checkNames_eq_error (names : List String) (backends : List BackendConfig) :
    checkNames names backends = .error e ↔ ∃ pre b post, backends = pre ++ b :: post ∧ (pre.map (·.name)).Nodup ∧
      (∀ b' ∈ pre, b'.name ∉ names) ∧ (b.name ∈ names ∨ b.name ∈ pre.map (·.name)) ∧
      e = .duplicateName b.name.toList := by
  induction backends generalizing names with
  | nil => simp [checkNames]
  | cons b₀ backends ih =>
    unfold checkNames
    split
    · rename_i hmem
      constructor
      · intro h
        cases h
        exact ⟨[], b₀, backends, rfl, List.nodup_nil, by simp, Or.inl hmem, rfl⟩
      · rintro ⟨pre, b, post, hsplit, -, hfirst, -, rfl⟩
        cases pre with
        | nil =>
          obtain ⟨rfl, -⟩ := List.cons.inj hsplit
          rfl
        | cons b₁ pre =>
          obtain ⟨rfl, -⟩ := List.cons.inj hsplit
          exact absurd hmem (hfirst b₀ List.mem_cons_self)
    · rename_i hmem
      rw [ih]
      constructor
      · rintro ⟨pre, b, post, rfl, hnodup, hfirst, hdup, he⟩
        refine ⟨b₀ :: pre, b, post, rfl, ?_, ?_, ?_, he⟩
        · rw [List.map_cons, List.nodup_cons]
          refine ⟨fun hin => ?_, hnodup⟩
          obtain ⟨b', hb', hname⟩ := List.mem_map.mp hin
          exact hfirst b' hb' (hname ▸ List.mem_cons_self)
        · rw [List.forall_mem_cons]
          exact ⟨hmem, fun b' hb' hin => hfirst b' hb' (List.mem_cons_of_mem _ hin)⟩
        · rw [List.mem_cons] at hdup
          rw [List.map_cons, List.mem_cons]
          tauto
      · rintro ⟨pre, b, post, hsplit, hnodup, hfirst, hdup, he⟩
        cases pre with
        | nil =>
          obtain ⟨rfl, -⟩ := List.cons.inj hsplit
          simp [hmem] at hdup
        | cons b₁ pre =>
          obtain ⟨rfl, rfl⟩ := List.cons.inj hsplit
          rw [List.map_cons, List.nodup_cons] at hnodup
          rw [List.forall_mem_cons] at hfirst
          refine ⟨pre, b, post, rfl, hnodup.2, fun b' hb' hin => ?_, ?_, he⟩
          · rcases List.mem_cons.mp hin with heq | hin
            · exact hnodup.1 (heq ▸ List.mem_map_of_mem hb')
            · exact hfirst.2 b' hb' hin
          · rw [List.map_cons, List.mem_cons] at hdup
            rw [List.mem_cons]
            tauto

theorem checkConfig_eq_error : checkConfig c = .error e ↔ ConfigFault c e := by
  unfold checkConfig
  by_cases hempty : c.backends = []
  · rw [if_pos hempty]
    constructor
    · intro h
      cases h
      exact .noBackend hempty
    · intro h
      cases h with
      | noBackend => rfl
      | timeout hne => exact absurd hempty hne
      | duplicateName hsplit => simp [hempty] at hsplit
  rw [if_neg hempty]
  by_cases htimeout : c.healthCheckTimeoutMs ≥ c.healthCheckIntervalMs
  · rw [if_pos htimeout]
    constructor
    · intro h
      cases h
      exact .timeout hempty htimeout
    · intro h
      cases h with
      | noBackend hno => exact absurd hno hempty
      | timeout => rfl
      | duplicateName _ hlt => omega
  · rw [if_neg htimeout, map_eq_error, checkNames_eq_error]
    constructor
    · rintro ⟨pre, b, post, hsplit, hnodup, -, hdup, rfl⟩
      exact .duplicateName hsplit (by omega) hnodup (by simpa using hdup)
    · intro h
      cases h with
      | noBackend hno => exact absurd hno hempty
      | timeout _ hle => exact absurd hle htimeout
      | duplicateName hsplit _ hnodup hdup =>
        exact ⟨_, _, _, hsplit, hnodup, fun _ _ => List.not_mem_nil, Or.inr hdup, rfl⟩

/-- With no line at fault and the last section complete, the file has its one meaning. -/
theorem meaning_of_readLines {file : Text} {s₁ : Loader} (hread : readLines {} 0 (records '\n' file) = .ok s)
    (hfinish : s.finishBackend = .ok s₁) : Meaning file s₁.config ∧ ∀ c, Meaning file c → c = s₁.config := by
  have hcommit := commit_readLines (records '\n' file) 0
  have hleft : (readLines {} 0 (records '\n' file)).toOption.bind commit = some s₁.config := by
    rw [hread]
    show s.finishBackend.toOption.map (·.config) = some s₁.config
    rw [hfinish]
    rfl
  rw [hleft] at hcommit
  obtain ⟨secs, hsecs, hfold⟩ := Option.bind_eq_some_iff.mp hcommit.symm
  obtain ⟨-, -, hreads⟩ := reading_eq_some.mp hsecs
  have hdescribes := (foldlM_applySection.mp hfold).2
  refine ⟨(describes_iff_meaning hreads).mp hdescribes, fun c hc => ?_⟩
  exact ((describes_iff_meaning hreads).mpr hc).unique hdescribes

theorem agrees_start : Agrees {} (placeAfter []) :=
  ⟨rfl, by simp [placeAfter, paragraphs], fun h => (by cases h), fun h => (by cases h), fun h => (by cases h)⟩

/-- Whether a line is at fault depends on the lines up to it. -/
theorem FaultAt.congr {lines' : List Text} {i : Nat} (hsame : lines'.take (i + 1) = lines.take (i + 1)) {j : Nat}
    (hj : j ≤ i) : FaultAt lines' j e ↔ FaultAt lines j e := by
  have hline : lines'[j]? = lines[j]? := by
    rw [← List.getElem?_take_of_lt (show j < i + 1 by omega), hsame, List.getElem?_take_of_lt (by omega)]
  have htake : lines'.take j = lines.take j := by
    have hmin : min j (i + 1) = j := by omega
    rw [← hmin, ← List.take_take, hsame, List.take_take]
  unfold FaultAt
  rw [hline, htake]

/-- If a line is at fault, one is the first. -/
theorem exists_first (h : ∃ i e, FaultAt lines i e) :
    ∃ i e, (∀ j < i, ∀ e', ¬ FaultAt lines j e') ∧ FaultAt lines i e := by
  classical
  obtain ⟨e, he⟩ := Nat.find_spec h
  exact ⟨Nat.find h, e, fun j hj e' hat => Nat.find_min h hj ⟨e', hat⟩, he⟩

theorem load_of_readLines_error {path file : Text} (hread : readLines {} 0 (records '\n' file) = .error e) :
    load path (some file) = .error e := by
  show (readLines {} 0 (records '\n' file) >>= _) = _
  rw [hread]
  rfl

theorem load_eq_error_of_first {path file : Text} {i : Nat}
    (hfirst : ∀ j < i, ∀ e', ¬ FaultAt (records '\n' file) j e') (h : FaultAt (records '\n' file) i e) :
    load path (some file) = .error e := by
  obtain ⟨herror, -⟩ := readLines_spec [] (records '\n' file) agrees_start
  have hread : readLines {} 0 (records '\n' file) = .error e :=
    (herror e).mpr ⟨i, Nat.zero_le _, fun j _ hlt => hfirst j hlt, h⟩
  exact load_of_readLines_error hread

/-- Of lines that are read to the end, none is at fault. -/
theorem not_faultAt_of_readLines (hread : readLines {} 0 lines = .ok s) (i : Nat) (e : ConfigError) :
    ¬ FaultAt lines i e := by
  intro hat
  obtain ⟨herror, -⟩ := readLines_spec [] lines agrees_start
  obtain ⟨j, e', hfirst, hat'⟩ := exists_first ⟨i, e, hat⟩
  have hfail : readLines {} 0 lines = .error e' :=
    (herror e').mpr ⟨j, Nat.zero_le j, fun l _ hl => hfirst l hl, hat'⟩
  rw [hread] at hfail
  cases hfail

theorem not_faultAt_of_load {path file : Text} (hload : load path (some file) = .ok c) (i : Nat) (e : ConfigError) :
    ¬ FaultAt (records '\n' file) i e := by
  cases hread : readLines {} 0 (records '\n' file) with
  | ok s => exact not_faultAt_of_readLines hread i e
  | error e' =>
    have hfail : load path (some file) = .error e' := load_of_readLines_error hread
    rw [hload] at hfail
    cases hfail

/-- **The loader says why it refuses a file.** It throws exactly what `Diagnosis` names: the fault of the
first line that has one, judged by that line, the last header above it and the keys in between; else an
incomplete last section; else, of the configuration the file means, that it has no backend, a timeout that is
not below the interval, or the first name that comes twice. What follows the first line at fault does not
matter. -/
theorem load_diagnosis (path file : Text) (e : ConfigError) :
    (load path (some file) = .error e ↔ Diagnosis file e) ∧
      ∀ i, (∀ j < i, ∀ e', ¬ FaultAt (records '\n' file) j e') → FaultAt (records '\n' file) i e →
        ∀ path' file', (records '\n' file').take (i + 1) = (records '\n' file).take (i + 1) →
          load path' (some file') = .error e := by
  refine ⟨?_, fun i hfirst h path' file' hsame => ?_⟩
  · obtain ⟨herror, hok⟩ := readLines_spec [] (records '\n' file) agrees_start
    rw [List.length_nil, List.nil_append] at herror hok
    cases hread : readLines {} 0 (records '\n' file) with
    | error e₀ =>
      obtain ⟨i, -, hfirst, hat⟩ := (herror e₀).mp hread
      have hfirst' : ∀ j < i, ∀ e', ¬ FaultAt (records '\n' file) j e' := fun j hj => hfirst j (Nat.zero_le j) hj
      have hload : load path (some file) = .error e₀ := load_eq_error_of_first hfirst' hat
      rw [hload, Except.error.injEq]
      constructor
      · rintro rfl
        exact .line hfirst' hat
      · intro h
        cases h with
        | line hfirst'' hat' =>
          have hload' : load path (some file) = .error e := load_eq_error_of_first hfirst'' hat'
          rw [hload] at hload'
          exact Except.error.inj hload'
        | unfinished hlines => exact absurd hat (hlines i e₀)
        | whole hlines => exact absurd hat (hlines i e₀)
    | ok s =>
      have hagrees : Agrees s (placeAfter (records '\n' file)) := hok s hread
      have hlines : ∀ i e, ¬ FaultAt (records '\n' file) i e := not_faultAt_of_readLines hread
      have hload : load path (some file) = (do let s ← s.finishBackend; checkConfig s.config) := by
        show (readLines {} 0 (records '\n' file) >>= _) = _
        rw [hread]
        rfl
      rw [hload]
      cases hfinish : s.finishBackend with
      | error e₀ =>
        obtain ⟨hplace, rfl⟩ := hagrees.finishBackend.mp hfinish
        show Except.error _ = Except.error e ↔ _
        rw [Except.error.injEq]
        constructor
        · rintro rfl
          exact .unfinished hlines hplace
        · intro h
          cases h with
          | line _ hat => exact absurd hat (hlines _ _)
          | unfinished => rfl
          | whole _ hcomplete => exact absurd hcomplete hplace
      | ok s₁ =>
        obtain ⟨hmeaning, hunique⟩ := meaning_of_readLines hread hfinish
        have hplace : (placeAfter (records '\n' file)).Complete := hagrees.complete hfinish
        show checkConfig s₁.config = .error e ↔ _
        rw [checkConfig_eq_error]
        constructor
        · exact .whole hlines hplace hmeaning
        · intro h
          cases h with
          | line _ hat => exact absurd hat (hlines _ _)
          | unfinished _ hno => exact absurd hplace hno
          | whole _ _ hc h => rwa [hunique _ hc] at h
  · have hcongr : ∀ j ≤ i, ∀ e, FaultAt (records '\n' file') j e ↔ FaultAt (records '\n' file) j e :=
      fun j hj e => FaultAt.congr hsame hj
    refine load_eq_error_of_first (i := i) (fun j hj e' => ?_) ((hcongr i (Nat.le_refl i) e).mpr h)
    rw [hcongr j (by omega)]
    exact hfirst j hj e'

namespace Demo

/-- The fifth line names a port that does not exist, the sixth an unknown key. -/
def badPort : Text :=
  "[server]\nworkers = 2\n[backend a]\nhost = h\nport = 70000 # no such port\ncolour = red\n".toList

/-- The same up to the port, which is good here. -/
def goodPort : Text := "[server]\nworkers = 2\n[backend a]\nhost = h\nport = 7000\n".toList

def goodConfig : AppConfig where
  workers := 2
  backends := [{ name := "a", host := "h", port := 7000, weight := 1 }]

/-- The same with another end, which is at fault too. -/
def worsePort : Text :=
  "[server]\nworkers = 2\n[backend a]\nhost = h\nport = 70000 # no such port\n[backend a]\n".toList

def portError : ConfigError := .outOfRange "port".toList "70000".toList

theorem faultAt_badPort : FaultAt (records '\n' badPort) 4 portError := by
  refine ⟨_, rfl, by decide, .assignment rfl ⟨by decide, by decide, by decide⟩ ?_⟩
  exact .backend (k := .port) rfl ((parseLong_eq_error (bare_stripBy _)).mp rfl)

end Demo

/-- The port is the first fault, and the loader reports it whatever the file ends with. -/
theorem load_diagnosis_badPort : Diagnosis Demo.badPort Demo.portError ∧
    load [] (some Demo.worsePort) = .error Demo.portError := by
  have hfirst : ∀ j < 4, ∀ e', ¬ FaultAt (records '\n' Demo.badPort) j e' := by
    intro j hj e' hat
    -- the good file begins with the same four lines
    have hsame : (records '\n' Demo.goodPort).take (3 + 1) = (records '\n' Demo.badPort).take (3 + 1) := by
      decide +kernel
    have hgood : load [] (some Demo.goodPort) = .ok Demo.goodConfig := rfl
    exact not_faultAt_of_load hgood j e' ((FaultAt.congr hsame (by omega)).mpr hat)
  exact ⟨(load_diagnosis [] Demo.badPort _).1.mp rfl,
    (load_diagnosis [] Demo.badPort _).2 4 hfirst Demo.faultAt_badPort [] Demo.worsePort (by decide +kernel)⟩

/-- A header without a name is an unknown section, not a backend with an empty name. -/
example : load [] (some "\n[backend ]\n".toList) = .error (.unknownSection 2 "backend".toList) := rfl

end FluxGate.ConfigLoader
