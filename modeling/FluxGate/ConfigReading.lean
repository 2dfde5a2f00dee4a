import FluxGate.ConfigLoader
import FluxGate.Lib.Writes

/-!
# What a configuration file asks for, section by section

The keys of the three kinds of section, with the form and the field of each,
and what one assignment does; then a file as a list of sections (`reading`).
-/

namespace FluxGate.ConfigLoader

open Lib

/-! ## Keys -/

/-- A value that has been read. -/
inductive Setting where
  | text (t : Text)
  | number (n : Int)
  deriving DecidableEq, Repr

/-- How the text of a value is read. -/
inductive Form where
  | verbatim
  | lowered
  | number (minimum maximum : Int)
  deriving DecidableEq, Repr

def Form.read : Form → Text → Option Setting
  | verbatim, value => some (.text value)
  | lowered, value => some (.text (lower value))
  | number minimum maximum, value => (parseLong value [] minimum maximum).toOption.map .number

inductive Kind where
  | server
  | healthCheck
  | backend (name : Text)
  deriving DecidableEq, Repr

/-- The keys outside the backend sections. -/
inductive ScalarKey where
  | listenHost | listenPort | workers | backlog | maxEvents | bufferSize | connectTimeoutMs
  | idleTimeoutSeconds | statsIntervalSeconds | logLevel
  | intervalMs | timeoutMs | failureThreshold | successThreshold
  deriving DecidableEq, Repr

namespace ScalarKey

def kind : ScalarKey → Kind
  | intervalMs | timeoutMs | failureThreshold | successThreshold => .healthCheck
  | _ => .server

def name : ScalarKey → Text
  | listenHost => "listen_host".toList
  | listenPort => "listen_port".toList
  | workers => "workers".toList
  | backlog => "backlog".toList
  | maxEvents => "max_events".toList
  | bufferSize => "buffer_size".toList
  | connectTimeoutMs => "connect_timeout_ms".toList
  | idleTimeoutSeconds => "idle_timeout_seconds".toList
  | statsIntervalSeconds => "stats_interval_seconds".toList
  | logLevel => "log_level".toList
  | intervalMs => "interval_ms".toList
  | timeoutMs => "timeout_ms".toList
  | failureThreshold => "failure_threshold".toList
  | successThreshold => "success_threshold".toList

def form : ScalarKey → Form
  | listenHost => .verbatim
  | listenPort => .number 1 65535
  | workers => .number 1 128
  | backlog => .number 16 65535
  | maxEvents => .number 16 65536
  | bufferSize => .number 4096 16777216
  | connectTimeoutMs => .number 50 60000
  | idleTimeoutSeconds => .number 1 86400
  | statsIntervalSeconds => .number 0 3600
  | logLevel => .lowered
  | intervalMs => .number 200 600000
  | timeoutMs => .number 50 60000
  | failureThreshold => .number 1 100
  | successThreshold => .number 1 100

def get (c : AppConfig) : ScalarKey → Setting
  | listenHost => .text c.listenHost.toList
  | listenPort => .number c.listenPort
  | workers => .number c.workers
  | backlog => .number c.backlog
  | maxEvents => .number c.maxEvents
  | bufferSize => .number c.bufferSize
  | connectTimeoutMs => .number c.connectTimeoutMs
  | idleTimeoutSeconds => .number c.idleTimeoutSeconds
  | statsIntervalSeconds => .number c.statsIntervalSeconds
  | logLevel => .text c.logLevel.toList
  | intervalMs => .number c.healthCheckIntervalMs
  | timeoutMs => .number c.healthCheckTimeoutMs
  | failureThreshold => .number c.healthCheckFailureThreshold
  | successThreshold => .number c.healthCheckSuccessThreshold

/-- The field with a setting of its form in it. -/
def put (c : AppConfig) : ScalarKey → Setting → AppConfig
  | listenHost, .text t => { c with listenHost := .ofList t }
  | listenPort, .number n => { c with listenPort := toUInt16 n }
  | workers, .number n => { c with workers := toSize n }
  | backlog, .number n => { c with backlog := toInt n }
  | maxEvents, .number n => { c with maxEvents := toSize n }
  | bufferSize, .number n => { c with bufferSize := toSize n }
  | connectTimeoutMs, .number n => { c with connectTimeoutMs := toInt n }
  | idleTimeoutSeconds, .number n => { c with idleTimeoutSeconds := toInt n }
  | statsIntervalSeconds, .number n => { c with statsIntervalSeconds := toInt n }
  | logLevel, .text t => { c with logLevel := .ofList t }
  | intervalMs, .number n => { c with healthCheckIntervalMs := toInt n }
  | timeoutMs, .number n => { c with healthCheckTimeoutMs := toInt n }
  | failureThreshold, .number n => { c with healthCheckFailureThreshold := toSize n }
  | successThreshold, .number n => { c with healthCheckSuccessThreshold := toSize n }
  | _, _ => c

end ScalarKey

inductive BackendKey where
  | host | port | weight
  deriving DecidableEq, Repr

namespace BackendKey

def name : BackendKey → Text
  | host => "host".toList
  | port => "port".toList
  | weight => "weight".toList

def form : BackendKey → Form
  | host => .verbatim
  | port => .number 1 65535
  | weight => .number 1 1000

def get (b : BackendConfig) : BackendKey → Setting
  | host => .text b.host.toList
  | port => .number b.port
  | weight => .number b.weight

/-- What a backend section starts from. -/
def initial : BackendKey → Setting
  | host => .text []
  | port => .number 0
  | weight => .number 1

end BackendKey

theorem AppConfig.ext_get {c c' : AppConfig} (h : ∀ k : ScalarKey, k.get c = k.get c')
    (hb : c.backends = c'.backends) : c = c' := by
  cases c
  cases c'
  have h1 := h .listenHost
  have h2 := h .listenPort
  have h3 := h .workers
  have h4 := h .backlog
  have h5 := h .maxEvents
  have h6 := h .bufferSize
  have h7 := h .connectTimeoutMs
  have h8 := h .idleTimeoutSeconds
  have h9 := h .statsIntervalSeconds
  have h10 := h .logLevel
  have h11 := h .intervalMs
  have h12 := h .timeoutMs
  have h13 := h .failureThreshold
  have h14 := h .successThreshold
  simp_all [ScalarKey.get, String.toList_inj]

theorem parseLong_toOption (value key : Text) (minimum maximum : Int) :
    (parseLong value key minimum maximum).toOption =
      (parseLong value [] minimum maximum).toOption := by
  unfold parseLong
  split
  · rfl
  · split <;> rfl

theorem toOption_eq_some {ε α : Type} {x : Except ε α} {a : α} :
    x.toOption = some a ↔ x = .ok a := by
  cases x <;> simp [Except.toOption]

/-- A number read lies in the range of its key. -/
theorem Form.read_number {minimum maximum : Int} {value : Text} {x : Setting}
    (h : (Form.number minimum maximum).read value = some x) :
    ∃ n, x = .number n ∧ minimum ≤ n ∧ n ≤ maximum := by
  obtain ⟨n, hn, rfl⟩ := Option.map_eq_some_iff.mp h
  refine ⟨n, rfl, ?_⟩
  rw [toOption_eq_some] at hn
  unfold parseLong at hn
  split at hn
  · cases hn
  · split at hn
    · cases hn
    · cases hn
      omega

theorem toUInt16_of_mem {n : Int} (h0 : 0 ≤ n) (h : n ≤ 65535) : (toUInt16 n : Int) = n := by
  unfold toUInt16
  omega

theorem toSize_of_mem {n : Int} (h0 : 0 ≤ n) (h : n ≤ 16777216) : (toSize n : Int) = n := by
  unfold toSize
  omega

theorem toInt_of_mem {n : Int} (h0 : 0 ≤ n) (h : n ≤ 600000) : (toInt n : Int) = n := by
  unfold toInt
  rw [Int.bmod_eq_of_le_mul_two (by omega) (by omega)]
  omega

namespace ScalarKey

variable {c : AppConfig} {k k' : ScalarKey} {value : Text} {x : Setting}

/-- Every range lies within what its field can hold. -/
theorem get_put (h : k.form.read value = some x) : k.get (k.put c x) = x := by
  cases k
  case listenHost | logLevel =>
    cases h
    simp [get, put]
  all_goals
    obtain ⟨n, rfl, hmin, hmax⟩ := Form.read_number h
    simp only [get, put, Setting.number.injEq]
    first
    | exact toUInt16_of_mem (by omega) (by omega)
    | exact toSize_of_mem (by omega) (by omega)
    | exact toInt_of_mem (by omega) (by omega)

theorem get_put_ne (h : k' ≠ k) : k'.get (k.put c x) = k'.get c := by
  cases k <;> cases x <;> cases k' <;> first | rfl | exact absurd rfl h

theorem backends_put : (k.put c x).backends = c.backends := by
  cases k <;> cases x <;> rfl

theorem name_injective : Function.Injective name := by
  intro k k' h
  cases k <;> cases k' <;> first | rfl | exact absurd h (by decide)

end ScalarKey

theorem map_parseLong_eq_ok {α : Type} {value key : Text} {minimum maximum : Int} {f : Int → α}
    {a : α} : (parseLong value key minimum maximum).map f = .ok a ↔
      ∃ n, (Form.number minimum maximum).read value = some (.number n) ∧ f n = a := by
  simp only [Form.read]
  rw [← parseLong_toOption value key]
  cases parseLong value key minimum maximum <;> simp [Except.map, Except.toOption]

variable {c c' : AppConfig} {key value : Text}

theorem assignServerValue_eq_ok : assignServerValue c key value = .ok c' ↔
    ∃ k : ScalarKey, k.kind = .server ∧ k.name = key ∧
      ∃ x, k.form.read value = some x ∧ k.put c x = c' := by
  constructor
  · intro h
    unfold assignServerValue at h
    rcases ite_eq_iff.mp h with ⟨hkey, h⟩ | ⟨-, h⟩
    · exact ⟨.listenHost, rfl, hkey.symm, _, rfl, Except.ok.inj h⟩
    rcases ite_eq_iff.mp h with ⟨hkey, h⟩ | ⟨-, h⟩
    · obtain ⟨n, hn, hc⟩ := map_parseLong_eq_ok.mp h
      exact ⟨.listenPort, rfl, hkey.symm, _, hn, hc⟩
    rcases ite_eq_iff.mp h with ⟨hkey, h⟩ | ⟨-, h⟩
    · obtain ⟨n, hn, hc⟩ := map_parseLong_eq_ok.mp h
      exact ⟨.workers, rfl, hkey.symm, _, hn, hc⟩
    rcases ite_eq_iff.mp h with ⟨hkey, h⟩ | ⟨-, h⟩
    · obtain ⟨n, hn, hc⟩ := map_parseLong_eq_ok.mp h
      exact ⟨.backlog, rfl, hkey.symm, _, hn, hc⟩
    rcases ite_eq_iff.mp h with ⟨hkey, h⟩ | ⟨-, h⟩
    · obtain ⟨n, hn, hc⟩ := map_parseLong_eq_ok.mp h
      exact ⟨.maxEvents, rfl, hkey.symm, _, hn, hc⟩
    rcases ite_eq_iff.mp h with ⟨hkey, h⟩ | ⟨-, h⟩
    · obtain ⟨n, hn, hc⟩ := map_parseLong_eq_ok.mp h
      exact ⟨.bufferSize, rfl, hkey.symm, _, hn, hc⟩
    rcases ite_eq_iff.mp h with ⟨hkey, h⟩ | ⟨-, h⟩
    · obtain ⟨n, hn, hc⟩ := map_parseLong_eq_ok.mp h
      exact ⟨.connectTimeoutMs, rfl, hkey.symm, _, hn, hc⟩
    rcases ite_eq_iff.mp h with ⟨hkey, h⟩ | ⟨-, h⟩
    · obtain ⟨n, hn, hc⟩ := map_parseLong_eq_ok.mp h
      exact ⟨.idleTimeoutSeconds, rfl, hkey.symm, _, hn, hc⟩
    rcases ite_eq_iff.mp h with ⟨hkey, h⟩ | ⟨-, h⟩
    · obtain ⟨n, hn, hc⟩ := map_parseLong_eq_ok.mp h
      exact ⟨.statsIntervalSeconds, rfl, hkey.symm, _, hn, hc⟩
    rcases ite_eq_iff.mp h with ⟨hkey, h⟩ | ⟨-, h⟩
    · exact ⟨.logLevel, rfl, hkey.symm, _, rfl, Except.ok.inj h⟩
    cases h
  · rintro ⟨k, hkind, rfl, x, hx, rfl⟩
    cases k
    case listenHost | logLevel =>
      cases hx
      rfl
    case intervalMs | timeoutMs | failureThreshold | successThreshold => cases hkind
    all_goals
      obtain ⟨n, rfl, -⟩ := Form.read_number hx
      exact map_parseLong_eq_ok.mpr ⟨n, hx, rfl⟩

theorem assignHealthValue_eq_ok : assignHealthValue c key value = .ok c' ↔
    ∃ k : ScalarKey, k.kind = .healthCheck ∧ k.name = key ∧
      ∃ x, k.form.read value = some x ∧ k.put c x = c' := by
  constructor
  · intro h
    unfold assignHealthValue at h
    rcases ite_eq_iff.mp h with ⟨hkey, h⟩ | ⟨-, h⟩
    · obtain ⟨n, hn, hc⟩ := map_parseLong_eq_ok.mp h
      exact ⟨.intervalMs, rfl, hkey.symm, _, hn, hc⟩
    rcases ite_eq_iff.mp h with ⟨hkey, h⟩ | ⟨-, h⟩
    · obtain ⟨n, hn, hc⟩ := map_parseLong_eq_ok.mp h
      exact ⟨.timeoutMs, rfl, hkey.symm, _, hn, hc⟩
    rcases ite_eq_iff.mp h with ⟨hkey, h⟩ | ⟨-, h⟩
    · obtain ⟨n, hn, hc⟩ := map_parseLong_eq_ok.mp h
      exact ⟨.failureThreshold, rfl, hkey.symm, _, hn, hc⟩
    rcases ite_eq_iff.mp h with ⟨hkey, h⟩ | ⟨-, h⟩
    · obtain ⟨n, hn, hc⟩ := map_parseLong_eq_ok.mp h
      exact ⟨.successThreshold, rfl, hkey.symm, _, hn, hc⟩
    cases h
  · rintro ⟨k, hkind, rfl, x, hx, rfl⟩
    cases k
    case intervalMs | timeoutMs | failureThreshold | successThreshold =>
      obtain ⟨n, rfl, -⟩ := Form.read_number hx
      exact map_parseLong_eq_ok.mpr ⟨n, hx, rfl⟩
    all_goals cases hkind

namespace Loader

/-- The backend's field with a setting of its form in it. -/
def put (s : Loader) : BackendKey → Setting → Loader
  | .host, .text t => { s with
      currentBackend := { s.currentBackend with host := .ofList t }
      backendHasHost := true }
  | .port, .number n => { s with
      currentBackend := { s.currentBackend with port := toUInt16 n }
      backendHasPort := true }
  | .weight, .number n => { s with
      currentBackend := { s.currentBackend with weight := toSize n } }
  | _, _ => s

theorem assignBackendValue_eq_ok {s s' : Loader} {n : Nat} :
    s.assignBackendValue n key value = .ok s' ↔
      ∃ k : BackendKey, k.name = key ∧ ∃ x, k.form.read value = some x ∧ s.put k x = s' := by
  constructor
  · intro h
    unfold assignBackendValue at h
    rcases ite_eq_iff.mp h with ⟨hkey, h⟩ | ⟨-, h⟩
    · exact ⟨.host, hkey.symm, _, rfl, Except.ok.inj h⟩
    rcases ite_eq_iff.mp h with ⟨hkey, h⟩ | ⟨-, h⟩
    · obtain ⟨n, hn, hc⟩ := map_parseLong_eq_ok.mp h
      exact ⟨.port, hkey.symm, _, hn, hc⟩
    rcases ite_eq_iff.mp h with ⟨hkey, h⟩ | ⟨-, h⟩
    · obtain ⟨n, hn, hc⟩ := map_parseLong_eq_ok.mp h
      exact ⟨.weight, hkey.symm, _, hn, hc⟩
    cases h
  · rintro ⟨k, rfl, x, hx, rfl⟩
    cases k
    case host =>
      cases hx
      rfl
    all_goals
      obtain ⟨n, rfl, -⟩ := Form.read_number hx
      exact map_parseLong_eq_ok.mpr ⟨n, hx, rfl⟩

variable {s s' : Loader} {k k' : BackendKey} {x : Setting}

theorem get_put (h : k.form.read value = some x) : k.get (s.put k x).currentBackend = x := by
  cases k
  case host =>
    cases h
    simp [BackendKey.get, put]
  all_goals
    obtain ⟨n, rfl, hmin, hmax⟩ := Form.read_number h
    simp only [BackendKey.get, put, Setting.number.injEq]
    first
    | exact toUInt16_of_mem (by omega) (by omega)
    | exact toSize_of_mem (by omega) (by omega)

theorem get_put_ne (h : k' ≠ k) :
    k'.get (s.put k x).currentBackend = k'.get s.currentBackend := by
  cases k <;> cases x <;> cases k' <;> first | rfl | exact absurd rfl h

/-- Whether the section has given the key a value; only for host and port the loader asks. -/
def given (s : Loader) : BackendKey → Bool
  | .host => s.backendHasHost
  | .port => s.backendHasPort
  | .weight => true

theorem given_put (h : k.form.read value = some x) : (s.put k x).given k = true := by
  cases k
  case host =>
    cases h
    rfl
  all_goals
    obtain ⟨n, rfl, -⟩ := Form.read_number h
    rfl

theorem given_put_ne (h : k' ≠ k) : (s.put k x).given k' = s.given k' := by
  cases k <;> cases x <;> cases k' <;> first | rfl | exact absurd rfl h

end Loader

theorem BackendKey.name_injective : Function.Injective BackendKey.name := by
  intro k k' h
  cases k <;> cases k' <;> first | rfl | exact absurd h (by decide)

/-! ## Items and sections -/

/-- The section that a header opens. -/
def kindOf (name : Text) : Option Kind :=
  if lower name = "server".toList then some .server
  else if lower name = "health_check".toList then some .healthCheck
  else if (lower name).take 8 = "backend ".toList then
    if trim (name.drop 8) = [] then none else some (.backend (trim (name.drop 8)))
  else none

/-- What a line asks for. -/
inductive Item where
  | blank
  | header (kind : Kind)
  | assignment (key value : Text)
  deriving DecidableEq, Repr

/-- None for a line that no file may have. -/
def itemOf (line : Text) : Option Item :=
  let line := clean line
  if line = [] then some .blank
  else if isHeader line then (kindOf (inside line)).map .header
  else if '=' ∈ line ∧ keyOf line ≠ [] ∧ valueOf line ≠ [] then
    some (.assignment (lower (keyOf line)) (valueOf line))
  else none

theorem isHeader_brackets (t : Text) : isHeader ('[' :: (t ++ [']'])) = true := by
  simp [isHeader, List.getLast?_cons]

theorem inside_brackets (t : Text) : inside ('[' :: (t ++ [']'])) = trim t := by
  have hlength : ('[' :: (t ++ [']'])).length - 2 = t.length := by simp
  unfold inside
  rw [hlength, List.drop_one, List.tail_cons, List.take_left]

theorem itemOf_header {line t : Text} (hline : clean line = '[' :: (t ++ [']'])) :
    itemOf line = (kindOf (trim t)).map .header := by
  unfold itemOf
  dsimp only
  rw [hline, if_neg (List.cons_ne_nil _ _), if_pos (isHeader_brackets t), inside_brackets]

theorem itemOf_eq_header {line : Text} {kind : Kind} : itemOf line = some (.header kind) ↔
    isHeader (clean line) = true ∧ kindOf (inside (clean line)) = some kind := by
  unfold itemOf
  dsimp only
  split
  · rename_i hempty
    rw [hempty]
    exact ⟨fun h => (by cases h), fun h => (by cases h.1)⟩
  split
  · rename_i hheader
    simp [hheader]
  · rename_i hheader
    split
    · exact ⟨fun h => (by cases h), fun h => absurd h.1 hheader⟩
    · exact ⟨fun h => (by cases h), fun h => absurd h.1 hheader⟩

theorem isHeader_iff {line : Text} {item : Item} (h : itemOf line = some item) :
    isHeader (clean line) = true ↔ ∃ kind, item = .header kind := by
  constructor
  · intro hheader
    have hne : clean line ≠ [] := by
      intro hnil
      rw [hnil] at hheader
      cases hheader
    unfold itemOf at h
    dsimp only at h
    rw [if_neg hne, if_pos hheader] at h
    obtain ⟨kind, -, rfl⟩ := Option.map_eq_some_iff.mp h
    exact ⟨kind, rfl⟩
  · rintro ⟨kind, rfl⟩
    exact (itemOf_eq_header.mp h).1

/-- Of a header only the case of the name matters, and that only for backends. -/
theorem kindOf_congr {name name' : Text} (hlower : lower name' = lower name)
    (hdrop : name'.drop 8 = name.drop 8) : kindOf name' = kindOf name := by
  unfold kindOf
  rw [hlower, hdrop]

theorem kindOf_scalar {name name' : Text} {kind : Kind}
    (hkind : kind = .server ∨ kind = .healthCheck) (hname : kindOf name = some kind)
    (hlower : lower name' = lower name) : kindOf name' = some kind := by
  unfold kindOf at hname ⊢
  rw [hlower]
  split at hname
  · rename_i hserver
    rw [if_pos hserver]
    exact hname
  · rename_i hserver
    rw [if_neg hserver]
    split at hname
    · rename_i hhealth
      rw [if_pos hhealth]
      exact hname
    · exfalso
      rcases hkind with rfl | rfl
      · split at hname
        · split at hname <;> cases hname
        · cases hname
      · split at hname
        · split at hname <;> cases hname
        · cases hname

theorem before_separator {a : Text} (ha : '=' ∉ a) (b : Text) :
    before (· = '=') (a ++ '=' :: b) = a := by
  rw [before_append_cons a b (by simp), before_of_none]
  intro c hc
  simp only [decide_eq_false_iff_not]
  rintro rfl
  exact ha hc

theorem keyOf_append {a : Text} (ha : '=' ∉ a) (b : Text) : keyOf (a ++ '=' :: b) = trim a := by
  unfold keyOf
  rw [before_separator ha]

theorem valueOf_append {a : Text} (ha : '=' ∉ a) (b : Text) :
    valueOf (a ++ '=' :: b) = trim b := by
  unfold valueOf
  rw [before_separator ha, ← List.drop_drop, List.drop_left, List.drop_one, List.tail_cons]

theorem itemOf_assignment {line a b : Text} (hline : clean line = a ++ '=' :: b) (ha : '=' ∉ a)
    (hheader : isHeader (a ++ '=' :: b) = false) :
    itemOf line = if trim a ≠ [] ∧ trim b ≠ [] then
      some (.assignment (lower (trim a)) (trim b)) else none := by
  unfold itemOf
  dsimp only
  rw [hline, if_neg (by simp), if_neg (by simp [hheader]), keyOf_append ha, valueOf_append ha]
  simp

structure Section where
  kind : Kind
  body : List (Text × Text)
  deriving DecidableEq, Repr

/-- The assignments before the first header, and the sections. -/
def group : List Item → List (Text × Text) × List Section
  | [] => ([], [])
  | .blank :: items => group items
  | .assignment key value :: items => ((key, value) :: (group items).1, (group items).2)
  | .header kind :: items => ([], ⟨kind, (group items).1⟩ :: (group items).2)

/-- The sections of a file; none if it has a line it may not have, or an assignment outside. -/
def reading (lines : List Text) : Option (List Section) :=
  (lines.mapM itemOf).bind fun items =>
    if (group items).1 = [] then some (group items).2 else none

end FluxGate.ConfigLoader
