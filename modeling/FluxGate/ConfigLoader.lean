import FluxGate.Config
import FluxGate.Lib.Text

/-!
# `ConfigLoader::load`

The loader reads the file line by line and carries, from one line to the next,
the configuration so far, the section it is in, and the backend it is
collecting: that one is appended at the next header or at the end of the file.

A byte of the file is the character with its code. `isspace` and `tolower` are
those of the C locale, which the process never changes. The integers are parsed
as a 64-bit `long`; the fields they are cast into are naturals.
-/

namespace FluxGate

open Lib

/-- The bytes of a file, or some of them. -/
abbrev Text := List Char

namespace ConfigLoader

/-- What `std::runtime_error` is thrown about. -/
inductive ConfigError where
  | cannotOpen (path : Text)
  | invalidInteger (key value : Text)
  | outOfRange (key value : Text)
  | unknownServerKey (key : Text)
  | unknownHealthKey (key : Text)
  | unknownBackendKey (lineNumber : Nat) (key : Text)
  | incompleteBackend
  | emptyBackendName (lineNumber : Nat)
  | unknownSection (lineNumber : Nat) (name : Text)
  | expectedKeyValue (lineNumber : Nat)
  | emptyKeyOrValue (lineNumber : Nat)
  | keyBeforeSection (lineNumber : Nat)
  | noBackend
  | timeoutNotBelowInterval
  | duplicateName (name : Text)
  deriving DecidableEq, Repr

def ConfigError.what : ConfigError → Text
  | cannotOpen path => "cannot open config file: ".toList ++ path
  | invalidInteger key value => "invalid integer for '".toList ++ key ++ "': ".toList ++ value
  | outOfRange key value => "value out of range for '".toList ++ key ++ "': ".toList ++ value
  | unknownServerKey key => "unknown key in [server]: ".toList ++ key
  | unknownHealthKey key => "unknown key in [health_check]: ".toList ++ key
  | unknownBackendKey n key =>
    "unknown backend key at line ".toList ++ Nat.toDigits 10 n ++ ": ".toList ++ key
  | incompleteBackend => "backend section requires name, host and port".toList
  | emptyBackendName n => "empty backend name at line ".toList ++ Nat.toDigits 10 n
  | unknownSection n name =>
    "unknown section at line ".toList ++ Nat.toDigits 10 n ++ ": ".toList ++ name
  | expectedKeyValue n => "expected key=value at line ".toList ++ Nat.toDigits 10 n
  | emptyKeyOrValue n => "empty key or value at line ".toList ++ Nat.toDigits 10 n
  | keyBeforeSection n => "key appears before a valid section at line ".toList ++ Nat.toDigits 10 n
  | noBackend => "at least one backend is required".toList
  | timeoutNotBelowInterval =>
    "health_check.timeout_ms must be smaller than interval_ms".toList
  | duplicateName name => "duplicate backend name: ".toList ++ name

/-! ## Characters and numbers -/

def isspace (c : Char) : Bool :=
  c = ' ' || c = '\t' || c = '\n' || c = '\x0b' || c = '\x0c' || c = '\r'

def trim (value : Text) : Text := stripBy isspace value

def lower (value : Text) : Text := value.map Char.toLower

/-- An optional sign, and what follows it. -/
def splitSign : Text → Bool × Text
  | '-' :: rest => (true, rest)
  | '+' :: rest => (false, rest)
  | rest => (false, rest)

def withSign (negative : Bool) (n : Nat) : Int := if negative then -n else n

def magnitude (digits : Text) : Nat := Nat.ofDigitChars 10 digits 0

/-- `std::stol` in base 10: the number and how many characters it took. It throws when there is
no digit and when the number is no `long`. -/
def stol (value : Text) : Option (Int × Nat) :=
  let signed := splitSign (value.dropWhile isspace)
  let digits := signed.2.takeWhile Char.isDigit
  let result := withSign signed.1 (magnitude digits)
  if digits = [] ∨ result < -2 ^ 63 ∨ 2 ^ 63 ≤ result then none
  else some (result, value.length - (signed.2.dropWhile Char.isDigit).length)

def parseLong (value key : Text) (minimum maximum : Int) : Except ConfigError Int :=
  match stol value with
  | none => .error (.invalidInteger key value)
  | some (result, consumed) =>
    if consumed ≠ value.length ∨ result < minimum ∨ maximum < result then
      .error (.outOfRange key value)
    else .ok result

/-- `static_cast<std::uint16_t>`. -/
def toUInt16 (n : Int) : Nat := (n % 2 ^ 16).toNat

/-- `static_cast<std::size_t>`. -/
def toSize (n : Int) : Nat := (n % 2 ^ 64).toNat

/-- `static_cast<int>`, of which the model keeps the natural numbers. -/
def toInt (n : Int) : Nat := (n.bmod (2 ^ 32)).toNat

/-! ## Assignments -/

def assignServerValue (config : AppConfig) (key value : Text) : Except ConfigError AppConfig :=
  if key = "listen_host".toList then
    .ok { config with listenHost := .ofList value }
  else if key = "listen_port".toList then
    (parseLong value key 1 65535).map fun n => { config with listenPort := toUInt16 n }
  else if key = "workers".toList then
    (parseLong value key 1 128).map fun n => { config with workers := toSize n }
  else if key = "backlog".toList then
    (parseLong value key 16 65535).map fun n => { config with backlog := toInt n }
  else if key = "max_events".toList then
    (parseLong value key 16 65536).map fun n => { config with maxEvents := toSize n }
  else if key = "buffer_size".toList then
    (parseLong value key 4096 (16 * 1024 * 1024)).map fun n =>
      { config with bufferSize := toSize n }
  else if key = "connect_timeout_ms".toList then
    (parseLong value key 50 60000).map fun n => { config with connectTimeoutMs := toInt n }
  else if key = "idle_timeout_seconds".toList then
    (parseLong value key 1 86400).map fun n => { config with idleTimeoutSeconds := toInt n }
  else if key = "stats_interval_seconds".toList then
    (parseLong value key 0 3600).map fun n => { config with statsIntervalSeconds := toInt n }
  else if key = "log_level".toList then
    .ok { config with logLevel := .ofList (lower value) }
  else .error (.unknownServerKey key)

def assignHealthValue (config : AppConfig) (key value : Text) : Except ConfigError AppConfig :=
  if key = "interval_ms".toList then
    (parseLong value key 200 600000).map fun n => { config with healthCheckIntervalMs := toInt n }
  else if key = "timeout_ms".toList then
    (parseLong value key 50 60000).map fun n => { config with healthCheckTimeoutMs := toInt n }
  else if key = "failure_threshold".toList then
    (parseLong value key 1 100).map fun n =>
      { config with healthCheckFailureThreshold := toSize n }
  else if key = "success_threshold".toList then
    (parseLong value key 1 100).map fun n =>
      { config with healthCheckSuccessThreshold := toSize n }
  else .error (.unknownHealthKey key)

/-! ## Lines -/

def isComment (c : Char) : Bool := c = '#' || c = ';'

/-- A line without its comment and the space around it. -/
def clean (line : Text) : Text := trim (before isComment line)

def isHeader (line : Text) : Bool := line.head? = some '[' && line.getLast? = some ']'

/-- The text between the brackets. -/
def inside (line : Text) : Text := trim ((line.drop 1).take (line.length - 2))

/-- The two sides of the first `=`, trimmed. -/
def keyOf (line : Text) : Text := trim (before (· = '=') line)

def valueOf (line : Text) : Text := trim (line.drop ((before (· = '=') line).length + 1))

/-! ## The loop over the lines -/

/-- The values `section` has between two lines. -/
inductive SectionName where
  | none
  | server
  | healthCheck
  | backend
  deriving DecidableEq, Repr

/-- The locals of `load` that live across lines, the line number apart. The port and weight of
the first `currentBackend` are indeterminate in the code; nothing reads them. -/
structure Loader where
  config : AppConfig := {}
  sectionName : SectionName := .none
  currentBackend : BackendConfig := { name := "", host := "", port := 0, weight := 0 }
  insideBackend : Bool := false
  backendHasHost : Bool := false
  backendHasPort : Bool := false
  deriving DecidableEq, Repr

namespace Loader

def finishBackend (s : Loader) : Except ConfigError Loader :=
  if s.insideBackend = false then .ok s
  else if s.currentBackend.name = "" ∨ s.backendHasHost = false ∨ s.backendHasPort = false then
    .error .incompleteBackend
  else .ok { s with config := { s.config with backends := s.config.backends ++ [s.currentBackend] } }

/-- What a header resets: the backend is empty, of weight one, and has no host and no port yet. -/
def reset (s : Loader) : Loader :=
  { s with
    insideBackend := false
    backendHasHost := false
    backendHasPort := false
    currentBackend := { name := "", host := "", port := 0, weight := 1 } }

def openSection (s : Loader) (lineNumber : Nat) (line : Text) : Except ConfigError Loader := do
  let s ← s.finishBackend
  let s := s.reset
  let name := inside line
  let normalized := lower name
  if normalized = "server".toList then
    return { s with sectionName := .server }
  else if normalized = "health_check".toList then
    return { s with sectionName := .healthCheck }
  else if normalized.take 8 = "backend ".toList then
    let backendName := trim (name.drop 8)
    if backendName = [] then throw (.emptyBackendName lineNumber)
    else return { s with
      currentBackend := { s.currentBackend with name := .ofList backendName }
      sectionName := .backend
      insideBackend := true }
  else throw (.unknownSection lineNumber name)

def assignBackendValue (s : Loader) (lineNumber : Nat) (key value : Text) :
    Except ConfigError Loader :=
  if key = "host".toList then
    .ok { s with
      currentBackend := { s.currentBackend with host := .ofList value }
      backendHasHost := true }
  else if key = "port".toList then
    (parseLong value key 1 65535).map fun n => { s with
      currentBackend := { s.currentBackend with port := toUInt16 n }
      backendHasPort := true }
  else if key = "weight".toList then
    (parseLong value key 1 1000).map fun n => { s with
      currentBackend := { s.currentBackend with weight := toSize n } }
  else .error (.unknownBackendKey lineNumber key)

def assignValue (s : Loader) (lineNumber : Nat) (key value : Text) : Except ConfigError Loader :=
  match s.sectionName with
  | .server => (assignServerValue s.config key value).map fun c => { s with config := c }
  | .healthCheck => (assignHealthValue s.config key value).map fun c => { s with config := c }
  | .backend =>
    if s.insideBackend then s.assignBackendValue lineNumber key value
    else .error (.keyBeforeSection lineNumber)
  | .none => .error (.keyBeforeSection lineNumber)

def readAssignment (s : Loader) (lineNumber : Nat) (line : Text) : Except ConfigError Loader :=
  if '=' ∉ line then .error (.expectedKeyValue lineNumber)
  else
    let key := lower (keyOf line)
    let value := valueOf line
    if key = [] ∨ value = [] then .error (.emptyKeyOrValue lineNumber)
    else s.assignValue lineNumber key value

/-- One turn of the loop. -/
def readLine (s : Loader) (lineNumber : Nat) (line : Text) : Except ConfigError Loader :=
  let line := clean line
  if line = [] then .ok s
  else if isHeader line then s.openSection lineNumber line
  else s.readAssignment lineNumber line

def readLines (s : Loader) (lineNumber : Nat) : List Text → Except ConfigError Loader
  | [] => .ok s
  | line :: lines => do
    let s ← s.readLine (lineNumber + 1) line
    s.readLines (lineNumber + 1) lines

end Loader

/-- The last loop: `names` holds the names seen. -/
def checkNames (names : List String) : List BackendConfig → Except ConfigError Unit
  | [] => .ok ()
  | b :: backends =>
    if b.name ∈ names then .error (.duplicateName b.name.toList)
    else checkNames (b.name :: names) backends

/-- What `load` checks after the last line. -/
def checkConfig (config : AppConfig) : Except ConfigError AppConfig :=
  if config.backends = [] then .error .noBackend
  else if config.healthCheckTimeoutMs ≥ config.healthCheckIntervalMs then
    .error .timeoutNotBelowInterval
  else (checkNames [] config.backends).map fun _ => config

/-- `load`, of the file's content; `none` is a file that cannot be opened. -/
def load (path : Text) : Option Text → Except ConfigError AppConfig
  | none => .error (.cannotOpen path)
  | some input => do
    let s ← Loader.readLines {} 0 (records '\n' input)
    let s ← s.finishBackend
    checkConfig s.config

end ConfigLoader

end FluxGate
