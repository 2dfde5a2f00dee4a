import FluxGate.ConfigReading

/-!
# The loader works section by section

The loader commits a backend only when the next section opens or the file
ends. Cut at the headers it is simpler: every section is applied to the
configuration that the sections before it gave, and is complete in itself.
`load_eq_ok` says that the loader computes nothing else: each scalar field
holds what the last assignment to its key says, and the backends are those
that the backend sections describe.
-/

namespace FluxGate.ConfigLoader

open Lib

/-! ## From lines to sections -/

namespace Loader

variable {s : Loader}

/-- A section just opened. -/
def enter (c : AppConfig) : Kind → Loader
  | .server => { reset { config := c } with sectionName := .server }
  | .healthCheck => { reset { config := c } with sectionName := .healthCheck }
  | .backend name => { reset { config := c } with
      currentBackend := { name := .ofList name, host := "", port := 0, weight := 1 }
      sectionName := .backend
      insideBackend := true }

/-- The configuration with the backend that is being collected. -/
def commit (s : Loader) : Option AppConfig := s.finishBackend.toOption.map (·.config)

def set (s : Loader) (a : Text × Text) : Option Loader := (s.assignValue 0 a.1 a.2).toOption

def obey (s : Loader) : Item → Option Loader
  | .blank => some s
  | .header kind => s.commit.map (enter · kind)
  | .assignment key value => s.set (key, value)

/-- The line number only goes into the messages. -/
theorem assignValue_toOption (n : Nat) (key value : Text) :
    (s.assignValue n key value).toOption = s.set (key, value) := by
  unfold set assignValue
  cases s.sectionName with
  | none => rfl
  | server => rfl
  | healthCheck => rfl
  | backend =>
    dsimp only
    split
    · unfold assignBackendValue
      split
      · rfl
      split
      · rfl
      split
      · rfl
      rfl
    · rfl

theorem openSection_toOption (n : Nat) (line : Text) :
    (s.openSection n line).toOption =
      (kindOf (inside line)).bind fun kind => s.commit.map (enter · kind) := by
  unfold openSection commit
  cases s.finishBackend with
  | error e => cases kindOf (inside line) <;> rfl
  | ok s₁ =>
    simp only [bind, Except.bind, kindOf]
    split
    · rfl
    split
    · rfl
    split
    · split <;> rfl
    rfl

theorem readLine_toOption (n : Nat) (line : Text) :
    (s.readLine n line).toOption = (itemOf line).bind s.obey := by
  unfold readLine itemOf
  dsimp only
  split
  · rfl
  split
  · rw [openSection_toOption, Option.bind_map]
    rfl
  · unfold readAssignment
    by_cases hmem : '=' ∈ clean line
    · rw [if_neg (not_not_intro hmem)]
      dsimp only
      by_cases hempty : lower (keyOf (clean line)) = [] ∨ valueOf (clean line) = []
      · rw [if_pos hempty, if_neg]
        · rfl
        · rintro ⟨-, hkey, hvalue⟩
          exact hempty.elim (fun h => hkey (List.map_eq_nil_iff.mp h)) hvalue
      · rw [if_neg hempty, if_pos, assignValue_toOption]
        · rfl
        · refine ⟨hmem, fun h => hempty (.inl ?_), fun h => hempty (.inr h)⟩
          rw [h]
          rfl
    · rw [if_pos hmem, if_neg (fun h => hmem h.1)]
      rfl

theorem readLines_toOption (n : Nat) (lines : List Text) :
    (s.readLines n lines).toOption = (lines.mapM itemOf).bind fun items => items.foldlM obey s := by
  induction lines generalizing s n with
  | nil => rfl
  | cons line lines ih =>
    have hline := readLine_toOption (s := s) (n + 1) line
    have hcons : (s.readLines n (line :: lines)).toOption =
        (s.readLine (n + 1) line).toOption.bind fun s => (s.readLines (n + 1) lines).toOption := by
      rw [readLines]
      cases s.readLine (n + 1) line <;> rfl
    rw [hcons, hline, List.mapM_cons]
    cases itemOf line with
    | none => rfl
    | some item =>
      simp only [Option.bind_some, ih]
      cases hitems : lines.mapM itemOf with
      | none => cases s.obey item <;> rfl
      | some items => rfl

/-- A section applied where the loader stands. -/
def evalSection (s : Loader) (sec : Section) : Option Loader :=
  (s.commit.map (enter · sec.kind)).bind fun s => sec.body.foldlM set s

theorem foldlM_obey (items : List Item) :
    items.foldlM obey s =
      ((group items).1.foldlM set s).bind fun s => (group items).2.foldlM evalSection s := by
  induction items generalizing s with
  | nil => rfl
  | cons item items ih =>
    rw [List.foldlM_cons]
    cases item with
    | blank => exact ih
    | assignment key value =>
      change (s.set (key, value)).bind _ = _
      cases hset : s.set (key, value) with
      | none => simp [group, hset]
      | some s₁ => simp [group, hset, ih]
    | header kind =>
      change (s.commit.map (enter · kind)).bind _ = _
      cases hcommit : s.commit with
      | none => simp [group, evalSection, hcommit]
      | some c => simp [group, evalSection, hcommit, ih]

end Loader

open Loader

/-- A section applied to a configuration, its backend committed. -/
def applySection (c : AppConfig) (sec : Section) : Option AppConfig :=
  (sec.body.foldlM set (enter c sec.kind)).bind commit

theorem foldlM_evalSection (s : Loader) (secs : List Section) :
    (secs.foldlM evalSection s).bind commit = s.commit.bind fun c => secs.foldlM applySection c := by
  induction secs generalizing s with
  | nil => cases h : s.commit <;> simp [h]
  | cons sec secs ih =>
    rw [List.foldlM_cons]
    unfold evalSection
    cases hcommit : s.commit with
    | none => rfl
    | some c =>
      simp only [Option.map_some, Option.bind_some, List.foldlM_cons, applySection]
      cases hbody : sec.body.foldlM set (enter c sec.kind) with
      | none => rfl
      | some s₁ => exact ih s₁

/-- Before the first header every assignment is refused. -/
theorem foldlM_set_start (body : List (Text × Text)) :
    body.foldlM set {} = if body = [] then some {} else none := by
  cases body with
  | nil => rfl
  | cons a body => rfl

theorem commit_readLines (lines : List Text) (n : Nat) :
    (readLines {} n lines).toOption.bind commit =
      (reading lines).bind fun secs => secs.foldlM applySection {} := by
  rw [readLines_toOption]
  unfold reading
  cases lines.mapM itemOf with
  | none => rfl
  | some items =>
    simp only [Option.bind_some, foldlM_obey, foldlM_set_start]
    split
    · exact foldlM_evalSection {} (group items).2
    · rfl

/-! ## What a section must have, and what it leaves -/

namespace Section

/-- The values that a section assigns to a scalar key. -/
def writes (sec : Section) (k : ScalarKey) : List Text :=
  sec.body.flatMap fun a => if sec.kind = k.kind ∧ a.1 = k.name then [a.2] else []

end Section

/-- The values that the body of a backend section assigns to a key. -/
def valuesOf (body : List (Text × Text)) (k : BackendKey) : List Text :=
  body.flatMap fun a => if a.1 = k.name then [a.2] else []

/-- A key of the section, with a value that it can take. -/
def Known : Kind → Text × Text → Prop
  | .backend _, a => ∃ k : BackendKey, k.name = a.1 ∧ ∃ x, k.form.read a.2 = some x
  | kind, a => ∃ k : ScalarKey, k.kind = kind ∧ k.name = a.1 ∧ ∃ x, k.form.read a.2 = some x

/-- A backend has a name, a host and a port. -/
def Complete : Section → Prop
  | ⟨.backend name, body⟩ => name ≠ [] ∧ valuesOf body .host ≠ [] ∧ valuesOf body .port ≠ []
  | _ => True

structure Section.Valid (sec : Section) : Prop where
  known : ∀ a ∈ sec.body, Known sec.kind a
  complete : Complete sec

/-- The backend that a section describes. -/
structure DescribesBackend (a : Text × List (Text × Text)) (b : BackendConfig) : Prop where
  name : b.name.toList = a.1
  field : ∀ k : BackendKey,
    Latest (fun v x => k.form.read v = some x) k.initial (valuesOf a.2 k) (k.get b)

def Section.backend? : Section → Option (Text × List (Text × Text))
  | ⟨.backend name, body⟩ => some (name, body)
  | _ => none

variable {c c' : AppConfig}

/-! ### Scalars -/

/-- One scalar assignment, in a section of either kind. -/
def assignScalar (kind : Kind) (c : AppConfig) (a : Text × Text) : Option AppConfig :=
  match kind with
  | .server => (assignServerValue c a.1 a.2).toOption
  | .healthCheck => (assignHealthValue c a.1 a.2).toOption
  | .backend _ => none

theorem assignScalar_eq_some {kind : Kind} {a : Text × Text} : assignScalar kind c a = some c' ↔
    ∃ k : ScalarKey, k.kind = kind ∧ k.name = a.1 ∧
      ∃ x, k.form.read a.2 = some x ∧ k.put c x = c' := by
  cases kind with
  | server => exact toOption_eq_some.trans assignServerValue_eq_ok
  | healthCheck => exact toOption_eq_some.trans assignHealthValue_eq_ok
  | backend name =>
    refine ⟨fun h => (by cases h), ?_⟩
    rintro ⟨k, hkind, -⟩
    cases k <;> cases hkind

theorem applySection_scalar {sec : Section} (h : sec.backend? = none) :
    applySection c sec = sec.body.foldlM (assignScalar sec.kind) c := by
  obtain ⟨kind, body⟩ := sec
  have hset : ∀ (c : AppConfig) (a : Text × Text),
      set (enter c kind) a = (assignScalar kind c a).map (enter · kind) := by
    intro c a
    cases kind with
    | server =>
      change ((assignServerValue c a.1 a.2).map _).toOption = Option.map _ _
      unfold assignScalar
      cases assignServerValue c a.1 a.2 <;> rfl
    | healthCheck =>
      change ((assignHealthValue c a.1 a.2).map _).toOption = Option.map _ _
      unfold assignScalar
      cases assignHealthValue c a.1 a.2 <;> rfl
    | backend name => cases h
  have hcommit : ∀ c, commit (enter c kind) = some c := by
    intro c
    cases kind with
    | server => rfl
    | healthCheck => rfl
    | backend name => cases h
  unfold applySection
  rw [foldlM_map hset, Option.bind_map]
  simp only [Function.comp_def, hcommit, Option.bind_fun_some]

/-- One assignment changes the field of its key and no other. -/
theorem assignScalar_latest {kind : Kind} {a : Text × Text} (h : assignScalar kind c a = some c')
    (k : ScalarKey) : Latest (fun v x => k.form.read v = some x) (k.get c)
      (if kind = k.kind ∧ a.1 = k.name then [a.2] else []) (k.get c') := by
  obtain ⟨k', hkind, hname, x, hx, rfl⟩ := assignScalar_eq_some.mp h
  by_cases hk : k = k'
  · subst hk
    rw [if_pos ⟨hkind.symm, hname.symm⟩, latest_singleton, ScalarKey.get_put hx]
    exact hx
  · rw [if_neg, latest_nil]
    · exact ScalarKey.get_put_ne hk
    · rintro ⟨-, hname'⟩
      exact hk (ScalarKey.name_injective (hname'.symm.trans hname.symm))

theorem exists_applySection_scalar {sec : Section} (h : sec.backend? = none) :
    (∃ c', applySection c sec = some c') ↔ ∀ a ∈ sec.body, Known sec.kind a := by
  rw [applySection_scalar h]
  refine foldlM_isSome (I := fun _ => True) (fun _ _ _ _ _ => trivial) ?_ trivial
  intro c a _
  simp only [assignScalar_eq_some]
  obtain ⟨kind, body⟩ := sec
  cases kind with
  | backend name => cases h
  | server =>
    constructor
    · rintro ⟨c', k, hkind, hname, x, hx, -⟩
      exact ⟨k, hkind, hname, x, hx⟩
    · rintro ⟨k, hkind, hname, x, hx⟩
      exact ⟨k.put c x, k, hkind, hname, x, hx, rfl⟩
  | healthCheck =>
    constructor
    · rintro ⟨c', k, hkind, hname, x, hx, -⟩
      exact ⟨k, hkind, hname, x, hx⟩
    · rintro ⟨k, hkind, hname, x, hx⟩
      exact ⟨k.put c x, k, hkind, hname, x, hx, rfl⟩

/-! ### Backends -/

/-- The loader within a backend section. -/
structure Collecting (c : AppConfig) (name : Text) (s : Loader) : Prop where
  config : s.config = c
  sectionName : s.sectionName = .backend
  insideBackend : s.insideBackend = true
  name : s.currentBackend.name = .ofList name

namespace Collecting

variable {name : Text} {s s' : Loader} {a : Text × Text}

theorem set_eq_some (h : Collecting c name s) : s.set a = some s' ↔
    ∃ k : BackendKey, k.name = a.1 ∧ ∃ x, k.form.read a.2 = some x ∧ s.put k x = s' := by
  have hset : s.set a = (s.assignBackendValue 0 a.1 a.2).toOption := by
    unfold Loader.set assignValue
    rw [h.sectionName, h.insideBackend]
    rfl
  rw [hset, toOption_eq_some, assignBackendValue_eq_ok]

theorem set (h : Collecting c name s) (hset : s.set a = some s') : Collecting c name s' := by
  obtain ⟨k, -, x, -, rfl⟩ := h.set_eq_some.mp hset
  cases k <;> cases x <;> exact ⟨h.config, h.sectionName, h.insideBackend, h.name⟩

theorem set_latest (h : Collecting c name s) (hset : s.set a = some s') (k : BackendKey) :
    Latest (fun v x => k.form.read v = some x) (k.get s.currentBackend)
      (if a.1 = k.name then [a.2] else []) (k.get s'.currentBackend) := by
  obtain ⟨k', hname, x, hx, rfl⟩ := h.set_eq_some.mp hset
  by_cases hk : k = k'
  · subst hk
    rw [if_pos hname.symm, latest_singleton, get_put hx]
    exact hx
  · rw [if_neg, latest_nil]
    · exact get_put_ne hk
    · intro hname'
      exact hk (BackendKey.name_injective (hname'.symm.trans hname.symm))

theorem set_given (h : Collecting c name s) (hset : s.set a = some s') (k : BackendKey) :
    Latest (fun _ x => x = true) (s.given k) (if a.1 = k.name then [a.2] else []) (s'.given k) := by
  obtain ⟨k', hname, x, hx, rfl⟩ := h.set_eq_some.mp hset
  by_cases hk : k = k'
  · subst hk
    rw [if_pos hname.symm, latest_singleton, given_put hx]
  · rw [if_neg, latest_nil]
    · exact given_put_ne hk
    · intro hname'
      exact hk (BackendKey.name_injective (hname'.symm.trans hname.symm))

theorem enter (c : AppConfig) (name : Text) : Collecting c name (enter c (.backend name)) :=
  ⟨rfl, rfl, rfl, rfl⟩

variable {body : List (Text × Text)}

theorem exists_body (h : Collecting c name s) :
    (∃ s', body.foldlM Loader.set s = some s') ↔ ∀ a ∈ body, Known (.backend name) a := by
  refine foldlM_isSome (I := Collecting c name) (fun _ _ _ h hset => h.set hset) ?_ h
  intro s a h
  simp only [h.set_eq_some]
  constructor
  · rintro ⟨s', k, hname, x, hx, -⟩
    exact ⟨k, hname, x, hx⟩
  · rintro ⟨k, hname, x, hx⟩
    exact ⟨s.put k x, k, hname, x, hx, rfl⟩

/-- At the end of a section, a key has been given a value if the section assigns it one. -/
theorem given_iff (hbody : body.foldlM Loader.set (Loader.enter c (.backend name)) = some s)
    {k : BackendKey} (hk : k ≠ .weight) : s.given k = true ↔ valuesOf body k ≠ [] := by
  have hgiven := foldlM_latest (I := Collecting c name) (g := fun s => s.given k)
    (w := fun a => if a.1 = k.name then [a.2] else []) (P := fun _ x => x = true)
    (fun _ _ _ h hset => h.set hset) (fun _ _ _ h hset => h.set_given hset k) (enter c name) hbody
  have hfalse : (Loader.enter c (.backend name)).given k = false := by
    cases k <;> first | rfl | exact absurd rfl hk
  rw [hfalse] at hgiven
  change Latest _ _ (valuesOf body k) _ at hgiven
  cases hvalues : valuesOf body k using List.reverseRecOn with
  | nil =>
    rw [hvalues, latest_nil] at hgiven
    simp [hgiven]
  | append_singleton l v _ =>
    rw [hvalues, latest_append_singleton] at hgiven
    simp [hgiven]

end Collecting

theorem commit_collecting {name : Text} {s : Loader} (h : Collecting c name s) :
    s.commit = if name ≠ [] ∧ s.given .host = true ∧ s.given .port = true
      then some { c with backends := c.backends ++ [s.currentBackend] } else none := by
  have hname : s.currentBackend.name = "" ↔ name = [] := by
    rw [h.name, ← String.toList_inj, String.toList_ofList]
    rfl
  have herror : (s.currentBackend.name = "" ∨ s.backendHasHost = false ∨ s.backendHasPort = false) ↔
      ¬(name ≠ [] ∧ s.given .host = true ∧ s.given .port = true) := by
    rw [hname, Loader.given, Loader.given, ← Bool.not_eq_true, ← Bool.not_eq_true]
    tauto
  unfold commit finishBackend
  rw [if_neg (by simp [h.insideBackend]), h.config]
  by_cases hgiven : name ≠ [] ∧ s.given .host = true ∧ s.given .port = true
  · rw [if_neg (fun herr => herror.mp herr hgiven), if_pos hgiven]
    rfl
  · rw [if_pos (herror.mpr hgiven), if_neg hgiven]
    rfl

theorem applySection_backend {name : Text} {body : List (Text × Text)} :
    applySection c ⟨.backend name, body⟩ = some c' ↔ Complete ⟨.backend name, body⟩ ∧
      ∃ s, body.foldlM set (enter c (.backend name)) = some s ∧
        c' = { c with backends := c.backends ++ [s.currentBackend] } := by
  unfold applySection
  rw [Option.bind_eq_some_iff]
  constructor
  · rintro ⟨s, hbody, hcommit⟩
    have hcoll : Collecting c name s :=
      foldlM_inv (fun _ _ _ h hset => h.set hset) (Collecting.enter c name) hbody
    rw [commit_collecting hcoll] at hcommit
    split at hcommit
    · rename_i hcomplete
      rw [Collecting.given_iff hbody (by decide), Collecting.given_iff hbody (by decide)]
        at hcomplete
      exact ⟨hcomplete, s, hbody, (Option.some.inj hcommit).symm⟩
    · cases hcommit
  · rintro ⟨hcomplete, s, hbody, rfl⟩
    have hcoll : Collecting c name s :=
      foldlM_inv (fun _ _ _ h hset => h.set hset) (Collecting.enter c name) hbody
    refine ⟨s, hbody, ?_⟩
    rw [commit_collecting hcoll, if_pos]
    rw [Collecting.given_iff hbody (by decide), Collecting.given_iff hbody (by decide)]
    exact hcomplete

/-! ### Either kind -/

theorem exists_applySection (sec : Section) :
    (∃ c', applySection c sec = some c') ↔ sec.Valid := by
  obtain ⟨kind, body⟩ := sec
  cases kind with
  | backend name =>
    simp only [applySection_backend]
    constructor
    · rintro ⟨c', hcomplete, s, hbody, -⟩
      exact ⟨(Collecting.enter c name).exists_body.mp ⟨s, hbody⟩, hcomplete⟩
    · rintro ⟨hknown, hcomplete⟩
      obtain ⟨s, hbody⟩ := (Collecting.enter c name).exists_body.mpr hknown
      exact ⟨_, hcomplete, s, hbody, rfl⟩
  | server =>
    rw [exists_applySection_scalar rfl]
    exact ⟨fun h => ⟨h, trivial⟩, fun h => h.known⟩
  | healthCheck =>
    rw [exists_applySection_scalar rfl]
    exact ⟨fun h => ⟨h, trivial⟩, fun h => h.known⟩

theorem applySection_latest {sec : Section} (h : applySection c sec = some c') (k : ScalarKey) :
    Latest (fun v x => k.form.read v = some x) (k.get c) (sec.writes k) (k.get c') := by
  cases hb : sec.backend? with
  | none =>
    rw [applySection_scalar hb] at h
    exact foldlM_latest (I := fun _ => True) (g := fun c => k.get c) (fun _ _ _ _ _ => trivial)
      (fun _ _ _ _ h => assignScalar_latest h k) trivial h
  | some a =>
    obtain ⟨kind, body⟩ := sec
    cases kind with
    | server => cases hb
    | healthCheck => cases hb
    | backend name =>
      obtain ⟨-, s, -, rfl⟩ := applySection_backend.mp h
      have hnone : Section.writes ⟨.backend name, body⟩ k = [] := by
        unfold Section.writes
        rw [List.flatMap_eq_nil_iff]
        intro a _
        exact if_neg fun h => by cases k <;> cases h.1
      rw [hnone, latest_nil]
      cases k <;> rfl

theorem applySection_backends {sec : Section} (h : applySection c sec = some c') :
    ∃ bs, c'.backends = c.backends ++ bs ∧
      List.Forall₂ DescribesBackend sec.backend?.toList bs := by
  cases hb : sec.backend? with
  | none =>
    rw [applySection_scalar hb] at h
    refine ⟨[], ?_, .nil⟩
    rw [List.append_nil]
    refine foldlM_inv (I := fun c' => c'.backends = c.backends) ?_ rfl h
    intro c₁ a c₂ hc₁ hstep
    obtain ⟨k, -, -, x, -, rfl⟩ := assignScalar_eq_some.mp hstep
    rw [ScalarKey.backends_put, hc₁]
  | some a =>
    obtain ⟨kind, body⟩ := sec
    cases kind with
    | server => cases hb
    | healthCheck => cases hb
    | backend name =>
      cases hb
      obtain ⟨-, s, hbody, rfl⟩ := applySection_backend.mp h
      refine ⟨[s.currentBackend], rfl, .cons ⟨?_, ?_⟩ .nil⟩
      · have hcoll : Collecting c name s :=
          foldlM_inv (fun _ _ _ h hset => h.set hset) (Collecting.enter c name) hbody
        rw [hcoll.name, String.toList_ofList]
      · intro k
        have hfield := foldlM_latest (f := Loader.set) (I := Collecting c name)
          (g := fun s => k.get s.currentBackend) (fun _ _ _ h hset => h.set hset)
          (fun _ _ _ h hset => h.set_latest hset k) (Collecting.enter c name) hbody
        cases k <;> exact hfield

/-! ## The whole file -/

/-- The configuration that a list of sections describes. -/
structure Describes (secs : List Section) (c : AppConfig) : Prop where
  scalar : ∀ k : ScalarKey, Latest (fun v x => k.form.read v = some x) (k.get {})
    (secs.flatMap (·.writes k)) (k.get c)
  backends : List.Forall₂ DescribesBackend (secs.flatMap (·.backend?.toList)) c.backends

/-- What the loader checks at the end. -/
structure Acceptable (c : AppConfig) : Prop where
  nonempty : c.backends ≠ []
  timeout : c.healthCheckTimeoutMs < c.healthCheckIntervalMs
  names : (c.backends.map (·.name)).Nodup

theorem DescribesBackend.unique {a : Text × List (Text × Text)} {b b' : BackendConfig}
    (h : DescribesBackend a b) (h' : DescribesBackend a b') : b = b' := by
  have hfield : ∀ k : BackendKey, k.get b = k.get b' := fun k =>
    (h.field k).unique (fun _ _ _ hx hx' => Option.some.inj (hx.symm.trans hx')) (h'.field k)
  have hname := h.name.trans h'.name.symm
  have hhost := hfield .host
  have hport := hfield .port
  have hweight := hfield .weight
  cases b
  cases b'
  simp_all [BackendKey.get, String.toList_inj]

theorem Describes.unique {secs : List Section} (h : Describes secs c) (h' : Describes secs c') :
    c = c' := by
  refine AppConfig.ext_get (fun k => ?_) ?_
  · exact (h.scalar k).unique (fun _ _ _ hx hx' => Option.some.inj (hx.symm.trans hx'))
      (h'.scalar k)
  · exact List.right_unique_forall₂' (fun _ _ _ hb hb' => hb.unique hb') h.backends h'.backends

theorem exists_foldlM_applySection {secs : List Section} :
    (∃ c, secs.foldlM applySection {} = some c) ↔ ∀ sec ∈ secs, sec.Valid :=
  foldlM_isSome (I := fun _ => True) (fun _ _ _ _ _ => trivial)
    (fun _ sec _ => exists_applySection sec) trivial

theorem describes_of_foldlM {secs : List Section} (h : secs.foldlM applySection {} = some c) :
    Describes secs c where
  scalar k := foldlM_latest (I := fun _ => True) (g := fun c => k.get c)
    (fun _ _ _ _ _ => trivial) (fun _ _ _ _ h => applySection_latest h k) trivial h
  backends := by
    obtain ⟨bs, hbs, hR⟩ := foldlM_appends (g := AppConfig.backends)
      (fun _ _ _ h => applySection_backends h) h
    rw [hbs]
    exact hR

theorem exists_describes {secs : List Section} (h : ∀ sec ∈ secs, sec.Valid) :
    ∃ c, Describes secs c := by
  obtain ⟨c, hc⟩ := exists_foldlM_applySection.mpr h
  exact ⟨c, describes_of_foldlM hc⟩

theorem foldlM_applySection {secs : List Section} :
    secs.foldlM applySection {} = some c ↔ (∀ sec ∈ secs, sec.Valid) ∧ Describes secs c := by
  constructor
  · intro h
    exact ⟨exists_foldlM_applySection.mp ⟨c, h⟩, describes_of_foldlM h⟩
  · rintro ⟨hall, hc⟩
    obtain ⟨c', h⟩ := exists_foldlM_applySection.mpr hall
    rw [h, (describes_of_foldlM h).unique hc]

theorem checkNames_eq_ok (names : List String) (backends : List BackendConfig) :
    checkNames names backends = .ok () ↔
      (backends.map (·.name)).Nodup ∧ ∀ b ∈ backends, b.name ∉ names := by
  induction backends generalizing names with
  | nil => simp [checkNames]
  | cons b backends ih =>
    unfold checkNames
    split
    · rename_i hmem
      simp [hmem]
    · rename_i hmem
      rw [ih, List.map_cons, List.nodup_cons]
      simp only [List.mem_cons, List.mem_map, not_or, not_exists, not_and, forall_eq_or_imp]
      constructor
      · rintro ⟨hnodup, hne⟩
        exact ⟨⟨fun b' hb' => (hne b' hb').1, hnodup⟩, hmem, fun b' hb' => (hne b' hb').2⟩
      · rintro ⟨⟨hne, hnodup⟩, -, hnames⟩
        exact ⟨hnodup, fun b' hb' => ⟨hne b' hb', hnames b' hb'⟩⟩

theorem checkConfig_eq_ok : checkConfig c = .ok c' ↔ c = c' ∧ Acceptable c' := by
  unfold checkConfig
  split
  · rename_i hempty
    refine ⟨fun h => (by cases h), ?_⟩
    rintro ⟨rfl, hc⟩
    exact absurd hempty hc.nonempty
  split
  · rename_i htimeout
    refine ⟨fun h => (by cases h), ?_⟩
    rintro ⟨rfl, hc⟩
    exact absurd hc.timeout (Nat.not_lt.mpr htimeout)
  · rename_i hempty htimeout
    have hmap : (checkNames [] c.backends).map (fun _ => c) = .ok c' ↔
        checkNames [] c.backends = .ok () ∧ c = c' := by
      cases checkNames [] c.backends <;> simp [Except.map]
    rw [hmap, checkNames_eq_ok]
    constructor
    · rintro ⟨⟨hnames, -⟩, rfl⟩
      exact ⟨rfl, hempty, Nat.not_le.mp htimeout, hnames⟩
    · rintro ⟨rfl, hc⟩
      exact ⟨⟨hc.names, fun _ _ => List.not_mem_nil⟩, rfl⟩

/-- The loader succeeds on the files that read as valid sections and describe an acceptable
configuration, and returns that one. -/
theorem load_eq_ok (path file : Text) : load path (some file) = .ok c ↔
    ∃ secs, reading (records '\n' file) = some secs ∧ (∀ sec ∈ secs, sec.Valid) ∧
      Describes secs c ∧ Acceptable c := by
  have hload : load path (some file) = .ok c ↔
      (readLines {} 0 (records '\n' file)).toOption.bind commit = some c ∧ Acceptable c := by
    simp only [load]
    cases readLines {} 0 (records '\n' file) with
    | error e =>
      refine ⟨fun h => ?_, fun h => ?_⟩
      · cases h
      · cases h.1
    | ok s =>
      change (s.finishBackend >>= fun s => checkConfig s.config) = .ok c ↔
        s.finishBackend.toOption.map (·.config) = some c ∧ Acceptable c
      cases s.finishBackend with
      | error e =>
        refine ⟨fun h => ?_, fun h => ?_⟩
        · cases h
        · cases h.1
      | ok s₁ =>
        change checkConfig s₁.config = .ok c ↔ some s₁.config = some c ∧ Acceptable c
        rw [checkConfig_eq_ok, Option.some.injEq]
  rw [hload, commit_readLines]
  constructor
  · rintro ⟨h, hc⟩
    obtain ⟨secs, hsecs, hfold⟩ := Option.bind_eq_some_iff.mp h
    obtain ⟨hvalid, hdescribes⟩ := foldlM_applySection.mp hfold
    exact ⟨secs, hsecs, hvalid, hdescribes, hc⟩
  · rintro ⟨secs, hsecs, hvalid, hdescribes, hc⟩
    exact ⟨Option.bind_eq_some_iff.mpr ⟨secs, hsecs, foldlM_applySection.mpr ⟨hvalid, hdescribes⟩⟩,
      hc⟩

end FluxGate.ConfigLoader
