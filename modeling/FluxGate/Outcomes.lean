import FluxGate.Process

/-!
# One connect outcome per lease

The outcome of a connect is recorded at five places: in the constructor of a
session whose connect returned at once, in the two branches of
`finishUpstreamConnect`, in the `catch` of `createSession` and in the sweep.
Each lease gets to at most one of them. While a session may still get there it
is connecting, not closing and not waiting for `closeSession`
(`Worker.Awaits`); whatever ends the wait also ends one of these conditions
within the same step, and no step restores them.

A `Docket` beside each worker keeps the leases it obtained and what became of
their connects. The counters of the backends are the sums over the dockets.
-/

namespace FluxGate

open Lib

/-! ## The connect in `handleEvent` -/

/-- What the end of a connect changes. -/
structure Tally where
  succeeded : Nat
  failed : Nat
  connectFailures : Nat
  connecting : Bool

def Env.tally (env : Env) : Tally where
  succeeded := env.backend.totalConnections
  failed := env.backend.failedConnections
  connectFailures := env.metrics.connectFailures
  connecting := env.session.upstreamConnecting

theorem tally_calm (t : Tally) (now : Nat) : Calm now (fun env => env.tally = t) where
  close _ h := h
  readClosed _ side h := by cases side <;> exact h
  writeShutdown _ side h := by cases side <;> exact h
  call _ _ _ h := h
  makeWritable _ side h := by cases side <;> exact h
  recv _ side _ _ h := by cases side <;> exact h
  send _ side _ h := by cases side <;> exact h

section Connect

variable {env env' : Env} {fd : Fd} {events : EventMask} {now : Nat} {ans : Answers} {result : Bool}

/-- The event makes `handleEvent` ask for the result of the connect. -/
structure Env.Asks (s : ProxySession) (fd : Fd) (events : EventMask) : Prop where
  upstream : fd = s.upstreamFd
  connecting : s.upstreamConnecting = true
  ready : has events (EPOLLOUT ||| EPOLLERR ||| EPOLLHUP) = true

/-- Without asking, the call leaves the connect alone. -/
theorem handleEvent_unasked (hlive : env.session.closing = false)
    (hask : ¬ Env.Asks env.session fd events)
    (hcall : env.handleEvent fd events now ans = (.ret result, env')) : env'.tally = env.tally := by
  rw [handleEvent_live fd hlive] at hcall
  have hrest := (tally_calm env.tally now).rest fd events ans env rfl
  unfold Phase.andThen Env.connectPhase at hcall
  by_cases hup : fd = env.session.upstreamFd ∧ env.session.upstreamConnecting = true
  · have hbits : has events (EPOLLOUT ||| EPOLLERR ||| EPOLLHUP) = false := by
      by_contra hb
      exact hask ⟨hup.1, hup.2, by simpa using hb⟩
    simp only [if_pos hup, hbits, Bool.not_false, if_true] at hcall
    rw [(Prod.mk.inj hcall).2]
  · simp only [if_neg hup] at hcall
    rw [← (Prod.mk.inj hcall).2]
    exact hrest

/-- `SO_ERROR` decides: the connect is over, or the session is closing. -/
theorem handleEvent_asked (hlive : env.session.closing = false) (hask : Env.Asks env.session fd events)
    (hcall : env.handleEvent fd events now ans = (.ret result, env')) :
    ∃ r, ans.connect = some r ∧
      (r = .ok none → env'.tally = (env.connected now).tally) ∧
      (r ≠ .ok none → result = false ∧ env'.tally = env.connectFailed.tally) := by
  rw [handleEvent_live fd hlive] at hcall
  unfold Phase.andThen Env.connectPhase Env.finishUpstreamConnect at hcall
  simp only [if_pos (And.intro hask.upstream hask.connecting), hask.ready, Bool.not_true,
    Bool.false_eq_true, if_false] at hcall
  cases hans : ans.connect with
  | none =>
    rw [hans] at hcall
    cases hcall
  | some r =>
    rw [hans] at hcall
    refine ⟨r, rfl, fun hr => ?_, fun hr => ?_⟩
    · simp only [ne_eq, hr, not_true_eq_false, if_false] at hcall
      rw [← (Prod.mk.inj hcall).2]
      exact (tally_calm (env.connected now).tally now).rest fd events ans _ rfl
    · simp only [ne_eq, hr, not_false_eq_true, if_true] at hcall
      obtain ⟨hret, rfl⟩ := Prod.mk.inj hcall
      exact ⟨(Flow.ret.inj hret).symm, rfl⟩

end Connect

/-! ## Leases and their outcomes -/

/-- How a connect ended. -/
inductive Outcome where
  /-- `connect` returned 0 -/
  | atOnce
  /-- `SO_ERROR` was read and is 0 -/
  | finished
  /-- `connectNonBlocking` threw -/
  | threw
  /-- `SO_ERROR` was not 0, or could not be read -/
  | finishFailed
  /-- the sweep found it timed out -/
  | timedOut
  deriving DecidableEq, Repr

def Outcome.success : Outcome → Bool
  | .atOnce => true
  | .finished => true
  | _ => false

/-- The leases of a worker, by the order in which `createSession` obtained them. -/
structure Docket where
  /-- the backend of each lease -/
  leases : List Nat
  /-- the lease that an object was built with -/
  owner : Ref → Nat
  /-- the outcomes so far, with the lease of each -/
  outcomes : List (Nat × Outcome)

namespace Docket

def new : Docket := ⟨[], fun _ => 0, []⟩

/-- The lease in the hands of `createSession`. -/
def last (d : Docket) : Nat := d.leases.length - 1

def acquire (d : Docket) (b : Nat) : Docket := { d with leases := d.leases ++ [b] }

/-- The lease is moved into a new object. -/
def build (d : Docket) (p : Ref) : Docket := { d with owner := Function.update d.owner p d.last }

def file (d : Docket) (entries : List (Nat × Outcome)) : Docket :=
  { d with outcomes := d.outcomes ++ entries }

theorem file_nil (d : Docket) : d.file [] = d := by
  simp [file]

def settled (d : Docket) : List Nat := d.outcomes.map Prod.fst

/-- What became of one lease. -/
def outcomesOf (d : Docket) (k : Nat) : List Outcome :=
  (d.outcomes.filter fun e => e.1 == k).map Prod.snd

/-- The leases of one backend. -/
def leasesOf (d : Docket) (b : Nat) : Finset Nat :=
  (Finset.range d.leases.length).filter fun k => d.leases[k]? = some b

/-- What the leases of `b` contribute to `totalConnections_` and `failedConnections_`. -/
def successes (d : Docket) (b : Nat) : Nat :=
  ∑ k ∈ d.leasesOf b, (d.outcomesOf k).countP Outcome.success

def failures (d : Docket) (b : Nat) : Nat :=
  ∑ k ∈ d.leasesOf b, (d.outcomesOf k).countP fun o => !o.success

/-- Counting outcomes by lease is counting them one by one. -/
theorem sum_outcomesOf (d : Docket) (f : Outcome → Bool) (b : Nat) :
    ∑ k ∈ d.leasesOf b, (d.outcomesOf k).countP f =
      d.outcomes.countP fun e => decide (d.leases[e.1]? = some b) && f e.2 := by
  have hof : ∀ k, (d.outcomesOf k).countP f = d.outcomes.countP fun e => e.1 == k && f e.2 := by
    intro k
    rw [outcomesOf, List.countP_map, List.countP_filter]
    exact List.countP_congr fun e _ => by simp [and_comm]
  have hmem : ∀ k, k ∈ d.leasesOf b ↔ d.leases[k]? = some b := by
    intro k
    simp only [leasesOf, Finset.mem_filter, Finset.mem_range, and_iff_right_iff_imp]
    exact fun h => (List.getElem?_eq_some_iff.mp h).1
  simp only [hof]
  rw [sum_countP_fiber]
  simp only [hmem]

theorem successes_file (d : Docket) (entries : List (Nat × Outcome)) (b : Nat) :
    (d.file entries).successes b = d.successes b +
      entries.countP fun e => decide (d.leases[e.1]? = some b) && e.2.success := by
  rw [successes, successes, sum_outcomesOf, sum_outcomesOf]
  exact List.countP_append

theorem failures_file (d : Docket) (entries : List (Nat × Outcome)) (b : Nat) :
    (d.file entries).failures b = d.failures b +
      entries.countP fun e => decide (d.leases[e.1]? = some b) && !e.2.success := by
  rw [failures, failures, sum_outcomesOf, sum_outcomesOf]
  exact List.countP_append

/-- A new lease has no outcome yet. -/
theorem sum_acquire {d : Docket} (hknown : ∀ k ∈ d.settled, k < d.leases.length) (f : Outcome → Bool)
    (b b' : Nat) : ∑ k ∈ (d.acquire b).leasesOf b', ((d.acquire b).outcomesOf k).countP f =
      ∑ k ∈ d.leasesOf b', (d.outcomesOf k).countP f := by
  rw [sum_outcomesOf, sum_outcomesOf]
  apply List.countP_congr
  intro e he
  have hlt := hknown e.1 (List.mem_map_of_mem he)
  have hget : (d.acquire b).leases[e.1]? = d.leases[e.1]? := List.getElem?_append_left hlt
  rw [hget]

end Docket

namespace Worker

/-- The session whose `SO_ERROR` is asked for on behalf of the event. -/
structure Asks (w : Worker) (e : Event) (p : Ref) (s : ProxySession) : Prop where
  delivers : w.Delivers e p s
  asks : Env.Asks s e.fd e.mask

theorem Asks.unique {w : Worker} {e : Event} {p q : Ref} {s t : ProxySession} (h : w.Asks e q t)
    (hfound : w.fdToSession e.fd = some p) (hp : w.heap p = some s) : q = p ∧ t = s := by
  have hqp : q = p := Option.some.inj (h.delivers.found.symm.trans hfound)
  subst hqp
  exact ⟨rfl, Option.some.inj (h.delivers.object.symm.trans hp)⟩

/-- A reference whose connect the sweep finds timed out. -/
def timedOut (config : AppConfig) (now : Nat) (w : Worker) (p : Ref) : Bool :=
  ((w.heap p).map (·.connectTimedOut config.connectTimeoutMs now)).getD false

/-- The event asks for the result of a connect, and this is what was found. -/
def Finds (sh sh' : SharedState) (w' : Worker) (e : Event) (p : Ref) (s : ProxySession)
    (o : Outcome) : Prop :=
  ∃ now ans result env r,
    (Env.mk s (sh.backends s.backend) sh.metrics []).handleEvent e.fd e.mask now ans =
      (.ret result, env) ∧
    ans.connect = some r ∧ o = (if r = .ok none then .finished else .finishFailed) ∧
    w'.heap p = some (if result then env.session else env.session.markClosing) ∧
    sh' = (sh.onBackend s.backend (fun _ => env.backend)).onMetrics (fun _ => env.metrics)

/-- What a step adds to the docket. -/
def Files (config : AppConfig) (sh : SharedState) (w : Worker) (sh' : SharedState) (w' : Worker)
    (d d' : Docket) : Prop :=
  match w.pc, w'.pc with
  | .create (.acquire _) _ _, .create (.socket _ b) _ _ => d' = d.acquire b
  | .create (.socket _ _) _ _, .create (.cleanup _) _ _ => d' = d.file [(d.last, .threw)]
  | .create (.connect _ _ _) _ _, .create (.cleanup _) _ _ => d' = d.file [(d.last, .threw)]
  | .create (.construct _ _ _ connecting) _ _, _ =>
    d' = (d.build w.nextSessionId).file (if connecting then [] else [(d.last, .atOnce)])
  | .batch (e :: _), _ =>
    (∀ p s, w.Asks e p s → ∃ o, Finds sh sh' w' e p s o ∧ d' = d.file [(d.owner p, o)]) ∧
      ((∀ p s, ¬ w.Asks e p s) → d' = d)
  | .sweepTest _, .close refs _ (.expired _) =>
    ∃ now, refs.Perm (w.select (expired config now)) ∧
      sh' = sweepFailures config now w.heap refs sh ∧
      d' = d.file ((refs.filter (w.timedOut config now)).map fun p => (d.owner p, .timedOut))
  | _, _ => d' = d

end Worker

/-! ## The invariant -/

/-- The backend that `createSession` is connecting to. -/
def Pc.connectsTo : Pc → Option Nat
  | .create (.socket _ b) _ _ => some b
  | .create (.connect _ b _) _ _ => some b
  | .create (.construct _ b _ _) _ _ => some b
  | _ => none

/-- It is about to build the session. -/
def Pc.builds : Pc → Bool
  | .create (.construct _ _ _ _) _ _ => true
  | _ => false

namespace Worker

variable {config : AppConfig} {sh sh' : SharedState} {w w' : Worker} {error : Bool} {eff : FdEffect}
  {d d' : Docket} {p : Ref} {s : ProxySession}

/-- The object is in use, or about to be. -/
def InUse (w : Worker) (p : Ref) : Prop := w.published p ∧ p ∉ w.pc.todo ∨ p ∈ w.pc.building

/-- The outcome of its connect is open. -/
structure Awaits (w : Worker) (p : Ref) (s : ProxySession) : Prop where
  object : w.heap p = some s
  inUse : w.InUse p
  connecting : s.upstreamConnecting = true
  notClosing : s.closing = false

/-- The lease that `createSession` holds: it has no outcome, and no object has it. -/
structure InHand (w : Worker) (d : Docket) (b : Nat) : Prop where
  backend : d.leases.getLast? = some b
  unsettled : d.last ∉ d.settled
  unowned : ∀ p, w.heap p ≠ none → d.owner p ≠ d.last

theorem InHand.last_lt {b : Nat} (h : w.InHand d b) : d.last < d.leases.length := by
  have hne : d.leases ≠ [] := by
    intro he
    have hb := h.backend
    rw [he] at hb
    cases hb
  exact Nat.sub_lt (List.length_pos_of_ne_nil hne) Nat.one_pos

theorem InHand.getElem_last {b : Nat} (h : w.InHand d b) : d.leases[d.last]? = some b := by
  rw [← h.backend, List.getLast?_eq_getElem?]
  rfl

structure Docketed (w : Worker) (d : Docket) : Prop where
  once : d.settled.Nodup
  known : ∀ k ∈ d.settled, k < d.leases.length
  backend : ∀ p s, w.heap p = some s → d.leases[d.owner p]? = some s.backend
  owner : ∀ p q, w.heap p ≠ none → w.heap q ≠ none → d.owner p = d.owner q → p = q
  inHand : ∀ b, w.pc.connectsTo = some b → w.InHand d b
  pending : ∀ p s, w.Awaits p s → d.owner p ∉ d.settled

/-! ### What a step does to the sessions -/

/-- An object keeps its backend, and neither flag goes back. -/
structure Carried (s s' : ProxySession) : Prop where
  backend : s'.backend = s.backend
  connecting : s'.upstreamConnecting = true → s.upstreamConnecting = true
  closing : s'.closing = false → s.closing = false

theorem Carried.refl (s : ProxySession) : Carried s s := ⟨rfl, id, id⟩

theorem handleEvent_carried {env : Env} {fd : Fd} {events : EventMask} {now : Nat} {ans : Answers}
    {result : Bool} {b : Backend} {m : Metrics} (hlive : s.closing = false)
    (hcall : (Env.mk s b m []).handleEvent fd events now ans = (.ret result, env)) :
    Carried s env.session where
  backend := (handleEvent_kept hcall).backend
  connecting hcon := by
    by_cases hask : Env.Asks s fd events
    · exact hask.connecting
    · have ht := handleEvent_unasked hlive hask hcall
      have hsame : env.session.upstreamConnecting = s.upstreamConnecting := congrArg Tally.connecting ht
      rwa [hsame] at hcon
  closing _ := hlive

/-- Unless a session is being built, every object was there before the step. -/
theorem Step.carried (hstep : Step config sh w error eff sh' w')
    (hnew : w.pc.builds = false)
    {s' : ProxySession} (hp' : w'.heap p = some s') : ∃ s, w.heap p = some s ∧ Carried s s' := by
  have hset : ∀ {q : Ref} {t t' : ProxySession}, w.heap q = some t → Carried t t' →
      (Function.update w.heap q (some t')) p = some s' → ∃ s, w.heap p = some s ∧ Carried s s' := by
    intro q t t' hq hc hp
    by_cases hpq : p = q
    · subst hpq
      rw [Function.update_self] at hp
      obtain rfl := Option.some.inj hp
      exact ⟨t, hq, hc⟩
    · rw [Function.update_of_ne hpq] at hp
      exact ⟨s', hp, .refl s'⟩
  have hfree : ∀ {q : Ref}, (Function.update w.heap q none) p = some s' →
      ∃ s, w.heap p = some s ∧ Carried s s' := by
    intro q hp
    by_cases hpq : p = q
    · rw [hpq, Function.update_self] at hp
      cases hp
    · rw [Function.update_of_ne hpq] at hp
      exact ⟨s', hp, .refl s'⟩
  cases hstep
  case handled e events q t now ans result env hpc hfd hfound hq hlive hcall hrange =>
    have hc := handleEvent_carried hlive hcall
    cases result with
    | true => exact hset hq hc hp'
    | false =>
      have hm : Carried t env.session.markClosing := ⟨hc.backend, hc.connecting, fun h => (by cases h)⟩
      exact hset hq hm hp'
  case modifyFailed q t side events hpc hq =>
    have hc : Carried t t.markClosing := ⟨rfl, id, fun h => (by cases h)⟩
    exact hset hq hc hp'
  case construct c b u con now clients ctx hpc =>
    rw [hpc] at hnew
    cases hnew
  case unregister q t clients ctx hpc hq => exact hfree hp'
  case dropLast q t refs ctx hpc hq hlast => exact hfree hp'
  all_goals exact ⟨s', hp', .refl s'⟩

/-- A session stays in the vector to be closed until it is taken from the maps. -/
theorem Step.todo (hstep : Step config sh w error eff sh' w') (hi : w.Indexed) (hp : p ∈ w.pc.todo)
    (hpub : w'.published p) : p ∈ w'.pc.todo := by
  cases hstep
  case closeMissing q t todo refs ctx hpc hq hfound =>
    rw [hpc] at hp
    rcases List.mem_cons.mp hp with rfl | hp
    · rw [hi.named _ _ hq, hi.published_iff] at hfound
      exact absurd hpub hfound
    · exact hp
  case closeSession q t todo refs ctx hpc hq hfound =>
    rw [hpc] at hp
    rcases List.mem_cons.mp hp with rfl | hp
    · exact absurd rfl ((hi.published_unpublish hq _).mp hpub).2
    · exact hp
  case onClosedLoad todo refs ctx hpc =>
    rw [hpc] at hp
    exact hp
  case onClosedSub current todo refs ctx hpc =>
    rw [hpc] at hp
    exact hp
  all_goals
    rw [‹w.pc = _›] at hp
    cases hp

/-- Nothing comes into use but what is being built. -/
theorem Step.inUse (hstep : Step config sh w error eff sh' w') (hi : w.Indexed)
    (hnew : w.pc.builds = false)
    (hp : w'.InUse p) : w.InUse p := by
  have hkeep : (w'.published p → w.published p) → (p ∈ w'.pc.building → p ∈ w.pc.building) →
      w.InUse p := by
    intro hpub hbuild
    rcases hp with ⟨hpub', hp⟩ | hp
    · exact Or.inl ⟨hpub hpub', fun htodo => hp (hstep.todo hi htodo hpub')⟩
    · exact Or.inr (hbuild hp)
  rcases hstep.quiet_or_touch hi with hq | ht
  · refine hkeep (fun hpub => ?_) (hq.building p)
    rwa [published, hq.sessions] at hpub
  · cases ht with
    | serve => exact hkeep id (fun h => by cases h)
    | doom => exact hkeep id (fun h => by cases h)
    | modify side => exact hkeep id (fun h => by cases side <;> cases h)
    | register side hpc => exact hkeep id (fun h => by rw [hpc]; cases side <;> exact h)
    | construct hpc =>
      rw [hpc] at hnew
      cases hnew
    | @publish q t clients ctx hpc hq =>
      have hbuild : w.pc.building = [q] := by
        rw [hpc]
        rfl
      have hunpub : ¬ w.published q := hi.building q (by rw [hbuild]; exact List.mem_singleton_self q)
      rcases hp with ⟨hpub, -⟩ | hp
      · rcases (hi.published_publish hq hunpub p).mp hpub with rfl | hpub
        · exact Or.inr (by rw [hbuild]; exact List.mem_singleton_self _)
        · exact Or.inl ⟨hpub, by rw [hpc]; exact List.not_mem_nil⟩
      · cases hp
    | unregister => exact hkeep id (fun h => by cases h)
    | close hpc hq hfound =>
      exact hkeep (fun hpub => ((hi.published_unpublish hq p).mp hpub).1) (fun h => by cases h)
    | free => exact hkeep id (fun h => by cases h)

/-- Objects are only changed or dropped, and no connect is open that was not open before. -/
structure Moved (w w' : Worker) : Prop where
  heap : ∀ p s', w'.heap p = some s' → ∃ s, w.heap p = some s ∧ s'.backend = s.backend
  awaits : ∀ p s', w'.Awaits p s' → ∃ s, w.Awaits p s

/-- No step but the building of a session opens the question how a connect ends. -/
theorem Step.moved (hstep : Step config sh w error eff sh' w') (hi : w.Indexed)
    (hnew : w.pc.builds = false) :
    Moved w w' where
  heap p s' hp' := by
    obtain ⟨s, hp, hc⟩ := hstep.carried hnew hp'
    exact ⟨s, hp, hc.backend⟩
  awaits p s' h := by
    obtain ⟨s, hp, hc⟩ := hstep.carried hnew h.object
    exact ⟨s, hp, hstep.inUse hi hnew h.inUse, hc.connecting h.connecting, hc.closing h.notClosing⟩

theorem Moved.alive (h : Moved w w') (hp : w'.heap p ≠ none) : w.heap p ≠ none := by
  obtain ⟨s', hp'⟩ := Option.ne_none_iff_exists'.mp hp
  obtain ⟨s, hs, -⟩ := h.heap p s' hp'
  rw [hs]
  exact Option.some_ne_none s

theorem Awaits.alive (h : w.Awaits p s) : w.heap p ≠ none := by
  rw [h.object]
  exact Option.some_ne_none s

/-! ### What a step adds to the docket and to the counters -/

/-- The failures of `b` that are counted, or will be by the clean-up in progress. -/
def failing (sh : SharedState) (w : Worker) (b : Nat) : Nat :=
  (sh.backends b).failedConnections + w.pc.ops.count (.connectFailed b)

/-- The counters that the outcomes go to. -/
structure SameCounts (sh sh' : SharedState) (w w' : Worker) : Prop where
  succeeded : ∀ b, (sh'.backends b).totalConnections = (sh.backends b).totalConnections
  failing : ∀ b, failing sh' w' b = failing sh w b

/-- The cases of `Files`, with what the counters get in each of them. -/
inductive Filed (config : AppConfig) (sh : SharedState) (w : Worker) (sh' : SharedState) (w' : Worker)
    (d : Docket) : Docket → Prop
  | same (hnew : w.pc.builds = false)
      (hjob : ∀ b, w'.pc.connectsTo = some b → w.pc.connectsTo = some b)
      (hcounts : SameCounts sh sh' w w') : Filed config sh w sh' w' d d
  | acquired {c : Fd} {b : Nat} {clients : List Fd} {ctx : DrainCtx}
      (hpc : w.pc = .create (.acquire c) clients ctx)
      (hpc' : w'.pc = .create (.socket c b) clients ctx)
      (hcounts : SameCounts sh sh' w w') : Filed config sh w sh' w' d (d.acquire b)
  | threw {b : Nat} (hjob : w.pc.connectsTo = some b) (hjob' : w'.pc.connectsTo = none)
      (hnew : w.pc.builds = false)
      (hsh : sh' = sh) (hops : w.pc.ops = [])
      (hops' : ∀ b', w'.pc.ops.count (.connectFailed b') = if b = b' then 1 else 0) :
      Filed config sh w sh' w' d (d.file [(d.last, .threw)])
  | built {c : Fd} {b : Nat} {u : Fd} {con : Bool} {now : Nat} {clients : List Fd} {ctx : DrainCtx}
      (hpc : w.pc = .create (.construct c b u con) clients ctx)
      (hw : w' = (w.construct c u con b config.bufferSize now).goto
        (.create (.registerClient w.nextSessionId) clients ctx))
      (hsh : sh' = if con then sh else sh.onBackend b Backend.recordConnectSuccess) :
      Filed config sh w sh' w' d
        ((d.build w.nextSessionId).file (if con then [] else [(d.last, .atOnce)]))
  | found {e : Event} {events : List Event} {p : Ref} {s : ProxySession} {o : Outcome}
      (hpc : w.pc = .batch (e :: events)) (hasks : w.Asks e p s) (hfinds : Finds sh sh' w' e p s o)
      (hops : w'.pc.ops = []) (hjob : w'.pc.connectsTo = none) :
      Filed config sh w sh' w' d (d.file [(d.owner p, o)])
  | swept {closing refs : List Ref} {now : Nat} (hpc : w.pc = .sweepTest closing)
      (hpc' : w'.pc = .close refs refs (.expired closing))
      (hrefs : refs.Perm (w.select (expired config now)))
      (hsh : sh' = sweepFailures config now w.heap refs sh) :
      Filed config sh w sh' w' d
        (d.file ((refs.filter (w.timedOut config now)).map fun p => (d.owner p, .timedOut)))

/-- A clean-up operation counts its failure, if it has one. -/
theorem exec_counts (op : CleanOp) (sh : SharedState) (ops : List CleanOp) (b : Nat) :
    ((op.exec sh).2.1.backends b).totalConnections = (sh.backends b).totalConnections ∧
      ((op.exec sh).2.1.backends b).failedConnections +
          ((op.exec sh).2.2 ++ ops).count (.connectFailed b) =
        (sh.backends b).failedConnections + (op :: ops).count (.connectFailed b) := by
  cases op with
  | closeClient fd => simp [CleanOp.exec]
  | closeUpstream fd => simp [CleanOp.exec]
  | connectFailed c =>
    by_cases hb : b = c
    · subst hb
      simp [CleanOp.exec, SharedState.connectFailed, SharedState.onBackend, SharedState.onMetrics,
        Backend.recordConnectFailure]
      omega
    · have hne : CleanOp.connectFailed c ≠ CleanOp.connectFailed b := by
        intro h
        exact hb (CleanOp.connectFailed.inj h).symm
      simp [CleanOp.exec, SharedState.connectFailed, SharedState.onBackend, SharedState.onMetrics, hb,
        List.count_cons_of_ne hne]
  | releaseLoad c => simp [CleanOp.exec]
  | releaseTest c current =>
    simp only [CleanOp.exec]
    split
    · by_cases hb : b = c
      · subst hb
        simp [SharedState.onBackend, Backend.releaseSub]
      · simp [SharedState.onBackend, hb]
    · simp

/-- Control moves on within code that has to do with no outcome. -/
theorem sameCounts (hsh : ∀ b, (sh'.backends b).totalConnections = (sh.backends b).totalConnections ∧
      (sh'.backends b).failedConnections = (sh.backends b).failedConnections)
    (hops : ∀ b, w.pc.ops.count (.connectFailed b) = 0)
    (hops' : ∀ b, w'.pc.ops.count (.connectFailed b) = 0) : SameCounts sh sh' w w' where
  succeeded b := (hsh b).1
  failing b := by rw [Worker.failing, Worker.failing, (hsh b).2, hops, hops']

/-- A call of `handleEvent` that does not ask counts no outcome. -/
theorem sameCounts_unasked {env : Env} {fd : Fd} {events : EventMask} {now : Nat} {ans : Answers}
    {result : Bool} (hlive : s.closing = false) (hask : ¬ Env.Asks s fd events)
    (hcall : (Env.mk s (sh.backends s.backend) sh.metrics []).handleEvent fd events now ans =
      (.ret result, env)) (b : Nat) :
    (((sh.onBackend s.backend fun _ => env.backend).onMetrics fun _ => env.metrics).backends
        b).totalConnections = (sh.backends b).totalConnections ∧
      (((sh.onBackend s.backend fun _ => env.backend).onMetrics fun _ => env.metrics).backends
        b).failedConnections = (sh.backends b).failedConnections := by
  have ht := handleEvent_unasked hlive hask hcall
  by_cases hb : b = s.backend
  · subst hb
    simp only [SharedState.onBackend, SharedState.onMetrics, Function.update_self]
    exact ⟨congrArg Tally.succeeded ht, congrArg Tally.failed ht⟩
  · simp [SharedState.onBackend, SharedState.onMetrics, hb]

/-- The events that are not passed to a session ask for nothing. -/
theorem filed_batch {e : Event} {events : List Event} {pc : Pc} (hpc : w.pc = .batch (e :: events))
    (hno : ∀ p s, ¬ w.Asks e p s) (hjob : pc.connectsTo = none) (hops : pc.ops = [])
    (hfiles : Files config sh w sh (w.goto pc) d d') : Filed config sh w sh (w.goto pc) d d' := by
  simp only [Files, hpc] at hfiles
  obtain rfl := hfiles.2 hno
  refine .same (by rw [hpc]; rfl) (fun b hb => ?_)
    (sameCounts (fun _ => ⟨rfl, rfl⟩) (by simp [hpc, Pc.ops]) (fun b => ?_))
  · rw [show (w.goto pc).pc = pc from rfl, hjob] at hb
    cases hb
  · rw [show (w.goto pc).pc = pc from rfl, hops]
    rfl

theorem Step.filed (hstep : Step config sh w error eff sh' w') (hfiles : Files config sh w sh' w' d d') :
    Filed config sh w sh' w' d d' := by
  cases hstep
  case handled e events p s now ans result env hpc hfd hfound hp hlive hcall hrange =>
    have hnew : w.pc.builds = false := by
      rw [hpc]
      rfl
    by_cases hask : Env.Asks s e.fd e.mask
    · have hasks : w.Asks e p s := ⟨⟨⟨events, hpc⟩, hfd, hfound, hp, hlive⟩, hask⟩
      simp only [Files, hpc] at hfiles
      obtain ⟨o, hfinds, rfl⟩ := hfiles.1 p s hasks
      cases result <;> exact .found hpc hasks hfinds rfl rfl
    · have hno : ∀ q t, ¬ w.Asks e q t := by
        intro q t h
        obtain ⟨rfl, rfl⟩ := h.unique hfound hp
        exact hask h.asks
      simp only [Files, hpc] at hfiles
      obtain rfl := hfiles.2 hno
      refine .same hnew ?_ (sameCounts (sameCounts_unasked hlive hask hcall) (by simp [hpc, Pc.ops]) ?_)
      · cases result <;> simp [goto, Pc.connectsTo]
      · cases result <;> simp [goto, Pc.ops]
  case wake e events hpc hfd =>
    exact filed_batch hpc (fun p s h => h.delivers.notWake hfd) rfl rfl hfiles
  case unknown e events hpc hfd hfound =>
    exact filed_batch hpc (fun p s h => Option.some_ne_none p (h.delivers.found.symm.trans hfound)) rfl rfl
      hfiles
  case skipped e events p s hpc hfd hfound hp hclosing =>
    refine filed_batch hpc (fun q t h => ?_) rfl rfl hfiles
    obtain ⟨rfl, rfl⟩ := h.unique hfound hp
    exact Bool.false_ne_true (h.delivers.notClosing.symm.trans hclosing)
  case sweep closing refs now sweepNow hpc hnow hrefs =>
    simp only [Files, hpc] at hfiles
    obtain ⟨now', hrefs', hsh, rfl⟩ := hfiles
    exact .swept hpc rfl hrefs' hsh
  case clean op ops clients ctx hpc =>
    obtain rfl : d' = d := by simpa [Files, hpc, goto] using hfiles
    refine .same (by rw [hpc]; rfl) (by simp [goto, Pc.connectsTo]) ⟨fun b => (exec_counts op sh ops b).1, ?_⟩
    intro b
    rw [failing, failing, hpc]
    exact (exec_counts op sh ops b).2
  case destroy op ops refs ctx hpc =>
    obtain rfl : d' = d := by simpa [Files, hpc, goto] using hfiles
    refine .same (by rw [hpc]; rfl) (by simp [goto, Pc.connectsTo]) ⟨fun b => (exec_counts op sh ops b).1, ?_⟩
    intro b
    rw [failing, failing, hpc]
    exact (exec_counts op sh ops b).2
  case acquired c b clients ctx hpc =>
    simp only [Files, hpc, goto] at hfiles
    subst hfiles
    refine .acquired hpc rfl (sameCounts (fun b' => ?_) (by simp [hpc, Pc.ops]) (by simp [goto, Pc.ops]))
    by_cases hb : b' = b
    · subst hb
      simp [SharedState.onBackend, Backend.acquire]
    · simp [SharedState.onBackend, hb]
  case noSocket c b clients ctx hpc =>
    simp only [Files, hpc, goto] at hfiles
    subst hfiles
    refine .threw (by rw [hpc]; rfl) rfl (by rw [hpc]; rfl) rfl (by simp [hpc, Pc.ops]) (fun b' => ?_)
    simp [goto, Pc.ops, List.count_cons]
  case connectThrew c b u clients ctx hpc =>
    simp only [Files, hpc, goto] at hfiles
    subst hfiles
    refine .threw (by rw [hpc]; rfl) rfl (by rw [hpc]; rfl) rfl (by simp [hpc, Pc.ops]) (fun b' => ?_)
    simp [goto, Pc.ops, List.count_cons]
  case construct c b u con now clients ctx hpc =>
    simp only [Files, hpc] at hfiles
    subst hfiles
    exact .built hpc rfl rfl
  case drained ctx hpc =>
    obtain rfl : d' = d := by simpa [Files, hpc, goto] using hfiles
    refine .same (by rw [hpc]; rfl) ?_ (sameCounts (fun _ => ⟨rfl, rfl⟩) (by simp [hpc, Pc.ops]) ?_)
    · cases ctx <;> simp [goto, DrainCtx.next, Pc.connectsTo]
    · cases ctx <;> simp [goto, DrainCtx.next, Pc.ops]
  case allClosed refs ctx hpc =>
    obtain rfl : d' = d := by simpa [Files, hpc, goto] using hfiles
    refine .same (by rw [hpc]; rfl) ?_ (sameCounts (fun _ => ⟨rfl, rfl⟩) (by simp [hpc, Pc.ops]) ?_)
    · cases ctx <;> simp [goto, CloseCtx.closed, Pc.connectsTo]
    · cases ctx <;> simp [goto, CloseCtx.closed, Pc.ops]
  case dropped ctx hpc =>
    obtain rfl : d' = d := by simpa [Files, hpc, goto] using hfiles
    refine .same (by rw [hpc]; rfl) ?_ (sameCounts (fun _ => ⟨rfl, rfl⟩) (by simp [hpc, Pc.ops]) ?_)
    · cases ctx <;> simp [goto, CloseCtx.dropped, Pc.connectsTo]
    · cases ctx <;> simp [goto, CloseCtx.dropped, Pc.ops]
  case onClosedSub current todo refs ctx hpc =>
    obtain rfl : d' = d := by simpa [Files, hpc, goto] using hfiles
    refine .same (by rw [hpc]; rfl) (by simp [goto, Pc.connectsTo])
      (sameCounts (fun b => ?_) (by simp [hpc, Pc.ops]) (by simp [goto, Pc.ops]))
    split <;> exact ⟨rfl, rfl⟩
  all_goals
    obtain rfl : d' = d := by simpa [Files, ‹w.pc = _›, goto] using hfiles
    refine .same (by simp [‹w.pc = _›, Pc.builds]) (by simp [‹w.pc = _›, goto, Pc.connectsTo])
      (sameCounts (fun _ => ⟨rfl, rfl⟩) (by simp [‹w.pc = _›, Pc.ops]) ?_)
    simp [‹w.pc = _›, goto, Pc.ops, destructor]

/-! ### What a step does to the docket -/

/-- Outcomes are filed, and no object is built. -/
theorem Docketed.file (h : w.Docketed d) (hm : Moved w w') {entries : List (Nat × Outcome)}
    (hkeys : (entries.map Prod.fst).Nodup)
    (hopen : ∀ k ∈ entries.map Prod.fst, k ∉ d.settled ∧ k < d.leases.length)
    (hjob : ∀ b, w'.pc.connectsTo = some b →
      w.pc.connectsTo = some b ∧ d.last ∉ entries.map Prod.fst)
    (hawaits : ∀ p s', w'.Awaits p s' → d.owner p ∉ entries.map Prod.fst) :
    w'.Docketed (d.file entries) := by
  have hsettled : (d.file entries).settled = d.settled ++ entries.map Prod.fst := List.map_append
  constructor
  case once =>
    rw [hsettled, List.nodup_append]
    refine ⟨h.once, hkeys, ?_⟩
    rintro k hk _ hk' rfl
    exact (hopen k hk').1 hk
  case known =>
    intro k hk
    rw [hsettled] at hk
    rcases List.mem_append.mp hk with hk | hk
    · exact h.known k hk
    · exact (hopen k hk).2
  case backend =>
    intro p s' hp'
    obtain ⟨s, hp, hb⟩ := hm.heap p s' hp'
    rw [hb]
    exact h.backend p s hp
  case owner => exact fun p q hp hq => h.owner p q (hm.alive hp) (hm.alive hq)
  case inHand =>
    intro b hb
    obtain ⟨hb, hlast⟩ := hjob b hb
    have hin := h.inHand b hb
    refine ⟨hin.backend, ?_, fun p hp => hin.unowned p (hm.alive hp)⟩
    rw [hsettled]
    exact List.not_mem_append hin.unsettled hlast
  case pending =>
    intro p s' hp
    obtain ⟨s, hs⟩ := hm.awaits p s' hp
    rw [hsettled]
    exact List.not_mem_append (h.pending p s hs) (hawaits p s' hp)

/-- The job goes on, or another thread moves. -/
theorem Docketed.keep (h : w.Docketed d) (hm : Moved w w')
    (hjob : ∀ b, w'.pc.connectsTo = some b → w.pc.connectsTo = some b) : w'.Docketed d := by
  rw [← d.file_nil]
  exact h.file hm List.nodup_nil (fun k hk => by cases hk) (fun b hb => ⟨hjob b hb, List.not_mem_nil⟩)
    (fun p s' _ => List.not_mem_nil)

theorem Docketed.owner_lt (h : w.Docketed d) (hp : w.heap p ≠ none) : d.owner p < d.leases.length := by
  obtain ⟨s, hs⟩ := Option.ne_none_iff_exists'.mp hp
  exact (List.getElem?_eq_some_iff.mp (h.backend p s hs)).1

/-- `createSession` obtains a lease. -/
theorem Docketed.acquire (h : w.Docketed d) {c : Fd} {b : Nat} {clients : List Fd} {ctx : DrainCtx}
    (hm : Moved w w') (hpc' : w'.pc = .create (.socket c b) clients ctx) :
    w'.Docketed (d.acquire b) := by
  have hlen : (d.acquire b).leases.length = d.leases.length + 1 := by
    simp [Docket.acquire]
  have hlast : (d.acquire b).last = d.leases.length := by
    rw [Docket.last, hlen, Nat.add_sub_cancel]
  constructor
  case once => exact h.once
  case known =>
    intro k hk
    have := h.known k hk
    omega
  case backend =>
    intro p s' hp'
    obtain ⟨s, hp, hb⟩ := hm.heap p s' hp'
    have hlt := h.owner_lt (by rw [hp]; exact Option.some_ne_none s)
    rw [hb]
    exact (List.getElem?_append_left hlt).trans (h.backend p s hp)
  case owner => exact fun p q hp hq => h.owner p q (hm.alive hp) (hm.alive hq)
  case inHand =>
    intro b' hb'
    rw [hpc'] at hb'
    obtain rfl := Option.some.inj hb'
    refine ⟨by simp [Docket.acquire], fun hk => ?_, fun p hp => ?_⟩
    · have := h.known _ hk
      omega
    · have hlt := h.owner_lt (hm.alive hp)
      rw [hlast]
      exact Nat.ne_of_lt hlt
  case pending =>
    intro p s' hp
    obtain ⟨s, hs⟩ := hm.awaits p s' hp
    exact h.pending p s hs

/-- The lease is moved into a new session. -/
theorem Docketed.build (h : w.Docketed d) {c : Fd} {b : Nat} {u : Fd} {con : Bool}
    {size now : Nat} {clients : List Fd} {ctx : DrainCtx}
    (hpc : w.pc = .create (.construct c b u con) clients ctx) :
    ((w.construct c u con b size now).goto
      (.create (.registerClient w.nextSessionId) clients ctx)).Docketed (d.build w.nextSessionId) := by
  have hin := h.inHand b (by rw [hpc]; rfl)
  have hnewOwner : (d.build w.nextSessionId).owner w.nextSessionId = d.last := Function.update_self ..
  have howner : ∀ {p}, p ≠ w.nextSessionId → (d.build w.nextSessionId).owner p = d.owner p :=
    fun hp => Function.update_of_ne hp ..
  have hnewHeap : ((w.construct c u con b size now).goto
      (.create (.registerClient w.nextSessionId) clients ctx)).heap w.nextSessionId =
        some (.new w.nextSessionId c u con b size now) := Function.update_self ..
  have hheap : ∀ {p}, p ≠ w.nextSessionId → ((w.construct c u con b size now).goto
      (.create (.registerClient w.nextSessionId) clients ctx)).heap p = w.heap p :=
    fun hp => Function.update_of_ne hp ..
  constructor
  case once => exact h.once
  case known => exact h.known
  case backend =>
    intro p s hp
    by_cases hpn : p = w.nextSessionId
    · subst hpn
      obtain rfl := Option.some.inj (hnewHeap.symm.trans hp)
      rw [hnewOwner]
      exact hin.getElem_last
    · rw [hheap hpn] at hp
      rw [howner hpn]
      exact h.backend p s hp
  case owner =>
    intro p q hp hq heq
    by_cases hpn : p = w.nextSessionId <;> by_cases hqn : q = w.nextSessionId
    · rw [hpn, hqn]
    · rw [hheap hqn] at hq
      rw [hpn, hnewOwner, howner hqn] at heq
      exact absurd heq.symm (hin.unowned q hq)
    · rw [hheap hpn] at hp
      rw [hqn, hnewOwner, howner hpn] at heq
      exact absurd heq (hin.unowned p hp)
    · rw [hheap hpn] at hp
      rw [hheap hqn] at hq
      rw [howner hpn, howner hqn] at heq
      exact h.owner p q hp hq heq
  case inHand => exact fun b hb => by cases hb
  case pending =>
    intro p s hp
    by_cases hpn : p = w.nextSessionId
    · rw [hpn, hnewOwner]
      exact hin.unsettled
    · have hobject := hp.object
      rw [hheap hpn] at hobject
      rw [howner hpn]
      refine h.pending p s ⟨hobject, ?_, hp.connecting, hp.notClosing⟩
      rcases hp.inUse with ⟨hpub, -⟩ | hbuild
      · exact Or.inl ⟨hpub, by rw [hpc]; exact List.not_mem_nil⟩
      · exact absurd (List.mem_singleton.mp hbuild) hpn

/-- A session whose connect returned at once is connected from the start. -/
theorem Docketed.built (h : w.Docketed d) {c : Fd} {b : Nat} {u : Fd} {con : Bool} {size now : Nat}
    {clients : List Fd} {ctx : DrainCtx} (hpc : w.pc = .create (.construct c b u con) clients ctx) :
    ((w.construct c u con b size now).goto
      (.create (.registerClient w.nextSessionId) clients ctx)).Docketed
        ((d.build w.nextSessionId).file (if con then [] else [(d.last, .atOnce)])) := by
  have hbuild : ((w.construct c u con b size now).goto
      (.create (.registerClient w.nextSessionId) clients ctx)).Docketed (d.build w.nextSessionId) :=
    h.build hpc
  have hin := h.inHand b (by rw [hpc]; rfl)
  cases con with
  | true =>
    rw [if_pos rfl, Docket.file_nil]
    exact hbuild
  | false =>
    rw [if_neg Bool.false_ne_true]
    refine hbuild.file ⟨fun p s hp => ⟨s, hp, rfl⟩, fun p s hp => ⟨s, hp⟩⟩ (List.nodup_singleton _) ?_
      (fun b hb => by cases hb) (fun p s hp hk => ?_)
    · intro k hk
      obtain rfl := List.mem_singleton.mp hk
      exact ⟨hin.unsettled, hin.last_lt⟩
    · have hobject := hp.object
      by_cases hpn : p = w.nextSessionId
      · have hnew : ((w.construct c u false b size now).goto
            (.create (.registerClient w.nextSessionId) clients ctx)).heap p =
              some (.new w.nextSessionId c u false b size now) := by
          rw [hpn]
          exact Function.update_self ..
        obtain rfl := Option.some.inj (hnew.symm.trans hobject)
        have hcon := hp.connecting
        cases hcon
      · have hold : w.heap p = some s := by
          rw [← hobject]
          exact (Function.update_of_ne hpn ..).symm
        have hk' : (d.build w.nextSessionId).owner p = d.last := List.mem_singleton.mp hk
        have howner : d.owner p = d.last := (Function.update_of_ne hpn ..).symm.trans hk'
        exact hin.unowned p (by rw [hold]; exact Option.some_ne_none s) howner

/-- `connectNonBlocking` threw. -/
theorem Docketed.threw (h : w.Docketed d) (hm : Moved w w') {b : Nat} (hjob : w.pc.connectsTo = some b)
    (hjob' : w'.pc.connectsTo = none) : w'.Docketed (d.file [(d.last, .threw)]) := by
  have hin := h.inHand b hjob
  refine h.file hm (List.nodup_singleton _) ?_ (fun b hb => ?_) (fun p s' hp hk => ?_)
  · intro k hk
    obtain rfl := List.mem_singleton.mp hk
    exact ⟨hin.unsettled, hin.last_lt⟩
  · rw [hjob'] at hb
    cases hb
  · obtain ⟨s, hs⟩ := hm.awaits p s' hp
    exact hin.unowned p hs.alive (List.mem_singleton.mp hk)

/-- A session that is passed an event is in use. -/
theorem Asks.awaits (hi : w.Indexed) {e : Event} (h : w.Asks e p s) : w.Awaits p s := by
  obtain ⟨events, hpc⟩ := h.delivers.next
  have hpub := ((hi.index _ _).mp h.delivers.found).1
  refine ⟨h.delivers.object, Or.inl ⟨hpub, ?_⟩, h.asks.connecting, h.delivers.notClosing⟩
  rw [hpc]
  exact List.not_mem_nil

/-- After `SO_ERROR` was read the question is settled: the connect is over or
the session is closing. -/
theorem Finds.not_awaits {e : Event} {o : Outcome} {s' : ProxySession} (h : Finds sh sh' w' e p s o)
    (hlive : s.closing = false) (hask : Env.Asks s e.fd e.mask) : ¬ w'.Awaits p s' := by
  obtain ⟨now, ans, result, env, r, hcall, hans, -, hheap, -⟩ := h
  intro hw
  obtain ⟨r', hans', hok, hfail⟩ := handleEvent_asked hlive hask hcall
  obtain rfl : r = r' := Option.some.inj (hans.symm.trans hans')
  obtain rfl := Option.some.inj (hheap.symm.trans hw.object)
  by_cases hr : r = .ok none
  · have hcon : env.session.upstreamConnecting = false := congrArg Tally.connecting (hok hr)
    have hw' := hw.connecting
    cases result
    · exact Bool.false_ne_true (hcon.symm.trans hw')
    · exact Bool.false_ne_true (hcon.symm.trans hw')
  · obtain ⟨rfl, -⟩ := hfail hr
    have hw' := hw.notClosing
    cases hw'

/-- What the sweep finds timed out is in use: nobody is closing by then. -/
theorem timedOut_awaits (hi : w.Indexed) (hs : w.Swept) {closing refs : List Ref} {now : Nat}
    (hpc : w.pc = .sweepTest closing) (hrefs : refs.Perm (w.select (expired config now)))
    (hp : p ∈ refs.filter (w.timedOut config now)) : ∃ s, w.Awaits p s := by
  obtain ⟨hmem, htimed⟩ := List.mem_filter.mp hp
  have hpub : w.published p := (List.mem_filter.mp (hrefs.mem_iff.mp hmem)).1
  obtain ⟨s, hheap⟩ := Option.ne_none_iff_exists'.mp (hi.alive p hpub)
  have hcon : s.connectTimedOut config.connectTimeoutMs now = true := by
    simpa [timedOut, hheap] using htimed
  refine ⟨s, hheap, Or.inl ⟨hpub, by rw [hpc]; exact List.not_mem_nil⟩, ?_, ?_⟩
  · exact (Bool.and_eq_true _ _ ▸ hcon).1
  · have hsweep := hs p s hpub hheap
    rw [hpc] at hsweep
    cases hc : s.closing with
    | false => rfl
    | true => cases hsweep hc

/-- `finishUpstreamConnect` found an outcome. -/
theorem Docketed.found (h : w.Docketed d) (hi : w.Indexed) (hm : Moved w w') {e : Event} {o : Outcome}
    (hasks : w.Asks e p s) (hfinds : Finds sh sh' w' e p s o) (hjob : w'.pc.connectsTo = none) :
    w'.Docketed (d.file [(d.owner p, o)]) := by
  have ha := hasks.awaits hi
  refine h.file hm (List.nodup_singleton _) ?_ (fun b hb => ?_) (fun q s' hq hk => ?_)
  · intro k hk
    obtain rfl := List.mem_singleton.mp hk
    exact ⟨h.pending p s ha, h.owner_lt ha.alive⟩
  · rw [hjob] at hb
    cases hb
  · obtain ⟨t, ht⟩ := hm.awaits q s' hq
    obtain rfl := h.owner q p ht.alive ha.alive (List.mem_singleton.mp hk)
    exact hfinds.not_awaits hasks.delivers.notClosing hasks.asks hq

/-- The sweep: each session it finds timed out is in the vector it closes. -/
theorem Docketed.swept (h : w.Docketed d) (hi : w.Indexed) (hs : w.Swept) (hm : Moved w w')
    {closing refs : List Ref} {now : Nat} (hpc : w.pc = .sweepTest closing)
    (hpc' : w'.pc = .close refs refs (.expired closing))
    (hrefs : refs.Perm (w.select (expired config now))) : w'.Docketed
      (d.file ((refs.filter (w.timedOut config now)).map fun p => (d.owner p, .timedOut))) := by
  have hopen := fun p hp => timedOut_awaits (p := p) hi hs hpc hrefs hp
  have hnodup : refs.Nodup := hrefs.nodup_iff.mpr (hi.nodup.filter _)
  have hkeys : ((refs.filter (w.timedOut config now)).map fun p => (d.owner p, Outcome.timedOut)).map
      Prod.fst = (refs.filter (w.timedOut config now)).map d.owner := by
    rw [List.map_map]
    rfl
  refine h.file hm ?_ ?_ (fun b hb => ?_) (fun q s' hq hk => ?_)
  · rw [hkeys]
    refine (hnodup.filter _).map_on (fun p hp q hq heq => ?_)
    obtain ⟨s, hp⟩ := hopen p hp
    obtain ⟨t, hq⟩ := hopen q hq
    exact h.owner p q hp.alive hq.alive heq
  · rw [hkeys]
    intro k hk
    obtain ⟨p, hp, rfl⟩ := List.mem_map.mp hk
    obtain ⟨s, ha⟩ := hopen p hp
    exact ⟨h.pending p s ha, h.owner_lt ha.alive⟩
  · rw [hpc'] at hb
    cases hb
  · rw [hkeys] at hk
    obtain ⟨p, hp, heq⟩ := List.mem_map.mp hk
    obtain ⟨s, ha⟩ := hopen p hp
    obtain ⟨t, ht⟩ := hm.awaits q s' hq
    obtain rfl := h.owner p q ha.alive ht.alive heq
    rcases hq.inUse with ⟨-, htodo⟩ | hbuild
    · rw [hpc'] at htodo
      exact htodo (List.mem_filter.mp hp).1
    · rw [hpc'] at hbuild
      cases hbuild

/-- **One outcome per lease, step by step.** -/
theorem Docketed.step (h : w.Docketed d) (hi : w.Indexed) (hs : w.Swept)
    (hstep : Step config sh w error eff sh' w') (hfiles : Files config sh w sh' w' d d') :
    w'.Docketed d' := by
  cases hstep.filed hfiles with
  | same hnew hjob hcounts => exact h.keep (hstep.moved hi hnew) hjob
  | acquired hpc hpc' hcounts => exact h.acquire (hstep.moved hi (by rw [hpc]; rfl)) hpc'
  | threw hjob hjob' hnew hsh hops hops' => exact h.threw (hstep.moved hi hnew) hjob hjob'
  | built hpc hw hsh =>
    subst hw
    exact h.built hpc
  | found hpc hasks hfinds hops hjob =>
    exact h.found hi (hstep.moved hi (by rw [hpc]; rfl)) hasks hfinds hjob
  | swept hpc hpc' hrefs hsh =>
    exact h.swept hi hs (hstep.moved hi (by rw [hpc]; rfl)) hpc hpc' hrefs

/-- The docket does not depend on what other threads and the epoll set do. -/
theorem Docketed.congr (h : w.Docketed d) (hpc : w'.pc = w.pc) (hheap : w'.heap = w.heap)
    (hsessions : w'.sessions = w.sessions) : w'.Docketed d := by
  refine h.keep ⟨fun p s hp => ?_, fun p s hp => ?_⟩ (fun b hb => ?_)
  · rw [hheap] at hp
    exact ⟨s, hp, rfl⟩
  · have hobject := hp.object
    have hinUse := hp.inUse
    rw [hheap] at hobject
    rw [InUse, published, hsessions, hpc] at hinUse
    exact ⟨s, hobject, hinUse, hp.connecting, hp.notClosing⟩
  · rwa [hpc] at hb

/-- Every step can be filed. -/
theorem Step.exists_files (hstep : Step config sh w error eff sh' w') (d : Docket) :
    ∃ d', Files config sh w sh' w' d d' := by
  have hbatch : ∀ {e events}, w.pc = .batch (e :: events) → (∀ p s, ¬ w.Asks e p s) →
      ∃ d', Files config sh w sh' w' d d' := by
    intro e events hpc hno
    refine ⟨d, ?_⟩
    unfold Files
    rw [hpc]
    exact ⟨fun p s h => absurd h (hno p s), fun _ => rfl⟩
  cases hstep
  case handled e events p s now ans result env hpc hfd hfound hp hlive hcall hrange =>
    by_cases hask : Env.Asks s e.fd e.mask
    · obtain ⟨r, hans, -⟩ := handleEvent_asked hlive hask hcall
      refine ⟨d.file [(d.owner p, if r = .ok none then .finished else .finishFailed)], ?_⟩
      unfold Files
      rw [hpc]
      refine ⟨fun q t h => ?_, fun hno => ?_⟩
      · obtain ⟨rfl, rfl⟩ := h.unique hfound hp
        refine ⟨_, ⟨now, ans, result, env, r, hcall, hans, rfl, ?_, rfl⟩, rfl⟩
        cases result <;> exact Function.update_self ..
      · exact absurd ⟨⟨⟨events, hpc⟩, hfd, hfound, hp, hlive⟩, hask⟩ (hno p s)
    · refine hbatch hpc (fun q t h => hask ?_)
      obtain ⟨rfl, rfl⟩ := h.unique hfound hp
      exact h.asks
  case wake e events hpc hfd => exact hbatch hpc (fun p s h => h.delivers.notWake hfd)
  case unknown e events hpc hfd hfound =>
    exact hbatch hpc (fun p s h => Option.some_ne_none p (h.delivers.found.symm.trans hfound))
  case skipped e events p s hpc hfd hfound hp hclosing =>
    refine hbatch hpc (fun q t h => ?_)
    obtain ⟨rfl, rfl⟩ := h.unique hfound hp
    exact Bool.false_ne_true (h.delivers.notClosing.symm.trans hclosing)
  case sweep closing refs now sweepNow hpc hnow hrefs =>
    simp only [Files, hpc]
    exact ⟨_, sweepNow, hrefs, rfl, rfl⟩
  all_goals
    unfold Files
    rw [‹w.pc = _›]
    exact ⟨_, rfl⟩

end Worker

end FluxGate
