import FluxGate.Outcomes
import FluxGate.Termination

/-!
# Timeouts against a clock that never goes back

The step relation takes the readings of `steady_clock` from the environment.
Here they are written down: a `Diary` beside each worker holds the latest
reading of its thread, the reading of the last turn of its loop, and for each
session the time at which it last made progress. Runs are those in which no
reading lies before an earlier one of the same thread.

Two things follow. `lastActivity_` is the time of the last progress and of
nothing else, so the sweep never closes a session that moved bytes within the
timeout. And a session cannot outstay its timeout by more than the second
between two sweeps: what the last sweep left was not expired then.
-/

namespace FluxGate

open Lib

/-! ## Activity in `handleEvent` -/

/-- The call moved a byte, or the connect ended well. -/
def Env.progressed (env : Env) (s : ProxySession) : Bool :=
  env.log.any (fun c => !c.quiet) || (s.upstreamConnecting && !env.session.upstreamConnecting)

/-- The time stamp follows the calls that move bytes. -/
def Env.Stamped (now before : Nat) (env : Env) : Prop :=
  env.session.lastActivity = if env.log.any (fun c => !c.quiet) then now else before

theorem stamped_calm (now before : Nat) : Calm now (Env.Stamped now before) where
  close _ h := h
  readClosed _ side h := by cases side <;> exact h
  writeShutdown _ side h := by cases side <;> exact h
  call env c hc h := by
    simp only [Env.Stamped, Env.record, List.any_append, List.any_cons, List.any_nil, hc, Bool.not_true,
      Bool.or_false]
    exact h
  makeWritable _ side h := by cases side <;> exact h
  recv env side b data h := by
    simp [Env.Stamped, Env.received, Env.recvCall, Env.record, ProxySession.touch, Call.quiet]
  send env side n h := by
    simp [Env.Stamped, Env.sent, Env.sendCall, Env.record, ProxySession.touch, Call.quiet]

theorem createdAt_stable (created now : Nat) : Stable now (fun env => env.session.createdAt = created) where
  close _ h := h
  readClosed _ side h := by cases side <;> exact h
  writeShutdown _ side h := by cases side <;> exact h
  connected _ h := h
  connectFailed _ h := h
  call _ _ _ h := h
  makeWritable _ side h := by cases side <;> exact h
  recv _ side _ _ h := by cases side <;> exact h
  send _ side _ h := by cases side <;> exact h

section Activity

variable {s : ProxySession} {b : Backend} {m : Metrics} {env : Env} {fd : Fd} {events : EventMask}
  {now : Nat} {ans : Answers} {result : Bool}

theorem handleEvent_createdAt
    (hcall : (Env.mk s b m []).handleEvent fd events now ans = (.ret result, env)) :
    env.session.createdAt = s.createdAt := by
  have h := (createdAt_stable s.createdAt now).handleEvent fd events ans ⟨s, b, m, []⟩ rfl
  rw [hcall] at h
  exact h

/-- **`lastActivity_` moves exactly when the session makes progress.** -/
theorem handleEvent_lastActivity (hlive : s.closing = false)
    (hcall : (Env.mk s b m []).handleEvent fd events now ans = (.ret result, env)) :
    env.session.lastActivity = if env.progressed s then now else s.lastActivity := by
  by_cases hask : Env.Asks s fd events
  · -- the result of the connect is asked for
    have hcall' := hcall
    obtain ⟨r, hans, hok, hfail⟩ := handleEvent_asked hlive hask hcall
    rw [handleEvent_live fd hlive] at hcall'
    unfold Phase.andThen Env.connectPhase Env.finishUpstreamConnect at hcall'
    simp only [if_pos (And.intro hask.upstream hask.connecting), hask.ready, Bool.not_true,
      Bool.false_eq_true, if_false, hans] at hcall'
    by_cases hr : r = .ok none
    · have hdone : env.session.upstreamConnecting = false := congrArg Tally.connecting (hok hr)
      simp only [ne_eq, hr, not_true_eq_false, if_false] at hcall'
      have hnow := (stamped_calm now now).rest fd events ans
        (((Env.mk s b m []).record (.soError s.upstreamFd r)).connected now) (by
          simp [Env.Stamped, Env.connected, Env.record, ProxySession.touch])
      rw [hr] at hnow
      have hstamp : env.Stamped now now := by
        rw [← (Prod.mk.inj hcall').2]
        exact hnow
      rw [Env.Stamped, ite_self] at hstamp
      simp [Env.progressed, hask.connecting, hdone, hstamp]
    · simp only [ne_eq, hr, not_false_eq_true, if_true] at hcall'
      obtain ⟨-, rfl⟩ := Prod.mk.inj hcall'
      simp [Env.progressed, Env.close, Env.record, ProxySession.markClosing, Call.quiet]
  · -- it is not, and the connect stays as it is
    have hsame : env.session.upstreamConnecting = s.upstreamConnecting :=
      congrArg Tally.connecting (handleEvent_unasked hlive hask hcall)
    have hstamp : env.Stamped now s.lastActivity := by
      rw [handleEvent_live fd hlive] at hcall
      have hrest := (stamped_calm now s.lastActivity).rest fd events ans ⟨s, b, m, []⟩ rfl
      unfold Phase.andThen Env.connectPhase at hcall
      by_cases hup : fd = s.upstreamFd ∧ s.upstreamConnecting = true
      · have hbits : has events (EPOLLOUT ||| EPOLLERR ||| EPOLLHUP) = false := by
          by_contra hb
          exact hask ⟨hup.1, hup.2, by simpa using hb⟩
        simp only [if_pos hup, hbits, Bool.not_false, if_true] at hcall
        rw [← (Prod.mk.inj hcall).2]
        rfl
      · simp only [if_neg hup] at hcall
        rw [← (Prod.mk.inj hcall).2]
        exact hrest
    rw [hstamp, Env.progressed, hsame]
    simp

end Activity

/-! ## Expiry -/

/-- A session that is not expired at a later moment was not expired before. -/
theorem expired_mono {config : AppConfig} {t t' : Nat} (h : t ≤ t') {s : ProxySession}
    (hexp : expired config t s = true) : expired config t' s = true := by
  simp only [expired, ProxySession.connectTimedOut, ProxySession.idleFor, Bool.or_eq_true, Bool.and_eq_true,
    decide_eq_true_eq] at hexp ⊢
  rcases hexp with ⟨hc, hexp⟩ | hexp
  · exact Or.inl ⟨hc, by omega⟩
  · exact Or.inr (by omega)

/-- A session that was built, or made progress, after a moment is not expired at that moment. -/
theorem not_expired_of_active {config : AppConfig} (hidle : 0 < config.idleTimeoutSeconds)
    {t : Nat} {s : ProxySession} (hconnect : s.connectTimedOut config.connectTimeoutMs t = false)
    (ht : t ≤ s.lastActivity) : expired config t s = false := by
  rw [expired, hconnect, Bool.false_or, ProxySession.idleFor, decide_eq_false_iff_not]
  omega

/-! ## The diary of a worker -/

structure Diary where
  /-- the latest reading of the clock -/
  now : Nat
  /-- the reading of the last turn of the loop -/
  looked : Nat
  /-- when each session last made progress; its creation is the first -/
  progress : Ref → Nat

namespace Worker

variable {config : AppConfig} {sh sh' : SharedState} {w w' : Worker} {error : Bool} {eff : FdEffect}
  {d d' : Diary} {p : Ref} {s : ProxySession}

/-- The event of the batch is passed to `handleEvent` of `p` at time `now`. -/
def NotesEvent (sh : SharedState) (w' : Worker) (e : Event) (p : Ref) (s : ProxySession) (d d' : Diary) :
    Prop :=
  ∃ now ans result env, d.now ≤ now ∧
    (Env.mk s (sh.backends s.backend) sh.metrics []).handleEvent e.fd e.mask now ans = (.ret result, env) ∧
    w'.heap p = some (if result then env.session else env.session.markClosing) ∧
    d' = { d with
      now := now
      progress := if env.progressed s then Function.update d.progress p now else d.progress }

/-- The end of a turn: the reading decides whether to sweep, and the sweep reads the clock again. -/
def NotesTurn (config : AppConfig) (w w' : Worker) (d d' : Diary) : Prop :=
  ∃ now, d.now ≤ now ∧
    ((now - w.lastSweep < 1000 ∧ w'.lastSweep = w.lastSweep ∧ (∀ refs ctx, w'.pc ≠ .close refs refs ctx) ∧
        d' = { d with now := now, looked := now }) ∨
      ∃ sweepNow refs closing, 1000 ≤ now - w.lastSweep ∧ now ≤ sweepNow ∧
        refs.Perm (w.select (expired config sweepNow)) ∧ w'.lastSweep = now ∧
        w'.pc = .close refs refs (.expired closing) ∧ d' = { d with now := sweepNow, looked := now })

/-- What a step adds to the diary. -/
def Notes (config : AppConfig) (sh : SharedState) (w w' : Worker) (d d' : Diary) : Prop :=
  match w.pc with
  | .create (.construct c b u connecting) _ _ =>
    ∃ now, d.now ≤ now ∧ w'.heap = (w.construct c u connecting b config.bufferSize now).heap ∧
      d' = { d with now := now, progress := Function.update d.progress w.nextSessionId now }
  | .batch (e :: _) =>
    (∀ p s, w.Delivers e p s → NotesEvent sh w' e p s d d') ∧ ((∀ p s, ¬ w.Delivers e p s) → d' = d)
  | .sweepTest _ => NotesTurn config w w' d d'
  | _ => d' = d

end Worker

/-- The sessions that the sweep in progress has found expired and not closed yet. -/
def Pc.expiring : Pc → List Ref
  | .close todo _ (.expired _) => todo
  | .onClosed _ todo _ (.expired _) => todo
  | _ => []

/-- The next statement reads the clock and may stamp a session with it. -/
def Pc.stamps : Pc → Bool
  | .create (.construct _ _ _ _) _ _ => true
  | .batch (_ :: _) => true
  | _ => false

namespace Worker

variable {config : AppConfig} {sh sh' : SharedState} {w w' : Worker} {error : Bool} {eff : FdEffect}
  {d d' : Diary} {p : Ref} {s : ProxySession}

/-- What the time stamps of a session have to do with the diary. -/
structure Aged (d : Diary) (p : Ref) (s : ProxySession) : Prop where
  activity : s.lastActivity = d.progress p
  created : s.createdAt ≤ s.lastActivity
  past : s.lastActivity ≤ d.now

/-- The worker and its diary. -/
structure Timed (config : AppConfig) (w : Worker) (d : Diary) : Prop where
  sweep : w.lastSweep ≤ d.now
  looked : d.looked < w.lastSweep + 1000
  aged : ∀ p s, w.heap p = some s → Aged d p s
  /-- what the last sweep left, and what came later, was not expired at that moment -/
  spared : ∀ p s, w.heap p = some s → w.InUse p → expired config w.lastSweep s = false
  /-- what the sweep has picked is expired now -/
  picked : ∀ p ∈ w.pc.expiring, ∃ s, w.heap p = some s ∧ expired config d.now s = true

/-! ### What a step does to the sessions and to the time of the last sweep -/

theorem Step.lastSweep (hstep : Step config sh w error eff sh' w') (hpc : ∀ closing, w.pc ≠ .sweepTest closing) :
    w'.lastSweep = w.lastSweep := by
  cases hstep
  case sweepSoon closing now hpc' hnow => exact absurd hpc' (hpc closing)
  case sweep closing refs now sweepNow hpc' hnow hrefs => exact absurd hpc' (hpc closing)
  case handled e events p s now ans result env hpc' _ _ _ _ _ _ => cases result <;> rfl
  all_goals rfl

/-- A step that does not stamp a session can only mark it closing. -/
theorem Step.unstamped (hstep : Step config sh w error eff sh' w') (hpc : w.pc.stamps = false)
    {s' : ProxySession} (hp' : w'.heap p = some s') :
    ∃ s, w.heap p = some s ∧ (s' = s ∨ s' = s.markClosing) := by
  have hfree : ∀ {q : Ref}, (Function.update w.heap q none) p = some s' →
      ∃ s, w.heap p = some s ∧ (s' = s ∨ s' = s.markClosing) := by
    intro q hp
    by_cases hpq : p = q
    · rw [hpq, Function.update_self] at hp
      cases hp
    · rw [Function.update_of_ne hpq] at hp
      exact ⟨s', hp, Or.inl rfl⟩
  cases hstep
  case handled e events q t now ans result env hpc' _ _ _ _ _ _ =>
    rw [hpc'] at hpc
    cases hpc
  case construct c b u con now clients ctx hpc' =>
    rw [hpc'] at hpc
    cases hpc
  case modifyFailed q t side events hpc' hq =>
    by_cases hpq : p = q
    · subst hpq
      have hset : Function.update w.heap p (some t.markClosing) p = some s' := hp'
      rw [Function.update_self] at hset
      exact ⟨t, hq, Or.inr (Option.some.inj hset).symm⟩
    · have hset : Function.update w.heap q (some t.markClosing) p = some s' := hp'
      rw [Function.update_of_ne hpq] at hset
      exact ⟨s', hset, Or.inl rfl⟩
  case unregister q t clients ctx hpc' hq => exact hfree hp'
  case dropLast q t refs ctx hpc' hq hlast => exact hfree hp'
  all_goals exact ⟨s', hp', Or.inl rfl⟩

/-- The sessions of a sweep are closed one by one, and nothing else happens to them. -/
theorem Step.expiring (hstep : Step config sh w error eff sh' w') (hpc : ∀ closing, w.pc ≠ .sweepTest closing)
    (hp : p ∈ w'.pc.expiring) : p ∈ w.pc.expiring ∧ w'.heap = w.heap := by
  cases hstep
  case handled e events q t now ans result env hpc' _ _ _ _ _ _ => cases result <;> cases hp
  case readWake events hpc' hcount =>
    rw [show (_ : Pc) = _ from hpc'] at hp
    cases hp
  case closeQueued c queue hpc' hq =>
    rw [show (_ : Pc) = _ from hpc'] at hp
    cases hp
  case sweep closing refs now sweepNow hpc' hnow hrefs => exact absurd hpc' (hpc closing)
  case drained ctx hpc' => cases ctx <;> cases hp
  case allClosed refs ctx hpc' => cases ctx <;> cases hp
  case dropped ctx hpc' => cases ctx <;> cases hp
  case closeMissing q t todo refs ctx hpc' hq hfound =>
    rw [hpc']
    cases ctx with
    | expired outer => exact ⟨List.mem_cons_of_mem q hp, rfl⟩
    | closing => cases hp
    | remaining => cases hp
  case closeSession q t todo refs ctx hpc' hq hfound =>
    rw [hpc']
    cases ctx with
    | expired outer => exact ⟨List.mem_cons_of_mem q hp, rfl⟩
    | closing => cases hp
    | remaining => cases hp
  case onClosedLoad todo refs ctx hpc' =>
    rw [hpc']
    cases ctx <;> exact ⟨hp, rfl⟩
  case onClosedSub current todo refs ctx hpc' =>
    rw [hpc']
    cases ctx <;> exact ⟨hp, rfl⟩
  all_goals cases hp

/-- The batch goes on: the sessions that are not passed the event stay as they are. -/
theorem Step.batch_heap (hstep : Step config sh w error eff sh' w') {e : Event} {events : List Event}
    (hpc : w.pc = .batch (e :: events)) :
    w'.pc.expiring = [] ∧ ∀ q, (∀ s, ¬ w.Delivers e q s) → w'.heap q = w.heap q := by
  cases hstep
  case handled e' events' q t now ans result env hpc' hfd hfound hq hlive hcall hrange =>
    obtain ⟨rfl, rfl⟩ := List.cons.inj (Pc.batch.inj (hpc.symm.trans hpc'))
    refine ⟨by cases result <;> rfl, fun r hr => ?_⟩
    have hrq : r ≠ q := by
      rintro rfl
      exact hr t ⟨⟨events, hpc⟩, hfd, hfound, hq, hlive⟩
    cases result <;> exact Function.update_of_ne hrq ..
  case wake => exact ⟨rfl, fun _ _ => rfl⟩
  case unknown => exact ⟨rfl, fun _ _ => rfl⟩
  case skipped => exact ⟨rfl, fun _ _ => rfl⟩
  all_goals exact absurd (hpc.symm.trans ‹w.pc = _›) (by simp)

/-- Where no clock is read the diary stays as it is. -/
theorem Notes.same (h : Notes config sh w w' d d') (hstamps : w.pc.stamps = false)
    (hsweep : ∀ closing, w.pc ≠ .sweepTest closing) : d' = d := by
  unfold Notes at h
  split at h
  · rename_i hpc
    rw [hpc] at hstamps
    cases hstamps
  · rename_i hpc
    rw [hpc] at hstamps
    cases hstamps
  · rename_i closing hpc
    exact absurd hpc (hsweep closing)
  · exact h

/-- The diary only gets later readings. -/
theorem Aged.later (h : Aged d p s) {now : Nat} (hnow : d.now ≤ now) {looked : Nat} {progress : Ref → Nat}
    (hp : progress p = d.progress p) : Aged ⟨now, looked, progress⟩ p s :=
  ⟨h.activity.trans hp.symm, h.created, h.past.trans hnow⟩

/-- A new session. -/
theorem Timed.construct (h : Timed config w d) (hidle : 0 < config.idleTimeoutSeconds)
    (hconnect : 0 < config.connectTimeoutMs) (hstep : Step config sh w error eff sh' w')
    {c b u : Nat} {con : Bool} {clients : List Fd} {ctx : DrainCtx} {now : Nat}
    (hpc : w.pc = .create (.construct c b u con) clients ctx) (hnow : d.now ≤ now)
    (hheap : w'.heap = (w.construct c u con b config.bufferSize now).heap) :
    Timed config w' { d with now := now, progress := Function.update d.progress w.nextSessionId now } := by
  have hsweep := hstep.lastSweep (fun closing => by rw [hpc]; simp)
  -- what is in use was so before, or is new
  have huse : ∀ p, w'.InUse p → p = w.nextSessionId ∨ w.InUse p := by
    cases hstep
    case construct c' b' u' con' now' clients' ctx' hpc' =>
      rintro p (⟨hpub, -⟩ | hbuild)
      · exact Or.inr (Or.inl ⟨hpub, by rw [hpc]; exact List.not_mem_nil⟩)
      · exact Or.inl (List.mem_singleton.mp hbuild)
    all_goals exact absurd (hpc.symm.trans ‹w.pc = _›) (by simp)
  have hold : ∀ {p s}, p ≠ w.nextSessionId → w'.heap p = some s → w.heap p = some s := by
    intro p s hp hs
    rw [hheap] at hs
    exact (Function.update_of_ne hp ..).symm.trans hs
  have hnew : ∀ {s}, w'.heap w.nextSessionId = some s →
      s = .new w.nextSessionId c u con b config.bufferSize now := by
    intro s hs
    rw [hheap, Worker.construct] at hs
    simpa using hs.symm
  refine ⟨hsweep ▸ h.sweep.trans hnow, hsweep ▸ h.looked, fun p s hs => ?_, fun p s hs hp => ?_, ?_⟩
  · by_cases hp : p = w.nextSessionId
    · subst hp
      rw [hnew hs]
      exact ⟨by simp [ProxySession.new], Nat.le_refl _, Nat.le_refl _⟩
    · exact (h.aged p s (hold hp hs)).later hnow (Function.update_of_ne hp ..)
  · rw [hsweep]
    have hlast := h.sweep.trans hnow
    by_cases hp' : p = w.nextSessionId
    · subst hp'
      rw [hnew hs]
      refine not_expired_of_active hidle ?_ hlast
      simp only [ProxySession.connectTimedOut, ProxySession.new, Nat.sub_eq_zero_of_le hlast]
      simp
      omega
    · exact h.spared p s (hold hp' hs) ((huse p hp).resolve_left hp')
  · intro p hp
    exact absurd (hstep.expiring (fun closing => by rw [hpc]; simp) hp).1 (by rw [hpc]; exact List.not_mem_nil)

/-- An event is passed to a session. -/
theorem Timed.event (h : Timed config w d) (hidle : 0 < config.idleTimeoutSeconds)
    (hstep : Step config sh w error eff sh' w') (hi : w.Indexed) {e : Event} (hdel : w.Delivers e p s)
    (hnotes : NotesEvent sh w' e p s d d') : Timed config w' d' := by
  obtain ⟨events, hpc⟩ := hdel.next
  obtain ⟨now, ans, result, env, hnow, hcall, hp', rfl⟩ := hnotes
  have hsweep := hstep.lastSweep (fun closing => by rw [hpc]; simp)
  obtain ⟨hexp, hother⟩ := hstep.batch_heap hpc
  have huse : ∀ q, w'.InUse q → w.InUse q := fun q => hstep.inUse hi (by rw [hpc]; rfl)
  have hsame : ∀ q, q ≠ p → w'.heap q = w.heap q := by
    intro q hq
    refine hother q fun t ht => hq ?_
    exact Option.some.inj (ht.found.symm.trans hdel.found)
  have hact := handleEvent_lastActivity hdel.notClosing hcall
  have hcreated := handleEvent_createdAt hcall
  have hcarried := handleEvent_carried hdel.notClosing hcall
  have hs := h.aged p s hdel.object
  -- the two possible states of the session differ in the closing flag only
  have hmark : ∀ {P : ProxySession → Prop}, P env.session → (P env.session → P env.session.markClosing) →
      P (if result then env.session else env.session.markClosing) := by
    intro P hP hPm
    cases result with
    | true => exact hP
    | false => exact hPm hP
  refine ⟨hsweep ▸ h.sweep.trans hnow, hsweep ▸ h.looked, fun q t ht => ?_, fun q t ht hq => ?_, ?_⟩
  · by_cases hqp : q = p
    · subst hqp
      obtain rfl := Option.some.inj (hp'.symm.trans ht)
      refine hmark ?_ (fun ha => ⟨ha.activity, ha.created, ha.past⟩)
      by_cases hprog : env.progressed s = true
      · rw [if_pos hprog] at hact ⊢
        refine ⟨by simp [hact], ?_, Nat.le_of_eq hact⟩
        rw [hcreated, hact]
        exact hs.created.trans (hs.past.trans hnow)
      · rw [if_neg hprog] at hact ⊢
        refine ⟨hact.trans hs.activity, ?_, ?_⟩
        · rw [hcreated, hact]
          exact hs.created
        · rw [hact]
          exact hs.past.trans hnow
    · rw [hsame q hqp] at ht
      refine (h.aged q t ht).later hnow ?_
      split
      · exact Function.update_of_ne hqp ..
      · rfl
  · rw [hsweep]
    by_cases hqp : q = p
    · subst hqp
      obtain rfl := Option.some.inj (hp'.symm.trans ht)
      refine hmark (P := fun s => expired config w.lastSweep s = false) ?_ id
      have hold := h.spared q s hdel.object (huse q hq)
      rw [expired, Bool.or_eq_false_iff] at hold
      -- a connect that is still pending was pending before
      have hpending : env.session.connectTimedOut config.connectTimeoutMs w.lastSweep = false := by
        cases hc : env.session.upstreamConnecting with
        | false => simp [ProxySession.connectTimedOut, hc]
        | true =>
          have ht := hold.1
          rw [ProxySession.connectTimedOut, hcarried.connecting hc] at ht
          rw [ProxySession.connectTimedOut, hc, hcreated]
          exact ht
      by_cases hprog : env.progressed s = true
      · rw [if_pos hprog] at hact
        exact not_expired_of_active hidle hpending (hact ▸ h.sweep.trans hnow)
      · rw [if_neg hprog] at hact
        rw [expired, hpending, Bool.false_or, ProxySession.idleFor, hact]
        exact hold.2
    · rw [hsame q hqp] at ht
      exact h.spared q t ht (huse q hq)
  · rw [hexp]
    exact fun q hq => by cases hq

/-- The end of a turn of the loop. -/
theorem Timed.turn (h : Timed config w d) (hstep : Step config sh w error eff sh' w') {closing : List Ref}
    (hpc : w.pc = .sweepTest closing) (hnotes : NotesTurn config w w' d d') : Timed config w' d' := by
  obtain ⟨now, hnow, ⟨hsoon, hsweep, hnot, rfl⟩ | ⟨sweepNow, refs, outer, hdue, hlater, hrefs, hsweep, hpc', rfl⟩⟩ :=
    hnotes
  · -- not yet: no session is picked
    have hsame : w'.heap = w.heap ∧ w'.sessions = w.sessions ∧ w'.pc = .drop closing .closing := by
      cases hstep
      case sweepSoon closing' now' hpc₂ hnow' =>
        obtain rfl := Pc.sweepTest.inj (hpc.symm.trans hpc₂)
        exact ⟨rfl, rfl, rfl⟩
      case sweep closing' refs now' sweepNow hpc₂ hnow' hrefs => exact absurd rfl (hnot refs (.expired closing'))
      all_goals exact absurd (hpc.symm.trans ‹w.pc = _›) (by simp)
    obtain ⟨hheap, hsessions, hdrop⟩ := hsame
    refine ⟨hsweep ▸ h.sweep.trans hnow, ?_, fun p s hs => ?_, fun p s hs hp => ?_, fun p hp => ?_⟩
    · rw [hsweep]
      show now < _
      omega
    · exact (h.aged p s (hheap ▸ hs)).later hnow rfl
    · rw [hsweep]
      refine h.spared p s (hheap ▸ hs) (Or.inl ⟨?_, by rw [hpc]; exact List.not_mem_nil⟩)
      rcases hp with ⟨hpub, -⟩ | hbuild
      · rwa [published, hsessions] at hpub
      · rw [hdrop] at hbuild
        cases hbuild
    · rw [hdrop] at hp
      cases hp
  · -- the sessions expired by `sweepNow` are picked, the others are spared
    have hsame : w'.heap = w.heap ∧ w'.sessions = w.sessions := by
      cases hstep
      case sweepSoon closing' now' hpc₂ hnow' => cases hpc'
      case sweep closing' refs now' sweepNow hpc₂ hnow' hrefs => exact ⟨rfl, rfl⟩
      all_goals exact absurd (hpc.symm.trans ‹w.pc = _›) (by simp)
    obtain ⟨hheap, hsessions⟩ := hsame
    refine ⟨hsweep ▸ hlater, ?_, fun p s hs => ?_, fun p s hs hp => ?_, fun p hp => ?_⟩
    · rw [hsweep]
      show now < now + 1000
      omega
    · exact (h.aged p s (hheap ▸ hs)).later (hnow.trans hlater) rfl
    · rw [hsweep]
      rcases hp with ⟨hpub, htodo⟩ | hbuild
      · rw [published, hsessions] at hpub
        rw [hheap] at hs
        by_contra hexp
        have hexp' := expired_mono hlater (Bool.eq_true_of_not_eq_false hexp)
        rw [hpc'] at htodo
        exact htodo (hrefs.mem_iff.mpr ((mem_select hs).mpr ⟨hpub, hexp'⟩))
      · rw [hpc'] at hbuild
        cases hbuild
    · rw [hpc'] at hp
      have hmem := hrefs.mem_iff.mp hp
      have hf := (List.mem_filter.mp hmem).2
      rw [hheap]
      cases hs : w.heap p with
      | none => simp [hs] at hf
      | some s => exact ⟨s, rfl, by simpa [hs] using hf⟩

/-- **A worker and its diary after a step.** -/
theorem Timed.step (h : Timed config w d) (hidle : 0 < config.idleTimeoutSeconds)
    (hconnect : 0 < config.connectTimeoutMs) (hi : w.Indexed) (hstep : Step config sh w error eff sh' w')
    (hnotes : Notes config sh w w' d d') : Timed config w' d' := by
  have hnotes' := hnotes
  unfold Notes at hnotes'
  split at hnotes'
  · rename_i c b u con clients ctx hpc
    obtain ⟨now, hnow, hheap, rfl⟩ := hnotes'
    exact h.construct hidle hconnect hstep hpc hnow hheap
  · rename_i e events hpc
    by_cases hdel : ∃ p s, w.Delivers e p s
    · obtain ⟨p, s, hdel⟩ := hdel
      exact h.event hidle hstep hi hdel (hnotes'.1 p s hdel)
    · -- nobody is passed the event
      have hnone : ∀ p s, ¬ w.Delivers e p s := fun p s hd => hdel ⟨p, s, hd⟩
      obtain rfl := hnotes'.2 hnone
      obtain ⟨hexp, hother⟩ := hstep.batch_heap hpc
      have hheap : ∀ p, w'.heap p = w.heap p := fun p => hother p (hnone p)
      have hsweep := hstep.lastSweep (fun closing => by rw [hpc]; simp)
      refine ⟨hsweep ▸ h.sweep, hsweep ▸ h.looked, fun p s hs => h.aged p s (hheap p ▸ hs), fun p s hs hp => ?_, ?_⟩
      · rw [hsweep]
        exact h.spared p s (hheap p ▸ hs) (hstep.inUse hi (by rw [hpc]; rfl) hp)
      · rw [hexp]
        exact fun p hp => by cases hp
  · rename_i closing hpc
    exact h.turn hstep hpc hnotes'
  · -- the clock is not read
    rename_i hconstruct hbatch hturn
    have hstamps : w.pc.stamps = false := by
      unfold Pc.stamps
      split
      · exact absurd ‹w.pc = _› (hconstruct _ _ _ _ _ _)
      · exact absurd ‹w.pc = _› (hbatch _ _)
      · rfl
    obtain rfl := hnotes.same hstamps hturn
    have hbuilds : w.pc.builds = false := by
      cases hpc : w.pc with
      | create job clients ctx =>
        cases job with
        | construct c b u con => exact absurd hpc (hconstruct _ _ _ _ _ _)
        | _ => rfl
      | _ => rfl
    have hsweep := hstep.lastSweep hturn
    refine ⟨hsweep ▸ h.sweep, hsweep ▸ h.looked, fun p s hs => ?_, fun p s hs hp => ?_, fun p hp => ?_⟩
    · obtain ⟨t, ht, rfl | rfl⟩ := hstep.unstamped hstamps hs
      · exact h.aged p _ ht
      · have ha := h.aged p t ht
        exact ⟨ha.activity, ha.created, ha.past⟩
    · rw [hsweep]
      obtain ⟨t, ht, rfl | rfl⟩ := hstep.unstamped hstamps hs
      · exact h.spared p _ ht (hstep.inUse hi hbuilds hp)
      · exact h.spared p t ht (hstep.inUse hi hbuilds hp)
    · obtain ⟨hp', hheap⟩ := hstep.expiring hturn hp
      rw [hheap]
      exact h.picked p hp'

end Worker

/-! ## Runs with diaries -/

/-- The diary of a worker that starts: times count from then. -/
def Diary.new : Diary := ⟨0, 0, fun _ => 0⟩

namespace System

variable {n : Nat} {config : AppConfig} {s s' : System n}

/-- The worker that moves writes its diary. -/
def Chronicles (config : AppConfig) (s : System n) (act : SystemAct n) (s' : System n)
    (d d' : Fin n → Diary) : Prop :=
  ∀ i, if act.byWorker i then (s.workers i).Notes config s.shared (s'.workers i) (d i) (d' i) else d' i = d i

/-- A run with a clock that never goes back. -/
def TimedRun (config : AppConfig) (s₀ : System n) (acts : List (SystemAct n)) (d : Fin n → Diary)
    (s : System n) : Prop :=
  Run (Recording (Guarded NotifyOk (Step config)) (Chronicles config)) (fun _ => .new, s₀) acts (d, s)

theorem byWorker_eq_false {act : SystemAct n} {i : Fin n} (h : ∀ error, act ≠ .worker i error) :
    act.byWorker i = false := by
  cases act with
  | worker j error =>
    have hji : j ≠ i := fun he => h error (by rw [he])
    simp [SystemAct.byWorker, hji]
  | acceptor failed => rfl
  | others => rfl

theorem run_timed {s₀ : System n} {acts : List (SystemAct n)} {d : Fin n → Diary}
    (hidle : 0 < config.idleTimeoutSeconds) (hconnect : 0 < config.connectTimeoutMs) (hstart : Start s₀)
    (hrun : TimedRun config s₀ acts d s) : ∀ i, (s.workers i).Timed config (d i) := by
  have h : s.Consistent config ∧ ∀ i, (s.workers i).Timed config (d i) := by
    refine Run.invariant (I := fun x : (Fin n → Diary) × System n =>
      x.2.Consistent config ∧ ∀ i, (x.2.workers i).Timed config (x.1 i)) ?_ ?_ hrun
    · rintro ⟨d, t⟩ act ⟨d', u⟩ ⟨hc, ht⟩ ⟨⟨hact, hstep⟩, hdiary⟩
      refine ⟨hc.step hact hstep, fun i => ?_⟩
      have hi := hdiary i
      rcases hstep.worker_cases i with ⟨error, eff, sh, w, rfl, hw, -, e, hwi⟩ | ⟨hother, hsame⟩
      · simp only [SystemAct.byWorker, beq_self_eq_true, if_true] at hi
        dsimp only at hwi hi ⊢
        rw [hwi] at hi ⊢
        have hnotes : (t.workers i).Notes config t.shared w (d i) (d' i) := hi
        have htimed := (ht i).step hidle hconnect (hc.workers i).indexed hw hnotes
        exact ⟨htimed.sweep, htimed.looked, htimed.aged, htimed.spared, htimed.picked⟩
      · rw [byWorker_eq_false hother] at hi
        have hdi : d' i = d i := hi
        have hti := ht i
        dsimp only at hsame ⊢
        rw [hdi]
        refine ⟨hsame.lastSweep ▸ hti.sweep, hsame.lastSweep ▸ hti.looked, fun p q hq => ?_, fun p q hq hp => ?_,
          fun p hp => ?_⟩
        · exact hti.aged p q (hsame.heap ▸ hq)
        · rw [hsame.lastSweep]
          refine hti.spared p q (hsame.heap ▸ hq) ?_
          rwa [Worker.InUse, Worker.published, hsame.sessions, hsame.pc] at hp
        · rw [hsame.heap]
          exact hti.picked p (hsame.pc ▸ hp)
    · refine ⟨hstart.consistent config, fun i => ?_⟩
      obtain ⟨wakeFd, epollFd, hw⟩ := hstart.workers i
      show (s₀.workers i).Timed config .new
      rw [hw]
      have hnone : ∀ {P : Prop} {p : Ref} {q : ProxySession}, (newWorker wakeFd epollFd).heap p = some q → P :=
        fun hq => by cases hq
      exact ⟨Nat.le_refl _, Nat.zero_lt_succ _, fun p q => hnone, fun p q => hnone, fun p hp => by cases hp⟩
  exact h.2

end System

/-! A timed run of the small process, for the two results below. -/

namespace Demo

variable {s s' : System 1} {d : Diary}

/-- The small process gets there, and its worker has written this diary. -/
def TimedReaches (d : Diary) (s : System 1) : Prop :=
  ∃ acts, System.TimedRun config start acts (fun _ => d) s

theorem TimedReaches.acceptor (h : TimedReaches d s) (hstep : System.Step config s (.acceptor false) s') :
    TimedReaches d s' := by
  obtain ⟨acts, hr⟩ := h
  have hok : System.NotifyOk s (.acceptor false) := fun he => by cases he
  exact ⟨_, hr.snoc ⟨⟨hok, hstep⟩, fun i => rfl⟩⟩

theorem TimedReaches.worker {eff : FdEffect} {sh : SharedState} {w : Worker} {d' : Diary}
    (h : TimedReaches d s) (hstep : Worker.Step config s.shared (s.workers 0) false eff sh w)
    (hfd : s.Allows eff) (hnotes : (s.workers 0).Notes config s.shared w d d') :
    TimedReaches d' ({ s with workers := fun _ => w, shared := sh }.apply eff) := by
  obtain ⟨acts, hr⟩ := h
  have hok : System.NotifyOk s (.worker 0 false) := fun he => by cases he
  refine ⟨_, hr.snoc ⟨⟨hok, step_worker hstep hfd⟩, fun i => ?_⟩⟩
  have hi : i = 0 := Subsingleton.elim i 0
  subst hi
  cases eff <;> exact hnotes

theorem timedReaches_taken : TimedReaches .new taken := by
  have r : TimedReaches .new start := ⟨[], .nil⟩
  have r := r.acceptor (.accept 6 rfl rfl)
  have r := r.acceptor (.configured 6 0 rfl)
  have r := r.acceptor (.running 6 0 rfl rfl)
  have r := r.acceptor (.push 6 0 rfl (by decide))
  have r := r.acceptor (.notified 6 0 rfl)
  have r := r.worker (.enter rfl rfl) trivial rfl
  have r := r.worker (.waited [⟨4, EPOLLIN, none⟩] rfl (by decide) (by decide) (by simpa using ⟨_, rfl⟩))
    trivial rfl
  have r := r.worker (.wake _ _ rfl rfl) trivial ⟨fun p s hd => absurd rfl hd.notWake, fun _ => rfl⟩
  have r := r.worker (.readWake _ rfl (by decide)) trivial rfl
  have r := r.worker (.wakeEmpty _ rfl rfl) trivial rfl
  have r := r.worker (.swap _ rfl) trivial rfl
  exact r.worker (.take _ _ _ rfl rfl) trivial rfl

/-- The session is created at once, and the loop looks at the clock at 900 ms. -/
def diary : Diary := ⟨900, 900, Function.update (fun _ => 0) 1 0⟩

theorem timedReaches_serving : TimedReaches diary serving := by
  have r := timedReaches_taken
  have r := r.worker (.acquired _ 0 _ _ rfl) trivial rfl
  have r := r.worker (.socket _ _ 7 _ _ rfl) rfl rfl
  have r := r.worker (.connect _ _ _ true _ _ rfl) trivial rfl
  have r := r.worker (.construct _ _ _ _ 0 _ _ rfl) trivial ⟨0, by decide, rfl, rfl⟩
  have r := r.worker (.registerClient 1 _ _ _ rfl rfl rfl) trivial rfl
  have r := r.worker (.registerUpstream 1 _ _ _ rfl rfl rfl) trivial rfl
  have r := r.worker (.publish 1 _ _ _ rfl rfl) trivial rfl
  have r := r.worker (.drained _ rfl) trivial rfl
  have r := r.worker (.batchDone rfl) trivial rfl
  have r := r.worker (.collect [] rfl (by decide)) trivial rfl
  have r := r.worker (.allClosed _ _ rfl) trivial rfl
  have r := r.worker (.sweepSoon _ 900 rfl (by decide)) trivial
    ⟨900, by decide, Or.inl ⟨by decide, rfl, fun refs ctx he => (by cases he), rfl⟩⟩
  have r := r.worker (.dropped _ rfl) trivial rfl
  exact r.worker (.enter rfl rfl) trivial rfl

/-- The connect is still pending when the loop comes around at 4000 ms. -/
theorem timedReaches_expired : ∃ s, TimedReaches ⟨4000, 4000, Function.update (fun _ => 0) 1 0⟩ s ∧
    (s.workers 0).pc.expiring = [1] := by
  have r := timedReaches_serving
  have r := r.worker (.waited [] rfl (by decide) (by decide) (fun e he => by cases he)) trivial rfl
  have r := r.worker (.batchDone rfl) trivial rfl
  have r := r.worker (.collect [] rfl (by decide)) trivial rfl
  have r := r.worker (.allClosed _ _ rfl) trivial rfl
  have r := r.worker (.sweep _ [1] 4000 4000 rfl (by decide) (by decide)) trivial
    ⟨4000, by decide, Or.inr ⟨4000, [1], [], by decide, Nat.le_refl _, by decide, rfl, rfl, rfl⟩⟩
  exact ⟨_, r, rfl⟩

end Demo

/-- **The sweep closes no active session.** In every run with a clock that never goes back: the time
stamp of a session is the time of its last progress (its creation, the end of its connect, or a byte
received or sent), and a session that the sweep has picked has made no progress for the idle timeout,
or has been connecting for the connect timeout since it was created. -/
theorem run_sweep_sound {n : Nat} (config : AppConfig) (hidle : 0 < config.idleTimeoutSeconds)
    (hconnect : 0 < config.connectTimeoutMs) {s₀ s : System n} {acts : List (SystemAct n)}
    {d : Fin n → Diary} (hstart : System.Start s₀) (hrun : System.TimedRun config s₀ acts d s) (i : Fin n) :
    (∀ p session, (s.workers i).heap p = some session →
      session.lastActivity = (d i).progress p ∧ session.createdAt ≤ (d i).progress p) ∧
    ∀ p ∈ (s.workers i).pc.expiring, ∃ session, (s.workers i).heap p = some session ∧
      ((d i).progress p + config.idleTimeoutSeconds * 1000 ≤ (d i).now ∨
        session.upstreamConnecting = true ∧ session.createdAt + config.connectTimeoutMs ≤ (d i).now) := by
  have h := System.run_timed hidle hconnect hstart hrun i
  refine ⟨fun p session hp => ?_, fun p hp => ?_⟩
  · have ha := h.aged p session hp
    exact ⟨ha.activity, ha.activity ▸ ha.created⟩
  · obtain ⟨session, hs, hexp⟩ := h.picked p hp
    have ha := (h.aged p session hs).activity
    refine ⟨session, hs, ?_⟩
    simp only [expired, ProxySession.connectTimedOut, ProxySession.idleFor, Bool.or_eq_true, Bool.and_eq_true,
      decide_eq_true_eq] at hexp
    rcases hexp with ⟨hc, hexp⟩ | hexp
    · exact Or.inr ⟨hc, by omega⟩
    · exact Or.inl (by omega)

/-- The connect of the small process's session has been pending for four seconds. -/
theorem run_sweep_sound_connecting : ∃ acts s,
    System.TimedRun Demo.config Demo.start acts
      (fun _ => ⟨4000, 4000, Function.update (fun _ => 0) 1 0⟩) s ∧
    (s.workers 0).pc.expiring = [1] ∧ ∃ session, (s.workers 0).heap 1 = some session ∧
      (0 + Demo.config.idleTimeoutSeconds * 1000 ≤ 4000 ∨
        session.upstreamConnecting = true ∧ session.createdAt + Demo.config.connectTimeoutMs ≤ 4000) := by
  obtain ⟨s, ⟨acts, hrun⟩, hexp⟩ := Demo.timedReaches_expired
  have h := run_sweep_sound Demo.config (by decide) (by decide) Demo.start_start hrun 0
  exact ⟨acts, s, hrun, hexp, h.2 1 (by rw [hexp]; decide)⟩

/-- **No session outstays its timeout.** In every run with a clock that never goes back, at every
`epoll_wait` and for every session in `sessions_`: when the loop last looked at the clock, the session
had made progress within the idle timeout and one second, and if it is still connecting it had been
created within the connect timeout and one second. -/
theorem run_no_overstay {n : Nat} (config : AppConfig) (hidle : 0 < config.idleTimeoutSeconds)
    (hconnect : 0 < config.connectTimeoutMs) {s₀ s : System n} {acts : List (SystemAct n)}
    {d : Fin n → Diary} (hstart : System.Start s₀) (hrun : System.TimedRun config s₀ acts d s) (i : Fin n)
    (hwait : (s.workers i).pc = .epollWait) {p : Ref} {session : ProxySession}
    (hpub : (s.workers i).published p) (hp : (s.workers i).heap p = some session) :
    (d i).looked < (d i).progress p + config.idleTimeoutSeconds * 1000 + 1000 ∧
    (session.upstreamConnecting = true →
      (d i).looked < session.createdAt + config.connectTimeoutMs + 1000) := by
  have h := System.run_timed hidle hconnect hstart hrun i
  have huse : (s.workers i).InUse p := Or.inl ⟨hpub, by rw [hwait]; exact List.not_mem_nil⟩
  have hspared := h.spared p session hp huse
  have hlooked := h.looked
  have hactivity := (h.aged p session hp).activity
  simp only [expired, ProxySession.connectTimedOut, ProxySession.idleFor, Bool.or_eq_false_iff,
    Bool.and_eq_false_iff, decide_eq_false_iff_not] at hspared
  refine ⟨by omega, fun hc => ?_⟩
  rw [hc] at hspared
  have hlate := hspared.1.resolve_left (by simp)
  omega

/-- The loop of the small process looked at the clock at 900 ms and left its session alone. -/
theorem run_no_overstay_serving : ∃ acts,
    System.TimedRun Demo.config Demo.start acts (fun _ => Demo.diary) Demo.serving ∧
    Demo.diary.looked = 900 ∧
    900 < Demo.diary.progress 1 + Demo.config.idleTimeoutSeconds * 1000 + 1000 ∧
    900 < Demo.session.createdAt + Demo.config.connectTimeoutMs + 1000 := by
  obtain ⟨acts, hrun⟩ := Demo.timedReaches_serving
  have h := run_no_overstay Demo.config (by decide) (by decide) Demo.start_start hrun 0 rfl
    (List.mem_singleton.mpr rfl) (show (Demo.serving.workers 0).heap 1 = some Demo.session from rfl)
  exact ⟨acts, hrun, rfl, h.1, h.2 rfl⟩

end FluxGate
