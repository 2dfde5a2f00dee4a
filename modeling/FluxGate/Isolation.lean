import FluxGate.Timeouts

/-!
# Sessions do not mix

What `Relay` says about one session, here for the whole process: workers,
sessions that come and go, and descriptor numbers that the kernel uses again.
A `Transcript` beside each worker holds the calls that each session object has
made, over all events that were passed to it. In every run the bytes a session
has sent are a prefix of what it has received from its own peer, two sessions
never share a descriptor, and the byte counters of the process are the sums
over the transcripts.
-/

namespace FluxGate

open Lib

/-! ## A call with a past -/

/-- The same, after the calls `pre`. -/
def Env.after (pre : List Call) (env : Env) : Env := { env with log := pre ++ env.log }

/-- What survives a call from an empty log survives it after any other calls. -/
theorem Stable.after {now : Nat} {I : Env → Prop} (h : Stable now I) (pre : List Call) :
    Stable now (fun env => I (env.after pre)) where
  close env hi := h.close (env.after pre) hi
  readClosed env side hi := h.readClosed (env.after pre) side hi
  writeShutdown env side hi := h.writeShutdown (env.after pre) side hi
  connected env hi := h.connected (env.after pre) hi
  connectFailed env hi := h.connectFailed (env.after pre) hi
  call env c hc hi := by
    have hr := h.call (env.after pre) c hc hi
    rwa [show (env.after pre).record c = (env.record c).after pre by
      simp [Env.after, Env.record]] at hr
  makeWritable env side hi := h.makeWritable (env.after pre) side hi
  recv env side b data hi := by
    have hr := h.recv (env.after pre) side b data hi
    rwa [show ((env.after pre).recvCall side (.ok (b :: data))).received side (b :: data) now =
        ((env.recvCall side (.ok (b :: data))).received side (b :: data) now).after pre by
      simp [Env.after, Env.received, Env.recvCall, Env.record, Env.makeWritable, Env.room]] at hr
  send env side n hi := by
    have hr := h.send (env.after pre) side n hi
    rwa [show ((env.after pre).sendCall side (.ok (n + 1))).sent side (n + 1) now =
        ((env.sendCall side (.ok (n + 1))).sent side (n + 1) now).after pre by
      simp [Env.after, Env.sent, Env.sendCall, Env.record]] at hr

/-- The calls of a session account for the content of its buffers. -/
def Relays (log : List Call) (s : ProxySession) : Prop :=
  ∀ side, received side log = sent side.other log ++ (s.inbound side).readData

section Call

variable {cap : Nat} {s : ProxySession} {b : Backend} {m : Metrics} {env : Env} {fd : Fd}
  {events : EventMask} {now : Nat} {ans : Answers} {f : Flow} {pre : List Call}

/-- Counters that had grown by the bytes of `pre` when they were at `m`. -/
def Metrics.before (m : Metrics) (pre : List Call) : Metrics :=
  { m with
    clientToBackendBytes := m.clientToBackendBytes - UInt64.ofNat (received .client pre).length
    backendToClientBytes := m.backendToClientBytes - UInt64.ofNat (received .upstream pre).length }

theorem byteCounter_before (m : Metrics) (pre : List Call) (side : Side) :
    byteCounter side m = byteCounter side (m.before pre) + UInt64.ofNat (received side pre).length := by
  cases side <;> exact (UInt64.sub_add_cancel _ _).symm

/-- **One call, after any others**: the transcript still accounts for the buffers, and the byte
counters grow by what this call received. -/
theorem handleEvent_relays (hsized : s.Sized cap) (hpre : ∀ c ∈ pre, c.InRange) (hrelays : Relays pre s)
    (hcall : (Env.mk s b m []).handleEvent fd events now ans = (f, env))
    (hrange : ∀ c ∈ env.log, c.InRange) :
    Relays (pre ++ env.log) env.session ∧
      ∀ side, byteCounter side env.metrics =
        byteCounter side m + UInt64.ofNat (received side env.log).length := by
  have hstart : Faithful cap (m.before pre) ((Env.mk s b m []).after pre) := by
    intro _ side
    refine ⟨(hsized side).1, (hsized side).2, ?_, ?_⟩
    · simpa [Env.after] using hrelays side
    · simpa [Env.after] using byteCounter_before m pre side
  have hend := ((faithful_stable cap (m.before pre) now).after pre).handleEvent fd events ans _ hstart
  rw [hcall] at hend
  have hall : ∀ c ∈ (env.after pre).log, c.InRange := by
    intro c hc
    exact (List.mem_append.mp hc).elim (hpre c) (hrange c)
  refine ⟨fun side => (hend hall side).bytes, fun side => ?_⟩
  have hcounter : byteCounter side env.metrics =
      byteCounter side (m.before pre) + UInt64.ofNat (received side (pre ++ env.log)).length :=
    (hend hall side).counter
  rw [hcounter, received_append, List.length_append, UInt64.ofNat_add, ← UInt64.add_assoc,
    ← byteCounter_before]

end Call

/-! ## The transcript of a worker -/

/-- The calls each session object has made. -/
abbrev Transcript := Ref → List Call

/-- Bytes received on a side by all sessions of a worker so far. -/
def Worker.bytesIn (w : Worker) (t : Transcript) (side : Side) : Nat :=
  ∑ p ∈ Finset.range w.nextSessionId, (received side (t p)).length

namespace Worker

variable {config : AppConfig} {sh sh' : SharedState} {w w' : Worker} {error : Bool} {eff : FdEffect}
  {t t' : Transcript} {p : Ref} {s : ProxySession}

/-- The event of the batch is passed to `handleEvent` of `p`, which makes these calls. -/
def TranscribesEvent (sh : SharedState) (sh' : SharedState) (w' : Worker) (e : Event) (p : Ref) (s : ProxySession)
    (t t' : Transcript) : Prop :=
  ∃ now ans result env,
    (Env.mk s (sh.backends s.backend) sh.metrics []).handleEvent e.fd e.mask now ans = (.ret result, env) ∧
    (∀ c ∈ env.log, c.InRange) ∧
    w'.heap p = some (if result then env.session else env.session.markClosing) ∧
    sh'.metrics = env.metrics ∧ t' = Function.update t p (t p ++ env.log)

/-- What a step adds to the transcript. -/
def Transcribes (sh : SharedState) (w : Worker) (sh' : SharedState) (w' : Worker) (t t' : Transcript) : Prop :=
  match w.pc with
  | .batch (e :: _) =>
    (∀ p s, w.Delivers e p s → TranscribesEvent sh sh' w' e p s t t') ∧ ((∀ p s, ¬ w.Delivers e p s) → t' = t)
  | _ => t' = t

/-- Every step can be written down. -/
theorem Step.exists_transcribes (hstep : Step config sh w error eff sh' w') (t : Transcript) :
    ∃ t', Transcribes sh w sh' w' t t' := by
  unfold Transcribes
  split
  · rename_i e events hpc
    by_cases hdel : ∃ p s, w.Delivers e p s
    · cases hstep
      case handled e' events' q r now ans result env hpc' hfd hfound hq hlive hcall hrange =>
        obtain ⟨rfl, rfl⟩ := List.cons.inj (Pc.batch.inj (hpc.symm.trans hpc'))
        refine ⟨Function.update t q (t q ++ env.log), fun p s hd => ?_, fun hno => ?_⟩
        · obtain rfl := Option.some.inj (hd.found.symm.trans hfound)
          obtain rfl := Option.some.inj (hd.object.symm.trans hq)
          refine ⟨now, ans, result, env, hcall, hrange, ?_, rfl, rfl⟩
          cases result <;> exact Function.update_self ..
        · exact absurd ⟨⟨events, hpc⟩, hfd, hfound, hq, hlive⟩ (hno q r)
      case wake e' events' hpc' hfd =>
        obtain ⟨rfl, rfl⟩ := List.cons.inj (Pc.batch.inj (hpc.symm.trans hpc'))
        obtain ⟨p, s, hd⟩ := hdel
        exact absurd hfd hd.notWake
      case unknown e' events' hpc' hfd hfound =>
        obtain ⟨rfl, rfl⟩ := List.cons.inj (Pc.batch.inj (hpc.symm.trans hpc'))
        obtain ⟨p, s, hd⟩ := hdel
        exact absurd (hd.found.symm.trans hfound) (by simp)
      case skipped e' events' q r hpc' hfd hfound hq hclosing =>
        obtain ⟨rfl, rfl⟩ := List.cons.inj (Pc.batch.inj (hpc.symm.trans hpc'))
        obtain ⟨p, s, hd⟩ := hdel
        obtain rfl := Option.some.inj (hd.found.symm.trans hfound)
        obtain rfl := Option.some.inj (hd.object.symm.trans hq)
        exact absurd (hd.notClosing.symm.trans hclosing) (by simp)
      all_goals exact absurd (hpc.symm.trans ‹w.pc = _›) (by simp)
    · refine ⟨t, fun p s hd => absurd ⟨p, s, hd⟩ hdel, fun _ => rfl⟩
  · exact ⟨t, rfl⟩

/-- The sessions of a worker and what they have sent and received. -/
structure Transcribed (w : Worker) (t : Transcript) : Prop where
  inRange : ∀ p, ∀ c ∈ t p, c.InRange
  /-- a session that exists accounts for its buffers -/
  relays : ∀ p s, w.heap p = some s → Relays (t p) s
  /-- what was sent was received before, also by a session that is gone -/
  sent : ∀ p side, sent side.other (t p) <+: received side (t p)
  unborn : ∀ p, w.nextSessionId ≤ p → t p = []

/-! ### What a step does to the byte counters -/

theorem sweepFailures_bytes (config : AppConfig) (now : Nat) (heap : Ref → Option ProxySession) (side : Side)
    (refs : List Ref) (sh : SharedState) :
    byteCounter side (sweepFailures config now heap refs sh).metrics = byteCounter side sh.metrics := by
  induction refs generalizing sh with
  | nil => rfl
  | cons p rest ih =>
    rw [sweepFailures, ih]
    cases heap p with
    | none => rfl
    | some s =>
      dsimp only
      split
      · cases side <;> rfl
      · rfl

theorem exec_bytes (op : CleanOp) (sh : SharedState) (side : Side) :
    byteCounter side (op.exec sh).2.1.metrics = byteCounter side sh.metrics := by
  cases op with
  | releaseTest b current =>
    simp only [CleanOp.exec]
    split <;> cases side <;> rfl
  | _ => cases side <;> rfl

/-- Only a call of `handleEvent` moves bytes. -/
theorem Step.bytes (hstep : Step config sh w error eff sh' w') (side : Side)
    (hno : ∀ e p s, ¬ w.Delivers e p s) : byteCounter side sh'.metrics = byteCounter side sh.metrics := by
  cases hstep
  case handled e events q r now ans result env hpc hfd hfound hq hlive hcall hrange =>
    exact absurd ⟨⟨events, hpc⟩, hfd, hfound, hq, hlive⟩ (hno e q r)
  case clean op ops clients ctx hpc => exact exec_bytes op sh side
  case destroy op ops refs ctx hpc => exact exec_bytes op sh side
  case sweep closing refs now sweepNow hpc hnow hrefs => exact sweepFailures_bytes ..
  case construct c b u con now clients ctx hpc =>
    split <;> rfl
  case onClosedSub current todo refs ctx hpc =>
    split <;> cases side <;> rfl
  all_goals cases side <;> rfl

/-- Without an event for it, a session keeps its buffers; a new one has empty buffers. -/
theorem Step.buffers (hstep : Step config sh w error eff sh' w') (hno : ∀ e p s, ¬ w.Delivers e p s)
    {s' : ProxySession} (hp' : w'.heap p = some s') :
    (∃ s, w.heap p = some s ∧ ∀ side, s'.inbound side = s.inbound side) ∨
      (p = w.nextSessionId ∧ ∀ side, (s'.inbound side).readData = []) := by
  by_cases hstamps : w.pc.stamps = false
  · obtain ⟨s, hp, rfl | rfl⟩ := hstep.unstamped hstamps hp'
    · exact Or.inl ⟨_, hp, fun _ => rfl⟩
    · exact Or.inl ⟨s, hp, fun side => ProxySession.inbound_markClosing s side⟩
  · cases hstep
    case construct c b u con now clients ctx hpc =>
      have hset : Function.update w.heap w.nextSessionId
          (some (.new w.nextSessionId c u con b config.bufferSize now)) p = some s' := hp'
      by_cases hp : p = w.nextSessionId
      · rw [hp, Function.update_self] at hset
        obtain rfl := Option.some.inj hset
        refine Or.inr ⟨hp, fun side => ?_⟩
        cases side <;> exact ByteBuffer.new_readData _
      · rw [Function.update_of_ne hp] at hset
        exact Or.inl ⟨s', hset, fun _ => rfl⟩
    case handled e events q r now ans result env hpc hfd hfound hq hlive hcall hrange =>
      exact absurd ⟨⟨events, hpc⟩, hfd, hfound, hq, hlive⟩ (hno e q r)
    case wake => exact Or.inl ⟨s', hp', fun _ => rfl⟩
    case unknown => exact Or.inl ⟨s', hp', fun _ => rfl⟩
    case skipped => exact Or.inl ⟨s', hp', fun _ => rfl⟩
    all_goals
      rw [‹w.pc = _›] at hstamps
      exact absurd rfl hstamps

theorem Step.nextSessionId (hstep : Step config sh w error eff sh' w') :
    w'.nextSessionId = w.nextSessionId ∨ w'.nextSessionId = w.nextSessionId + 1 := by
  cases hstep
  case construct => exact Or.inr rfl
  case handled e events q r now ans result env hpc hfd hfound hq hlive hcall hrange =>
    exact Or.inl (by cases result <;> rfl)
  all_goals exact Or.inl rfl

theorem Step.nextSessionId_batch (hstep : Step config sh w error eff sh' w') {e : Event} {events : List Event}
    (hpc : w.pc = .batch (e :: events)) : w'.nextSessionId = w.nextSessionId := by
  cases hstep
  case construct => exact absurd (hpc.symm.trans ‹w.pc = _›) (by simp)
  case handled e events q r now ans result env hpc hfd hfound hq hlive hcall hrange => cases result <;> rfl
  all_goals rfl

/-- **The transcript and the counters after a step.** -/
theorem Transcribed.step (h : Transcribed w t) (hr : w.Reactor config.bufferSize) (hf : w.Fresh)
    (hstep : Step config sh w error eff sh' w') (ht : Transcribes sh w sh' w' t t') :
    Transcribed w' t' ∧ ∀ side, byteCounter side sh'.metrics + UInt64.ofNat (w.bytesIn t side) =
      byteCounter side sh.metrics + UInt64.ofNat (w'.bytesIn t' side) := by
  by_cases hdel : ∃ e p s, w.Delivers e p s
  · -- one session is passed an event, and adds to its transcript
    obtain ⟨e, p, s, hdel⟩ := hdel
    obtain ⟨events, hpc⟩ := hdel.next
    simp only [Transcribes, hpc] at ht
    obtain ⟨now, ans, result, env, hcall, hrange, hp', hmetrics, rfl⟩ := ht.1 p s hdel
    have hlt : p < w.nextSessionId := hf.lt hdel.object
    have hnext := hstep.nextSessionId_batch hpc
    obtain ⟨hrelays, hbytes⟩ := handleEvent_relays (hr.sized p s hdel.object) (h.inRange p)
      (h.relays p s hdel.object) hcall hrange
    have hother : ∀ q, q ≠ p → w'.heap q = w.heap q := by
      intro q hq
      refine (hstep.batch_heap hpc).2 q fun r hr => hq ?_
      exact Option.some.inj (hr.found.symm.trans hdel.found)
    refine ⟨⟨fun q c hc => ?_, fun q r hq => ?_, fun q side => ?_, fun q hq => ?_⟩, fun side => ?_⟩
    · by_cases hqp : q = p
      · subst hqp
        rw [Function.update_self] at hc
        exact (List.mem_append.mp hc).elim (h.inRange q c) (hrange c)
      · rw [Function.update_of_ne hqp] at hc
        exact h.inRange q c hc
    · by_cases hqp : q = p
      · subst hqp
        rw [Function.update_self]
        obtain rfl := Option.some.inj (hp'.symm.trans hq)
        cases result with
        | true => exact hrelays
        | false => exact hrelays
      · rw [Function.update_of_ne hqp]
        exact h.relays q r (hother q hqp ▸ hq)
    · by_cases hqp : q = p
      · subst hqp
        rw [Function.update_self, hrelays side]
        exact List.prefix_append _ _
      · rw [Function.update_of_ne hqp]
        exact h.sent q side
    · rw [hnext] at hq
      have hqp : q ≠ p := fun he => absurd hlt (Nat.not_lt.mpr (he ▸ hq))
      rw [Function.update_of_ne hqp]
      exact h.unborn q hq
    · have hsum := total_update (Finset.mem_range.mpr hlt) (fun log => (received side log).length) t
        (t p ++ env.log)
      have hnew : w'.bytesIn (Function.update t p (t p ++ env.log)) side =
          w.bytesIn t side + (received side env.log).length := by
        rw [bytesIn, bytesIn, hnext]
        simp only [received_append, List.length_append] at hsum
        omega
      rw [hmetrics, hbytes side, hnew, UInt64.ofNat_add]
      ac_rfl
  · have hno : ∀ e p s, ¬ w.Delivers e p s := fun e p s hd => hdel ⟨e, p, s, hd⟩
    obtain rfl : t' = t := by
      unfold Transcribes at ht
      split at ht
      · exact ht.2 (hno _)
      · exact ht
    refine ⟨⟨h.inRange, fun p s' hp' => ?_, h.sent, fun p hp => ?_⟩, fun side => ?_⟩
    · rcases hstep.buffers hno hp' with ⟨s, hp, hsame⟩ | ⟨rfl, hempty⟩
      · intro side
        rw [hsame side]
        exact h.relays p s hp side
      · intro side
        rw [h.unborn _ (Nat.le_refl _), hempty side]
        rfl
    · refine h.unborn p ?_
      rcases hstep.nextSessionId with he | he <;> omega
    · have hsum : w'.bytesIn t' side = w.bytesIn t' side := by
        rcases hstep.nextSessionId with he | he
        · rw [bytesIn, bytesIn, he]
        · rw [bytesIn, bytesIn, he, Finset.sum_range_succ, h.unborn _ (Nat.le_refl _)]
          rfl
      rw [hstep.bytes side hno, hsum]

end Worker

/-! ## The process -/

namespace System

variable {n : Nat} {config : AppConfig} {s s' : System n}

/-- The worker that moves writes its transcript. -/
def Transcribes (s : System n) (act : SystemAct n) (s' : System n) (t t' : Fin n → Transcript) : Prop :=
  ∀ i, if act.byWorker i then (s.workers i).Transcribes s.shared s'.shared (s'.workers i) (t i) (t' i)
    else t' i = t i

/-- A run with what its sessions have sent and received. -/
def TranscribedRun (config : AppConfig) (s₀ : System n) (acts : List (SystemAct n)) (t : Fin n → Transcript)
    (s : System n) : Prop :=
  Run (Recording (Guarded NotifyOk (Step config)) Transcribes) (fun _ _ => [], s₀) acts (t, s)

/-- The bytes received on a side by all sessions that ever were. -/
def bytesIn (s : System n) (t : Fin n → Transcript) (side : Side) : Nat :=
  ∑ i, (s.workers i).bytesIn (t i) side

/-- Every run can be transcribed. -/
theorem exists_transcribedRun {s₀ : System n} {acts : List (SystemAct n)}
    (hrun : Run (Guarded NotifyOk (Step config)) s₀ acts s) : ∃ t, TranscribedRun config s₀ acts t s := by
  refine hrun.exists_recording ?_ _
  rintro u act v t ⟨-, hstep⟩
  have hone : ∀ i, ∃ ti, if act.byWorker i then
      (u.workers i).Transcribes u.shared v.shared (v.workers i) (t i) ti else ti = t i := by
    intro i
    rcases hstep.worker_cases i with ⟨error, eff, sh, w, rfl, hw, hsh, e, hi⟩ | ⟨hother, -⟩
    · obtain ⟨ti, hti⟩ := hw.exists_transcribes (t i)
      refine ⟨ti, ?_⟩
      simp only [SystemAct.byWorker, beq_self_eq_true, if_true]
      rw [hi, hsh]
      exact hti
    · rw [byWorker_eq_false hother]
      exact ⟨t i, rfl⟩
  choose t' ht' using hone
  exact ⟨t', ht'⟩

/-- The counters of the metrics that count bytes. -/
theorem Step.bytes_others {act : SystemAct n} (hstep : Step config s act s')
    (h : ∀ i, act.byWorker i = false) (side : Side) :
    byteCounter side s'.shared.metrics = byteCounter side s.shared.metrics := by
  cases hstep with
  | @worker i error eff sh w hw hfd => simpa [SystemAct.byWorker] using h i
  | accept fd hpc hfd => cases side <;> rfl
  | reject fd hpc => cases side <;> rfl
  | _ => rfl

/-- What the transcripts say about a state of the process. -/
structure Transcribed (config : AppConfig) (m₀ : Metrics) (s : System n) (t : Fin n → Transcript) : Prop where
  consistent : s.Consistent config
  workers : ∀ i, (s.workers i).Transcribed (t i)
  counters : ∀ side, byteCounter side s.shared.metrics =
    byteCounter side m₀ + UInt64.ofNat (s.bytesIn t side)

theorem Transcribed.step {act : SystemAct n} {m₀ : Metrics} {t t' : Fin n → Transcript}
    (h : Transcribed config m₀ s t) (hact : NotifyOk s act) (hstep : Step config s act s')
    (ht : Transcribes s act s' t t') : Transcribed config m₀ s' t' := by
  -- a worker whose thread does not move keeps its transcript
  have hkeep : ∀ i, act.byWorker i = false →
      t' i = t i ∧ System.SameThread (s.workers i) (s'.workers i) := by
    intro i hi
    have hti := ht i
    rw [hi] at hti
    rcases hstep.worker_cases i with ⟨error, eff, sh, w, rfl, -⟩ | ⟨-, hsame⟩
    · simp [SystemAct.byWorker] at hi
    · exact ⟨hti, hsame⟩
  have hstay : ∀ i, act.byWorker i = false → (s'.workers i).Transcribed (t' i) ∧
      ∀ side, (s'.workers i).bytesIn (t' i) side = (s.workers i).bytesIn (t i) side := by
    intro i hi
    obtain ⟨hti, hsame⟩ := hkeep i hi
    have hw := h.workers i
    rw [hti]
    refine ⟨⟨hw.inRange, fun p r hp => hw.relays p r (hsame.heap ▸ hp), hw.sent, fun p hp => hw.unborn p ?_⟩,
      fun side => ?_⟩
    · exact hsame.nextSessionId ▸ hp
    · rw [Worker.bytesIn, Worker.bytesIn, hsame.nextSessionId]
  by_cases hmover : ∃ i, act.byWorker i = true
  · obtain ⟨i, hi⟩ := hmover
    have hothers : ∀ j, j ≠ i → act.byWorker j = false := by
      intro j hj
      cases act with
      | worker k error =>
        simp only [SystemAct.byWorker, beq_iff_eq] at hi
        have hkj : k ≠ j := fun he => hj (he.symm.trans hi)
        simp [SystemAct.byWorker, hkj]
      | acceptor failed => rfl
      | others => rfl
    have hti := ht i
    rw [hi] at hti
    rcases hstep.worker_cases i with ⟨error, eff, sh, w, -, hw, hsh, e, hwi⟩ | ⟨hother, -⟩
    · have htw : (s.workers i).Transcribes s.shared sh w (t i) (t' i) := by
        rw [hwi, hsh] at hti
        exact hti
      obtain ⟨hdone, hbytes⟩ := (h.workers i).step (h.consistent.workers i) (h.consistent.owned.fresh i) hw htw
      have hself : (s'.workers i).Transcribed (t' i) ∧
          ∀ side, (s'.workers i).bytesIn (t' i) side = w.bytesIn (t' i) side := by
        rw [hwi]
        exact ⟨⟨hdone.inRange, hdone.relays, hdone.sent, hdone.unborn⟩, fun _ => rfl⟩
      refine ⟨h.consistent.step hact hstep, fun j => ?_, fun side => ?_⟩
      · by_cases hj : j = i
        · rw [hj]
          exact hself.1
        · exact (hstay j (hothers j hj)).1
      · -- one summand changes, and the counter with it
        have hsplit : ∀ (u : System n) (r : Fin n → Transcript), u.bytesIn r side =
            (u.workers i).bytesIn (r i) side +
              ∑ j ∈ Finset.univ.erase i, (u.workers j).bytesIn (r j) side := fun u r =>
          (Finset.add_sum_erase Finset.univ (fun j => (u.workers j).bytesIn (r j) side)
            (Finset.mem_univ i)).symm
        have hrest : ∑ j ∈ Finset.univ.erase i, (s'.workers j).bytesIn (t' j) side =
            ∑ j ∈ Finset.univ.erase i, (s.workers j).bytesIn (t j) side := by
          refine Finset.sum_congr rfl fun j hj => ?_
          exact (hstay j (hothers j (Finset.ne_of_mem_erase hj))).2 side
        have hcount := h.counters side
        have hb := hbytes side
        rw [hsplit] at hcount
        rw [hsplit, hrest, hself.2 side, hsh]
        rw [UInt64.ofNat_add] at hcount ⊢
        rw [hcount] at hb
        have hcancel : byteCounter side sh.metrics = byteCounter side m₀ +
            UInt64.ofNat (∑ j ∈ Finset.univ.erase i, (s.workers j).bytesIn (t j) side) +
              UInt64.ofNat (w.bytesIn (t' i) side) := by
          apply (UInt64.add_left_inj (UInt64.ofNat ((s.workers i).bytesIn (t i) side))).mp
          rw [hb]
          ac_rfl
        rw [hcancel]
        ac_rfl
    · rw [byWorker_eq_false hother] at hi
      cases hi
  · have hnone : ∀ i, act.byWorker i = false := fun i => by
      cases hb : act.byWorker i with
      | false => rfl
      | true => exact absurd ⟨i, hb⟩ hmover
    refine ⟨h.consistent.step hact hstep, fun i => (hstay i (hnone i)).1, fun side => ?_⟩
    rw [hstep.bytes_others hnone side, h.counters side]
    congr 2
    exact (Finset.sum_congr rfl fun i _ => (hstay i (hnone i)).2 side).symm

theorem run_transcribed {s₀ : System n} {acts : List (SystemAct n)} {t : Fin n → Transcript} (hstart : Start s₀)
    (hrun : TranscribedRun config s₀ acts t s) : Transcribed config s₀.shared.metrics s t := by
  refine Run.invariant (I := fun x : (Fin n → Transcript) × System n =>
    Transcribed config s₀.shared.metrics x.2 x.1) ?_ ?_ hrun
  · rintro ⟨t, u⟩ act ⟨t', v⟩ h ⟨⟨hact, hstep⟩, ht⟩
    exact h.step hact hstep ht
  · refine ⟨hstart.consistent config, fun i => ?_, fun side => ?_⟩
    · obtain ⟨wakeFd, epollFd, hw⟩ := hstart.workers i
      show (s₀.workers i).Transcribed fun _ => []
      rw [hw]
      have hnone : ∀ {P : Prop} {p : Ref} {r : ProxySession}, (newWorker wakeFd epollFd).heap p = some r → P :=
        fun hr => by cases hr
      exact ⟨fun p c hc => (by cases hc), fun p r => hnone, fun p side => List.prefix_refl _, fun p _ => rfl⟩
    · simp [bytesIn, Worker.bytesIn, received]

/-- Across all workers a descriptor is one side of one session. -/
theorem Owned.fd_unique (h : s.Owned) {i j : Fin n} {p q : Ref} {side side' : Side} {fd : Fd}
    (hi : (s.workers i).fd? p side = some fd) (hj : (s.workers j).fd? q side' = some fd) :
    i = j ∧ p = q ∧ side = side' := by
  have hij : i = j := by
    by_contra hne
    have h1 := Worker.one_le_held (h.fresh i) hi
    have h2 := Worker.one_le_held (h.fresh j) hj
    have hopen := (h.fds fd).isOpen
    have hone : (s.isOpen fd).toNat ≤ 1 := Bool.toNat_le _
    have hclient := pair_le_total (Finset.mem_univ i) (Finset.mem_univ j) hne
      (fun i => (s.workers i).held (.client fd))
    have hupstream := pair_le_total (Finset.mem_univ i) (Finset.mem_univ j) hne
      (fun i => (s.workers i).held (.upstream fd))
    unfold owners at hopen
    cases side <;> cases side' <;> simp only [Side.resource] at h1 h2 <;> omega
  subst hij
  exact ⟨rfl, (h.exclusive i).inj hi hj⟩

end System

/-- **Sessions do not mix.** In every run of the process, with what every session has sent and received
written down: what a session sent to one peer is a prefix of what it received from the other peer of
the same session; while the session exists the rest is in its buffer, of at most `buffer_size` bytes; no
two sessions of any workers share a descriptor; and each byte counter of the process has grown by the sum
of what all sessions, past and present, received on that side. -/
theorem run_isolated {n : Nat} (config : AppConfig) {s₀ s : System n} {acts : List (SystemAct n)}
    {t : Fin n → Transcript} (hstart : System.Start s₀) (hrun : System.TranscribedRun config s₀ acts t s) :
    (∀ i p side, sent side.other (t i p) <+: received side (t i p)) ∧
    (∀ i p session, (s.workers i).heap p = some session → ∀ side,
      received side (t i p) = sent side.other (t i p) ++ (session.inbound side).readData ∧
      (session.inbound side).readData.length ≤ config.bufferSize) ∧
    (∀ i j p q side side' fd, (s.workers i).fd? p side = some fd → (s.workers j).fd? q side' = some fd →
      i = j ∧ p = q ∧ side = side') ∧
    (∀ side, byteCounter side s.shared.metrics =
      byteCounter side s₀.shared.metrics + UInt64.ofNat (s.bytesIn t side)) := by
  have h := System.run_transcribed hstart hrun
  refine ⟨fun i p side => (h.workers i).sent p side, fun i p session hp side => ⟨?_, ?_⟩,
    fun i j p q side side' fd hi hj => h.consistent.owned.fd_unique hi hj, h.counters⟩
  · exact (h.workers i).relays p session hp side
  · obtain ⟨hwf, hcap⟩ := (h.consistent.workers i).sized p session hp side
    exact hcap ▸ ByteBuffer.readData_length_le hwf

/-- The client of the small process has sent a byte, which waits for the connect. -/
theorem run_isolated_waiting : ∃ acts t s,
    System.TranscribedRun Demo.config Demo.start acts t s ∧
      received .client (t 0 1) = sent .upstream (t 0 1) ++ [65] := by
  have r := Demo.reaches_serving
  have r := r.worker (.waited [⟨6, EPOLLIN, some 1⟩] rfl (by decide) (by decide) (by simpa using ⟨_, rfl⟩))
    trivial
  have r := r.worker (.handled ⟨6, EPOLLIN, some 1⟩ [] 1 Demo.session 1
    ⟨none, none, [.ok [65], .error .eagain], []⟩ true _ rfl (by decide) rfl rfl rfl rfl (by decide)) trivial
  obtain ⟨acts, hrun⟩ := r.notifyOk
  obtain ⟨t, ht⟩ := System.exists_transcribedRun hrun
  have h := (run_isolated Demo.config Demo.start_start ht).2.1 0 1 _ rfl .client
  exact ⟨acts, t, _, ht, h.1⟩

end FluxGate
