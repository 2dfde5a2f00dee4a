import FluxGate.Ownership

/-!
# The state of one reactor

What a worker's maps, its epoll set, its heap and the local variables of its
thread have to do with each other, at every point of its loop. The steps that
touch none of these but the local variables are summed up in `Quiet`; the nine
ways to touch them are the constructors of `Touch`. Every invariant is shown
for a quiet step and for each touch.

`Indexed` is about the heap and the two maps; the module on the epoll set has
the invariants about it.
-/

namespace FluxGate

open Lib

/-! ## The buffers of a session -/

/-- Both buffers are well formed and of the configured size. -/
def ProxySession.Sized (cap : Nat) (s : ProxySession) : Prop :=
  ∀ side, (s.inbound side).WF ∧ (s.inbound side).capacity = cap

/-- The same inside a call, as long as the answers are in range. -/
def Env.Sized (cap : Nat) (env : Env) : Prop :=
  (∀ c ∈ env.log, c.InRange) → env.session.Sized cap

section Sized

variable {cap : Nat}

theorem ProxySession.Sized.flags {s s' : ProxySession} (h : s.Sized cap)
    (hs : ∀ side, s'.inbound side = s.inbound side) : s'.Sized cap := by
  intro side
  rw [hs side]
  exact h side

/-- One buffer is replaced. -/
theorem ProxySession.Sized.set {s s' : ProxySession} {b : ByteBuffer} (h : s.Sized cap) (side : Side)
    (hb : s'.inbound side = b) (ho : s'.inbound side.other = s.inbound side.other)
    (hwf : b.WF ∧ b.capacity = cap) : s'.Sized cap := by
  intro t
  rcases Side.eq_or_other side t with rfl | rfl
  · rw [hb]
    exact hwf
  · rw [ho]
    exact h side.other

theorem sized_makeWritable {env : Env} (h : env.session.Sized cap) (side : Side) :
    (env.makeWritable side).session.Sized cap :=
  h.set side (ProxySession.inbound_setInbound _ _ _) (ProxySession.inbound_setInbound_other _ _ _)
    ⟨ByteBuffer.makeWritable_wf (h side).1, by rw [ByteBuffer.makeWritable_capacity]; exact (h side).2⟩

theorem sized_stable (cap now : Nat) : Stable now (Env.Sized cap) where
  close _ h hr := (h hr).flags (fun t => ProxySession.inbound_markClosing _ t)
  readClosed _ side h hr := (h hr).flags (fun t => ProxySession.inbound_setReadClosed _ side t)
  writeShutdown _ side h hr := (h hr).flags (fun t => ProxySession.inbound_setWriteShutdown _ side t)
  connected _ h hr := (h hr).flags (fun t => by cases t <;> rfl)
  connectFailed _ h hr := h hr
  call _ _ _ h hr := h (fun d hd => hr d (List.mem_append_left _ hd))
  makeWritable _ side h hr := sized_makeWritable (h hr) side
  recv env side b data h hr := by
    have hlen : (b :: data).length ≤ env.room side :=
      hr (.recv side _ (.ok (b :: data))) (List.mem_append_right _ (List.mem_singleton_self _))
    have hw := sized_makeWritable (h fun d hd => hr d (List.mem_append_left _ hd)) side
    obtain ⟨hwf, hcap⟩ := hw side
    apply hw.set side
    · rw [Env.received, ProxySession.inbound_touch, ProxySession.inbound_setInbound]
    · rw [Env.received, ProxySession.inbound_touch, ProxySession.inbound_setInbound_other]
      rfl
    · refine ⟨ByteBuffer.append_wf hlen hwf, ?_⟩
      exact (ByteBuffer.append_capacity hlen hwf).trans hcap
  send env side n h hr := by
    have hs := h fun d hd => hr d (List.mem_append_left _ hd)
    obtain ⟨hwf, hcap⟩ := hs side.other
    have hn : n + 1 ≤ (env.session.outbound side).readData.length :=
      hr (.send side _ (.ok (n + 1))) (List.mem_append_right _ (List.mem_singleton_self _))
    rw [ProxySession.outbound, ByteBuffer.readData_length hwf] at hn
    apply hs.set side.other
    · rw [Env.sent, ProxySession.inbound_touch, ProxySession.inbound_setOutbound_other]
    · rw [Env.sent, ProxySession.inbound_touch, Side.other_other, ProxySession.inbound_setOutbound]
      rfl
    · refine ⟨ByteBuffer.consume_wf hn hwf, ?_⟩
      exact (ByteBuffer.consume_capacity _ _).trans hcap

theorem handleEvent_sized {env env' : Env} {fd : Fd} {events : EventMask} {now : Nat} {ans : Answers}
    {f : Flow} (h : env.handleEvent fd events now ans = (f, env'))
    (hrange : ∀ c ∈ env'.log, c.InRange) (hs : env.session.Sized cap) : env'.session.Sized cap := by
  have hk := (sized_stable cap now).handleEvent fd events ans env (fun _ => hs)
  rw [h] at hk
  exact hk hrange

theorem new_sized (id : Nat) (cfd ufd : Fd) (connecting : Bool) (b now : Nat) :
    (ProxySession.new id cfd ufd connecting b cap now).Sized cap := by
  intro side
  have hb : (ProxySession.new id cfd ufd connecting b cap now).inbound side = .new cap := by
    cases side <;> rfl
  rw [hb]
  exact ⟨ByteBuffer.new_wf cap, ByteBuffer.new_capacity cap⟩

end Sized

/-! ## What the program counter says -/

/-- A descriptor as what its owner holds it for. -/
def Side.resource (fd : Fd) : Side → Resource
  | .client => .client fd
  | .upstream => .upstream fd

/-- `registerFd` on a side, and what follows. -/
def Job.register (p : Ref) : Side → Job
  | .client => .registerClient p
  | .upstream => .registerUpstream p

def Job.afterRegister (p : Ref) : Side → Job
  | .client => .registerUpstream p
  | .upstream => .publish p

/-- What follows `modifyFd` on a side. -/
def Pc.modified (p : Ref) (events : List Event) : Side → Pc
  | .client => .modify p .upstream events
  | .upstream => .batch events

/-- The object `createSession` is building. -/
def Job.building : Job → List Ref
  | .registerClient p => [p]
  | .registerUpstream p => [p]
  | .publish p => [p]
  | .unregister p => [p]
  | _ => []

/-- The sides of it that are in the epoll set. -/
def Job.registered : Job → List (Ref × Side)
  | .registerUpstream p => [(p, .client)]
  | .publish p => [(p, .client), (p, .upstream)]
  | _ => []

/-- The sides of it that may be in the epoll set. -/
def Job.mayRegister : Job → List (Ref × Side)
  | .unregister p => [(p, .client)]
  | job => job.registered

def DrainCtx.events : DrainCtx → List Event
  | .batch rest => rest
  | .final => []

/-- The sessions a vector of this kind must have contained. -/
def CloseCtx.mustClose (s : ProxySession) : CloseCtx → Bool
  | .remaining => true
  | _ => s.closing

namespace Pc

/-- The events of the batch that are still to be looked at. -/
def events : Pc → List Event
  | .batch events => events
  | .modify _ _ events => events
  | .readWake events => events
  | .drainSwap ctx => ctx.events
  | .drain _ ctx => ctx.events
  | .create _ _ ctx => ctx.events
  | _ => []

def building : Pc → List Ref
  | .create job _ _ => job.building
  | _ => []

def registered : Pc → List (Ref × Side)
  | .create job _ _ => job.registered
  | _ => []

def mayRegister : Pc → List (Ref × Side)
  | .create job _ _ => job.mayRegister
  | _ => []

/-- The sides whose interest is about to be updated. -/
def stale : Pc → List (Ref × Side)
  | .modify p .client _ => [(p, .client), (p, .upstream)]
  | .modify p .upstream _ => [(p, .upstream)]
  | _ => []

/-- The references in local variables. -/
def refs : Pc → List Ref
  | .create job _ _ => job.building
  | .close _ refs ctx => refs ++ ctx.refs
  | .onClosed _ _ refs ctx => refs ++ ctx.refs
  | .sweepTest closing => closing
  | .drop refs ctx => refs ++ ctx.refs
  | .destroy _ refs ctx => refs ++ ctx.refs
  | _ => []

/-- The sessions still to be passed to `closeSession`. -/
def todo : Pc → List Ref
  | .close todo _ _ => todo
  | .onClosed _ todo _ _ => todo
  | _ => []

/-- Whether such a session, if it is published, must be waiting for `closeSession`. -/
def mustClose (s : ProxySession) : Pc → Bool
  | .loopTest => s.closing
  | .epollWait => s.closing
  | .sweepTest _ => s.closing
  | .close _ _ ctx => ctx.mustClose s
  | .onClosed _ _ _ ctx => ctx.mustClose s
  | .drop _ ctx => ctx.mustClose s
  | .destroy _ _ ctx => ctx.mustClose s
  | .stopped => true
  | _ => false

/-- Control moves on without a change of what the local variables mean. -/
structure Follows (pc pc' : Pc) : Prop where
  refs : pc'.refs = pc.refs
  building : pc'.building = pc.building
  registered : ∀ r ∈ pc'.registered, r ∈ pc.registered
  mayRegister : ∀ r ∈ pc.mayRegister, r ∈ pc'.mayRegister
  stale : pc'.stale = pc.stale
  events : ∀ e ∈ pc'.events, e ∈ pc.events
  todo : pc'.todo = pc.todo
  mustClose : ∀ s, pc'.mustClose s = true → pc.mustClose s = true

end Pc

namespace Worker

variable {config : AppConfig} {sh sh' : SharedState} {w w' : Worker} {error : Bool} {eff : FdEffect}

/-- The descriptor of one side of an object. -/
def fd? (w : Worker) (p : Ref) (side : Side) : Option Fd := (w.heap p).map (·.fdOf side)

/-- Only local variables change, or what other threads look at. -/
structure Quiet (w w' : Worker) : Prop where
  wakeFd : w'.wakeFd = w.wakeFd
  epoll : w'.epoll = w.epoll
  fdToSession : w'.fdToSession = w.fdToSession
  sessions : w'.sessions = w.sessions
  heap : w'.heap = w.heap
  activeSessions : w'.activeSessions = w.activeSessions
  nextSessionId : w'.nextSessionId = w.nextSessionId
  issued : w'.issued = w.issued
  /-- references are only copied and dropped where another one exists -/
  refs : ∀ p ∈ w'.pc.refs, p ∈ w.pc.refs ∨ w.published p
  kept : ∀ p ∈ w.pc.refs, p ∈ w'.pc.refs ∨ w.published p
  todo : (∀ p ∈ w.pc.todo, p ∈ w.pc.refs) → ∀ p ∈ w'.pc.todo, p ∈ w'.pc.refs
  building : ∀ p ∈ w'.pc.building, p ∈ w.pc.building
  registered : ∀ r ∈ w'.pc.registered, r ∈ w.pc.registered
  mayRegister : ∀ r ∈ w.pc.mayRegister, r ∈ w'.pc.mayRegister
  stale : ∀ r ∈ w.pc.stale, r ∈ w'.pc.stale
  /-- new events come from the epoll set -/
  events : ∀ e ∈ w'.pc.events, e ∈ w.pc.events ∨
    (w.pc = .epollWait ∧ ∃ mask, w.epoll e.fd = some (mask, e.who))
  swept : ∀ p s, w.published p → w.heap p = some s →
    (w.pc.mustClose s = true → p ∈ w.pc.todo) → w'.pc.mustClose s = true → p ∈ w'.pc.todo

/-- The changes of the heap, the maps and the epoll set. -/
inductive Touch (config : AppConfig) (w : Worker) : Worker → Prop
  | serve {e : Event} {events : List Event} {p : Ref} {s s' : ProxySession}
      (hpc : w.pc = .batch (e :: events)) (hp : w.heap p = some s) (hid : s'.id = s.id)
      (hfds : ∀ side, s'.fdOf side = s.fdOf side) (hsized : ∀ cap, s.Sized cap → s'.Sized cap) :
      Touch config w ((w.setSession p s').goto (.modify p .client events))
  | doom {events : List Event} {p : Ref} {s s' : ProxySession}
      (hpc : (∃ e, w.pc = .batch (e :: events)) ∨ ∃ side, w.pc = .modify p side events)
      (hp : w.heap p = some s) (hid : s'.id = s.id)
      (hfds : ∀ side, s'.fdOf side = s.fdOf side) (hsized : ∀ cap, s.Sized cap → s'.Sized cap)
      (hclosing : s'.closing = true) :
      Touch config w ((w.setSession p s').goto (.batch events))
  | modify {events : List Event} {p : Ref} {s : ProxySession} (side : Side)
      (hpc : w.pc = .modify p side events) (hp : w.heap p = some s)
      (hreg : w.epoll (s.fdOf side) ≠ none) :
      Touch config w ((w.setInterest p (s.fdOf side) (s.events side)).goto (Pc.modified p events side))
  | register {p : Ref} {s : ProxySession} (side : Side) {clients : List Fd} {ctx : DrainCtx}
      (hpc : w.pc = .create (Job.register p side) clients ctx) (hp : w.heap p = some s) :
      Touch config w ((w.setInterest p (s.fdOf side) (s.events side)).goto
        (.create (Job.afterRegister p side) clients ctx))
  | construct {c u : Fd} {b : Nat} {connecting : Bool} {clients : List Fd} {ctx : DrainCtx} {now : Nat}
      (hpc : w.pc = .create (.construct c b u connecting) clients ctx) :
      Touch config w ((w.construct c u connecting b config.bufferSize now).goto
        (.create (.registerClient w.nextSessionId) clients ctx))
  | publish {p : Ref} {s : ProxySession} {clients : List Fd} {ctx : DrainCtx}
      (hpc : w.pc = .create (.publish p) clients ctx) (hp : w.heap p = some s) :
      Touch config w ((w.publish p s).goto (.drain clients ctx))
  | unregister {p : Ref} {s : ProxySession} {clients : List Fd} {ctx : DrainCtx}
      (hpc : w.pc = .create (.unregister p) clients ctx) (hp : w.heap p = some s) :
      Touch config w ((((w.forget s.clientFd).forget s.upstreamFd).free p).goto
        (.create (.cleanup (destructor s)) clients ctx))
  | close {p : Ref} {s : ProxySession} {todo refs : List Ref} {ctx : CloseCtx}
      (hpc : w.pc = .close (p :: todo) refs ctx) (hp : w.heap p = some s)
      (hfound : s.id ∈ w.sessions.map Prod.fst) :
      Touch config w ((w.unpublish s).goto (.onClosed none todo refs ctx))
  | free {p : Ref} {s : ProxySession} {refs : List Ref} {ctx : CloseCtx}
      (hpc : w.pc = .drop (p :: refs) ctx) (hp : w.heap p = some s)
      (hlast : w.referenced p s (refs ++ ctx.refs) = false) :
      Touch config w ((w.free p).goto (.destroy (destructor s) refs ctx))

/-- The heap, the two maps and the counter of sessions. -/
structure Indexed (w : Worker) : Prop where
  named : ∀ p s, w.heap p = some s → s.id = p
  keyed : ∀ e ∈ w.sessions, e.1 = e.2
  alive : ∀ p, w.published p → w.heap p ≠ none
  nodup : (w.sessions.map Prod.snd).Nodup
  index : ∀ fd p, w.fdToSession fd = some p ↔ w.published p ∧ ∃ side, w.fd? p side = some fd
  active : w.activeSessions = w.sessions.length
  refs : ∀ p ∈ w.pc.refs, w.heap p ≠ none
  reach : ∀ p, w.heap p ≠ none → w.published p ∨ p ∈ w.pc.refs
  todo : ∀ p ∈ w.pc.todo, p ∈ w.pc.refs
  building : ∀ p ∈ w.pc.building, ¬ w.published p
  issuedNodup : w.issued.Nodup
  issuedLt : ∀ k ∈ w.issued, k < w.nextSessionId
  issued : ∀ p, w.heap p ≠ none → p ∈ w.issued

/-- A key of `sessions_` is a published object. -/
theorem Indexed.published_iff (h : w.Indexed) (p : Ref) :
    p ∈ w.sessions.map Prod.fst ↔ w.published p := by
  have hmap : w.sessions.map Prod.fst = w.sessions.map Prod.snd :=
    List.map_congr_left fun e he => h.keyed e he
  rw [hmap]
  rfl

/-- The other references to an object are local ones or those of the maps. -/
theorem Indexed.referenced (h : w.Indexed) {p : Ref} {s : ProxySession} {refs : List Ref}
    (href : w.referenced p s refs = true) : w.published p ∨ p ∈ refs := by
  simp only [Worker.referenced, Bool.or_eq_true, decide_eq_true_eq, beq_iff_eq] at href
  rcases href with ((hpub | hfd) | hfd) | href
  · exact Or.inl hpub
  · exact Or.inl ((h.index _ _).mp hfd).1
  · exact Or.inl ((h.index _ _).mp hfd).1
  · exact Or.inr href

theorem quiet_of_follows {pc : Pc} {queue taken : List Fd} {count sweep : Nat} (h : w.pc.Follows pc) :
    Quiet w { w with queue := queue, taken := taken, wakeCount := count, lastSweep := sweep, pc := pc } where
  wakeFd := rfl
  epoll := rfl
  fdToSession := rfl
  sessions := rfl
  heap := rfl
  activeSessions := rfl
  nextSessionId := rfl
  issued := rfl
  refs _ hp := Or.inl (h.refs ▸ hp)
  kept _ hp := Or.inl (h.refs.symm ▸ hp)
  todo hold p hp := h.refs.symm ▸ hold p (h.todo ▸ hp)
  building _ hp := h.building ▸ hp
  registered := h.registered
  mayRegister := h.mayRegister
  stale _ hr := h.stale.symm ▸ hr
  events e he := Or.inl (h.events e he)
  swept _ s _ _ hold hmust := h.todo.symm ▸ hold (h.mustClose s hmust)

theorem mem_select {f : ProxySession → Bool} {p : Ref} {s : ProxySession} (hp : w.heap p = some s) :
    p ∈ w.select f ↔ w.published p ∧ f s = true := by
  simp [select, published, hp]

/-- The tail of a batch. -/
theorem follows_tail (e : Event) {events : List Event} {pc : Pc} (hpc : w.pc = .batch (e :: events))
    (h : Pc.Follows (.batch events) pc) : w.pc.Follows pc := by
  rw [hpc]
  exact ⟨h.refs, h.building, h.registered, h.mayRegister, h.stale,
    fun d hd => List.mem_cons_of_mem e (h.events d hd), h.todo, h.mustClose⟩

/-- Steps away from `createSession` and `updateInterests`. -/
theorem quiet_plain {pc : Pc} {sweep : Nat} (hbuild : pc.building = []) (hreg : pc.registered = [])
    (hmay : w.pc.mayRegister = []) (hstale : w.pc.stale = [])
    (hrefs : ∀ p ∈ pc.refs, p ∈ w.pc.refs ∨ w.published p)
    (hkept : ∀ p ∈ w.pc.refs, p ∈ pc.refs ∨ w.published p)
    (htodo : (∀ p ∈ w.pc.todo, p ∈ w.pc.refs) → ∀ p ∈ pc.todo, p ∈ pc.refs)
    (hevents : ∀ e ∈ pc.events, w.pc = .epollWait ∧ ∃ mask, w.epoll e.fd = some (mask, e.who))
    (hswept : ∀ p s, w.published p → w.heap p = some s →
      (w.pc.mustClose s = true → p ∈ w.pc.todo) → pc.mustClose s = true → p ∈ pc.todo) :
    Quiet w { w with lastSweep := sweep, pc := pc } where
  wakeFd := rfl
  epoll := rfl
  fdToSession := rfl
  sessions := rfl
  heap := rfl
  activeSessions := rfl
  nextSessionId := rfl
  issued := rfl
  refs := hrefs
  kept := hkept
  todo := htodo
  building p hp := by
    rw [show pc.building = [] from hbuild] at hp
    cases hp
  registered r hr := by
    rw [show pc.registered = [] from hreg] at hr
    cases hr
  mayRegister r hr := by
    rw [hmay] at hr
    cases hr
  stale r hr := by
    rw [hstale] at hr
    cases hr
  events e he := Or.inr (hevents e he)
  swept := hswept

/-- A vector of references to published objects is made, to be closed. -/
theorem quiet_of_collect {refs : List Ref} {ctx : CloseCtx} {sweep : Nat}
    (hmay : w.pc.mayRegister = []) (hstale : w.pc.stale = []) (hctx : ctx.refs = w.pc.refs)
    (hrefs : ∀ p ∈ refs, w.published p)
    (hswept : ∀ p s, w.published p → w.heap p = some s →
      (w.pc.mustClose s = true → p ∈ w.pc.todo) → ctx.mustClose s = true → p ∈ refs) :
    Quiet w { w with lastSweep := sweep, pc := .close refs refs ctx } := by
  refine quiet_plain rfl rfl hmay hstale (fun p hp => ?_) (fun p hp => ?_)
    (fun _ p hp => List.mem_append_left _ hp) (fun e he => by cases he) hswept
  · rcases List.mem_append.mp hp with hp | hp
    · exact Or.inr (hrefs p hp)
    · exact Or.inl (hctx ▸ hp)
  · exact Or.inl (List.mem_append_right _ (hctx.symm ▸ hp))

/-- **What a step can do**, as far as the reactor's data is concerned. -/
theorem Step.quiet_or_touch (hstep : Step config sh w error eff sh' w') (hi : w.Indexed) :
    Quiet w w' ∨ Touch config w w' := by
  cases hstep
  case handled e events p s now ans result env hpc hfd hfound hp hclosing hcall hrange =>
    have hk := handleEvent_kept hcall
    have hfds : ∀ side, env.session.fdOf side = s.fdOf side := by
      intro side
      cases side with
      | client => exact hk.clientFd
      | upstream => exact hk.upstreamFd
    have hsized : ∀ cap, s.Sized cap → env.session.Sized cap := fun cap h =>
      handleEvent_sized hcall hrange h
    cases result with
    | true => exact Or.inr (.serve hpc hp hk.id hfds hsized)
    | false =>
      refine Or.inr (.doom (Or.inl ⟨e, hpc⟩) hp hk.id ?_ ?_ rfl)
      · intro side
        rw [← hfds side]
        cases side <;> rfl
      · exact fun cap h => (hsized cap h).flags (fun t => ProxySession.inbound_markClosing _ t)
  case modifiedClient p s events hpc hp hreg => exact Or.inr (.modify .client hpc hp hreg)
  case modifiedUpstream p s events hpc hp hreg => exact Or.inr (.modify .upstream hpc hp hreg)
  case modifyFailed p s side events hpc hp =>
    exact Or.inr (.doom (Or.inr ⟨side, hpc⟩) hp rfl (fun t => by cases t <;> rfl)
      (fun cap h => h.flags (fun t => ProxySession.inbound_markClosing s t)) rfl)
  case registerClient p s clients ctx hpc hp hreg => exact Or.inr (.register .client hpc hp)
  case registerUpstream p s clients ctx hpc hp hreg => exact Or.inr (.register .upstream hpc hp)
  case construct c b u connecting now clients ctx hpc => exact Or.inr (.construct hpc)
  case publish p s clients ctx hpc hp => exact Or.inr (.publish hpc hp)
  case unregister p s clients ctx hpc hp => exact Or.inr (.unregister hpc hp)
  case closeSession p s todo refs ctx hpc hp hfound => exact Or.inr (.close hpc hp hfound)
  case dropLast p s refs ctx hpc hp hlast => exact Or.inr (.free hpc hp hlast)
  -- the steps that look at the maps
  case waited events hpc hlen hfds hreg =>
    refine Or.inl (quiet_plain rfl rfl (by rw [hpc]; rfl) (by rw [hpc]; rfl) (fun p hp => by cases hp)
      (fun p hp => ?_) (fun _ p hp => by cases hp) (fun e he => ⟨hpc, hreg e he⟩) (fun p s _ _ _ hmust => by cases hmust))
    rw [hpc] at hp
    cases hp
  case collect refs hpc hrefs =>
    refine Or.inl (quiet_of_collect (by rw [hpc]; rfl) (by rw [hpc]; rfl) (by rw [hpc]; rfl)
      (fun p hp => ?_) (fun p s hpub hp _ hmust => ?_))
    · exact (List.mem_filter.mp (hrefs.mem_iff.mp hp)).1
    · exact hrefs.mem_iff.mpr ((mem_select hp).mpr ⟨hpub, hmust⟩)
  case sweep closing refs now sweepNow hpc hnow hrefs =>
    refine Or.inl (quiet_of_collect (by rw [hpc]; rfl) (by rw [hpc]; rfl) (by rw [hpc]; rfl)
      (fun p hp => ?_) (fun p s hpub hp hold hmust => ?_))
    · exact (List.mem_filter.mp (hrefs.mem_iff.mp hp)).1
    · rw [hpc] at hold
      cases hold hmust
  case finalCollect refs hpc hrefs =>
    exact Or.inl (quiet_of_collect (by rw [hpc]; rfl) (by rw [hpc]; rfl) (by rw [hpc]; rfl)
      (fun p hp => hrefs.mem_iff.mp hp) (fun p s hpub hp _ hmust => hrefs.mem_iff.mpr hpub))
  case closeMissing p s todo refs ctx hpc hp hfound =>
    refine Or.inl (quiet_plain rfl rfl (by rw [hpc]; rfl) (by rw [hpc]; rfl) (fun q hq => ?_)
      (fun q hq => ?_) (fun hold q hq => ?_) (fun e he => by cases he)
      (fun q t hpub hq hold hmust => ?_))
    · rw [hpc]
      exact Or.inl hq
    · rw [hpc] at hq
      exact Or.inl hq
    · rw [hpc] at hold
      exact hold q (List.mem_cons_of_mem p hq)
    · rw [hpc] at hold
      rcases List.mem_cons.mp (hold hmust) with rfl | hq'
      · rw [hi.named _ _ hp, hi.published_iff] at hfound
        exact absurd hpub hfound
      · exact hq'
  case dropShared p s refs ctx hpc hp hshared =>
    refine Or.inl (quiet_plain rfl rfl (by rw [hpc]; rfl) (by rw [hpc]; rfl) (fun q hq => ?_)
      (fun q hq => ?_) (fun _ q hq => by cases hq) (fun e he => by cases he)
      (fun q t hpub hq hold hmust => ?_))
    · rw [hpc]
      exact Or.inl (List.mem_cons_of_mem p hq)
    · rw [hpc] at hq
      rcases List.mem_cons.mp hq with rfl | hq
      · exact (hi.referenced hshared).symm
      · exact Or.inl hq
    · rw [hpc] at hold
      exact hold hmust
  -- the batch goes on
  case wake e events hpc hfd =>
    exact Or.inl (quiet_of_follows (follows_tail e hpc
      ⟨rfl, rfl, fun _ h => h, fun _ h => h, rfl, fun _ h => h, rfl, fun _ h => h⟩))
  case unknown e events hpc hfd hfound =>
    exact Or.inl (quiet_of_follows (follows_tail e hpc
      ⟨rfl, rfl, fun _ h => h, fun _ h => h, rfl, fun _ h => h, rfl, fun _ h => h⟩))
  case skipped e events p s hpc hfd hfound hp hclosing =>
    exact Or.inl (quiet_of_follows (follows_tail e hpc
      ⟨rfl, rfl, fun _ h => h, fun _ h => h, rfl, fun _ h => h, rfl, fun _ h => h⟩))
  -- the loop is left
  case leave hpc hrun =>
    refine Or.inl (quiet_of_follows ?_)
    rw [hpc]
    exact ⟨rfl, rfl, fun _ h => h, fun _ h => h, rfl, fun _ h => h, rfl, fun _ h => (by cases h)⟩
  case waitError hpc =>
    refine Or.inl (quiet_of_follows ?_)
    rw [hpc]
    exact ⟨rfl, rfl, fun _ h => h, fun _ h => h, rfl, fun _ h => h, rfl, fun _ h => (by cases h)⟩
  -- a registration failed
  case registerClientFailed p clients ctx hpc =>
    refine Or.inl (quiet_of_follows ?_)
    rw [hpc]
    exact ⟨rfl, rfl, fun _ h => h, fun _ h => (by cases h), rfl, fun _ h => h, rfl, fun _ h => h⟩
  case registerUpstreamFailed p clients ctx hpc =>
    refine Or.inl (quiet_of_follows ?_)
    rw [hpc]
    exact ⟨rfl, rfl, fun _ h => (by cases h), fun _ h => h, rfl, fun _ h => h, rfl, fun _ h => h⟩
  -- where control goes depends on the context
  case drained ctx hpc =>
    refine Or.inl (quiet_of_follows ?_)
    rw [hpc]
    cases ctx <;> exact ⟨rfl, rfl, fun _ h => h, fun _ h => h, rfl, fun _ h => h, rfl, fun _ h => h⟩
  case allClosed refs ctx hpc =>
    refine Or.inl (quiet_of_follows ?_)
    rw [hpc]
    cases ctx <;> exact ⟨by simp [CloseCtx.closed, Pc.refs, CloseCtx.refs], rfl, fun _ h => h,
      fun _ h => h, rfl, fun _ h => h, rfl, fun _ h => h⟩
  case sweepSoon closing now hpc hnow =>
    refine Or.inl (quiet_of_follows ?_)
    rw [hpc]
    exact ⟨List.append_nil _, rfl, fun _ h => h, fun _ h => h, rfl, fun _ h => h, rfl, fun _ h => h⟩
  case dropped ctx hpc =>
    refine Or.inl (quiet_of_follows ?_)
    rw [hpc]
    cases ctx <;> exact ⟨by simp [CloseCtx.dropped, Pc.refs, CloseCtx.refs], rfl, fun _ h => h,
      fun _ h => h, rfl, fun _ h => h, rfl, fun _ h => h⟩
  all_goals
    refine Or.inl (quiet_of_follows ?_)
    rw [‹w.pc = _›]
    exact ⟨rfl, rfl, fun _ h => h, fun _ h => h, rfl, fun _ h => h, rfl, fun _ h => h⟩

/-! ## No descriptor belongs to two objects -/

/-- Every descriptor is one side of one object, or the eventfd. -/
structure Exclusive (w : Worker) : Prop where
  inj : ∀ {p q side t fd}, w.fd? p side = some fd → w.fd? q t = some fd → p = q ∧ side = t
  notWake : ∀ {p side fd}, w.fd? p side = some fd → fd ≠ w.wakeFd

theorem one_le_heldBy {p : Ref} {side : Side} {fd : Fd} (h : w.fd? p side = some fd) :
    1 ≤ heldBy (side.resource fd) (w.heap p) := by
  obtain ⟨s, hp, rfl⟩ := Option.map_eq_some_iff.mp h
  rw [hp]
  apply List.one_le_count_iff.mpr
  cases side <;> simp [ProxySession.holds, Side.resource, ProxySession.fdOf]

theorem fd?_lt (hf : w.Fresh) {p : Ref} {side : Side} {fd : Fd} (h : w.fd? p side = some fd) :
    p < w.nextSessionId := by
  obtain ⟨s, hp, -⟩ := Option.map_eq_some_iff.mp h
  exact hf.lt hp

theorem one_le_held (hf : w.Fresh) {p : Ref} {side : Side} {fd : Fd} (h : w.fd? p side = some fd) :
    1 ≤ w.held (side.resource fd) := by
  have hle := le_total (Finset.mem_range.mpr (fd?_lt hf h))
    (fun p => heldBy (side.resource fd) (w.heap p))
  have h1 := one_le_heldBy h
  unfold held
  omega

theorem two_le_held (hf : w.Fresh) {p q : Ref} {side : Side} {fd : Fd} (hne : p ≠ q)
    (h : w.fd? p side = some fd) (h' : w.fd? q side = some fd) : 2 ≤ w.held (side.resource fd) := by
  have hle := pair_le_total (Finset.mem_range.mpr (fd?_lt hf h)) (Finset.mem_range.mpr (fd?_lt hf h'))
    hne (fun p => heldBy (side.resource fd) (w.heap p))
  have h1 := one_le_heldBy h
  have h2 := one_le_heldBy h'
  unfold held
  omega

theorem exclusive_of_count (hf : w.Fresh)
    (hcount : ∀ fd, w.held (.client fd) + w.held (.upstream fd) + [w.wakeFd].count fd ≤ 1) :
    w.Exclusive where
  inj {p q side t fd} h h' := by
    have hc := hcount fd
    have h1 := one_le_held hf h
    have h2 := one_le_held hf h'
    have hside : side = t := by
      cases side <;> cases t <;> simp only [Side.resource] at h1 h2 <;> first | rfl | omega
    subst hside
    refine ⟨?_, rfl⟩
    by_contra hne
    have h3 := two_le_held hf hne h h'
    cases side <;> simp only [Side.resource] at h3 <;> omega
  notWake {p side fd} h he := by
    subst he
    have hc := hcount w.wakeFd
    have h1 := one_le_held hf h
    rw [List.count_singleton_self] at hc
    cases side <;> simp only [Side.resource] at h1 <;> omega

/-! ## The heap and the maps -/

section Heap

variable {p q : Ref} {s s' : ProxySession} {side : Side}

theorem fd?_congr (h : w'.heap = w.heap) : w'.fd? = w.fd? := by
  funext q side
  rw [fd?, h, fd?]

theorem fd?_of_heap (hp : w.heap p = some s) (side : Side) : w.fd? p side = some (s.fdOf side) := by
  simp [fd?, hp]

theorem fdOf_of_fd? {fd : Fd} (hp : w.heap p = some s) (h : w.fd? p side = some fd) :
    s.fdOf side = fd := by
  rw [fd?_of_heap hp] at h
  exact Option.some.inj h

theorem fdOf_ne {fd : Fd} (hp : w.heap p = some s) (h : ¬ ∃ side, w.fd? p side = some fd) (side : Side) :
    s.fdOf side ≠ fd := by
  intro he
  exact h ⟨side, by rw [fd?_of_heap hp, he]⟩

/-- A map is set at both descriptors of a session. -/
theorem update_both {α : Type} {f : Fd → α} {v : α} {fd : Fd} (h : s.fdOf side = fd) :
    Function.update (Function.update f s.clientFd v) s.upstreamFd v fd = v := by
  subst h
  by_cases hu : s.fdOf side = s.upstreamFd
  · rw [hu, Function.update_self]
  · cases side with
    | client => rw [Function.update_of_ne hu, ProxySession.fdOf, Function.update_self]
    | upstream => exact absurd rfl hu

theorem update_both_of_ne {α : Type} {f : Fd → α} {v : α} {fd : Fd} (h : ∀ side, s.fdOf side ≠ fd) :
    Function.update (Function.update f s.clientFd v) s.upstreamFd v fd = f fd := by
  have hc : fd ≠ s.clientFd := (h .client).symm
  have hu : fd ≠ s.upstreamFd := (h .upstream).symm
  rw [Function.update_of_ne hu, Function.update_of_ne hc]

theorem fd?_setSession (hp : w.heap p = some s) (hfds : ∀ side, s'.fdOf side = s.fdOf side)
    (q : Ref) (side : Side) : (w.setSession p s').fd? q side = w.fd? q side := by
  by_cases hq : q = p
  · subst hq
    simp [fd?, setSession, hp, hfds side]
  · simp [fd?, setSession, hq]

theorem heap_setSession (hp : w.heap p = some s) (s' : ProxySession) (q : Ref) :
    (w.setSession p s').heap q ≠ none ↔ w.heap q ≠ none := by
  by_cases hq : q = p
  · subst hq
    simp [setSession, hp]
  · simp [setSession, hq]

theorem fd?_free (hq : q ≠ p) (side : Side) : (w.free p).fd? q side = w.fd? q side := by
  simp [fd?, free, hq]

theorem heap_free (p q : Ref) : (w.free p).heap q ≠ none ↔ q ≠ p ∧ w.heap q ≠ none := by
  by_cases hq : q = p
  · subst hq
    simp [free]
  · simp [free, hq]

end Heap

theorem Indexed.quiet (h : w.Indexed) (hq : Quiet w w') : w'.Indexed where
  named p s hp := h.named p s (hq.heap ▸ hp)
  keyed e he := h.keyed e (hq.sessions ▸ he)
  alive p hp := by
    rw [hq.heap]
    exact h.alive p (by rwa [published, ← hq.sessions])
  nodup := by
    rw [hq.sessions]
    exact h.nodup
  index fd p := by
    rw [hq.fdToSession, published, hq.sessions, fd?_congr hq.heap]
    exact h.index fd p
  active := by
    rw [hq.activeSessions, hq.sessions]
    exact h.active
  refs p hp := by
    rw [hq.heap]
    rcases hq.refs p hp with hp | hp
    · exact h.refs p hp
    · exact h.alive p hp
  reach p hp := by
    rw [hq.heap] at hp
    rw [published, hq.sessions]
    rcases h.reach p hp with hp | hp
    · exact Or.inl hp
    · exact (hq.kept p hp).symm
  todo := hq.todo h.todo
  building p hp := by
    rw [published, hq.sessions]
    exact h.building p (hq.building p hp)
  issuedNodup := by
    rw [hq.issued]
    exact h.issuedNodup
  issuedLt k hk := by
    rw [hq.nextSessionId]
    exact h.issuedLt k (hq.issued ▸ hk)
  issued p hp := by
    rw [hq.issued]
    exact h.issued p (hq.heap ▸ hp)

/-- The session of an object changes, with the same id and descriptors. -/
theorem Indexed.session (h : w.Indexed) {p : Ref} {s s' : ProxySession} {pc : Pc}
    (hp : w.heap p = some s) (hid : s'.id = s.id) (hfds : ∀ side, s'.fdOf side = s.fdOf side)
    (hpc : w.pc.refs = []) (hrefs : pc.refs = []) (htodo : pc.todo = []) (hbuild : pc.building = []) :
    ((w.setSession p s').goto pc).Indexed where
  named q t hq := by
    by_cases hqp : q = p
    · subst hqp
      have ht : s' = t := by simpa [goto, setSession] using hq
      rw [← ht, hid]
      exact h.named q s hp
    · exact h.named q t (by simpa [goto, setSession, hqp] using hq)
  keyed := h.keyed
  alive q hq := (heap_setSession hp s' q).mpr (h.alive q hq)
  nodup := h.nodup
  index fd q := by
    have hfd : ∀ side, ((w.setSession p s').goto pc).fd? q side = w.fd? q side :=
      fd?_setSession hp hfds q
    simp only [hfd]
    exact h.index fd q
  active := h.active
  refs q hq := by
    rw [goto, hrefs] at hq
    cases hq
  reach q hq := by
    rcases h.reach q ((heap_setSession hp s' q).mp hq) with hpub | href
    · exact Or.inl hpub
    · rw [hpc] at href
      cases href
  todo q hq := by
    rw [goto, htodo] at hq
    cases hq
  building q hq := by
    rw [goto, hbuild] at hq
    cases hq
  issuedNodup := h.issuedNodup
  issuedLt := h.issuedLt
  issued q hq := h.issued q ((heap_setSession hp s' q).mp hq)

/-- The maps and the heap do not depend on the epoll set. -/
theorem Indexed.epoll (h : w.Indexed) {e : Fd → Option (EventMask × Option Ref)} {pc : Pc}
    (hrefs : pc.refs = w.pc.refs) (htodo : pc.todo = []) (hbuild : pc.building = w.pc.building) :
    ({ w with epoll := e, pc := pc } : Worker).Indexed where
  named := h.named
  keyed := h.keyed
  alive := h.alive
  nodup := h.nodup
  index := h.index
  active := h.active
  refs q hq := h.refs q (hrefs ▸ hq)
  reach q hq := by
    rw [show (_ : Pc).refs = w.pc.refs from hrefs]
    exact h.reach q hq
  todo q hq := by
    rw [show (_ : Pc).todo = [] from htodo] at hq
    cases hq
  building q hq := h.building q (hbuild ▸ hq)
  issuedNodup := h.issuedNodup
  issuedLt := h.issuedLt
  issued := h.issued

theorem Indexed.construct (h : w.Indexed) (hf : w.Fresh) {c u : Fd} {b size now : Nat}
    {connecting : Bool} {clients : List Fd} {ctx : DrainCtx} (hpc : w.pc.refs = []) :
    ((w.construct c u connecting b size now).goto
      (.create (.registerClient w.nextSessionId) clients ctx)).Indexed := by
  have hnew : w.heap w.nextSessionId = none := hf _ (Nat.le_refl _)
  have hpub : ∀ q, w.published q → q ≠ w.nextSessionId := by
    intro q hq he
    exact h.alive q hq (he ▸ hnew)
  have hheap : ∀ q, q ≠ w.nextSessionId →
      (w.construct c u connecting b size now).heap q = w.heap q := fun q hq =>
    Function.update_of_ne hq _ _
  constructor
  case named =>
    intro q t hq
    by_cases hqn : q = w.nextSessionId
    · subst hqn
      have ht : ProxySession.new w.nextSessionId c u connecting b size now = t := by
        simpa [goto, Worker.construct] using hq
      rw [← ht]
      rfl
    · exact h.named q t ((hheap q hqn).symm.trans hq)
  case keyed => exact h.keyed
  case alive =>
    intro q hq
    show (w.construct c u connecting b size now).heap q ≠ none
    rw [hheap q (hpub q hq)]
    exact h.alive q hq
  case nodup => exact h.nodup
  case index =>
    intro fd q
    show w.fdToSession fd = some q ↔
      w.published q ∧ ∃ side, (w.construct c u connecting b size now).fd? q side = some fd
    rw [h.index fd q]
    apply and_congr_right
    intro hq
    simp only [fd?, hheap q (hpub q hq)]
  case active => exact h.active
  case refs =>
    intro q hq
    obtain rfl := List.mem_singleton.mp hq
    simp [goto, Worker.construct]
  case reach =>
    intro q hq
    by_cases hqn : q = w.nextSessionId
    · exact Or.inr (List.mem_singleton.mpr hqn)
    · have hq' : w.heap q ≠ none := hheap q hqn ▸ hq
      rcases h.reach q hq' with hq' | hq'
      · exact Or.inl hq'
      · rw [hpc] at hq'
        cases hq'
  case todo => exact fun q hq => by cases hq
  case building =>
    intro q hq hq'
    exact hpub q hq' (List.mem_singleton.mp hq)
  case issuedNodup =>
    apply List.Nodup.append h.issuedNodup (List.nodup_singleton _)
    intro k hk hk'
    rw [List.mem_singleton.mp hk'] at hk
    exact absurd (h.issuedLt _ hk) (Nat.lt_irrefl _)
  case issuedLt =>
    intro k hk
    rcases List.mem_append.mp hk with hk | hk
    · exact Nat.lt_succ_of_lt (h.issuedLt k hk)
    · rw [List.mem_singleton.mp hk]
      exact Nat.lt_succ_self _
  case issued =>
    intro q hq
    by_cases hqn : q = w.nextSessionId
    · exact List.mem_append_right _ (List.mem_singleton.mpr hqn)
    · have hq' : w.heap q ≠ none := hheap q hqn ▸ hq
      exact List.mem_append_left _ (h.issued q hq')

/-- An object that is published nowhere and referred to nowhere else is destroyed. -/
theorem Indexed.free (h : w.Indexed) {p : Ref} {pc : Pc} {e : Fd → Option (EventMask × Option Ref)}
    (hpub : ¬ w.published p) (hrefs : ∀ q, q ≠ p → (q ∈ w.pc.refs ↔ q ∈ pc.refs)) (hp : p ∉ pc.refs)
    (htodo : pc.todo = []) (hbuild : pc.building = []) :
    (({ w with epoll := e } : Worker).free p |>.goto pc).Indexed := by
  have hne : ∀ q, w.published q → q ≠ p := fun q hq he => hpub (he ▸ hq)
  have hheap : ∀ q, (({ w with epoll := e } : Worker).free p |>.goto pc).heap q ≠ none ↔
      q ≠ p ∧ w.heap q ≠ none := heap_free (w := w) p
  constructor
  case named =>
    intro q t hq
    have hqp : q ≠ p := ((hheap q).mp (by simp [hq])).1
    exact h.named q t (by simpa [goto, Worker.free, hqp] using hq)
  case keyed => exact h.keyed
  case alive => exact fun q hq => (hheap q).mpr ⟨hne q hq, h.alive q hq⟩
  case nodup => exact h.nodup
  case index =>
    intro fd q
    show w.fdToSession fd = some q ↔ w.published q ∧ ∃ side, (w.free p).fd? q side = some fd
    rw [h.index fd q]
    apply and_congr_right
    intro hq
    simp only [fd?_free (hne q hq)]
  case active => exact h.active
  case refs =>
    intro q hq
    have hqp : q ≠ p := fun he => hp (he ▸ hq)
    exact (hheap q).mpr ⟨hqp, h.refs q ((hrefs q hqp).mpr hq)⟩
  case reach =>
    intro q hq
    obtain ⟨hqp, hq⟩ := (hheap q).mp hq
    exact (h.reach q hq).imp id (hrefs q hqp).mp
  case todo =>
    intro q hq
    rw [goto, htodo] at hq
    cases hq
  case building =>
    intro q hq
    rw [goto, hbuild] at hq
    cases hq
  case issuedNodup => exact h.issuedNodup
  case issuedLt => exact h.issuedLt
  case issued => exact fun q hq => h.issued q ((hheap q).mp hq).2

section Publish

variable {p : Ref} {s : ProxySession}

/-- The entry is new. -/
theorem Indexed.publish_sessions (h : w.Indexed) (hp : w.heap p = some s) (hnew : ¬ w.published p) :
    (w.publish p s).sessions = (p, p) :: w.sessions := by
  have hid : s.id = p := h.named p s hp
  have hfilter : w.sessions.filter (fun e => e.1 ≠ s.id) = w.sessions := by
    apply List.filter_eq_self.mpr
    intro e he
    apply decide_eq_true
    intro hes
    apply hnew
    rw [← h.published_iff, ← hid, ← hes]
    exact List.mem_map_of_mem he
  show (s.id, p) :: w.sessions.filter (fun e => e.1 ≠ s.id) = _
  rw [hfilter, hid]

theorem Indexed.published_publish (h : w.Indexed) (hp : w.heap p = some s) (hnew : ¬ w.published p)
    (q : Ref) : (w.publish p s).published q ↔ q = p ∨ w.published q := by
  rw [published, h.publish_sessions hp hnew, List.map_cons, List.mem_cons]
  rfl

theorem Indexed.publish (h : w.Indexed) (hx : w.Exclusive) {clients : List Fd} {ctx : DrainCtx}
    (hpc : w.pc = .create (.publish p) clients ctx) (hp : w.heap p = some s) :
    ((w.publish p s).goto (.drain clients ctx)).Indexed := by
  have hnew : ¬ w.published p := h.building p (by rw [hpc]; exact List.mem_singleton_self p)
  have hsessions := h.publish_sessions hp hnew
  have hpub := h.published_publish hp hnew
  constructor
  case named => exact h.named
  case keyed =>
    intro e he
    change e ∈ (w.publish p s).sessions at he
    rw [hsessions] at he
    rcases List.mem_cons.mp he with rfl | he
    · rfl
    · exact h.keyed e he
  case alive =>
    intro q hq
    rcases (hpub q).mp hq with rfl | hq
    · exact fun hn => Option.some_ne_none s (hp.symm.trans hn)
    · exact h.alive q hq
  case nodup =>
    show ((w.publish p s).sessions.map Prod.snd).Nodup
    rw [hsessions]
    exact List.nodup_cons.mpr ⟨hnew, h.nodup⟩
  case index =>
    intro fd q
    show Function.update (Function.update w.fdToSession s.clientFd (some p)) s.upstreamFd (some p) fd =
      some q ↔ (w.publish p s).published q ∧ ∃ side, w.fd? q side = some fd
    rw [hpub]
    by_cases hfd : ∃ side, w.fd? p side = some fd
    · obtain ⟨side, hfd⟩ := hfd
      rw [update_both (fdOf_of_fd? hp hfd)]
      constructor
      · intro hq
        obtain rfl := Option.some.inj hq
        exact ⟨Or.inl rfl, side, hfd⟩
      · rintro ⟨-, t, hq⟩
        rw [(hx.inj hq hfd).1]
    · rw [update_both_of_ne (fdOf_ne hp hfd), h.index]
      apply and_congr_left
      rintro ⟨side, hq⟩
      have hqp : q ≠ p := fun he => hfd ⟨side, he ▸ hq⟩
      exact (or_iff_right hqp).symm
  case active =>
    show w.activeSessions + 1 = (w.publish p s).sessions.length
    rw [hsessions, List.length_cons, h.active]
  case refs => exact fun q hq => by cases hq
  case reach =>
    intro q hq
    left
    rcases h.reach q hq with hq | hq
    · exact (hpub q).mpr (Or.inr hq)
    · rw [hpc] at hq
      exact (hpub q).mpr (Or.inl (List.mem_singleton.mp hq))
  case todo => exact fun q hq => by cases hq
  case building => exact fun q hq => by cases hq
  case issuedNodup => exact h.issuedNodup
  case issuedLt => exact h.issuedLt
  case issued => exact h.issued

end Publish

section Close

variable {p : Ref} {s : ProxySession}

theorem Indexed.published_unpublish (h : w.Indexed) (hp : w.heap p = some s) (q : Ref) :
    (w.unpublish s).published q ↔ w.published q ∧ q ≠ p := by
  have hid : s.id = p := h.named p s hp
  show q ∈ (w.sessions.filter fun e => e.1 ≠ s.id).map Prod.snd ↔ _
  rw [hid]
  simp only [List.mem_map, List.mem_filter, decide_eq_true_eq, published]
  constructor
  · rintro ⟨e, ⟨he, hne⟩, rfl⟩
    exact ⟨⟨e, he, rfl⟩, h.keyed e he ▸ hne⟩
  · rintro ⟨⟨e, he, rfl⟩, hne⟩
    exact ⟨e, ⟨he, (h.keyed e he).symm ▸ hne⟩, rfl⟩

/-- Exactly one entry goes. -/
theorem Indexed.unpublish_length (h : w.Indexed) (hp : w.heap p = some s) (hpub : w.published p) :
    (w.unpublish s).sessions.length = w.sessions.length - 1 := by
  have hid : s.id = p := h.named p s hp
  have hmap : (w.unpublish s).sessions.map Prod.snd = (w.sessions.map Prod.snd).filter (· ≠ p) := by
    show (w.sessions.filter fun e => e.1 ≠ s.id).map Prod.snd = _
    rw [hid, List.filter_map]
    congr 1
    apply List.filter_congr
    intro e he
    simp [h.keyed e he]
  have herase : (w.sessions.map Prod.snd).filter (· ≠ p) = (w.sessions.map Prod.snd).erase p := by
    rw [h.nodup.erase_eq_filter]
    apply List.filter_congr
    intro q _
    by_cases hq : q = p <;> simp [hq]
  have hlen := congrArg List.length (hmap.trans herase)
  rw [List.length_map, List.length_erase_of_mem hpub, List.length_map] at hlen
  exact hlen

theorem Indexed.close (h : w.Indexed) (hx : w.Exclusive) {todo refs : List Ref} {ctx : CloseCtx}
    (hpc : w.pc = .close (p :: todo) refs ctx) (hp : w.heap p = some s)
    (hfound : s.id ∈ w.sessions.map Prod.fst) :
    ((w.unpublish s).goto (.onClosed none todo refs ctx)).Indexed := by
  have hpubp : w.published p := by
    rw [h.named p s hp, h.published_iff] at hfound
    exact hfound
  have hpub := h.published_unpublish hp
  constructor
  case named => exact h.named
  case keyed => exact fun e he => h.keyed e (List.mem_filter.mp he).1
  case alive => exact fun q hq => h.alive q ((hpub q).mp hq).1
  case nodup => exact h.nodup.sublist (List.Sublist.map _ List.filter_sublist)
  case index =>
    intro fd q
    show Function.update (Function.update w.fdToSession s.clientFd none) s.upstreamFd none fd = some q ↔
      (w.unpublish s).published q ∧ ∃ side, w.fd? q side = some fd
    rw [hpub]
    by_cases hfd : ∃ side, w.fd? p side = some fd
    · obtain ⟨side, hfd⟩ := hfd
      rw [update_both (fdOf_of_fd? hp hfd)]
      constructor
      · exact fun hq => by cases hq
      · rintro ⟨⟨-, hne⟩, t, hq⟩
        exact absurd (hx.inj hq hfd).1 hne
    · rw [update_both_of_ne (fdOf_ne hp hfd), h.index]
      apply and_congr_left
      rintro ⟨side, hq⟩
      have hqp : q ≠ p := fun he => hfd ⟨side, he ▸ hq⟩
      exact (and_iff_left hqp).symm
  case active =>
    show fetchSub w.activeSessions = (w.unpublish s).sessions.length
    have hpos : 0 < w.sessions.length := by
      have := List.length_pos_of_mem hpubp
      rwa [List.length_map] at this
    rw [h.unpublish_length hp hpubp, h.active, fetchSub_of_pos hpos]
  case refs =>
    intro q hq
    exact h.refs q (by rw [hpc]; exact hq)
  case reach =>
    intro q hq
    by_cases hqp : q = p
    · have htodo := h.todo p (by rw [hpc]; exact List.mem_cons_self)
      rw [hpc] at htodo
      exact Or.inr (hqp ▸ htodo)
    · rcases h.reach q hq with hq | hq
      · exact Or.inl ((hpub q).mpr ⟨hq, hqp⟩)
      · rw [hpc] at hq
        exact Or.inr hq
  case todo =>
    intro q hq
    have htodo := h.todo q (by rw [hpc]; exact List.mem_cons_of_mem p hq)
    rw [hpc] at htodo
    exact htodo
  case building => exact fun q hq => by cases hq
  case issuedNodup => exact h.issuedNodup
  case issuedLt => exact h.issuedLt
  case issued => exact h.issued

end Close

theorem Indexed.touch (h : w.Indexed) (hf : w.Fresh) (hx : w.Exclusive) (ht : Touch config w w') :
    w'.Indexed := by
  cases ht with
  | serve hpc hp hid hfds _ => exact h.session hp hid hfds (by rw [hpc]; rfl) rfl rfl rfl
  | doom hpc hp hid hfds _ _ =>
    refine h.session hp hid hfds ?_ rfl rfl rfl
    rcases hpc with ⟨e, hpc⟩ | ⟨side, hpc⟩ <;> rw [hpc] <;> rfl
  | modify side hpc hp _ =>
    cases side <;> exact h.epoll (by rw [hpc]; rfl) rfl (by rw [hpc]; rfl)
  | register side hpc hp =>
    cases side <;> exact h.epoll (by rw [hpc]; rfl) rfl (by rw [hpc]; rfl)
  | construct hpc => exact h.construct hf (by rw [hpc]; rfl)
  | publish hpc hp => exact h.publish hx hpc hp
  | @unregister p s clients ctx hpc hp =>
    have hpub : ¬ w.published p := h.building p (by rw [hpc]; exact List.mem_singleton_self p)
    refine h.free hpub (fun q hq => ?_) (fun hq => by cases hq) rfl rfl
    rw [hpc]
    exact ⟨fun hq' => absurd (List.mem_singleton.mp hq') hq, fun hq' => (by cases hq')⟩
  | close hpc hp hfound => exact h.close hx hpc hp hfound
  | @free p s refs ctx hpc hp hlast =>
    simp only [Worker.referenced, Bool.or_eq_false_iff, decide_eq_false_iff_not] at hlast
    refine h.free (e := w.epoll) hlast.1.1.1 (fun q hq => ?_) hlast.2 rfl rfl
    rw [hpc]
    exact ⟨fun hq' => (List.mem_cons.mp hq').resolve_left hq, List.mem_cons_of_mem p⟩

end Worker

end FluxGate
