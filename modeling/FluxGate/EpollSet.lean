import FluxGate.Reactor

/-!
# The epoll set of a reactor

`Polled` ties the epoll set and the events of the current batch to the maps,
`Swept` says which sessions are waiting to be closed, `Sized` is about their
buffers. Together with `Indexed` they are what every step of a worker keeps
(`Reactor`), given that no descriptor has two owners.
-/

namespace FluxGate

open Lib

namespace Worker

variable {config : AppConfig} {sh sh' : SharedState} {w w' : Worker} {error : Bool} {eff : FdEffect}

structure Polled (w : Worker) : Prop where
  wake : w.epoll w.wakeFd = some (EPOLLIN, none)
  /-- a published session that is not closing, and the sides already added of
  one that is being built, are subscribed with the masks of their state -/
  interest : ∀ p s side, w.heap p = some s →
    (w.published p ∧ s.closing = false ∨ (p, side) ∈ w.pc.registered) → (p, side) ∉ w.pc.stale →
    w.epoll (s.fdOf side) = some (s.events side, some p)
  registered : ∀ fd, w.epoll fd ≠ none → fd = w.wakeFd ∨
    ∃ p side, w.fd? p side = some fd ∧ (w.published p ∨ (p, side) ∈ w.pc.mayRegister)
  /-- the events of a batch still mean the sessions they were reported for -/
  events : ∀ e ∈ w.pc.events, e.fd = w.wakeFd ∨ ∃ p, e.who = some p ∧ w.fdToSession e.fd = some p

/-- Published sessions that must be closed are waiting for `closeSession`. -/
def Swept (w : Worker) : Prop :=
  ∀ p s, w.published p → w.heap p = some s → w.pc.mustClose s = true → p ∈ w.pc.todo

theorem Swept.quiet (h : w.Swept) (hq : Quiet w w') : w'.Swept := by
  intro p s hpub hp hmust
  rw [published, hq.sessions] at hpub
  rw [hq.heap] at hp
  exact hq.swept p s hpub hp (h p s hpub hp) hmust

/-- Between two batches nobody is closing. -/
theorem Swept.not_closing (h : w.Swept) (hpc : w.pc = .epollWait) {p : Ref} {s : ProxySession}
    (hpub : w.published p) (hp : w.heap p = some s) : s.closing = false := by
  have hs := h p s hpub hp
  rw [hpc] at hs
  cases hc : s.closing with
  | false => rfl
  | true => cases hs hc

theorem Polled.quiet (h : w.Polled) (hi : w.Indexed) (hs : w.Swept) (hq : Quiet w w') : w'.Polled where
  wake := by
    rw [hq.wakeFd, hq.epoll]
    exact h.wake
  interest p s side hp hlive hstale := by
    rw [hq.heap] at hp
    rw [published, hq.sessions] at hlive
    rw [hq.epoll]
    exact h.interest p s side hp (hlive.imp id (hq.registered _)) (fun hr => hstale (hq.stale _ hr))
  registered fd hfd := by
    rw [hq.epoll] at hfd
    rw [hq.wakeFd, fd?_congr hq.heap]
    refine (h.registered fd hfd).imp id ?_
    rintro ⟨p, side, hp, hlive⟩
    refine ⟨p, side, hp, ?_⟩
    rw [published, hq.sessions]
    exact hlive.imp id (hq.mayRegister _)
  events e he := by
    rw [hq.wakeFd, hq.fdToSession]
    rcases hq.events e he with he | ⟨hpc, mask, hmask⟩
    · exact h.events e he
    · -- a new batch: the epoll set and the map agree
      refine (h.registered e.fd (by simp [hmask])).imp id ?_
      rintro ⟨p, side, hfd, hlive⟩
      have hpub : w.published p := by
        refine hlive.resolve_right (fun hr => ?_)
        rw [hpc] at hr
        cases hr
      obtain ⟨s, hp, hs'⟩ := Option.map_eq_some_iff.mp hfd
      have hreg := h.interest p s side hp (Or.inl ⟨hpub, hs.not_closing hpc hpub hp⟩)
        (by rw [hpc]; exact List.not_mem_nil)
      rw [hs', hmask] at hreg
      refine ⟨p, ?_, (hi.index e.fd p).mpr ⟨hpub, side, hfd⟩⟩
      exact congrArg Prod.snd (Option.some.inj hreg)

/-- The session of an object changes: its subscriptions are stale, or it is closing. -/
theorem Polled.session (h : w.Polled) {p : Ref} {s s' : ProxySession} {pc : Pc}
    (hp : w.heap p = some s) (hfds : ∀ side, s'.fdOf side = s.fdOf side)
    (hold : ∀ q side, q ≠ p → (q, side) ∉ w.pc.stale) (hmay : w.pc.mayRegister = [])
    (hreg : pc.registered = []) (hnew : s'.closing = true ∨ ∀ side, (p, side) ∈ pc.stale)
    (hevents : ∀ e ∈ pc.events, e ∈ w.pc.events) : ((w.setSession p s').goto pc).Polled where
  wake := h.wake
  interest q t side hq hlive hstale := by
    by_cases hqp : q = p
    · subst hqp
      have ht : s' = t := by simpa [goto, setSession] using hq
      rcases hlive with ⟨-, hclosing⟩ | hr
      · rcases hnew with hnew | hnew
        · rw [← ht, hnew] at hclosing
          cases hclosing
        · exact absurd (hnew side) hstale
      · rw [goto, hreg] at hr
        cases hr
    · have hq' : w.heap q = some t := by simpa [goto, setSession, hqp] using hq
      refine h.interest q t side hq' (Or.inl (hlive.resolve_right fun hr => ?_)) (hold q side hqp)
      rw [goto, hreg] at hr
      cases hr
  registered fd hfd := by
    refine (h.registered fd hfd).imp id ?_
    rintro ⟨q, side, hq, hlive⟩
    refine ⟨q, side, (fd?_setSession hp hfds q side).trans hq, Or.inl (hlive.resolve_right fun hr => ?_)⟩
    rw [hmay] at hr
    cases hr
  events e he := h.events e (hevents e he)

/-- One side of an object is added, or its mask is updated. -/
theorem Polled.setInterest (h : w.Polled) (hx : w.Exclusive) {p : Ref} {s : ProxySession} {side : Side}
    {pc : Pc} (hp : w.heap p = some s)
    (hstale : ∀ r ∈ w.pc.stale, r = (p, side) ∨ r ∈ pc.stale)
    (hreg : ∀ r ∈ pc.registered, r = (p, side) ∨ r ∈ w.pc.registered)
    (hmay : ∀ r ∈ w.pc.mayRegister, r ∈ pc.mayRegister)
    (hlive : w.epoll (s.fdOf side) ≠ none ∨ (p, side) ∈ pc.mayRegister)
    (hevents : pc.events = w.pc.events) :
    ((w.setInterest p (s.fdOf side) (s.events side)).goto pc).Polled := by
  have hfd := fd?_of_heap hp side
  constructor
  case wake =>
    exact (Function.update_of_ne (hx.notWake hfd).symm _ _).trans h.wake
  case interest =>
    intro q t side' hq hl hs
    show Function.update w.epoll (s.fdOf side) _ (t.fdOf side') = _
    by_cases hqs : t.fdOf side' = s.fdOf side
    · obtain ⟨rfl, rfl⟩ := hx.inj (fd?_of_heap hq side') (hqs ▸ hfd)
      have hts : t = s := Option.some.inj (hq.symm.trans hp)
      rw [hts, Function.update_self]
    · rw [Function.update_of_ne hqs]
      have hne : (q, side') ≠ (p, side) := by
        intro he
        obtain ⟨rfl, rfl⟩ := Prod.mk.inj he
        exact hqs (by rw [Option.some.inj (hq.symm.trans hp)])
      refine h.interest q t side' hq (hl.imp id fun hr => (hreg _ hr).resolve_left hne) (fun hr => ?_)
      exact hs ((hstale _ hr).resolve_left hne)
  case registered =>
    intro fd hfd'
    have hold : w.epoll fd ≠ none → fd = w.wakeFd ∨
        ∃ q t, w.fd? q t = some fd ∧ (w.published q ∨ (q, t) ∈ pc.mayRegister) := fun hfd' =>
      (h.registered fd hfd').imp id fun ⟨q, t, hq, hl⟩ => ⟨q, t, hq, hl.imp id (hmay _)⟩
    by_cases hfds : fd = s.fdOf side
    · subst hfds
      rcases hlive with hl | hl
      · exact hold hl
      · exact Or.inr ⟨p, side, hfd, Or.inr hl⟩
    · have he : ((w.setInterest p (s.fdOf side) (s.events side)).goto pc).epoll fd = w.epoll fd :=
        Function.update_of_ne hfds _ _
      exact hold (he ▸ hfd')
  case events =>
    intro e he
    exact h.events e (hevents ▸ he)

theorem Polled.construct (h : w.Polled) (hi : w.Indexed) (hf : w.Fresh) {c u : Fd} {b size now : Nat}
    {connecting : Bool} {clients : List Fd} {ctx : DrainCtx}
    (hpc : w.pc = .create (.construct c b u connecting) clients ctx) :
    ((w.construct c u connecting b size now).goto
      (.create (.registerClient w.nextSessionId) clients ctx)).Polled := by
  have hnew : w.heap w.nextSessionId = none := hf _ (Nat.le_refl _)
  have hpub : ∀ q, w.published q → q ≠ w.nextSessionId := by
    intro q hq he
    exact hi.alive q hq (he ▸ hnew)
  constructor
  case wake => exact h.wake
  case interest =>
    intro q t side hq hlive hstale
    rcases hlive with ⟨hq', hclosing⟩ | hr
    · have hqn := hpub q hq'
      refine h.interest q t side (by simpa [goto, Worker.construct, hqn] using hq)
        (Or.inl ⟨hq', hclosing⟩) ?_
      rw [hpc]
      exact List.not_mem_nil
    · cases hr
  case registered =>
    intro fd hfd
    refine (h.registered fd hfd).imp id ?_
    rintro ⟨q, side, hq, hlive⟩
    rw [hpc] at hlive
    have hq' : w.published q := hlive.resolve_right (fun hr => by cases hr)
    have hqn := hpub q hq'
    refine ⟨q, side, ?_, Or.inl hq'⟩
    simpa [fd?, goto, Worker.construct, hqn] using hq
  case events =>
    intro e he
    exact h.events e (by rw [hpc]; exact he)

theorem Polled.publish (h : w.Polled) (hi : w.Indexed) (hx : w.Exclusive) {p : Ref} {s : ProxySession}
    {clients : List Fd} {ctx : DrainCtx} (hpc : w.pc = .create (.publish p) clients ctx)
    (hp : w.heap p = some s) : ((w.publish p s).goto (.drain clients ctx)).Polled := by
  have hnew : ¬ w.published p := hi.building p (by rw [hpc]; exact List.mem_singleton_self p)
  have hpub := hi.published_publish hp hnew
  constructor
  case wake => exact h.wake
  case interest =>
    intro q t side hq hlive hstale
    refine h.interest q t side hq ?_ (by rw [hpc]; exact List.not_mem_nil)
    obtain ⟨hq', hclosing⟩ := hlive.resolve_right (fun hr => by cases hr)
    rcases (hpub q).mp hq' with rfl | hq'
    · right
      rw [hpc]
      cases side <;> simp [Pc.registered, Job.registered]
    · exact Or.inl ⟨hq', hclosing⟩
  case registered =>
    intro fd hfd
    refine (h.registered fd hfd).imp id ?_
    rintro ⟨q, side, hq, hlive⟩
    refine ⟨q, side, hq, Or.inl ((hpub q).mpr ?_)⟩
    rcases hlive with hq' | hr
    · exact Or.inr hq'
    · left
      rw [hpc] at hr
      simp only [Pc.mayRegister, Job.mayRegister, Job.registered, List.mem_cons, Prod.mk.injEq,
        List.not_mem_nil, or_false] at hr
      rcases hr with ⟨hr, -⟩ | ⟨hr, -⟩ <;> exact hr
  case events =>
    intro e he
    refine (h.events e (by rw [hpc]; exact he)).imp id ?_
    rintro ⟨q, hwho, hq⟩
    refine ⟨q, hwho, ?_⟩
    obtain ⟨hq', side, hfd⟩ := (hi.index e.fd q).mp hq
    have hne : ¬ ∃ t, w.fd? p t = some e.fd := by
      rintro ⟨t, ht⟩
      exact hnew ((hx.inj hfd ht).1 ▸ hq')
    exact (update_both_of_ne (fdOf_ne hp hne)).trans hq

/-- Both sides of an object leave the epoll set. -/
theorem Polled.forget (h : w.Polled) (hx : w.Exclusive) {p : Ref} {s : ProxySession} (hp : w.heap p = some s)
    (he : w'.epoll = Function.update (Function.update w.epoll s.clientFd none) s.upstreamFd none)
    (hwake : w'.wakeFd = w.wakeFd) (hheap : ∀ q, q ≠ p → w'.heap q = w.heap q)
    (hpub : ∀ q, w'.published q ↔ w.published q ∧ q ≠ p) (hstale : w.pc.stale = [])
    (hmay : ∀ r ∈ w.pc.mayRegister, r.1 = p) (hreg : w'.pc.registered = [])
    (hevents : ∀ e ∈ w'.pc.events, e ∈ w.pc.events ∧ w'.fdToSession e.fd = w.fdToSession e.fd) :
    w'.Polled := by
  have hother : ∀ q side fd, q ≠ p → w.fd? q side = some fd → w'.epoll fd = w.epoll fd := by
    intro q side fd hq hfd
    rw [he]
    refine update_both_of_ne (fdOf_ne hp ?_)
    rintro ⟨t, ht⟩
    exact hq (hx.inj hfd ht).1
  constructor
  case wake =>
    rw [hwake, he]
    refine (update_both_of_ne (fdOf_ne hp ?_)).trans h.wake
    rintro ⟨t, ht⟩
    exact hx.notWake ht rfl
  case interest =>
    intro q t side hq hlive _
    rw [hreg] at hlive
    obtain ⟨hq', hclosing⟩ := hlive.resolve_right (fun hr => by cases hr)
    obtain ⟨hq', hqp⟩ := (hpub q).mp hq'
    rw [hheap q hqp] at hq
    rw [hother q side _ hqp (fd?_of_heap hq side)]
    refine h.interest q t side hq (Or.inl ⟨hq', hclosing⟩) ?_
    rw [hstale]
    exact List.not_mem_nil
  case registered =>
    intro fd hfd
    have hnot : ¬ ∃ t, w.fd? p t = some fd := by
      rintro ⟨t, ht⟩
      rw [he, update_both (fdOf_of_fd? hp ht)] at hfd
      exact hfd rfl
    rw [he, update_both_of_ne (fdOf_ne hp hnot)] at hfd
    rw [hwake]
    refine (h.registered fd hfd).imp id ?_
    rintro ⟨q, side, hq, hlive⟩
    have hqp : q ≠ p := fun heq => hnot ⟨side, heq ▸ hq⟩
    have hq' : w.published q := hlive.resolve_right (fun hr => hqp (hmay _ hr))
    refine ⟨q, side, ?_, Or.inl ((hpub q).mpr ⟨hq', hqp⟩)⟩
    rw [fd?, hheap q hqp]
    exact hq
  case events =>
    intro e he
    obtain ⟨he, hsame⟩ := hevents e he
    rw [hwake, hsame]
    exact h.events e he

/-- An unpublished object goes. -/
theorem Polled.free (h : w.Polled) {p : Ref} {s : ProxySession} {refs : List Ref} {ctx : CloseCtx}
    (hpc : w.pc = .drop (p :: refs) ctx) (hpub : ¬ w.published p) :
    ((w.free p).goto (.destroy (destructor s) refs ctx)).Polled := by
  have hne : ∀ q, w.published q → q ≠ p := fun q hq he => hpub (he ▸ hq)
  constructor
  case wake => exact h.wake
  case interest =>
    intro q t side hq hlive _
    obtain ⟨hq', hclosing⟩ := hlive.resolve_right (fun hr => by cases hr)
    have hqp := hne q hq'
    refine h.interest q t side (by simpa [goto, Worker.free, hqp] using hq) (Or.inl ⟨hq', hclosing⟩) ?_
    rw [hpc]
    exact List.not_mem_nil
  case registered =>
    intro fd hfd
    refine (h.registered fd hfd).imp id ?_
    rintro ⟨q, side, hq, hlive⟩
    rw [hpc] at hlive
    have hq' : w.published q := hlive.resolve_right (fun hr => by cases hr)
    exact ⟨q, side, (fd?_free (hne q hq') side).trans hq, Or.inl hq'⟩
  case events => exact fun e he => by cases he

theorem Polled.touch (h : w.Polled) (hi : w.Indexed) (hf : w.Fresh) (hx : w.Exclusive)
    (ht : Touch config w w') : w'.Polled := by
  cases ht with
  | @serve e events p s s' hpc hp _ hfds _ =>
    refine h.session hp hfds (fun q side _ => ?_) (by rw [hpc]; rfl) rfl (Or.inr fun side => ?_)
      (fun d hd => ?_)
    · rw [hpc]
      exact List.not_mem_nil
    · cases side <;> simp [Pc.stale]
    · rw [hpc]
      exact List.mem_cons_of_mem e hd
  | @doom events p s s' hpc hp _ hfds _ hclosing =>
    refine h.session hp hfds (fun q side hq => ?_) ?_ rfl (Or.inl hclosing) (fun d hd => ?_)
    · rcases hpc with ⟨e, hpc⟩ | ⟨side', hpc⟩
      · rw [hpc]
        exact List.not_mem_nil
      · rw [hpc]
        cases side' <;> simp [Pc.stale, hq]
    · rcases hpc with ⟨e, hpc⟩ | ⟨side', hpc⟩ <;> rw [hpc] <;> rfl
    · rcases hpc with ⟨e, hpc⟩ | ⟨side', hpc⟩
      · rw [hpc]
        exact List.mem_cons_of_mem e hd
      · rw [hpc]
        exact hd
  | @modify events p s side hpc hp hreg =>
    refine h.setInterest hx hp (fun r hr => ?_) (fun r hr => ?_) (fun r hr => ?_) (Or.inl hreg) ?_
    · rw [hpc] at hr
      cases side <;> simpa [Pc.stale, Pc.modified] using hr
    · cases side <;> cases hr
    · rw [hpc] at hr
      cases hr
    · rw [hpc]
      cases side <;> rfl
  | @register p s side clients ctx hpc hp =>
    refine h.setInterest hx hp (fun r hr => ?_) (fun r hr => ?_) (fun r hr => ?_) (Or.inr ?_) ?_
    · rw [hpc] at hr
      cases hr
    · rw [hpc]
      cases side <;> simpa [Pc.registered, Job.registered, Job.register, Job.afterRegister, or_comm]
        using hr
    · rw [hpc] at hr
      cases side with
      | client => cases hr
      | upstream =>
        obtain rfl := List.mem_singleton.mp hr
        exact List.mem_cons_self
    · cases side <;> simp [Pc.mayRegister, Job.mayRegister, Job.registered, Job.afterRegister]
    · rw [hpc]
      rfl
  | construct hpc => exact h.construct hi hf hpc
  | publish hpc hp => exact h.publish hi hx hpc hp
  | @unregister p s clients ctx hpc hp =>
    have hpub : ¬ w.published p := hi.building p (by rw [hpc]; exact List.mem_singleton_self p)
    refine h.forget hx hp rfl rfl (fun q hq => Function.update_of_ne hq _ _) (fun q => ?_)
      (by rw [hpc]; rfl) (fun r hr => ?_) rfl (fun e he => ⟨by rw [hpc]; exact he, rfl⟩)
    · exact ⟨fun hq => ⟨hq, fun he => hpub (he ▸ hq)⟩, fun hq => hq.1⟩
    · rw [hpc] at hr
      rw [List.mem_singleton.mp hr]
  | @close p s todo refs ctx hpc hp hfound =>
    refine h.forget hx hp rfl rfl (fun q _ => rfl) (hi.published_unpublish hp) (by rw [hpc]; rfl)
      (fun r hr => ?_) rfl (fun e he => by cases he)
    rw [hpc] at hr
    cases hr
  | @free p s refs ctx hpc hp hlast =>
    simp only [referenced, Bool.or_eq_false_iff, decide_eq_false_iff_not] at hlast
    exact h.free hpc hlast.1.1.1

theorem Swept.touch (h : w.Swept) (hi : w.Indexed) (ht : Touch config w w') : w'.Swept := by
  intro q t hpub hq hmust
  cases ht with
  | serve => cases hmust
  | doom => cases hmust
  | modify side => cases side <;> cases hmust
  | register side => cases hmust
  | construct => cases hmust
  | publish => cases hmust
  | unregister => cases hmust
  | @close p s todo refs ctx hpc hp hfound =>
    obtain ⟨hpub, hqp⟩ := (hi.published_unpublish hp q).mp hpub
    have hmem := h q t hpub hq
    rw [hpc] at hmem
    exact (List.mem_cons.mp (hmem hmust)).resolve_left hqp
  | @free p s refs ctx hpc hp hlast =>
    have hqp : q ≠ p := ((heap_free (w := w) p q).mp (by simpa [goto] using hq ▸ Option.some_ne_none t)).1
    have hmem := h q t hpub (by simpa [goto, Worker.free, hqp] using hq)
    rw [hpc] at hmem
    exact hmem hmust

/-- Every buffer has the configured size. -/
def Sized (cap : Nat) (w : Worker) : Prop := ∀ p s, w.heap p = some s → s.Sized cap

theorem Sized.touch (h : w.Sized config.bufferSize) (ht : Touch config w w') :
    w'.Sized config.bufferSize := by
  have hset : ∀ p s', s'.Sized config.bufferSize → (w.setSession p s').Sized config.bufferSize := by
    intro p s' hs' q t hq
    by_cases hqp : q = p
    · subst hqp
      have ht' : s' = t := by simpa [setSession] using hq
      exact ht' ▸ hs'
    · exact h q t (by simpa [setSession, hqp] using hq)
  have hfree : ∀ p, (w.free p).Sized config.bufferSize := by
    intro p q t hq
    by_cases hqp : q = p
    · subst hqp
      simp [Worker.free] at hq
    · exact h q t (by simpa [Worker.free, hqp] using hq)
  cases ht with
  | serve hpc hp hid hfds hsized => exact hset _ _ (hsized _ (h _ _ hp))
  | doom hpc hp hid hfds hsized hclosing => exact hset _ _ (hsized _ (h _ _ hp))
  | modify side hpc hp hreg => exact h
  | register side hpc hp => exact h
  | @construct c u b connecting clients ctx now hpc =>
    exact hset w.nextSessionId _ (new_sized _ c u connecting b now)
  | publish hpc hp => exact h
  | unregister hpc hp => exact hfree _
  | close hpc hp hfound => exact h
  | free hpc hp hlast => exact hfree _

/-- What holds of a worker at every point of its life. -/
structure Reactor (cap : Nat) (w : Worker) : Prop where
  indexed : w.Indexed
  polled : w.Polled
  swept : w.Swept
  sized : w.Sized cap

theorem Reactor.quiet {cap : Nat} (h : w.Reactor cap) (hq : Quiet w w') : w'.Reactor cap where
  indexed := h.indexed.quiet hq
  polled := h.polled.quiet h.indexed h.swept hq
  swept := h.swept.quiet hq
  sized p s hp := h.sized p s (hq.heap ▸ hp)

/-- **A step of a worker keeps its data consistent.** -/
theorem Reactor.step (h : w.Reactor config.bufferSize) (hf : w.Fresh) (hx : w.Exclusive)
    (hstep : Step config sh w error eff sh' w') : w'.Reactor config.bufferSize := by
  rcases hstep.quiet_or_touch h.indexed with hq | ht
  · exact h.quiet hq
  · exact ⟨h.indexed.touch hf hx ht, h.polled.touch h.indexed hf hx ht, h.swept.touch h.indexed ht,
      h.sized.touch ht⟩

end Worker

end FluxGate
