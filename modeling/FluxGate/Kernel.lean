import FluxGate.HalfClose
import FluxGate.Lib.Pipe

/-!
# A session against a coherent kernel, and truncation at half-close

Each socket of the kernel has a receive queue (a pipe from the peer to
`recv`), a flag for the peer's FIN, and room in its send buffer. `answer`
says which result of a call is coherent with that state. Between any two
calls the network may move (`Net`): bytes arrive unless the FIN has, the FIN
arrives, the peer takes bytes out of the send buffer.

The session misreads one situation. `readInto` returns `WouldBlock` both when
the kernel has nothing and when the session's own buffer is full, and
`handleEvent` takes `WouldBlock` together with a hang-up bit as the end of
the stream. With a full buffer and bytes still queued (`LosesBytes`) those
bytes are given up. In every run without such a step nothing is truncated.
-/

namespace FluxGate

open Lib

structure Socket where
  rx : Pipe Byte
  fin : Bool
  space : Nat

structure Kernel where
  client : Socket
  upstream : Socket

namespace Kernel

def start (clientSpace upstreamSpace : Nat) : Kernel :=
  ⟨⟨.empty, false, clientSpace⟩, ⟨.empty, false, upstreamSpace⟩⟩

def socket (k : Kernel) : Side → Socket
  | .client => k.client
  | .upstream => k.upstream

def set (k : Kernel) (side : Side) (s : Socket) : Kernel :=
  match side with
  | .client => { k with client := s }
  | .upstream => { k with upstream := s }

@[simp] theorem socket_set (k : Kernel) (side : Side) (s : Socket) :
    (k.set side s).socket side = s := by
  cases side <;> rfl

theorem socket_set_ne {side t : Side} (h : t ≠ side) (k : Kernel) (s : Socket) :
    (k.set side s).socket t = k.socket t := by
  cases side <;> cases t <;> first | rfl | exact absurd rfl h

/-- The kernel's side of a call: the next state, or `none` if the result is
not one it may give. `recv` takes a non-empty prefix of the queue, returns 0
only at the end of the stream and `EAGAIN` only on an empty open one; `send`
takes at most what fits and returns `EAGAIN` only when nothing does. -/
def answer (k : Kernel) : Call → Option Kernel
  | .recv side length (.ok data) =>
    let s := k.socket side
    if data = [] then if s.rx.held = [] ∧ s.fin = true then some k else none
    else if data.length ≤ length ∧ data <+: s.rx.held then
      some (k.set side { s with rx := s.rx.pop data.length })
    else none
  | .recv side _ (.error e) =>
    if e.again then
      if (k.socket side).rx.held = [] ∧ (k.socket side).fin = false then some k else none
    else some k
  | .send side data (.ok count) =>
    let s := k.socket side
    if count ≤ data.length ∧ count ≤ s.space then
      some (k.set side { s with space := s.space - count })
    else none
  | .send side _ (.error e) =>
    if e.again then if (k.socket side).space = 0 then some k else none else some k
  | .soError _ _ => some k
  | .shutdownWrite _ => some k

/-- What the network may do at any time. -/
inductive Net (k : Kernel) : Kernel → Prop
  | arrive (side : Side) (bytes : List Byte) (h : (k.socket side).fin = false) :
      Net k (k.set side { k.socket side with rx := (k.socket side).rx.push bytes })
  | fin (side : Side) : Net k (k.set side { k.socket side with fin := true })
  | acked (side : Side) (n : Nat) :
      Net k (k.set side { k.socket side with space := (k.socket side).space + n })

/-- The kernel answers a sequence of calls, with the network moving between
them. -/
inductive Serves : Kernel → List Call → Kernel → Prop
  | done (k : Kernel) : Serves k [] k
  | net {k k₁ k₂ : Kernel} {calls : List Call} :
      Net k k₁ → Serves k₁ calls k₂ → Serves k calls k₂
  | call {k k₁ k₂ : Kernel} {c : Call} {calls : List Call} :
      k.answer c = some k₁ → Serves k₁ calls k₂ → Serves k (c :: calls) k₂

/-- The answers without any move of the network between them. -/
theorem Serves.of_answers {k k₁ : Kernel} {calls : List Call}
    (h : calls.foldlM answer k = some k₁) : Serves k calls k₁ := by
  induction calls generalizing k with
  | nil =>
    cases h
    exact .done _
  | cons c calls ih =>
    rw [List.foldlM_cons] at h
    obtain ⟨k', hc, hrest⟩ := Option.bind_eq_some_iff.mp h
    exact .call hc (ih hrest)

theorem Serves.split {k k₂ : Kernel} {a b : List Call} (h : Serves k (a ++ b) k₂) :
    ∃ k₁, Serves k a k₁ ∧ Serves k₁ b k₂ := by
  generalize hab : a ++ b = calls at h
  induction h generalizing a with
  | done k =>
    obtain ⟨rfl, rfl⟩ := List.append_eq_nil_iff.mp hab
    exact ⟨k, .done k, .done k⟩
  | net hn _ ih =>
    obtain ⟨k₁, h₁, h₂⟩ := ih hab
    exact ⟨k₁, .net hn h₁, h₂⟩
  | @call k k₁ k₂ c calls ha hs ih =>
    cases a with
    | nil =>
      subst hab
      exact ⟨k, .done k, .call ha hs⟩
    | cons d a =>
      obtain ⟨rfl, hrest⟩ := List.cons.inj hab
      obtain ⟨k', h₁, h₂⟩ := ih hrest
      exact ⟨k', .call ha h₁, h₂⟩

/-! ## What a kernel step can do to a socket -/

/-- The pipe from the peer only grows, and after the FIN nothing arrives. -/
structure Later (s t : Socket) : Prop where
  grows : s.rx.pushed <+: t.rx.pushed
  fin : s.fin = true → t.fin = true
  arrived : s.fin = true → t.rx.pushed = s.rx.pushed
  ended : s.fin = true → s.rx.held = [] → t.rx.held = []

theorem Later.refl (s : Socket) : Later s s :=
  ⟨List.prefix_refl _, fun h => h, fun _ => rfl, fun _ h => h⟩

theorem Later.trans {s t u : Socket} (h₁ : Later s t) (h₂ : Later t u) : Later s u where
  grows := h₁.grows.trans h₂.grows
  fin h := h₂.fin (h₁.fin h)
  arrived h := (h₂.arrived (h₁.fin h)).trans (h₁.arrived h)
  ended h he := h₂.ended (h₁.fin h) (h₁.ended h he)

theorem net_later {k k' : Kernel} (h : Net k k') (t : Side) : Later (k.socket t) (k'.socket t) := by
  cases h with
  | arrive side bytes hfin =>
    by_cases ht : t = side
    · subst ht
      exact ⟨by simp, by simp [hfin], by simp [hfin], by simp [hfin]⟩
    · rw [socket_set_ne ht]
      exact Later.refl _
  | fin side =>
    by_cases ht : t = side
    · subst ht
      exact ⟨by simp, by simp, by simp, fun _ he => by simpa using he⟩
    · rw [socket_set_ne ht]
      exact Later.refl _
  | acked side n =>
    by_cases ht : t = side
    · subst ht
      exact ⟨by simp, fun hf => by simpa using hf, by simp, fun _ he => by simpa using he⟩
    · rw [socket_set_ne ht]
      exact Later.refl _

theorem net_popped {k k' : Kernel} (h : Net k k') (t : Side) :
    (k'.socket t).rx.popped = (k.socket t).rx.popped := by
  cases h with
  | arrive side bytes hfin =>
    by_cases ht : t = side
    · subst ht; simp
    · rw [socket_set_ne ht]
  | fin side =>
    by_cases ht : t = side
    · subst ht; simp
    · rw [socket_set_ne ht]
  | acked side n =>
    by_cases ht : t = side
    · subst ht; simp
    · rw [socket_set_ne ht]

/-- One answer: the queue moves on by the bytes delivered, and the result is
in range. -/
theorem answer_spec {k k' : Kernel} {c : Call} (h : k.answer c = some k') (t : Side) :
    c.InRange ∧ Later (k.socket t) (k'.socket t) ∧
      (k'.socket t).rx.popped = (k.socket t).rx.popped ++ c.bytesFrom t := by
  cases c with
  | recv side length result =>
    cases result with
    | ok data =>
      simp only [answer] at h
      split at h
      · rename_i hd
        subst hd
        split at h
        · cases h
          exact ⟨Nat.zero_le _, Later.refl _, by simp [Call.bytesFrom]⟩
        · cases h
      · split at h
        · rename_i hd hcond
          obtain ⟨hlen, hpre⟩ := hcond
          cases h
          refine ⟨hlen, ?_⟩
          by_cases ht : t = side
          · subst ht
            refine ⟨⟨by simp, by simp, by simp, ?_⟩, ?_⟩
            · intro _ he
              simp [he]
            · simp [Call.bytesFrom, ← List.prefix_iff_eq_take.mp hpre]
          · rw [socket_set_ne ht]
            exact ⟨Later.refl _, by simp [Call.bytesFrom, Ne.symm ht]⟩
        · cases h
    | error e =>
      have hk : k' = k := by
        simp only [answer] at h
        split at h
        · split at h <;> cases h
          rfl
        · cases h
          rfl
      subst hk
      exact ⟨trivial, Later.refl _, by simp [Call.bytesFrom]⟩
  | send side data result =>
    cases result with
    | ok count =>
      simp only [answer] at h
      split at h
      · rename_i hcond
        cases h
        refine ⟨hcond.1, ?_⟩
        by_cases ht : t = side
        · subst ht
          exact ⟨⟨by simp, by simp, by simp, fun _ he => by simpa using he⟩,
            by simp [Call.bytesFrom]⟩
        · rw [socket_set_ne ht]
          exact ⟨Later.refl _, by simp [Call.bytesFrom]⟩
      · cases h
    | error e =>
      have hk : k' = k := by
        simp only [answer] at h
        split at h
        · split at h <;> cases h
          rfl
        · cases h
          rfl
      subst hk
      exact ⟨trivial, Later.refl _, by simp [Call.bytesFrom]⟩
  | soError fd result =>
    cases h
    exact ⟨trivial, Later.refl _, by simp [Call.bytesFrom]⟩
  | shutdownWrite side =>
    cases h
    exact ⟨trivial, Later.refl _, by simp [Call.bytesFrom]⟩

theorem Serves.spec {k k' : Kernel} {calls : List Call} (h : Serves k calls k') (t : Side) :
    (∀ c ∈ calls, c.InRange) ∧ Later (k.socket t) (k'.socket t) ∧
      (k'.socket t).rx.popped = (k.socket t).rx.popped ++ received t calls := by
  induction h with
  | done k => exact ⟨by simp, Later.refl _, by simp [received]⟩
  | net hn _ ih =>
    obtain ⟨hr, hl, hp⟩ := ih
    exact ⟨hr, (net_later hn t).trans hl, by rw [hp, net_popped hn t]⟩
  | call ha _ ih =>
    obtain ⟨hr, hl, hp⟩ := ih
    obtain ⟨hr', hl', hp'⟩ := answer_spec ha t
    refine ⟨?_, hl'.trans hl, ?_⟩
    · intro c hc
      rcases List.mem_cons.mp hc with rfl | hc
      · exact hr'
      · exact hr c hc
    · rw [hp, hp', List.append_assoc]
      rfl

/-- A `recv` that returns 0 has read the whole stream. -/
theorem Serves.eof {k k' : Kernel} {side : Side} {length : Nat}
    (h : Serves k [.recv side length (.ok [])] k') :
    (k'.socket side).rx.held = [] ∧ (k'.socket side).fin = true := by
  generalize hc : [Call.recv side length (.ok [])] = calls at h
  induction h with
  | done k => cases hc
  | net _ _ ih => exact ih hc
  | @call k k₁ k₂ c calls ha hs _ =>
    cases hc
    simp only [answer, ↓reduceIte] at ha
    split at ha
    · rename_i hcond
      cases ha
      have hl := (hs.spec side).2.1
      exact ⟨hl.ended hcond.2 hcond.1, hl.fin hcond.2⟩
    · cases ha

/-- A `recv` that would block finds the stream open. -/
theorem Serves.again_open {k k' : Kernel} {side : Side} {length : Nat} {e : Errno}
    (he : e.again = true) (h : Serves k [.recv side length (.error e)] k') :
    (k.socket side).fin = false := by
  generalize hc : [Call.recv side length (.error e)] = calls at h
  induction h with
  | done k => cases hc
  | net hn _ ih =>
    have hfin := ih hc
    have hl := (net_later hn side).fin
    simpa [hfin] using hl
  | @call k k₁ k₂ c calls ha hs _ =>
    cases hc
    simp only [answer, he, ↓reduceIte] at ha
    split at ha
    · rename_i hcond
      exact hcond.2
    · cases ha

end Kernel

/-! ## Why a side is marked as ended -/

/-- The read loop that made `handleEvent` mark side `t` ended: it met the end
of file, or it would block under a hang-up bit. -/
def ClosedBecause (events : EventMask) (env₀ env : Env) (t : Side) : Prop :=
  env₀.session.closing = false ∧ has events EPOLLERR = false ∧
  ∃ r pre init last post, env.log = env₀.log ++ (pre ++ (init ++ last) ++ post) ∧
    Env.ReadEnd t r last ∧
    (r = some .closed ∨
      (r = some .wouldBlock ∧ Env.peerHangup events = true ∧ (last = [] → env₀.room t = 0)))

/-- Before the read phase: nothing but the connect has happened. -/
structure Unread (env₀ env : Env) : Prop where
  log : env₀.log <+: env.log
  buffers : ∀ t, env.session.inbound t = env₀.session.inbound t
  flags : ∀ t, env.session.readClosed t = env₀.session.readClosed t
  fds : ∀ t, env.session.fdOf t = env₀.session.fdOf t

/-- From the read phase on, for an event of `fd`. -/
structure Tracks (fd : Fd) (events : EventMask) (env₀ env : Env) : Prop where
  log : env₀.log <+: env.log
  closed : ∀ t, env.session.readClosed t = true →
    env₀.session.readClosed t = true ∨ (env₀.session.fdOf t = fd ∧ ClosedBecause events env₀ env t)
  fds : ∀ t, env.session.fdOf t = env₀.session.fdOf t

section Tracking

variable {fd : Fd} {events : EventMask} {env₀ env env' : Env}

theorem Unread.refl (env : Env) : Unread env env :=
  ⟨List.prefix_refl _, fun _ => rfl, fun _ => rfl, fun _ => rfl⟩

theorem Unread.tracks (h : Unread env₀ env) : Tracks fd events env₀ env :=
  ⟨h.log, fun t ht => Or.inl (by rwa [h.flags] at ht), h.fds⟩

theorem Unread.close (h : Unread env₀ env) : Unread env₀ env.close :=
  ⟨h.log, fun t => by rw [← h.buffers t]; cases t <;> rfl,
    fun t => by rw [← h.flags t]; cases t <;> rfl, fun t => by rw [← h.fds t]; cases t <;> rfl⟩

/-- Later calls do not change the reason. -/
theorem ClosedBecause.extend {t : Side} (h : ClosedBecause events env₀ env t)
    (hlog : env.log <+: env'.log) : ClosedBecause events env₀ env' t := by
  obtain ⟨hlive, herr, r, pre, init, last, post, hl, he, hr⟩ := h
  obtain ⟨more, hmore⟩ := hlog
  exact ⟨hlive, herr, r, pre, init, last, post ++ more, by rw [← hmore, hl]; simp, he, hr⟩

theorem Tracks.extend (h : Tracks fd events env₀ env) (hlog : env.log <+: env'.log)
    (hflags : ∀ t, env'.session.readClosed t = env.session.readClosed t)
    (hfds : ∀ t, env'.session.fdOf t = env.session.fdOf t) : Tracks fd events env₀ env' where
  log := h.log.trans hlog
  closed t ht := (h.closed t (by rwa [hflags] at ht)).imp (fun h => h)
    (fun ⟨hf, hb⟩ => ⟨hf, hb.extend hlog⟩)
  fds t := (hfds t).trans (h.fds t)

theorem Tracks.close (h : Tracks fd events env₀ env) : Tracks fd events env₀ env.close :=
  h.extend (List.prefix_refl _) (fun t => by cases t <;> rfl) (fun t => by cases t <;> rfl)

theorem control_fdOf {s t : ProxySession} (h : s.control = t.control) (side : Side) :
    s.fdOf side = t.fdOf side := by
  simp only [ProxySession.control, ProxySession.Control.mk.injEq] at h
  cases side
  · exact h.1
  · exact h.2.1

theorem connectPhase_unread (now : Nat) (ans : Answers) (env₀ : Env) :
    Phase.Spec (Unread env₀) (Env.connectPhase fd events now ans) (fun _ => Unread env₀) := by
  intro env h
  unfold Env.connectPhase Env.finishUpstreamConnect
  split
  · split
    · exact h
    · cases ans.connect with
      | none => exact h
      | some r =>
        have hpre : env₀.log <+: env.log ++ [.soError env.session.upstreamFd r] :=
          h.log.trans (List.prefix_append _ _)
        by_cases hr : r = .ok none
        · simp only [ne_eq, hr, not_true_eq_false, ↓reduceIte]
          rw [hr] at hpre
          exact ⟨hpre, fun t => by rw [← h.buffers t]; cases t <;> rfl,
            fun t => by rw [← h.flags t]; cases t <;> rfl,
            fun t => by rw [← h.fds t]; cases t <;> rfl⟩
        · simp only [ne_eq, hr, not_false_eq_true, ↓reduceIte]
          exact ⟨hpre, fun t => by rw [← h.buffers t]; cases t <;> rfl,
            fun t => by rw [← h.flags t]; cases t <;> rfl,
            fun t => by rw [← h.fds t]; cases t <;> rfl⟩
  · exact h

theorem errorPhase_unread (ans : Answers) (env₀ : Env) :
    Phase.Spec (Unread env₀) (Env.errorPhase fd events ans) (fun _ => Unread env₀) := by
  intro env h
  unfold Env.errorPhase
  split
  · cases ans.error with
    | none => exact h
    | some r =>
      have hrec : Unread env₀ (env.record (.soError fd r)) :=
        ⟨h.log.trans (List.prefix_append _ _), h.buffers, h.flags, h.fds⟩
      exact hrec.close
  · exact h

theorem readPhase_tracks (side : Side) (now : Nat) (ans : Answers) (h : Unread env₀ env)
    (hlive : env₀.session.closing = false) (herr : has events EPOLLERR = false)
    (hfd : env₀.session.fdOf side = fd) :
    Tracks fd events env₀ (env.readPhase side events now ans).2 := by
  unfold Env.readPhase
  split
  · have hloop := Env.readInto_loop side now false ans.recvs env
    cases he : env.readInto side now false ans.recvs with
    | mk r env' =>
      rw [he] at hloop
      obtain ⟨init, last, hlog, -, hend, hwb⟩ := hloop.calls
      obtain ⟨-, -, hrc, -, -⟩ := control_fields hloop.frame.1
      have htr : Tracks fd events env₀ env' := by
        refine h.tracks.extend ?_ hrc (control_fdOf hloop.frame.1)
        rw [hlog]
        exact List.prefix_append _ _
      have hroom : env.room side = env₀.room side := by
        simp [Env.room, Env.makeWritable, h.buffers]
      obtain ⟨pre, hpre⟩ := h.log
      -- the side is marked only with one of the two reasons
      have hset : (r = some .closed ∨ (r = some .wouldBlock ∧ Env.peerHangup events = true ∧
          (last = [] → env₀.room side = 0))) →
          Tracks fd events env₀ { env' with session := env'.session.setReadClosed side } := by
        intro hreason
        refine ⟨htr.log, fun t ht => ?_, fun t => ?_⟩
        · by_cases hts : t = side
          · subst hts
            have hl : env'.log = env₀.log ++ (pre ++ (init ++ last) ++ []) := by
              rw [hlog, ← hpre]
              simp
            exact Or.inr ⟨hfd, hlive, herr, r, pre, init, last, [], hl, hend, hreason⟩
          · have ht' : env'.session.readClosed t = true := by
              cases side <;> cases t <;> first | exact ht | exact absurd rfl hts
            exact htr.closed t ht'
        · rw [← htr.fds t]
          cases side <;> cases t <;> rfl
      cases r with
      | none => exact htr
      | some r =>
        cases r with
        | progress => exact htr
        | closed => exact hset (Or.inl rfl)
        | error => exact htr.close
        | wouldBlock =>
          dsimp only
          split
          · rename_i hhup
            exact hset (Or.inr ⟨rfl, hhup, fun hl => by rw [← hroom]; exact (hwb rfl).2 hl⟩)
          · exact htr
  · exact h.tracks

theorem writePhase_tracks (side : Side) (now : Nat) (ans : Answers)
    (h : Tracks fd events env₀ env) :
    Tracks fd events env₀ (env.writePhase side events now ans).2 := by
  unfold Env.writePhase
  split
  · have hloop := Env.writeFrom_loop side now false ans.sends env
    cases he : env.writeFrom side now false ans.sends with
    | mk r env' =>
      rw [he] at hloop
      obtain ⟨calls, hlog, -⟩ := hloop.calls
      obtain ⟨-, -, hrc, -, -⟩ := control_fields hloop.frame.1
      have htr : Tracks fd events env₀ env' := by
        refine h.extend ?_ hrc (control_fdOf hloop.frame.1)
        rw [hlog]
        exact List.prefix_append _ _
      cases r with
      | none => exact htr
      | some r =>
        cases r with
        | progress => exact htr
        | wouldBlock => exact htr
        | closed => exact htr.close
        | error => exact htr.close
  · exact h

theorem halfClose_tracks (side : Side) (may : ProxySession → Bool)
    (h : Tracks fd events env₀ env) : Tracks fd events env₀ (env.halfClose side may) := by
  unfold Env.halfClose
  dsimp only
  split
  · exact h.extend (List.prefix_append _ _)
      (fun t => by cases side <;> cases t <;> rfl) (fun t => by cases side <;> cases t <;> rfl)
  · exact h

theorem finalPhase_tracks (env₀ : Env) :
    Phase.Spec (Tracks fd events env₀) Env.finalPhase (fun _ => Tracks fd events env₀) := by
  intro env h
  have hu : Tracks fd events env₀ env.updateHalfClose :=
    halfClose_tracks _ _ (halfClose_tracks _ _ h)
  unfold Env.finalPhase
  dsimp only
  split
  · exact hu.close
  · exact hu

theorem sidePhase_tracks (now : Nat) (ans : Answers) (env₀ : Env)
    (hlive : env₀.session.closing = false) (herr : has events EPOLLERR = false) :
    Phase.Spec (Unread env₀) (Env.sidePhase fd events now ans)
      (fun _ => Tracks fd events env₀) := by
  intro env h
  have hserve : ∀ side, env₀.session.fdOf side = fd →
      Tracks fd events env₀ (((Env.readPhase side events now ans).andThen
        (Env.writePhase side events now ans)) env).2 := by
    intro side hfd
    have hr : Tracks fd events env₀ (env.readPhase side events now ans).2 :=
      readPhase_tracks side now ans h hlive herr hfd
    unfold Phase.andThen
    cases he : env.readPhase side events now ans with
    | mk f env' =>
      rw [he] at hr
      cases f with
      | next => exact writePhase_tracks side now ans hr
      | ret b => exact hr
      | blocked => exact hr
  unfold Env.sidePhase
  split
  · rename_i hfd
    exact hserve .client (by rw [← h.fds]; exact hfd.symm)
  · split
    · rename_i hfd
      exact hserve .upstream (by rw [← h.fds]; exact hfd.symm)
    · exact h.close.tracks

/-- **Why a side is marked ended**, over one whole call. -/
theorem handleEvent_tracks (fd : Fd) (events : EventMask) (now : Nat) (ans : Answers) (env : Env) :
    Tracks fd events env (env.handleEvent fd events now ans).2 := by
  cases hlive : env.session.closing with
  | true =>
    have hret : env.handleEvent fd events now ans = (.ret false, env) := by
      simp [Env.handleEvent, Phase.andThen, Env.closedPhase, hlive]
    rw [hret]
    exact (Unread.refl env).tracks
  | false =>
    have hmid : ∀ f e, Unread env e → Phase.Mid (Unread env) (fun _ => Tracks fd events env) f e :=
      fun f e h => ⟨fun _ => h, fun _ => h.tracks⟩
    have hclosed : Phase.Spec (Unread env) Env.closedPhase
        (Phase.Mid (Unread env) (fun _ => Tracks fd events env)) := by
      intro e h
      unfold Env.closedPhase
      split <;> exact hmid _ _ h
    have herror : Phase.Spec (Unread env) (Env.errorPhase fd events ans)
        (Phase.Mid (fun e => Unread env e ∧ has events EPOLLERR = false)
          (fun _ => Tracks fd events env)) := by
      intro e h
      have hu : Unread env (e.errorPhase fd events ans).2 := errorPhase_unread ans env e h
      refine ⟨fun hf => ⟨hu, ?_⟩, fun _ => hu.tracks⟩
      cases herr : has events EPOLLERR with
      | false => rfl
      | true =>
        -- with the error bit set the phase never falls through
        unfold Env.errorPhase at hf
        rw [if_pos herr] at hf
        cases hans : ans.error <;> simp [hans] at hf
    have hside : Phase.Spec (fun e => Unread env e ∧ has events EPOLLERR = false)
        (Env.sidePhase fd events now ans)
        (Phase.Mid (Tracks fd events env) (fun _ => Tracks fd events env)) := by
      rintro e ⟨h, herr⟩
      have ht : Tracks fd events env (e.sidePhase fd events now ans).2 :=
        sidePhase_tracks now ans env hlive herr e h
      exact ⟨fun _ => ht, fun _ => ht⟩
    exact (hclosed.andThen <|
      ((connectPhase_unread now ans env).weaken (fun _ h => h) hmid).andThen <|
      herror.andThen <| hside.andThen (finalPhase_tracks env)) env (Unread.refl env)

end Tracking

/-! ## Session and kernel together -/

structure World where
  env : Env
  kernel : Kernel

inductive Move where
  | net
  | event (side : Side) (events : EventMask) (now : Nat) (answers : Answers)

namespace World

/-- A hang-up bit is reported only once the peer's FIN has arrived. -/
inductive Step (w : World) : Move → World → Prop
  | net {k : Kernel} (h : Kernel.Net w.kernel k) : Step w .net ⟨w.env, k⟩
  | event {side : Side} {events : EventMask} {now : Nat} {ans : Answers} {f : Flow} {env : Env}
      {calls : List Call} {k : Kernel}
      (hhup : Env.peerHangup events = true → (w.kernel.socket side).fin = true)
      (hcall : w.env.handleEvent (w.env.session.fdOf side) events now ans = (f, env))
      (hret : f ≠ .blocked) (hlog : env.log = w.env.log ++ calls)
      (hserve : Kernel.Serves w.kernel calls k) :
      Step w (.event side events now ans) ⟨env, k⟩

/-- The step taken when the network does not move during the call. -/
def handle (w : World) (side : Side) (events : EventMask) (now : Nat) (ans : Answers) : World :=
  let env := (w.env.handleEvent (w.env.session.fdOf side) events now ans).2
  ⟨env, ((env.log.drop w.env.log.length).foldlM Kernel.answer w.kernel).getD w.kernel⟩

theorem step_handle {w : World} {side : Side} {events : EventMask} {now : Nat} {ans : Answers}
    (hhup : Env.peerHangup events = true → (w.kernel.socket side).fin = true)
    (hret : (w.env.handleEvent (w.env.session.fdOf side) events now ans).1 ≠ .blocked)
    (hserve : (((w.handle side events now ans).env.log.drop w.env.log.length).foldlM
      Kernel.answer w.kernel).isSome = true) :
    Step w (.event side events now ans) (w.handle side events now ans) := by
  obtain ⟨k, hk⟩ := Option.isSome_iff_exists.mp hserve
  have hpre : w.env.log <+: (w.handle side events now ans).env.log :=
    (handleEvent_tracks (w.env.session.fdOf side) events now ans w.env).log
  have hkernel : (w.handle side events now ans).kernel = k := by
    show Option.getD (((w.handle side events now ans).env.log.drop w.env.log.length).foldlM
      Kernel.answer w.kernel) w.kernel = k
    rw [hk]
    rfl
  have hs := Step.event hhup rfl hret (List.prefix_iff_eq_append.mp hpre).symm (Kernel.Serves.of_answers hk)
  rw [← hkernel] at hs
  exact hs

/-- The epoll mask reported lies within the mask registered for the side. -/
def Subscribed (w : World) : Move → Prop
  | .net => True
  | .event side events _ _ =>
    events &&& ~~~(w.env.session.events side ||| EPOLLERR ||| EPOLLHUP) = 0

instance (w : World) (m : Move) : Decidable (Subscribed w m) :=
  match m with
  | .net => .isTrue trivial
  | .event _ _ _ _ => inferInstanceAs (Decidable (_ = _))

/-- The situation the session misreads: a hang-up bit on an open side whose
buffer is full while bytes are still queued. -/
def LosesBytes (w : World) : Move → Prop
  | .net => False
  | .event side events _ _ =>
    w.env.session.closing = false ∧ has events EPOLLERR = false ∧
      Env.peerHangup events = true ∧ w.env.session.readClosed side = false ∧
      (w.env.session.inbound side).readableBytes = (w.env.session.inbound side).capacity ∧
      (w.kernel.socket side).rx.held ≠ []

instance (w : World) (m : Move) : Decidable (LosesBytes w m) :=
  match m with
  | .net => .isFalse (fun h => h)
  | .event _ _ _ _ => inferInstanceAs (Decidable (_ ∧ _))

/-- When the session has shut down the upstream's write side, every byte the
client sent before its FIN had been passed on before; when it has ended
through `completed()`, every byte of the upstream has been sent. -/
def Untruncated (w : World) : Prop :=
  (∀ pre post, w.env.log = pre ++ .shutdownWrite .upstream :: post →
    w.kernel.client.fin = true ∧ sent .upstream pre = w.kernel.client.rx.pushed) ∧
  (w.env.session.closing = true → w.env.session.completed = true →
    w.kernel.upstream.fin = true ∧ sent .client w.env.log = w.kernel.upstream.rx.pushed)

/-- Session and kernel agree. -/
structure Coherent (cap : Nat) (c₀ : Bool) (ufd : Fd) (m₀ : Metrics) (w : World) : Prop where
  resting : Resting c₀ ufd w.env
  faithful : Faithful cap m₀ w.env
  inRange : ∀ c ∈ w.env.log, c.InRange
  distinct : w.env.session.clientFd ≠ w.env.session.upstreamFd
  delivered : ∀ side, (w.kernel.socket side).rx.popped = received side w.env.log
  ended : ∀ side, w.env.session.readClosed side = true →
    (w.kernel.socket side).rx.held = [] ∧ (w.kernel.socket side).fin = true

section Coherence

variable {cap : Nat} {c₀ : Bool} {ufd : Fd} {m₀ : Metrics} {w : World}

/-- A buffer is full for the code when it holds its capacity. -/
theorem room_zero (h : Coherent cap c₀ ufd m₀ w) {side : Side} (hroom : w.env.room side = 0) :
    (w.env.session.inbound side).readableBytes = (w.env.session.inbound side).capacity := by
  have hwf := (h.faithful h.inRange side).wf
  have hz : (w.env.session.inbound side).makeWritable.writableBytes = 0 := by
    simpa [Env.room, Env.makeWritable] using hroom
  rw [← ByteBuffer.readData_length hwf]
  exact (ByteBuffer.makeWritable_writable_zero hwf).mp hz

theorem fdOf_injective (h : Coherent cap c₀ ufd m₀ w) {s t : Side}
    (he : w.env.session.fdOf s = w.env.session.fdOf t) : s = t := by
  cases s <;> cases t
  · rfl
  · exact absurd he h.distinct
  · exact absurd he.symm h.distinct
  · rfl

/-- A side newly marked as ended really has ended, unless the step is one
that loses bytes. -/
theorem ended_of_closedBecause (h : Coherent cap c₀ ufd m₀ w) {side : Side} {events : EventMask}
    {now : Nat} {ans : Answers} {env : Env} {calls : List Call} {k : Kernel}
    (hhup : Env.peerHangup events = true → (w.kernel.socket side).fin = true)
    (hlog : env.log = w.env.log ++ calls) (hserve : Kernel.Serves w.kernel calls k)
    (hok : ¬ LosesBytes w (.event side events now ans))
    (hopen : w.env.session.readClosed side = false)
    (hb : ClosedBecause events w.env env side) :
    (k.socket side).rx.held = [] ∧ (k.socket side).fin = true := by
  obtain ⟨hlive, herr, r, pre, init, last, post, hl, hend, hr⟩ := hb
  have hcalls : calls = (pre ++ init) ++ (last ++ post) := by
    have := List.append_cancel_left (hlog.symm.trans hl)
    rw [this]
    simp
  rw [hcalls] at hserve
  obtain ⟨k₁, hs₁, hs₂⟩ := hserve.split
  obtain ⟨k₂, hs₃, hs₄⟩ := hs₂.split
  have hlater := (hs₄.spec side).2.1
  rcases hr with rfl | ⟨rfl, hhang, hfull⟩
  · -- the loop met the end of file
    cases hend with
    | eof length =>
      obtain ⟨he, hf⟩ := hs₃.eof
      exact ⟨hlater.ended hf he, hlater.fin hf⟩
    | full r hr => simp at hr
    | again r hr length e he => simp at hr
  · have hfin := hhup hhang
    have hfin₁ := (hs₁.spec side).2.1.fin hfin
    cases hend with
    | full r hr =>
      -- the local buffer is full: the guard says that nothing is queued
      have hq : (w.kernel.socket side).rx.held = [] := by
        by_contra hne
        exact hok ⟨hlive, herr, hhang, hopen, room_zero h (hfull rfl), hne⟩
      have hall := ((hs₁.spec side).2.1.trans (hs₃.spec side).2.1).trans hlater
      exact ⟨hall.ended hfin hq, hall.fin hfin⟩
    | again r hr length e he =>
      -- `EAGAIN` is impossible once the FIN has arrived
      have := hs₃.again_open he
      simp [hfin₁] at this

theorem Coherent.net (h : Coherent cap c₀ ufd m₀ w) {k : Kernel} (hn : Kernel.Net w.kernel k) :
    Coherent cap c₀ ufd m₀ ⟨w.env, k⟩ where
  resting := h.resting
  faithful := h.faithful
  inRange := h.inRange
  distinct := h.distinct
  delivered side := (Kernel.net_popped hn side).trans (h.delivered side)
  ended side hr := by
    obtain ⟨he, hf⟩ := h.ended side hr
    have hl := Kernel.net_later hn side
    exact ⟨hl.ended hf he, hl.fin hf⟩

theorem Coherent.event (h : Coherent cap c₀ ufd m₀ w) {side : Side} {events : EventMask}
    {now : Nat} {ans : Answers} {f : Flow} {env : Env} {calls : List Call} {k : Kernel}
    (hhup : Env.peerHangup events = true → (w.kernel.socket side).fin = true)
    (hcall : w.env.handleEvent (w.env.session.fdOf side) events now ans = (f, env))
    (hret : f ≠ .blocked) (hlog : env.log = w.env.log ++ calls)
    (hserve : Kernel.Serves w.kernel calls k)
    (hok : ¬ LosesBytes w (.event side events now ans)) :
    Coherent cap c₀ ufd m₀ ⟨env, k⟩ := by
  have hsound := handleEvent_sound c₀ ufd (w.env.session.fdOf side) events now ans w.env h.resting
  have hfaith := handleEvent_faithful cap m₀ (w.env.session.fdOf side) events now ans w.env h.faithful
  have htrack := handleEvent_tracks (w.env.session.fdOf side) events now ans w.env
  rw [hcall] at hsound hfaith htrack
  refine ⟨hsound.2 hret, hfaith, ?_, ?_, ?_, ?_⟩
  · intro c hc
    rw [hlog] at hc
    rcases List.mem_append.mp hc with hc | hc
    · exact h.inRange c hc
    · exact (hserve.spec side).1 c hc
  · have hc := htrack.fds .client
    have hu := htrack.fds .upstream
    simp only [ProxySession.fdOf] at hc hu
    rw [hc, hu]
    exact h.distinct
  · intro t
    rw [(hserve.spec t).2.2, h.delivered t, ← received_append, ← hlog]
  · intro t ht
    have hlater := (hserve.spec t).2.1
    cases hwas : w.env.session.readClosed t with
    | true =>
      obtain ⟨he, hf⟩ := h.ended t hwas
      exact ⟨hlater.ended hf he, hlater.fin hf⟩
    | false =>
      rcases htrack.closed t ht with hold | ⟨hfd, hb⟩
      · simp [hwas] at hold
      · obtain rfl := fdOf_injective h hfd
        exact ended_of_closedBecause h hhup hlog hserve hok hwas hb

theorem coherent_step (w w' : World) (m : Move) (h : Coherent cap c₀ ufd m₀ w)
    (hs : Guarded (fun w m => ¬ LosesBytes w m) Step w m w') : Coherent cap c₀ ufd m₀ w' := by
  obtain ⟨hok, hstep⟩ := hs
  cases hstep with
  | net hn => exact h.net hn
  | event hhup hcall hret hlog hserve => exact h.event hhup hcall hret hlog hserve hok

/-- An ended side whose buffer is empty has been forwarded whole: the kernel's
receive queue and the session's buffer are two empty pipes in a row. -/
theorem Coherent.forwarded (h : Coherent cap c₀ ufd m₀ w) {side : Side}
    (hr : w.env.session.readClosed side = true) (he : (w.env.session.inbound side).empty = true) :
    (w.kernel.socket side).fin = true ∧
      sent side.other w.env.log = (w.kernel.socket side).rx.pushed := by
  obtain ⟨hq, hf⟩ := h.ended side hr
  have hrel := h.faithful h.inRange side
  let buffer : Pipe Byte := ⟨_, _, _, hrel.bytes⟩
  exact ⟨hf, Pipe.chain_drained (w.kernel.socket side).rx buffer (h.delivered side) hq
    ((ByteBuffer.empty_iff hrel.wf).mp he)⟩

theorem Coherent.untruncated (h : Coherent cap c₀ ufd m₀ w) : Untruncated w := by
  obtain ⟨hs, -⟩ := h.resting
  refine ⟨?_, ?_⟩
  · intro pre post hlog
    have hshut := hs.shutdown .upstream (by rw [hlog]; simp)
    obtain ⟨hr, he, -⟩ := hs.upstreamShutdown hshut
    have hfw : (w.kernel.socket .client).fin = true ∧
        sent Side.client.other w.env.log = (w.kernel.socket .client).rx.pushed :=
      h.forwarded hr he
    obtain ⟨hf, hsent⟩ := hfw
    refine ⟨hf, ?_⟩
    -- nothing is sent to the upstream after the shutdown, so all of it was sent before
    have hpost : sent .upstream (.shutdownWrite .upstream :: post) = [] := by
      rw [sent, List.flatMap_eq_nil_iff]
      intro c hc
      obtain ⟨l, r, hlr⟩ := List.append_of_mem hc
      cases c with
      | send side data result =>
        have hok := hs.calls (pre ++ l) (.send side data result) r (by rw [hlog, hlr]; simp)
        cases side with
        | client => cases result <;> simp [Call.bytesTo]
        | upstream =>
          cases l with
          | nil => simp at hlr
          | cons d l =>
            obtain ⟨rfl, -⟩ := List.cons.inj hlr
            exact absurd (by simp) hok.1
      | recv side length result => simp [Call.bytesTo]
      | soError fd result => simp [Call.bytesTo]
      | shutdownWrite side => simp [Call.bytesTo]
    calc sent .upstream pre
        = sent .upstream pre ++ sent .upstream (.shutdownWrite .upstream :: post) := by
          rw [hpost, List.append_nil]
      _ = sent .upstream w.env.log := by rw [← sent_append, ← hlog]
      _ = w.kernel.client.rx.pushed := hsent
  · intro _ hcomp
    obtain ⟨hr, he⟩ : w.env.session.upstreamReadClosed = true ∧
        w.env.session.upstreamToClient.empty = true := by
      simpa [ProxySession.completed] using hcomp
    have hfw : (w.kernel.socket .upstream).fin = true ∧
        sent Side.upstream.other w.env.log = (w.kernel.socket .upstream).rx.pushed :=
      h.forwarded hr he
    exact hfw

end Coherence

/-- A new session on a kernel whose queues are empty. -/
def start (cap id : Nat) (cfd ufd : Fd) (connecting : Bool) (b now : Nat) (backend : Backend)
    (m₀ : Metrics) (clientSpace upstreamSpace : Nat) : World :=
  ⟨.start (.new id cfd ufd connecting b cap now) backend m₀,
    .start clientSpace upstreamSpace⟩

/-- **No truncation, where the hang-up is not misread.** In every run without
a step that loses bytes, in every state reached, nothing is truncated. -/
theorem run_untruncated (cap id : Nat) (cfd ufd : Fd) (connecting : Bool) (b now : Nat)
    (backend : Backend) (m₀ : Metrics) (clientSpace upstreamSpace : Nat) (hfd : cfd ≠ ufd)
    (moves : List Move) (w : World)
    (hrun : Run (Guarded (fun w m => ¬ LosesBytes w m) Step)
      (start cap id cfd ufd connecting b now backend m₀ clientSpace upstreamSpace) moves w) :
    Untruncated w := by
  have hstart : Coherent cap (!connecting) ufd m₀
      (start cap id cfd ufd connecting b now backend m₀ clientSpace upstreamSpace) := by
    refine ⟨start_resting cap id cfd ufd connecting b now backend m₀,
      start_faithful cap id cfd ufd connecting b now backend m₀, ?_, hfd, ?_, ?_⟩
    · intro c hc
      simp [start, Env.start] at hc
    · intro side
      cases side <;> rfl
    · intro side hr
      cases side <;> simp [start, Env.start, ProxySession.new, ProxySession.readClosed] at hr
  exact (hrun.invariant (fun s a t hs ha => coherent_step s t a hs ha) hstart).untruncated

/-- A client whose bytes are all read before its FIN arrives: a run that
forwards everything and then shuts the upstream down. -/
theorem run_untruncated_two_bytes :
    ∃ moves w, Run (Guarded (fun w m => ¬ LosesBytes w m) Step)
        (start 2 1 10 11 false 0 0 (.new ⟨"app", "127.0.0.1", 9001, 1⟩) .new 8 8) moves w ∧
      .shutdownWrite .upstream ∈ w.env.log ∧ Untruncated w := by
  let w₀ := start 2 1 10 11 false 0 0 (.new ⟨"app", "127.0.0.1", 9001, 1⟩) .new 8 8
  let w₁ : World := ⟨w₀.env, w₀.kernel.set .client
    { w₀.kernel.client with rx := w₀.kernel.client.rx.push [1, 2] }⟩
  let w₂ := w₁.handle .client EPOLLIN 1 ⟨none, none, [.ok [1, 2]], []⟩
  let w₃ : World := ⟨w₂.env, w₂.kernel.set .client { w₂.kernel.client with fin := true }⟩
  let w₄ := w₃.handle .upstream EPOLLOUT 2 ⟨none, none, [], [.ok 2]⟩
  let w₅ := w₄.handle .client EPOLLRDHUP 3 ⟨none, none, [.ok []], []⟩
  have h₁ : Step w₀ .net w₁ := .net (.arrive .client [1, 2] rfl)
  have h₂ : Step w₁ _ w₂ := step_handle (by decide) (by decide) (by decide)
  have h₃ : Step w₂ .net w₃ := .net (.fin .client)
  have h₄ : Step w₃ _ w₄ := step_handle (by decide) (by decide) (by decide)
  have h₅ : Step w₄ _ w₅ := step_handle (by decide) (by decide) (by decide)
  have hrun : Run (Guarded (fun w m => ¬ LosesBytes w m) Step) w₀ _ w₅ :=
    ((((Run.nil.snoc ⟨by decide, h₁⟩).snoc ⟨by decide, h₂⟩).snoc ⟨by decide, h₃⟩).snoc
      ⟨by decide, h₄⟩).snoc ⟨by decide, h₅⟩
  exact ⟨_, w₅, hrun, by decide, run_untruncated 2 1 10 11 false 0 0 _ .new 8 8 (by decide) _ _ hrun⟩

/-- A client that sends two bytes and its FIN to a session with room for one:
under events the session subscribed to, the upstream is shut down while the
second byte is still queued. -/
theorem truncates_when_full :
    ∃ moves w, Run (Guarded Subscribed Step)
        (start 1 1 10 11 false 0 0 (.new ⟨"app", "127.0.0.1", 9001, 1⟩) .new 8 8) moves w ∧
      ¬ Untruncated w := by
  let w₀ := start 1 1 10 11 false 0 0 (.new ⟨"app", "127.0.0.1", 9001, 1⟩) .new 8 8
  let w₁ : World := ⟨w₀.env, w₀.kernel.set .client
    { w₀.kernel.client with rx := w₀.kernel.client.rx.push [1, 2] }⟩
  let w₂ : World := ⟨w₁.env, w₁.kernel.set .client { w₁.kernel.client with fin := true }⟩
  let w₃ := w₂.handle .client (EPOLLIN ||| EPOLLRDHUP) 1 ⟨none, none, [.ok [1]], []⟩
  let w₄ := w₃.handle .client EPOLLRDHUP 2 ⟨none, none, [], []⟩
  let w₅ := w₄.handle .upstream EPOLLOUT 3 ⟨none, none, [], [.ok 1]⟩
  have h₁ : Step w₀ .net w₁ := .net (.arrive .client [1, 2] rfl)
  have h₂ : Step w₁ .net w₂ := .net (.fin .client)
  have h₃ : Step w₂ _ w₃ := step_handle (by decide) (by decide) (by decide)
  have h₄ : Step w₃ _ w₄ := step_handle (by decide) (by decide) (by decide)
  have h₅ : Step w₄ _ w₅ := step_handle (by decide) (by decide) (by decide)
  have hrun : Run (Guarded Subscribed Step) w₀ _ w₅ :=
    ((((Run.nil.snoc ⟨by decide, h₁⟩).snoc ⟨by decide, h₂⟩).snoc ⟨by decide, h₃⟩).snoc
      ⟨by decide, h₄⟩).snoc ⟨by decide, h₅⟩
  have hnot : ¬ Untruncated w₅ := by
    intro h
    have hpre : w₅.env.log = w₅.env.log.take 2 ++ .shutdownWrite .upstream :: [] := by decide
    exact absurd (h.1 _ _ hpre).2 (by decide)
  exact ⟨_, w₅, hrun, hnot⟩

end World

end FluxGate
