import FluxGate.Relay
import FluxGate.Lib.Run

/-!
# The half-close state machine

`HalfClose` is what holds of a live session between two calls of
`handleEvent`. It rests on `Sound`, which holds at every point of a run and
ties the flags of the session to the calls in the log: a `shutdown` was
issued only where the flag is set, an end of file was read only where the
read side is marked closed, and so on. From `Sound` each new call is seen to
be admissible (`CallOk`), which gives the ordering facts over whole runs.
-/

namespace FluxGate

open Lib

/-- `recv` on `side` has returned 0. -/
def SawEof (side : Side) (log : List Call) : Prop := ∃ length, .recv side length (.ok []) ∈ log

/-- The connect of the upstream socket has ended well: at once (`c₀`), or with
`SO_ERROR` read as 0. -/
def Connected (c₀ : Bool) (ufd : Fd) (log : List Call) : Prop :=
  c₀ = true ∨ .soError ufd (.ok none) ∈ log

/-- When a call may follow the calls before it. -/
def CallOk (c₀ : Bool) (ufd : Fd) (pre : List Call) : Call → Prop
  | .recv side _ _ => ¬ SawEof side pre
  | .send side _ _ => .shutdownWrite side ∉ pre ∧ (side = .upstream → Connected c₀ ufd pre)
  | .shutdownWrite side => .shutdownWrite side ∉ pre
  | .soError _ _ => True

structure Sound (c₀ : Bool) (ufd : Fd) (env : Env) : Prop where
  calls : Along (CallOk c₀ ufd) env.log
  fd : env.session.upstreamFd = ufd
  shutdown : ∀ side, .shutdownWrite side ∈ env.log → env.session.writeShutdown side = true
  eof : ∀ side, SawEof side env.log → env.session.readClosed side = true
  connected : env.session.upstreamConnecting = false → Connected c₀ ufd env.log
  connecting : env.session.upstreamConnecting = true →
    env.session.upstreamToClient.empty = true ∧ env.session.upstreamReadClosed = false
  upstreamShutdown : env.session.upstreamWriteShutdown = true →
    env.session.clientReadClosed = true ∧ env.session.clientToUpstream.empty = true ∧
      env.session.upstreamConnecting = false
  clientShutdown : env.session.clientWriteShutdown = true → env.session.closing = true

/-- The state machine between two calls. -/
structure HalfClose (s : ProxySession) : Prop where
  upstreamShutdown : s.upstreamWriteShutdown = true ↔
    s.clientReadClosed = true ∧ s.clientToUpstream.empty = true ∧ s.upstreamConnecting = false
  clientShutdown : s.clientWriteShutdown = false
  upstreamClosed : s.upstreamReadClosed = true → s.upstreamToClient.empty = false
  connecting : s.upstreamConnecting = true →
    s.upstreamToClient.empty = true ∧ s.upstreamReadClosed = false ∧
      s.upstreamWriteShutdown = false

/-- `Sound` with the session live. -/
def Live (c₀ : Bool) (ufd : Fd) (env : Env) : Prop :=
  Sound c₀ ufd env ∧ env.session.closing = false

/-- Between two calls. -/
def Resting (c₀ : Bool) (ufd : Fd) (env : Env) : Prop :=
  Sound c₀ ufd env ∧ (env.session.closing = false → HalfClose env.session)

section Steps

variable {c₀ : Bool} {ufd : Fd} {env env' : Env}

theorem Connected.mono {log : List Call} (h : Connected c₀ ufd log) (calls : List Call) :
    Connected c₀ ufd (log ++ calls) :=
  h.imp id (List.mem_append_left _)

theorem Sound.close (h : Sound c₀ ufd env) : Sound c₀ ufd env.close :=
  { h with
    shutdown := fun side hs => by cases side <;> exact h.shutdown _ hs
    eof := fun side hs => by cases side <;> exact h.eof _ hs
    clientShutdown := fun _ => rfl }

theorem Sound.exit_close (h : Sound c₀ ufd env) (f : Flow) :
    Point (Sound c₀ ufd) (Resting c₀ ufd) f env.close :=
  ⟨h.close, fun _ => ⟨h.close, fun hc => absurd hc (by simp [Env.close, ProxySession.markClosing])⟩⟩

/-- The flags are read off the control state. -/
theorem control_fields {s t : ProxySession} (h : s.control = t.control) :
    s.upstreamFd = t.upstreamFd ∧ s.upstreamConnecting = t.upstreamConnecting ∧
      (∀ side, s.readClosed side = t.readClosed side) ∧
      (∀ side, s.writeShutdown side = t.writeShutdown side) ∧ s.closing = t.closing := by
  simp only [ProxySession.control, ProxySession.Control.mk.injEq] at h
  obtain ⟨-, h2, h3, h4, h5, h6, h7, h8⟩ := h
  refine ⟨h2, h3, ?_, ?_, h8⟩
  · intro side
    cases side <;> assumption
  · intro side
    cases side <;> assumption

/-- Calls other than a `shutdown`, made while the control state and the
relevant buffers stay put. -/
theorem Sound.extend (calls : List Call) (h : Sound c₀ ufd env)
    (hlog : env'.log = env.log ++ calls) (hctl : env'.session.control = env.session.control)
    (hok : ∀ pre c post, calls = pre ++ c :: post → CallOk c₀ ufd (env.log ++ pre) c)
    (hshut : ∀ side, .shutdownWrite side ∉ calls)
    (heof : ∀ side, SawEof side calls → env.session.readClosed side = true)
    (hu2c : env.session.upstreamConnecting = true →
      env'.session.upstreamToClient.empty = env.session.upstreamToClient.empty)
    (hc2u : env.session.upstreamWriteShutdown = true →
      env'.session.clientToUpstream.empty = env.session.clientToUpstream.empty) :
    Sound c₀ ufd env' := by
  obtain ⟨h1, h2, h3, h4, h5⟩ := control_fields hctl
  have hrc := h3 .client
  have hru := h3 .upstream
  have hwc := h4 .client
  have hwu := h4 .upstream
  simp only [ProxySession.readClosed] at hrc hru
  simp only [ProxySession.writeShutdown] at hwc hwu
  refine ⟨?_, ?_, ?_, ?_, ?_, ?_, ?_, ?_⟩
  · rw [hlog]
    exact h.calls.append hok
  · rw [h1]
    exact h.fd
  · intro side hs
    rw [hlog] at hs
    rw [h4]
    exact h.shutdown side ((List.mem_append.mp hs).resolve_right (hshut side))
  · rintro side ⟨len, hs⟩
    rw [hlog] at hs
    rw [h3]
    rcases List.mem_append.mp hs with hs | hs
    · exact h.eof side ⟨len, hs⟩
    · exact heof side ⟨len, hs⟩
  · rw [h2, hlog]
    exact fun hc => (h.connected hc).mono calls
  · rw [h2, hru]
    intro hc
    rw [hu2c hc]
    exact h.connecting hc
  · rw [h2, hrc, hwu]
    intro hs
    rw [hc2u hs]
    exact h.upstreamShutdown hs
  · rw [hwc, h5]
    exact h.clientShutdown

theorem Sound.soError (h : Sound c₀ ufd env) (fd : Fd) (r : SoError) :
    Sound c₀ ufd (env.record (.soError fd r)) := by
  have hlog : (env.record (.soError fd r)).log = env.log ++ [.soError fd r] := rfl
  apply h.extend _ hlog rfl
  · intro pre c post hc
    have hm : c ∈ [Call.soError fd r] := by rw [hc]; simp
    rw [List.mem_singleton.mp hm]
    trivial
  · simp
  · simp [SawEof]
  · exact fun _ => rfl
  · exact fun _ => rfl

theorem not_sawEof_append {side : Side} {log pre : List Call} (h : ¬ SawEof side log)
    (hpre : ∀ c ∈ pre, Env.Continues side c) : ¬ SawEof side (log ++ pre) := by
  rintro ⟨len, hs⟩
  rcases List.mem_append.mp hs with hs | hs
  · exact h ⟨len, hs⟩
  · obtain ⟨_, _, hc, hne, -⟩ := hpre _ hs
    cases hc
    exact hne rfl

theorem ReadEnd.recv {side : Side} {r : Option IoResult} {last : List Call}
    (h : Env.ReadEnd side r last) :
    last.length ≤ 1 ∧ ∀ c ∈ last, ∃ length result, c = .recv side length result := by
  cases h <;> simp

/-- Every call of a read loop is a `recv` on its side, before any end of file. -/
theorem readCalls_ok {side : Side} {log init last : List Call} {r : Option IoResult}
    (h : ¬ SawEof side log) (hinit : ∀ c ∈ init, Env.Continues side c)
    (hlast : Env.ReadEnd side r last) (pre : List Call) (c : Call) (post : List Call)
    (hc : init ++ last = pre ++ c :: post) : CallOk c₀ ufd (log ++ pre) c := by
  obtain ⟨hlen, hrecv⟩ := ReadEnd.recv hlast
  -- only the last call may be an end of file, and nothing stands before `c` but earlier calls
  have hpre : pre <+: init := by
    apply List.prefix_of_prefix_length_le (hc ▸ List.prefix_append _ _) (List.prefix_append init last)
    have := congrArg List.length hc
    simp only [List.length_append, List.length_cons] at this
    omega
  have hside : ∃ length result, c = .recv side length result := by
    have hm : c ∈ init ++ last := by rw [hc]; simp
    rcases List.mem_append.mp hm with hm | hm
    · obtain ⟨length, result, hcall, -⟩ := hinit c hm
      exact ⟨length, result, hcall⟩
    · exact hrecv c hm
  obtain ⟨length, result, rfl⟩ := hside
  exact not_sawEof_append h (fun d hd => hinit d (hpre.subset hd))

/-- An end of file is read only on the loop's own side, and then the loop
reports it. -/
theorem readCalls_quiet {side : Side} {init last : List Call} {r : Option IoResult}
    (hinit : ∀ c ∈ init, Env.Continues side c) (hlast : Env.ReadEnd side r last) (t : Side) :
    .shutdownWrite t ∉ init ++ last ∧
      (SawEof t (init ++ last) → t = side ∧ r = some .closed) := by
  constructor
  · intro hm
    rcases List.mem_append.mp hm with hm | hm
    · obtain ⟨_, _, hcall, -⟩ := hinit _ hm
      cases hcall
    · obtain ⟨_, _, hcall⟩ := (ReadEnd.recv hlast).2 _ hm
      cases hcall
  · rintro ⟨len, hm⟩
    rcases List.mem_append.mp hm with hm | hm
    · obtain ⟨_, _, hcall, hne, -⟩ := hinit _ hm
      cases hcall
      exact absurd rfl hne
    · cases hlast <;> simp_all

theorem Sound.setReadClosed (h : Sound c₀ ufd env) (side : Side)
    (hc : side = .upstream → env.session.upstreamConnecting = false) :
    Sound c₀ ufd { env with session := env.session.setReadClosed side } := by
  cases side with
  | client =>
    exact { h with
      shutdown := fun t ht => by cases t <;> exact h.shutdown _ ht
      eof := fun t ht => by cases t <;> first | rfl | exact h.eof .upstream ht
      upstreamShutdown := fun hs => ⟨rfl, (h.upstreamShutdown hs).2⟩ }
  | upstream =>
    exact { h with
      shutdown := fun t ht => by cases t <;> exact h.shutdown _ ht
      eof := fun t ht => by cases t <;> first | rfl | exact h.eof .client ht
      connecting := fun hcon => absurd (hcon.symm.trans (hc rfl)) (by simp) }

theorem control_setReadClosed {s t : ProxySession} (h : s.control = t.control) (side : Side) :
    (s.setReadClosed side).control = (t.setReadClosed side).control := by
  simp only [ProxySession.control, ProxySession.Control.mk.injEq] at h
  obtain ⟨h1, h2, h3, h4, h5, h6, h7, h8⟩ := h
  cases side <;> simp [ProxySession.control, ProxySession.setReadClosed, *]

/-- A read loop run on an open side. -/
theorem Sound.readLoop {side : Side} {now : Nat} {p : Bool} {r : Option IoResult}
    (h : Sound c₀ ufd env) (hopen : env.session.readClosed side = false)
    (hc : side = .upstream → env.session.upstreamConnecting = false)
    (hloop : Env.ReadLoop side now p env r env') :
    (r ≠ some .closed → Sound c₀ ufd env') ∧
      (r = some .closed →
        Sound c₀ ufd { env' with session := env'.session.setReadClosed side }) := by
  obtain ⟨init, last, hlog, hinit, hlast, -⟩ := hloop.calls
  obtain ⟨hctl, hother⟩ := hloop.frame
  have hno : ¬ SawEof side env.log := fun hs => by simp [h.eof side hs] at hopen
  have hok : ∀ pre c post, init ++ last = pre ++ c :: post → CallOk c₀ ufd (env.log ++ pre) c :=
    readCalls_ok hno hinit hlast
  have hquiet := readCalls_quiet hinit hlast
  have hu2c : env.session.upstreamConnecting = true →
      env'.session.upstreamToClient.empty = env.session.upstreamToClient.empty := by
    intro hcon
    cases side with
    | client => exact congrArg ByteBuffer.empty hother
    | upstream => simp [hc rfl] at hcon
  have hc2u : env.session.upstreamWriteShutdown = true →
      env'.session.clientToUpstream.empty = env.session.clientToUpstream.empty := by
    intro hs
    cases side with
    | client =>
      have : env.session.clientReadClosed = false := hopen
      simp [(h.upstreamShutdown hs).1] at this
    | upstream => exact congrArg ByteBuffer.empty hother
  constructor
  · intro hr
    exact h.extend _ hlog hctl hok (fun t => (hquiet t).1)
      (fun t ht => absurd ((hquiet t).2 ht).2 hr) hu2c hc2u
  · intro _
    -- mark the side closed first, then make the calls: `eof` holds throughout
    have h1 := h.setReadClosed side hc
    have hset : ∀ s : ProxySession, (s.setReadClosed side).readClosed side = true := by
      intro s
      cases side <;> rfl
    refine h1.extend _ hlog (control_setReadClosed hctl side) hok (fun t => (hquiet t).1)
      (fun t ht => ?_) ?_ ?_
    · obtain ⟨rfl, -⟩ := (hquiet t).2 ht
      exact hset _
    · intro hcon
      cases side <;> exact hu2c hcon
    · intro hs
      cases side <;> exact hc2u hs

theorem Sound.writeLoop {side : Side} {now : Nat} {p : Bool} {r : Option IoResult}
    (h : Sound c₀ ufd env) (hlive : env.session.closing = false)
    (hfull : (env.session.outbound side).empty = false)
    (hc : side = .upstream → env.session.upstreamConnecting = false)
    (hloop : Env.WriteLoop side now p env r env') : Sound c₀ ufd env' := by
  obtain ⟨calls, hlog, hcalls⟩ := hloop.calls
  obtain ⟨hctl, hother⟩ := hloop.frame
  have hshut : env.session.writeShutdown side = false := by
    cases hs : env.session.writeShutdown side with
    | false => rfl
    | true =>
      cases side with
      | client => simp [h.clientShutdown hs] at hlive
      | upstream =>
        have : env.session.clientToUpstream.empty = false := hfull
        simp [(h.upstreamShutdown hs).2.1] at this
  have hno : .shutdownWrite side ∉ env.log := fun hm => by simp [h.shutdown side hm] at hshut
  refine h.extend calls hlog hctl ?_ ?_ ?_ ?_ ?_
  · intro pre c post hpre
    obtain ⟨data, result, rfl⟩ := hcalls c (by rw [hpre]; simp)
    refine ⟨?_, fun hside => (h.connected (hc hside)).mono pre⟩
    intro hm
    rcases List.mem_append.mp hm with hm | hm
    · exact hno hm
    · obtain ⟨_, _, hcall⟩ := hcalls _ (by rw [hpre]; exact List.mem_append_left _ hm)
      cases hcall
  · intro t hm
    obtain ⟨_, _, hcall⟩ := hcalls _ hm
    cases hcall
  · rintro t ⟨len, hm⟩
    obtain ⟨_, _, hcall⟩ := hcalls _ hm
    cases hcall
  · intro hcon
    cases side with
    | client =>
      have : env.session.upstreamToClient.empty = false := hfull
      simp [(h.connecting hcon).1] at this
    | upstream => exact congrArg ByteBuffer.empty hother
  · intro hs
    cases side with
    | client => exact congrArg ByteBuffer.empty hother
    | upstream => simp [show env.session.upstreamWriteShutdown = false from hshut] at hs

/-- `updateHalfClose` ends the upstream's write direction. -/
theorem Sound.shutUpstream (h : Sound c₀ ufd env) (hr : env.session.clientReadClosed = true)
    (he : env.session.clientToUpstream.empty = true)
    (hn : env.session.upstreamWriteShutdown = false)
    (hc : env.session.upstreamConnecting = false) :
    Sound c₀ ufd { env.record (.shutdownWrite .upstream) with
      session := env.session.setWriteShutdown .upstream } := by
  have hno : .shutdownWrite .upstream ∉ env.log := fun hm => by
    simp [show env.session.upstreamWriteShutdown = true from h.shutdown .upstream hm] at hn
  refine ⟨?_, h.fd, ?_, ?_, fun _ => (h.connected hc).mono _, ?_, fun _ => ⟨hr, he, hc⟩, ?_⟩
  · exact h.calls.snoc hno
  · intro t ht
    cases t with
    | client => exact h.shutdown .client (by simpa [Env.record] using ht)
    | upstream => rfl
  · rintro t ⟨len, ht⟩
    have hm : .recv t len (.ok []) ∈ env.log := by simpa [Env.record] using ht
    cases t <;> exact h.eof _ ⟨len, hm⟩
  · exact h.connecting
  · exact h.clientShutdown

/-- Ending the client's write direction: the session is closed at once. -/
theorem Sound.shutClient (h : Sound c₀ ufd env) (hn : env.session.clientWriteShutdown = false) :
    Sound c₀ ufd (Env.close { env.record (.shutdownWrite .client) with
      session := env.session.setWriteShutdown .client }) := by
  have hno : .shutdownWrite .client ∉ env.log := fun hm => by
    simp [show env.session.clientWriteShutdown = true from h.shutdown .client hm] at hn
  refine ⟨?_, h.fd, ?_, ?_, fun hc => (h.connected hc).mono _, h.connecting,
    h.upstreamShutdown, fun _ => rfl⟩
  · exact h.calls.snoc hno
  · intro t ht
    cases t with
    | client => rfl
    | upstream => exact h.shutdown .upstream (by simpa [Env.close, Env.record] using ht)
  · rintro t ⟨len, ht⟩
    have hm : .recv t len (.ok []) ∈ env.log := by simpa [Env.close, Env.record] using ht
    cases t <;> exact h.eof _ ⟨len, hm⟩

/-- What the first half of `updateHalfClose` establishes. -/
theorem Live.halfClose_client (h : Live c₀ ufd env) :
    Live c₀ ufd (env.halfClose .client (fun s => !s.upstreamConnecting)) ∧
      ((env.halfClose .client (fun s => !s.upstreamConnecting)).session.upstreamWriteShutdown = true ↔
        (env.halfClose .client (fun s => !s.upstreamConnecting)).session.clientReadClosed = true ∧
        (env.halfClose .client (fun s => !s.upstreamConnecting)).session.clientToUpstream.empty = true ∧
        (env.halfClose .client (fun s => !s.upstreamConnecting)).session.upstreamConnecting = false) := by
  obtain ⟨hs, hl⟩ := h
  unfold Env.halfClose
  dsimp only
  split
  · rename_i hcond
    simp only [ProxySession.readClosed, ProxySession.inbound, ProxySession.writeShutdown,
      Side.other, Bool.and_eq_true, Bool.not_eq_true'] at hcond
    obtain ⟨⟨⟨hr, he⟩, hn⟩, hc⟩ := hcond
    exact ⟨⟨hs.shutUpstream hr he hn hc, hl⟩, fun _ => ⟨hr, he, hc⟩, fun _ => rfl⟩
  · rename_i hcond
    refine ⟨⟨hs, hl⟩, hs.upstreamShutdown, ?_⟩
    rintro ⟨hr, he, hc⟩
    simpa [ProxySession.readClosed, ProxySession.inbound, ProxySession.writeShutdown, Side.other,
      hr, he, hc] using hcond

end Steps

/-! ## The phases of `handleEvent` -/

section Phases

variable (c₀ : Bool) (ufd fd : Fd) (events : EventMask) (now : Nat) (ans : Answers)

/-- How a phase of `handleEvent` may leave: live into the next phase, or at
rest out of the function. -/
def LiveMid : Flow → Env → Prop :=
  Phase.Mid (Live c₀ ufd) (Point (Sound c₀ ufd) (Resting c₀ ufd))

/-- Falling through. -/
theorem liveMid_next {env : Env} (h : Sound c₀ ufd env) (hl : env.session.closing = false) :
    LiveMid c₀ ufd .next env :=
  ⟨fun _ => ⟨h, hl⟩, fun hf => absurd rfl hf⟩

/-- Leaving, or stopping for an answer. -/
theorem liveMid_exit {env : Env} {f : Flow} (hf : f ≠ .next)
    (h : Point (Sound c₀ ufd) (Resting c₀ ufd) f env) : LiveMid c₀ ufd f env :=
  ⟨fun he => absurd he hf, fun _ => h⟩

theorem liveMid_blocked {env : Env} (h : Sound c₀ ufd env) : LiveMid c₀ ufd .blocked env :=
  liveMid_exit c₀ ufd (by simp) ⟨h, fun hf => absurd rfl hf⟩

theorem liveMid_close {env : Env} (h : Sound c₀ ufd env) (b : Bool) :
    LiveMid c₀ ufd (.ret b) env.close :=
  liveMid_exit c₀ ufd (by simp) (h.exit_close _)

theorem readPhase_sound (side : Side) (env : Env) (h : Live c₀ ufd env)
    (hc : side = .upstream → env.session.upstreamConnecting = false) :
    LiveMid c₀ ufd (env.readPhase side events now ans).1 (env.readPhase side events now ans).2 ∧
      (env.readPhase side events now ans).2.session.upstreamConnecting =
        env.session.upstreamConnecting := by
  obtain ⟨hs, hl⟩ := h
  unfold Env.readPhase
  split
  · rename_i hcond
    have hopen : env.session.readClosed side = false := by
      cases hrc : env.session.readClosed side <;> simp_all
    have hloop := Env.readInto_loop side now false ans.recvs env
    cases he : env.readInto side now false ans.recvs with
    | mk r env' =>
      rw [he] at hloop
      obtain ⟨hquiet, hclosed⟩ := hs.readLoop hopen hc hloop
      obtain ⟨-, hcon, -, -, hl'⟩ := control_fields hloop.frame.1
      have hl'' : env'.session.closing = false := hl'.trans hl
      have hc' : side = .upstream → env'.session.upstreamConnecting = false :=
        fun hside => hcon.trans (hc hside)
      have hset : (env'.session.setReadClosed side).closing = false ∧
          (env'.session.setReadClosed side).upstreamConnecting = env.session.upstreamConnecting := by
        cases side <;> exact ⟨hl'', hcon⟩
      cases r with
      | none => exact ⟨liveMid_blocked c₀ ufd (hquiet (by simp)), hcon⟩
      | some r =>
        cases r with
        | progress => exact ⟨liveMid_next c₀ ufd (hquiet (by simp)) hl'', hcon⟩
        | closed => exact ⟨liveMid_next c₀ ufd (hclosed rfl) hset.1, hset.2⟩
        | error => exact ⟨liveMid_close c₀ ufd (hquiet (by simp)) false, hcon⟩
        | wouldBlock =>
          have hsound := hquiet (by simp)
          dsimp only
          split
          · exact ⟨liveMid_next c₀ ufd (hsound.setReadClosed side hc') hset.1, hset.2⟩
          · exact ⟨liveMid_next c₀ ufd hsound hl'', hcon⟩
  · exact ⟨liveMid_next c₀ ufd hs hl, rfl⟩

theorem writePhase_sound (side : Side) (env : Env) (h : Live c₀ ufd env)
    (hc : side = .upstream → env.session.upstreamConnecting = false) :
    LiveMid c₀ ufd (env.writePhase side events now ans).1
      (env.writePhase side events now ans).2 := by
  obtain ⟨hs, hl⟩ := h
  unfold Env.writePhase
  split
  · rename_i hcond
    have hfull : (env.session.outbound side).empty = false := by
      cases hrc : (env.session.outbound side).empty <;> simp_all
    have hloop := Env.writeFrom_loop side now false ans.sends env
    cases he : env.writeFrom side now false ans.sends with
    | mk r env' =>
      rw [he] at hloop
      have hsound := hs.writeLoop hl hfull hc hloop
      obtain ⟨-, -, -, -, hl'⟩ := control_fields hloop.frame.1
      cases r with
      | none => exact liveMid_blocked c₀ ufd hsound
      | some r =>
        cases r with
        | progress => exact liveMid_next c₀ ufd hsound (hl'.trans hl)
        | wouldBlock => exact liveMid_next c₀ ufd hsound (hl'.trans hl)
        | closed => exact liveMid_close c₀ ufd hsound false
        | error => exact liveMid_close c₀ ufd hsound false
  · exact liveMid_next c₀ ufd hs hl

/-- Serving one side: read, then write. -/
theorem serve_sound (side : Side) (env : Env) (h : Live c₀ ufd env)
    (hc : side = .upstream → env.session.upstreamConnecting = false) :
    LiveMid c₀ ufd
      (((Env.readPhase side events now ans).andThen (Env.writePhase side events now ans)) env).1
      (((Env.readPhase side events now ans).andThen (Env.writePhase side events now ans)) env).2 := by
  obtain ⟨hr, hcon⟩ := readPhase_sound c₀ ufd events now ans side env h hc
  unfold Phase.andThen
  cases he : env.readPhase side events now ans with
  | mk f env' =>
    rw [he] at hr hcon
    cases f with
    | next =>
      exact writePhase_sound c₀ ufd events now ans side env' (hr.1 rfl) (fun hs => hcon.trans (hc hs))
    | ret b => exact hr
    | blocked => exact hr

theorem closedPhase_sound :
    Phase.Spec (Resting c₀ ufd) Env.closedPhase
      (Phase.Mid (fun env => Resting c₀ ufd env ∧ env.session.closing = false)
        (Point (Sound c₀ ufd) (Resting c₀ ufd))) := by
  intro env h
  unfold Env.closedPhase
  split
  · exact ⟨fun hf => absurd hf (by simp), fun _ => ⟨h.1, fun _ => h⟩⟩
  · rename_i hcl
    exact ⟨fun _ => ⟨h, by simpa using hcl⟩, fun hf => absurd rfl hf⟩

/-- Past the connect phase, an event of the upstream fd finds the socket
connected. -/
def Ready (env : Env) : Prop :=
  Live c₀ ufd env ∧ (fd = env.session.upstreamFd → env.session.upstreamConnecting = false)

theorem connectPhase_sound :
    Phase.Spec (fun env => Resting c₀ ufd env ∧ env.session.closing = false)
      (Env.connectPhase fd events now ans)
      (Phase.Mid (Ready c₀ ufd fd) (Point (Sound c₀ ufd) (Resting c₀ ufd))) := by
  rintro env ⟨⟨hs, hrest⟩, hl⟩
  unfold Env.connectPhase Env.finishUpstreamConnect
  split
  · rename_i hcond
    split
    · exact ⟨fun hf => absurd hf (by simp), fun _ => ⟨hs, fun _ => ⟨hs, hrest⟩⟩⟩
    · cases ans.connect with
      | none => exact ⟨fun hf => absurd hf (by simp), fun _ => ⟨hs, fun hf => absurd rfl hf⟩⟩
      | some r =>
        have hrec := hs.soError env.session.upstreamFd r
        by_cases hr : r = .ok none
        · simp only [ne_eq, hr, not_true_eq_false, ↓reduceIte]
          rw [hr] at hrec
          refine ⟨fun _ => ⟨⟨?_, hl⟩, fun _ => rfl⟩, fun hf => absurd rfl hf⟩
          exact { hrec with
            shutdown := fun t ht => by cases t <;> exact hrec.shutdown _ ht
            eof := fun t ht => by cases t <;> exact hrec.eof _ ht
            connected := fun _ => Or.inr (by simp [Env.record, hs.fd])
            connecting := fun hcon => absurd hcon (by simp [ProxySession.touch])
            upstreamShutdown := fun h => ⟨(hs.upstreamShutdown h).1, (hs.upstreamShutdown h).2.1, rfl⟩ }
        · simp only [ne_eq, hr, not_false_eq_true, ↓reduceIte]
          have hclosed := hrec.close
          have hfail : Sound c₀ ufd (Env.close { env.record (.soError env.session.upstreamFd r) with
              backend := env.backend.recordConnectFailure
              metrics := env.metrics.onConnectFailure }) :=
            ⟨hclosed.calls, hclosed.fd, hclosed.shutdown, hclosed.eof, hclosed.connected,
              hclosed.connecting, hclosed.upstreamShutdown, hclosed.clientShutdown⟩
          refine ⟨fun hf => absurd hf (by simp), fun _ => ⟨hfail, fun _ => ⟨hfail, ?_⟩⟩⟩
          exact fun hc => absurd hc (by simp [Env.close, ProxySession.markClosing])
  · rename_i hcond
    refine ⟨fun _ => ⟨⟨hs, hl⟩, fun hfd => ?_⟩, fun hf => absurd rfl hf⟩
    simpa [hfd] using hcond

theorem errorPhase_sound :
    Phase.Spec (Ready c₀ ufd fd) (Env.errorPhase fd events ans)
      (Phase.Mid (Ready c₀ ufd fd) (Point (Sound c₀ ufd) (Resting c₀ ufd))) := by
  rintro env ⟨⟨hs, hl⟩, hc⟩
  unfold Env.errorPhase
  split
  · cases ans.error with
    | none => exact ⟨fun hf => absurd hf (by simp), fun _ => ⟨hs, fun hf => absurd rfl hf⟩⟩
    | some r =>
      exact ⟨fun hf => absurd hf (by simp), fun _ => (hs.soError fd r).exit_close _⟩
  · exact ⟨fun _ => ⟨⟨hs, hl⟩, hc⟩, fun hf => absurd rfl hf⟩

theorem sidePhase_sound :
    Phase.Spec (Ready c₀ ufd fd) (Env.sidePhase fd events now ans) (LiveMid c₀ ufd) := by
  rintro env ⟨h, hc⟩
  unfold Env.sidePhase
  split
  · exact serve_sound c₀ ufd events now ans .client env h (by simp)
  · split
    · rename_i hfd
      exact serve_sound c₀ ufd events now ans .upstream env h (fun _ => hc hfd)
    · exact liveMid_close c₀ ufd h.1 false

theorem finalPhase_sound :
    Phase.Spec (Live c₀ ufd) Env.finalPhase (Point (Sound c₀ ufd) (Resting c₀ ufd)) := by
  intro env h
  obtain ⟨⟨hs, hl⟩, hiff⟩ := h.halfClose_client
  unfold Env.finalPhase Env.updateHalfClose
  generalize env.halfClose .client (fun s => !s.upstreamConnecting) = env₁ at hs hl hiff ⊢
  have hshut : env₁.session.clientWriteShutdown = false := by
    cases hw : env₁.session.clientWriteShutdown with
    | false => rfl
    | true => simp [hs.clientShutdown hw] at hl
  cases hcomp : env₁.session.completed with
  | true =>
    -- the response is complete: the client's write side is shut down and the session closes
    obtain ⟨hr, he⟩ : env₁.session.upstreamReadClosed = true ∧
        env₁.session.upstreamToClient.empty = true := by
      simpa [ProxySession.completed] using hcomp
    have hstep : env₁.halfClose .upstream (fun _ => true) =
        { env₁.record (.shutdownWrite .client) with
          session := env₁.session.setWriteShutdown .client } := by
      unfold Env.halfClose
      simp [ProxySession.readClosed, ProxySession.inbound, ProxySession.writeShutdown, Side.other,
        hr, he, hshut, Env.record]
    rw [hstep]
    have hc : (env₁.session.setWriteShutdown .client).completed = true := hcomp
    simp only [hc, ↓reduceIte]
    have hsound := hs.shutClient hshut
    exact ⟨hsound, fun _ => ⟨hsound, fun hf => absurd hf (by simp [Env.close, ProxySession.markClosing])⟩⟩
  | false =>
    have hnot : ¬ (env₁.session.upstreamReadClosed = true ∧
        env₁.session.upstreamToClient.empty = true) := by
      rintro ⟨hr, he⟩
      simp [ProxySession.completed, hr, he] at hcomp
    have hstep : env₁.halfClose .upstream (fun _ => true) = env₁ := by
      unfold Env.halfClose
      simp only [ProxySession.readClosed, ProxySession.inbound, ProxySession.writeShutdown,
        Side.other, Bool.and_eq_true, Bool.not_eq_true']
      rw [if_neg (fun hcond => hnot hcond.1.1)]
    rw [hstep]
    simp only [hcomp, Bool.false_eq_true, ↓reduceIte]
    refine ⟨hs, fun _ => ⟨hs, fun _ => ⟨hiff, hshut, ?_, ?_⟩⟩⟩
    · intro hr
      cases he : env₁.session.upstreamToClient.empty with
      | false => rfl
      | true => exact absurd ⟨hr, he⟩ hnot
    · intro hcon
      obtain ⟨he, hr⟩ := hs.connecting hcon
      refine ⟨he, hr, ?_⟩
      cases hw : env₁.session.upstreamWriteShutdown with
      | false => rfl
      | true => simp [hcon] at hiff; simp [hiff] at hw

theorem handleEvent_sound :
    Phase.Spec (Resting c₀ ufd) (Env.handleEvent fd events now ans)
      (Point (Sound c₀ ufd) (Resting c₀ ufd)) :=
  (closedPhase_sound c₀ ufd).andThen <| (connectPhase_sound c₀ ufd fd events now ans).andThen <|
    (errorPhase_sound c₀ ufd fd events ans).andThen <|
      (sidePhase_sound c₀ ufd fd events now ans).andThen (finalPhase_sound c₀ ufd)

end Phases

theorem start_resting (cap id : Nat) (cfd ufd : Fd) (connecting : Bool) (b now : Nat)
    (backend : Backend) (m₀ : Metrics) :
    Resting (!connecting) ufd (.start (.new id cfd ufd connecting b cap now) backend m₀) := by
  have hempty : (ByteBuffer.new cap).empty = true := by
    simp [ByteBuffer.new, ByteBuffer.empty, ByteBuffer.readableBytes]
  refine ⟨⟨along_nil _, rfl, ?_, ?_, ?_, fun _ => ⟨hempty, rfl⟩, ?_, ?_⟩, fun _ => ⟨?_, rfl, ?_, ?_⟩⟩
  · intro side hs
    simp [Env.start] at hs
  · rintro side ⟨len, hs⟩
    simp [Env.start] at hs
  · intro hc
    exact Or.inl (by simpa [Env.start, ProxySession.new] using hc)
  all_goals simp [Env.start, ProxySession.new, hempty]

theorem run_sound (cap id : Nat) (cfd ufd : Fd) (connecting : Bool) (b now : Nat)
    (backend : Backend) (m₀ : Metrics) (inputs : List Input) :
    Point (Sound (!connecting) ufd) (Resting (!connecting) ufd)
      (Env.run inputs (.start (.new id cfd ufd connecting b cap now) backend m₀)).1
      (Env.run inputs (.start (.new id cfd ufd connecting b cap now) backend m₀)).2 :=
  run_point (fun _ h => h.1) (handleEvent_sound (!connecting) ufd)
    (fun _ h => (h.1.exit_close .next).2 (by simp)) inputs _
    (start_resting cap id cfd ufd connecting b now backend m₀)

/-- **Half-close state machine.** Between two calls every live session is in
a state of `HalfClose`; and at every point of every run `shutdown(SHUT_WR)`
was called at most once per socket, no `send` came after the `shutdown` of
its socket or, on the upstream, before its connect ended, and no `recv` came
after one that returned 0 on its socket. -/
theorem run_halfClose (cap id : Nat) (cfd ufd : Fd) (connecting : Bool) (b now : Nat)
    (backend : Backend) (m₀ : Metrics) (inputs : List Input) :
    let out := Env.run inputs (.start (.new id cfd ufd connecting b cap now) backend m₀)
    (out.1 = .next → out.2.session.closing = false → HalfClose out.2.session) ∧
      (∀ side, out.2.log.count (.shutdownWrite side) ≤ 1) ∧
      (∀ pre post side data result, out.2.log = pre ++ .send side data result :: post →
        .shutdownWrite side ∉ pre ∧
          (side = .upstream → connecting = false ∨ .soError ufd (.ok none) ∈ pre)) ∧
      (∀ pre post side length result, out.2.log = pre ++ .recv side length result :: post →
        ¬ SawEof side pre) := by
  intro out
  have hpoint : Point (Sound (!connecting) ufd) (Resting (!connecting) ufd) out.1 out.2 :=
    run_sound cap id cfd ufd connecting b now backend m₀ inputs
  obtain ⟨hs, hrest⟩ := hpoint
  refine ⟨?_, ?_, ?_, ?_⟩
  · intro hf hl
    exact (hrest (by simp [hf])).2 hl
  · intro side
    exact count_le_one_of_fresh (fun pre post he => hs.calls pre _ post he)
  · intro pre post side data result he
    obtain ⟨hno, hcon⟩ := hs.calls pre _ post he
    exact ⟨hno, fun hside => (hcon hside).imp (by simp) (fun h => h)⟩
  · intro pre post side length result he
    exact hs.calls pre _ post he

end FluxGate
