import FluxGate.Kernel
import FluxGate.Transfer

/-!
# Which events make a session work, and which make it spin

Under level-triggered epoll an event the session ignores is reported again at
once. `work` counts what a session has done: the bytes it received and sent,
and the flags it has moved, each of which moves once. No phase of
`handleEvent` lowers it, so a call is no no-op as soon as one phase raises it.

`EPOLLRDHUP` stays subscribed after a side has ended, and a side that has
ended is not read any more. So a call is idle exactly when it carries neither
`EPOLLERR` nor `EPOLLOUT` and its side has ended, or the side is the upstream
still connecting and `EPOLLHUP` is not set either (`Spins`).
-/

namespace FluxGate

open Lib

/-! ## Event masks -/

theorem mask_and_or (m a b : EventMask) : m &&& (a ||| b) = m &&& a ||| m &&& b := by
  apply UInt32.toBitVec_inj.1
  ext i
  simp [Bool.and_or_distrib_left]

theorem has_or (m a b : EventMask) : has m (a ||| b) = (has m a || has m b) := by
  simp only [has, mask_and_or, bne, UInt32.or_eq_zero_iff, beq_eq_decide]
  by_cases ha : m &&& a = 0 <;> by_cases hb : m &&& b = 0 <;> simp [ha, hb]

/-- A mask within `c` is what it shares with `c`. -/
theorem mask_within {m c : EventMask} (h : m &&& ~~~c = 0) : m &&& c = m := by
  have hall := mask_and_or m c (~~~c)
  simpa [h] using hall.symm

theorem not_has_of_within {m c b : EventMask} (h : m &&& ~~~c = 0) (hb : c &&& b = 0) :
    has m b = false := by
  have hz : m &&& b = 0 := by
    rw [← mask_within h, UInt32.and_assoc, hb, UInt32.and_zero]
  simp [has, hz]

/-- The mask epoll may report for a side: within what is subscribed, besides
`EPOLLERR` and `EPOLLHUP`; `EPOLLIN` where `recv` has something to return,
`EPOLLOUT` where `send` takes a byte or a pending connect has ended, and
`EPOLLRDHUP`, which is always subscribed, once the FIN has arrived. -/
structure Reports (k : Kernel) (s : ProxySession) (side : Side) (m : EventMask) : Prop where
  nonempty : m ≠ 0
  subscribed : m &&& ~~~(s.events side ||| EPOLLERR ||| EPOLLHUP) = 0
  readable : has m EPOLLIN = true → (k.socket side).rx.held ≠ [] ∨ (k.socket side).fin = true
  writable : has m EPOLLOUT = true →
    0 < (k.socket side).space ∨ (side = .upstream ∧ s.upstreamConnecting = true)
  hangup : has m EPOLLRDHUP = (k.socket side).fin

/-- The events `handleEvent` does nothing about. -/
def Spins (s : ProxySession) (side : Side) (m : EventMask) : Prop :=
  has m EPOLLERR = false ∧ has m EPOLLOUT = false ∧
    if side = .upstream ∧ s.upstreamConnecting = true then has m EPOLLHUP = false
    else s.readClosed side = true

section Masks

variable {k : Kernel} {s : ProxySession} {side : Side} {m : EventMask}

theorem events_cases (s : ProxySession) (side : Side) :
    s.events side ∈ [EPOLLRDHUP, EPOLLRDHUP ||| EPOLLIN, EPOLLRDHUP ||| EPOLLOUT,
      EPOLLRDHUP ||| EPOLLIN ||| EPOLLOUT] := by
  cases side
  · simp only [ProxySession.events, ProxySession.clientEvents]
    split <;> split <;> simp
  · simp only [ProxySession.events, ProxySession.upstreamEvents]
    split
    · simp
    · split <;> split <;> simp

/-- A reported mask has one of the five bits. -/
theorem Reports.some_bit (h : Reports k s side m) :
    has m EPOLLIN = true ∨ has m EPOLLOUT = true ∨ has m EPOLLERR = true ∨
      has m EPOLLHUP = true ∨ has m EPOLLRDHUP = true := by
  by_contra hno
  simp only [not_or, Bool.not_eq_true] at hno
  obtain ⟨hin, hout, herr, hhup, hrd⟩ := hno
  have hall : has m (EPOLLIN ||| EPOLLOUT ||| EPOLLERR ||| EPOLLHUP ||| EPOLLRDHUP) = false := by
    simp [has_or, hin, hout, herr, hhup, hrd]
  have hz : m &&& (EPOLLIN ||| EPOLLOUT ||| EPOLLERR ||| EPOLLHUP ||| EPOLLRDHUP) = 0 := by
    simpa [has] using hall
  have hm := mask_within h.subscribed
  have hcover : (s.events side ||| EPOLLERR ||| EPOLLHUP) &&&
      (EPOLLIN ||| EPOLLOUT ||| EPOLLERR ||| EPOLLHUP ||| EPOLLRDHUP) =
      s.events side ||| EPOLLERR ||| EPOLLHUP := by
    have hc := events_cases s side
    simp only [List.mem_cons, List.not_mem_nil, or_false] at hc
    rcases hc with hc | hc | hc | hc <;> rw [hc] <;> decide
  apply h.nonempty
  rw [← hm, ← hcover, ← UInt32.and_assoc, hm, hz]

/-- `EPOLLIN` is subscribed only while the side is open and its buffer has
tail space; never on an upstream still connecting. -/
theorem Reports.input (h : Reports k s side m) (hin : has m EPOLLIN = true) :
    s.readClosed side = false ∧ 0 < (s.inbound side).writableBytes := by
  have hsub := h.subscribed
  by_contra hno
  have hev : (s.events side ||| EPOLLERR ||| EPOLLHUP) &&& EPOLLIN = 0 := by
    cases side
    · have hcond : (!s.clientReadClosed && decide (0 < s.clientToUpstream.writableBytes)) = false := by
        simp only [ProxySession.readClosed, ProxySession.inbound] at hno
        by_contra hc
        simp only [Bool.not_eq_false, Bool.and_eq_true, Bool.not_eq_true', decide_eq_true_eq] at hc
        exact hno hc
      simp only [ProxySession.events, ProxySession.clientEvents, hcond]
      split <;> decide
    · have hcond : (!s.upstreamReadClosed && decide (0 < s.upstreamToClient.writableBytes)) = false := by
        simp only [ProxySession.readClosed, ProxySession.inbound] at hno
        by_contra hc
        simp only [Bool.not_eq_false, Bool.and_eq_true, Bool.not_eq_true', decide_eq_true_eq] at hc
        exact hno hc
      simp only [ProxySession.events, ProxySession.upstreamEvents, hcond]
      split
      · decide
      · split <;> decide
  simp [not_has_of_within hsub hev] at hin

/-- `EPOLLOUT` is subscribed only while there is something to send, or on an
upstream still connecting. -/
theorem Reports.output (h : Reports k s side m) (hout : has m EPOLLOUT = true)
    (hcon : ¬ (side = .upstream ∧ s.upstreamConnecting = true)) :
    (s.outbound side).empty = false := by
  have hsub := h.subscribed
  by_contra hno
  have he : (s.outbound side).empty = true := by simpa using hno
  have hev : (s.events side ||| EPOLLERR ||| EPOLLHUP) &&& EPOLLOUT = 0 := by
    cases side
    · have he' : s.upstreamToClient.empty = true := he
      simp only [ProxySession.events, ProxySession.clientEvents, he', Bool.not_true,
        Bool.false_eq_true, ↓reduceIte]
      split <;> decide
    · have he' : s.clientToUpstream.empty = true := he
      have hc : s.upstreamConnecting = false := by simpa using hcon
      simp only [ProxySession.events, ProxySession.upstreamEvents, he', hc, Bool.not_true,
        Bool.false_eq_true, ↓reduceIte]
      split <;> decide
  simp [not_has_of_within hsub hev] at hout

end Masks

/-! ## Work done -/

/-- The bytes moved by a list of calls. -/
def moved (log : List Call) : Nat :=
  (received .client log).length + (received .upstream log).length +
    (sent .client log).length + (sent .upstream log).length

/-- The flags that have left their first value. -/
def flagsMoved (s : ProxySession) : Nat :=
  (!s.upstreamConnecting).toNat + s.clientReadClosed.toNat + s.upstreamReadClosed.toNat +
    s.clientWriteShutdown.toNat + s.upstreamWriteShutdown.toNat + s.closing.toNat

def work (env : Env) : Nat := moved env.log + flagsMoved env.session

theorem moved_append (log calls : List Call) : moved (log ++ calls) = moved log + moved calls := by
  simp only [moved, received_append, sent_append, List.length_append]
  omega

theorem received_le_moved (t : Side) (log : List Call) : (received t log).length ≤ moved log := by
  unfold moved
  cases t <;> omega

theorem sent_le_moved (t : Side) (log : List Call) : (sent t log).length ≤ moved log := by
  unfold moved
  cases t <;> omega

theorem flagsMoved_control {s t : ProxySession} (h : s.control = t.control) :
    flagsMoved s = flagsMoved t := by
  simp only [ProxySession.control, ProxySession.Control.mk.injEq] at h
  obtain ⟨-, -, h3, h4, h5, h6, h7, h8⟩ := h
  simp only [flagsMoved, h3, h4, h5, h6, h7, h8]

section Work

variable {env env' : Env} {side : Side} {n : Nat}

theorem work_le_record (env : Env) (c : Call) : work env ≤ work (env.record c) := by
  simp only [work, Env.record, moved_append]
  omega

theorem work_le_close (env : Env) : work env ≤ work env.close := by
  simp only [work, Env.close, flagsMoved, ProxySession.markClosing]
  have := env.session.closing.toNat_le
  simp only [Bool.toNat_true]
  omega

theorem work_lt_close (h : env.session.closing = false) : work env < work env.close := by
  simp [work, Env.close, flagsMoved, ProxySession.markClosing, h]

theorem work_le_setReadClosed (env : Env) (side : Side) :
    work env ≤ work { env with session := env.session.setReadClosed side } := by
  cases side
  · have := env.session.clientReadClosed.toNat_le
    simp only [work, flagsMoved, ProxySession.setReadClosed, Bool.toNat_true]
    omega
  · have := env.session.upstreamReadClosed.toNat_le
    simp only [work, flagsMoved, ProxySession.setReadClosed, Bool.toNat_true]
    omega

theorem work_lt_setReadClosed (h : env.session.readClosed side = false) :
    work env < work { env with session := env.session.setReadClosed side } := by
  cases side
  · have h' : env.session.clientReadClosed = false := h
    simp only [work, flagsMoved, ProxySession.setReadClosed, h', Bool.toNat_true, Bool.toNat_false]
    omega
  · have h' : env.session.upstreamReadClosed = false := h
    simp only [work, flagsMoved, ProxySession.setReadClosed, h', Bool.toNat_true, Bool.toNat_false]
    omega

theorem work_le_setWriteShutdown (env : Env) (side : Side) :
    work env ≤ work { env with session := env.session.setWriteShutdown side } := by
  cases side
  · have := env.session.clientWriteShutdown.toNat_le
    simp only [work, flagsMoved, ProxySession.setWriteShutdown, Bool.toNat_true]
    omega
  · have := env.session.upstreamWriteShutdown.toNat_le
    simp only [work, flagsMoved, ProxySession.setWriteShutdown, Bool.toNat_true]
    omega

/-- The loops move bytes and no flag. -/
theorem ReadLoop.work_eq {now : Nat} {p : Bool} {r : Option IoResult}
    (h : Env.ReadLoop side now p env r env') :
    ∃ calls, env'.log = env.log ++ calls ∧ work env' = work env + moved calls := by
  obtain ⟨init, last, hlog, -⟩ := h.calls
  refine ⟨init ++ last, hlog, ?_⟩
  simp only [work, hlog, moved_append, flagsMoved_control h.frame.1]
  omega

theorem WriteLoop.work_eq {now : Nat} {p : Bool} {r : Option IoResult}
    (h : Env.WriteLoop side now p env r env') :
    ∃ calls, env'.log = env.log ++ calls ∧ work env' = work env + moved calls := by
  obtain ⟨calls, hlog, -⟩ := h.calls
  refine ⟨calls, hlog, ?_⟩
  simp only [work, hlog, moved_append, flagsMoved_control h.frame.1]
  omega

/-- A read loop that reports progress has received something. -/
theorem ReadLoop.work_lt {now : Nat} {p : Bool} {r : Option IoResult}
    (h : Env.ReadLoop side now p env r env') (hp : p = false) (hr : r = some .progress) :
    work env < work env' := by
  induction h with
  | full p env _ =>
    subst hp
    cases hr
  | starved p env _ => cases hr
  | data p env b data r env' _ rest _ =>
    obtain ⟨calls, -, hw⟩ := ReadLoop.work_eq rest
    have hstep : work env < work ((env.recvCall side (.ok (b :: data))).received side (b :: data) now) := by
      have hf : flagsMoved ((env.recvCall side (.ok (b :: data))).received side (b :: data) now).session =
          flagsMoved env.session :=
        flagsMoved_control (by simp [Env.received, Env.recvCall, Env.record, Env.makeWritable])
      have hm : moved ((env.recvCall side (.ok (b :: data))).received side (b :: data) now).log =
          moved env.log + moved [.recv side (env.room side) (.ok (b :: data))] := by
        rw [← moved_append]
        rfl
      have hb : 0 < moved [.recv side (env.room side) (.ok (b :: data))] := by
        refine Nat.lt_of_lt_of_le ?_ (received_le_moved side _)
        simp [received, Call.bytesFrom]
      unfold work
      omega
    omega
  | eof p env _ => cases hr
  | eintr p env r env' _ rest ih =>
    have hstep : work (env.recvCall side (.error .eintr)) = work env := by
      simp only [work, Env.recvCall, Env.record, Env.makeWritable, moved_append]
      rw [flagsMoved_control (ProxySession.control_setInbound _ _ _)]
      rfl
    have := ih hp hr
    omega
  | again p env e _ _ =>
    subst hp
    cases hr
  | fail p env e _ _ _ => cases hr

/-- A read loop that would block has received nothing. -/
theorem ReadLoop.nothing_received {now : Nat} {p : Bool} {r : Option IoResult}
    (h : Env.ReadLoop side now p env r env') (hr : r = some .wouldBlock) (t : Side) :
    received t env'.log = received t env.log := by
  induction h with
  | full p env _ => rfl
  | starved p env _ => rfl
  | data p env b data r env' _ rest _ =>
    obtain ⟨_, _, _, _, _, hwb⟩ := rest.calls
    simp at hwb
    exact absurd hr hwb
  | eof p env _ => cases hr
  | eintr p env r env' _ _ ih =>
    rw [ih hr]
    simp [Env.recvCall, Env.record, Env.makeWritable, received, Call.bytesFrom]
  | again p env e _ _ => simp [Env.recvCall, Env.record, Env.makeWritable, received, Call.bytesFrom]
  | fail p env e _ _ _ => cases hr

/-- A write loop on a non-empty buffer that reports progress has sent
something. -/
theorem WriteLoop.work_lt {now : Nat} {p : Bool} {r : Option IoResult}
    (h : Env.WriteLoop side now p env r env') (hrange : ∀ c ∈ env'.log, c.InRange)
    (he : (env.session.outbound side).empty = false) (hp : p = false)
    (hr : r = some .progress) : work env < work env' := by
  induction h with
  | drained p env h => simp [h] at he
  | starved p env _ => cases hr
  | data p env n r env' _ rest _ =>
    obtain ⟨calls, hlog, hw⟩ := WriteLoop.work_eq rest
    have hcall : (Call.send side (env.session.outbound side).readData (.ok (n + 1))).InRange := by
      apply hrange
      rw [hlog]
      simp [Env.sent, Env.sendCall, Env.record]
    have hn : n + 1 ≤ (env.session.outbound side).readData.length := hcall
    have hstep : work env < work ((env.sendCall side (.ok (n + 1))).sent side (n + 1) now) := by
      have hf : flagsMoved ((env.sendCall side (.ok (n + 1))).sent side (n + 1) now).session =
          flagsMoved env.session :=
        flagsMoved_control (by simp [Env.sent, Env.sendCall, Env.record])
      have hm : moved ((env.sendCall side (.ok (n + 1))).sent side (n + 1) now).log =
          moved env.log + moved [.send side (env.session.outbound side).readData (.ok (n + 1))] := by
        rw [← moved_append]
        rfl
      have hb : 0 < moved [.send side (env.session.outbound side).readData (.ok (n + 1))] := by
        refine Nat.lt_of_lt_of_le ?_ (sent_le_moved side _)
        simp only [sent, Call.bytesTo, List.flatMap_cons, ↓reduceIte, List.flatMap_nil,
          List.append_nil, List.length_take]
        omega
      unfold work
      omega
    omega
  | zero p env _ => cases hr
  | eintr p env r env' _ rest ih =>
    have hstep : work (env.sendCall side (.error .eintr)) = work env := by
      simp only [work, Env.sendCall, Env.record, moved_append]
      rfl
    have := ih hrange he hp hr
    omega
  | again p env e _ _ =>
    subst hp
    cases hr
  | fail p env e _ _ _ => cases hr

/-- A write loop that would block has sent nothing, and its last call found
no room. -/
theorem WriteLoop.nothing_sent {now : Nat} {p : Bool} {r : Option IoResult}
    (h : Env.WriteLoop side now p env r env') (hr : r = some .wouldBlock) :
    p = false ∧ ∃ init data e, env'.log = env.log ++ (init ++ [.send side data (.error e)]) ∧
      e.again = true ∧ sent side init = [] := by
  induction h with
  | drained p env _ => cases hr
  | starved p env _ => cases hr
  | data p env n r env' _ _ ih => simp at ih; exact absurd hr ih
  | zero p env _ => cases hr
  | eintr p env r env' _ _ ih =>
    obtain ⟨hp, init, data, e, hlog, he, hs⟩ := ih hr
    refine ⟨hp, .send side (env.session.outbound side).readData (.error .eintr) :: init, data, e,
      ?_, he, ?_⟩
    · rw [hlog]
      simp [Env.sendCall, Env.record]
    · simpa [sent, Call.bytesTo] using hs
  | again p env e he _ =>
    refine ⟨?_, [], (env.session.outbound side).readData, e, rfl, he, rfl⟩
    cases p
    · rfl
    · cases hr
  | fail p env e _ _ _ => cases hr

end Work

/-! ## What the kernel promised still holds when the call is made -/

namespace Kernel

theorem answer_space {k k' : Kernel} {c : Call} (h : k.answer c = some k') (t : Side) :
    (k.socket t).space ≤ (k'.socket t).space + (c.bytesTo t).length := by
  cases c with
  | recv side length result =>
    cases result with
    | ok data =>
      simp only [answer] at h
      split at h
      · split at h <;> cases h
        exact Nat.le_add_right _ _
      · split at h <;> cases h
        by_cases ht : t = side
        · subst ht
          simp
        · rw [socket_set_ne ht]
          exact Nat.le_add_right _ _
    | error e =>
      simp only [answer] at h
      split at h
      · split at h <;> cases h
        exact Nat.le_add_right _ _
      · cases h
        exact Nat.le_add_right _ _
  | send side data result =>
    cases result with
    | ok count =>
      simp only [answer] at h
      split at h
      · rename_i hcond
        cases h
        by_cases ht : t = side
        · subst ht
          simp only [socket_set, Call.bytesTo, ↓reduceIte, List.length_take]
          omega
        · rw [socket_set_ne ht]
          exact Nat.le_add_right _ _
      · cases h
    | error e =>
      simp only [answer] at h
      split at h
      · split at h <;> cases h
        exact Nat.le_add_right _ _
      · cases h
        exact Nat.le_add_right _ _
  | soError fd result =>
    cases h
    exact Nat.le_add_right _ _
  | shutdownWrite side =>
    cases h
    exact Nat.le_add_right _ _

theorem net_space {k k' : Kernel} (h : Net k k') (t : Side) :
    (k.socket t).space ≤ (k'.socket t).space := by
  cases h with
  | arrive side bytes hfin =>
    by_cases ht : t = side
    · subst ht; simp
    · exact Nat.le_of_eq (by rw [socket_set_ne ht])
  | fin side =>
    by_cases ht : t = side
    · subst ht; simp
    · exact Nat.le_of_eq (by rw [socket_set_ne ht])
  | acked side n =>
    by_cases ht : t = side
    · subst ht; simp
    · exact Nat.le_of_eq (by rw [socket_set_ne ht])

/-- Room in a send buffer is used up by sending only. -/
theorem Serves.space {k k' : Kernel} {calls : List Call} (h : Serves k calls k') (t : Side) :
    (k.socket t).space ≤ (k'.socket t).space + (sent t calls).length := by
  induction h with
  | done k => exact Nat.le_add_right _ _
  | net hn _ ih => exact Nat.le_trans (net_space hn t) ih
  | call ha _ ih =>
    have hone := answer_space ha t
    simp only [sent, List.flatMap_cons, List.length_append] at ih ⊢
    omega

/-- Queued bytes stay queued while nothing is received. -/
theorem Serves.held {k k' : Kernel} {calls : List Call} (h : Serves k calls k') {t : Side}
    (hr : FluxGate.received t calls = []) :
    (k.socket t).rx.held <+: (k'.socket t).rx.held := by
  obtain ⟨-, hl, hp⟩ := h.spec t
  have hgrow := hl.grows
  rw [(k.socket t).rx.balance, (k'.socket t).rx.balance, hp, hr, List.append_nil] at hgrow
  exact (List.prefix_append_right_inj _).mp hgrow

/-- `EAGAIN` on `recv`: nothing was queued and the stream is open. -/
theorem Serves.again_empty {k k' : Kernel} {side : Side} {length : Nat} {e : Errno}
    (he : e.again = true) (h : Serves k [.recv side length (.error e)] k') :
    (k.socket side).rx.held = [] := by
  generalize hc : [Call.recv side length (.error e)] = calls at h
  induction h with
  | done k => cases hc
  | @net k k₁ k₂ calls hn hs ih =>
    have hone : Serves k [] k₁ := .net hn (.done k₁)
    have hpre := hone.held (t := side) rfl
    rw [ih hc] at hpre
    exact List.prefix_nil.mp hpre
  | @call k k₁ k₂ c calls ha hs _ =>
    cases hc
    simp only [answer, he, ↓reduceIte] at ha
    split at ha
    · rename_i hcond
      exact hcond.1
    · cases ha

/-- `EAGAIN` on `send`: there was no room. -/
theorem Serves.again_full {k k' : Kernel} {side : Side} {data : List Byte} {e : Errno}
    (he : e.again = true) (h : Serves k [.send side data (.error e)] k') :
    (k.socket side).space = 0 := by
  generalize hc : [Call.send side data (.error e)] = calls at h
  induction h with
  | done k => cases hc
  | net hn _ ih =>
    have := net_space hn side
    have := ih hc
    omega
  | @call k k₁ k₂ c calls ha hs _ =>
    cases hc
    simp only [answer, he, ↓reduceIte] at ha
    split at ha
    · rename_i hcond
      exact hcond
    · cases ha

end Kernel

/-! ## No phase undoes work -/

theorem work_stable (n now : Nat) : Stable now (fun e => n ≤ work e) where
  close env h := Nat.le_trans h (work_le_close env)
  readClosed env side h := Nat.le_trans h (work_le_setReadClosed env side)
  writeShutdown env side h := Nat.le_trans h (work_le_setWriteShutdown env side)
  connected env h := by
    refine Nat.le_trans h ?_
    simp only [work, Env.connected, flagsMoved, ProxySession.touch, Bool.not_false, Bool.toNat_true]
    have := (!env.session.upstreamConnecting).toNat_le
    omega
  connectFailed _ h := h
  call env c _ h := Nat.le_trans h (work_le_record env c)
  makeWritable env side h := by
    simp only [work, Env.makeWritable] at h ⊢
    rwa [flagsMoved_control (ProxySession.control_setInbound _ _ _)]
  recv env side b data h := by
    refine Nat.le_trans h ?_
    simp only [work, Env.received, Env.recvCall, Env.record, Env.makeWritable, moved_append]
    rw [flagsMoved_control (s := (ProxySession.setInbound _ _ _).touch now) (t := env.session) (by simp)]
    omega
  send env side n h := by
    refine Nat.le_trans h ?_
    simp only [work, Env.sent, Env.sendCall, Env.record, moved_append]
    rw [flagsMoved_control (s := (ProxySession.setOutbound _ _ _).touch now) (t := env.session) (by simp)]
    omega

/-! ## Phases that do work -/

section Strict

variable {env env' : Env} {f : Flow} {side : Side} {events : EventMask} {now : Nat} {ans : Answers}
  {k k' : Kernel} {calls : List Call}

/-- Reading an open side does work: where `EPOLLIN` was reported the kernel
has something to deliver, and under a hang-up bit the side is marked ended at
the latest when there is nothing to read. -/
theorem readPhase_work_lt (hcall : env.readPhase side events now ans = (f, env'))
    (hret : f ≠ .blocked) (hopen : env.session.readClosed side = false)
    (hlive : env.session.closing = false)
    (hbits : has events (EPOLLIN ||| EPOLLRDHUP ||| EPOLLHUP) = true)
    (hin : has events EPOLLIN = true → 0 < (env.session.inbound side).writableBytes ∧
      ((k.socket side).rx.held ≠ [] ∨ (k.socket side).fin = true))
    (hlog : env'.log = env.log ++ calls) (hserve : Kernel.Serves k calls k') :
    work env < work env' := by
  unfold Env.readPhase at hcall
  rw [if_pos (by simp [hopen, hbits])] at hcall
  have hloop := Env.readInto_loop side now false ans.recvs env
  cases he : env.readInto side now false ans.recvs with
  | mk r e =>
    rw [he] at hcall hloop
    obtain ⟨-, -, hrc, -, hclosing⟩ := control_fields hloop.frame.1
    obtain ⟨more, -, hw⟩ := ReadLoop.work_eq hloop
    simp only at hw hrc hclosing
    cases r with
    | none =>
      cases hcall
      exact absurd rfl hret
    | some r =>
      cases r with
      | progress =>
        cases hcall
        exact ReadLoop.work_lt hloop rfl rfl
      | closed =>
        cases hcall
        have := work_lt_setReadClosed ((hrc side).trans hopen)
        omega
      | error =>
        cases hcall
        have := work_lt_close (hclosing.trans hlive)
        omega
      | wouldBlock =>
        cases hhup : Env.peerHangup events with
        | true =>
          simp only [hhup, ↓reduceIte] at hcall
          cases hcall
          have := work_lt_setReadClosed ((hrc side).trans hopen)
          omega
        | false =>
          -- only `EPOLLIN` can have been reported, so `recv` had something to return
          simp only [hhup, Bool.false_eq_true, ↓reduceIte] at hcall
          cases hcall
          have hbit : has events EPOLLIN = true := by
            simp only [Env.peerHangup, has_or] at hhup hbits
            simpa [Bool.or_assoc, hhup] using hbits
          obtain ⟨hroom, hready⟩ := hin hbit
          obtain ⟨init, last, hl, -, hend, hwb⟩ := hloop.calls
          obtain ⟨-, hfull⟩ := hwb rfl
          have hcalls : calls = init ++ last := List.append_cancel_left (hlog.symm.trans hl)
          have hnone : received side init ++ received side last = [] := by
            have hr := ReadLoop.nothing_received hloop rfl side
            rw [hl, received_append, received_append] at hr
            simpa using hr
          rw [hcalls] at hserve
          obtain ⟨k₁, hs₁, hs₂⟩ := hserve.split
          cases hend with
          | full r hr =>
            have hz : (env.session.inbound side).makeWritable.writableBytes = 0 := by
              simpa [Env.room, Env.makeWritable] using hfull rfl
            rw [ByteBuffer.makeWritable_of_writable (by omega)] at hz
            omega
          | again r hr length err herr =>
            rcases hready with hheld | hfin
            · have hpre := hs₁.held (List.append_eq_nil_iff.mp hnone).1
              rw [hs₂.again_empty herr] at hpre
              exact absurd (List.prefix_nil.mp hpre) hheld
            · have hfin₁ := (hs₁.spec side).2.1.fin hfin
              simp [hs₂.again_open herr] at hfin₁

/-- Writing to a side with room does work. -/
theorem writePhase_work_lt (hcall : env.writePhase side events now ans = (f, env'))
    (hret : f ≠ .blocked) (hlive : env.session.closing = false)
    (hout : has events EPOLLOUT = true) (he : (env.session.outbound side).empty = false)
    (hspace : 0 < (k.socket side).space) (hrange : ∀ c ∈ env.log, c.InRange)
    (hlog : env'.log = env.log ++ calls) (hserve : Kernel.Serves k calls k') :
    work env < work env' := by
  have hrange' : ∀ c ∈ env'.log, c.InRange := by
    intro c hc
    rw [hlog] at hc
    rcases List.mem_append.mp hc with hc | hc
    · exact hrange c hc
    · exact (hserve.spec side).1 c hc
  unfold Env.writePhase at hcall
  rw [if_pos (by simp [hout, he])] at hcall
  have hloop := Env.writeFrom_loop side now false ans.sends env
  cases hw : env.writeFrom side now false ans.sends with
  | mk r e =>
    rw [hw] at hcall hloop
    obtain ⟨-, -, -, -, hclosing⟩ := control_fields hloop.frame.1
    obtain ⟨more, -, hwork⟩ := WriteLoop.work_eq hloop
    simp only at hwork hclosing
    cases r with
    | none =>
      cases hcall
      exact absurd rfl hret
    | some r =>
      cases r with
      | progress =>
        cases hcall
        exact WriteLoop.work_lt hloop hrange' he rfl rfl
      | closed =>
        cases hcall
        have := work_lt_close (hclosing.trans hlive)
        omega
      | error =>
        cases hcall
        have := work_lt_close (hclosing.trans hlive)
        omega
      | wouldBlock =>
        cases hcall
        obtain ⟨-, init, data, err, hl, herr, hsent⟩ := WriteLoop.nothing_sent hloop rfl
        have hcalls : calls = init ++ [.send side data (.error err)] :=
          List.append_cancel_left (hlog.symm.trans hl)
        rw [hcalls] at hserve
        obtain ⟨k₁, hs₁, hs₂⟩ := hserve.split
        have hroom := hs₁.space side
        rw [hs₂.again_full herr, hsent] at hroom
        simp only [List.length_nil] at hroom
        omega

end Strict

/-! ## The phases of one call -/

section Call

variable {env : Env} {side : Side} {events : EventMask} (now : Nat) (ans : Answers)

theorem connectPhase_skip {now : Nat} {ans : Answers}
    (hfd : env.session.clientFd ≠ env.session.upstreamFd)
    (hcon : ¬ (side = .upstream ∧ env.session.upstreamConnecting = true)) :
    env.connectPhase (env.session.fdOf side) events now ans = (.next, env) := by
  unfold Env.connectPhase
  rw [if_neg]
  rintro ⟨hf, hc⟩
  cases side
  · exact hfd hf
  · exact hcon ⟨rfl, hc⟩

/-- A call on a side that is not connecting, without the error bit. -/
theorem handleEvent_serve (hfd : env.session.clientFd ≠ env.session.upstreamFd)
    (hlive : env.session.closing = false)
    (hcon : ¬ (side = .upstream ∧ env.session.upstreamConnecting = true))
    (herr : has events EPOLLERR = false) :
    env.handleEvent (env.session.fdOf side) events now ans =
      (((Env.readPhase side events now ans).andThen (Env.writePhase side events now ans)).andThen
        Env.finalPhase) env := by
  have hside : env.sidePhase (env.session.fdOf side) events now ans =
      ((Env.readPhase side events now ans).andThen (Env.writePhase side events now ans)) env := by
    unfold Env.sidePhase
    cases side
    · rw [if_pos (by rfl)]
    · rw [if_neg (fun h => hfd h.symm), if_pos (by rfl)]
  simp only [Env.handleEvent, Phase.andThen, Env.closedPhase, hlive, Bool.false_eq_true, ↓reduceIte,
    connectPhase_skip hfd hcon, Env.errorPhase, herr, hside]

/-- Between two calls there is nothing left to half-close. -/
theorem finalPhase_idle (h : HalfClose env.session) : env.finalPhase = (.ret true, env) := by
  have hc : env.halfClose .client (fun s => !s.upstreamConnecting) = env := by
    unfold Env.halfClose
    dsimp only
    rw [if_neg]
    intro hcond
    simp only [Bool.and_eq_true, Bool.not_eq_true'] at hcond
    have hshut := h.upstreamShutdown.mpr ⟨hcond.1.1.1, hcond.1.1.2, hcond.2⟩
    have hopen : env.session.upstreamWriteShutdown = false := hcond.1.2
    simp [hshut] at hopen
  have hdone : ¬ (env.session.upstreamReadClosed = true ∧
      env.session.upstreamToClient.empty = true) := by
    rintro ⟨hr, he⟩
    simp [h.upstreamClosed hr] at he
  have hu : env.halfClose .upstream (fun _ => true) = env := by
    unfold Env.halfClose
    dsimp only
    rw [if_neg]
    intro hcond
    simp only [Bool.and_eq_true] at hcond
    exact hdone hcond.1.1
  have hcomp : env.session.completed = false := by
    unfold ProxySession.completed
    simpa using hdone
  simp only [Env.finalPhase, Env.updateHalfClose, hc, hu, hcomp, Bool.false_eq_true, ↓reduceIte]

/-- An event the session does nothing about leaves everything as it was. -/
theorem handleEvent_idle (hfd : env.session.clientFd ≠ env.session.upstreamFd)
    (hlive : env.session.closing = false) (hrest : HalfClose env.session)
    (hspin : Spins env.session side events) :
    env.handleEvent (env.session.fdOf side) events now ans = (.ret true, env) := by
  obtain ⟨herr, hout, hwhich⟩ := hspin
  by_cases hcon : side = .upstream ∧ env.session.upstreamConnecting = true
  · rw [if_pos hcon] at hwhich
    obtain ⟨rfl, hc⟩ := hcon
    have hbits : has events (EPOLLOUT ||| EPOLLERR ||| EPOLLHUP) = false := by
      simp [has_or, herr, hout, hwhich]
    simp [Env.handleEvent, Phase.andThen, Env.closedPhase, hlive, Env.connectPhase,
      ProxySession.fdOf, hc, hbits]
  · rw [if_neg hcon] at hwhich
    rw [handleEvent_serve now ans hfd hlive hcon herr]
    simp only [Phase.andThen, Env.readPhase, hwhich, Bool.not_true, Bool.false_and,
      Bool.false_eq_true, ↓reduceIte, Env.writePhase, hout]
    exact finalPhase_idle hrest

end Call

/-! ## Every call returns -/

/-- Answers enough for one call: both results of `getsockopt`, and more results
of `recv` and of `send` than a buffer has bytes, not counting `EINTR`. -/
structure Enough (cap : Nat) (ans : Answers) : Prop where
  connect : ans.connect ≠ none
  error : ans.error ≠ none
  recvs : cap < ans.recvs.countP (fun r => r ≠ .error .eintr)
  sends : cap < ans.sends.countP (fun r => r ≠ .error .eintr)

section Returns

/-- A phase left in range has not run out of answers. -/
def Returns (f : Flow) (env : Env) : Prop := (∀ c ∈ env.log, c.InRange) → f ≠ .blocked

variable {cap : Nat} {m₀ : Metrics} {side : Side} {events : EventMask} {now : Nat} {ans : Answers}

theorem readPhase_returns (henough : Enough cap ans) :
    Phase.Spec (Faithful cap m₀) (Env.readPhase side events now ans) Returns := by
  intro env h
  unfold Env.readPhase
  split
  · have hret := Env.readInto_returns side now ans.recvs false env
    obtain ⟨init, last, hlog, -⟩ := (Env.readInto_loop side now false ans.recvs env).calls
    cases hr : env.readInto side now false ans.recvs with
    | mk r e =>
      rw [hr] at hret hlog
      cases r with
      | none =>
        intro hrange
        have hrel := h (fun c hc => hrange c (by rw [hlog]; exact List.mem_append_left _ hc)) side
        have hmany := henough.recvs
        refine absurd rfl (hret hrel.wf ?_ fun calls hcalls c hc => hrange c ?_)
        · rw [hrel.capacity]
          omega
        · rw [hcalls]
          exact List.mem_append_right _ hc
      | some r =>
        intro _
        cases r with
        | wouldBlock =>
          dsimp only
          split <;> simp
        | progress => simp
        | closed => simp
        | error => simp
  · exact fun _ => by simp

theorem writePhase_returns (henough : Enough cap ans) :
    Phase.Spec (Faithful cap m₀) (Env.writePhase side events now ans) Returns := by
  intro env h
  unfold Env.writePhase
  split
  · have hret := Env.writeFrom_returns side now ans.sends false env
    obtain ⟨calls, hlog, -⟩ := (Env.writeFrom_loop side now false ans.sends env).calls
    cases hr : env.writeFrom side now false ans.sends with
    | mk r e =>
      rw [hr] at hret hlog
      cases r with
      | none =>
        intro hrange
        have hrel := h (fun c hc => hrange c (by rw [hlog]; exact List.mem_append_left _ hc))
          side.other
        have hmany := henough.sends
        have hle := ByteBuffer.readData_length_le hrel.wf
        rw [hrel.capacity] at hle
        refine absurd rfl (hret hrel.wf (Nat.lt_of_le_of_lt hle hmany) fun calls hcalls c hc =>
          hrange c ?_)
        rw [hcalls]
        exact List.mem_append_right _ hc
      | some r =>
        intro _
        cases r <;> simp
  · exact fun _ => by simp

theorem handleEvent_returns (fd : Fd) (henough : Enough cap ans) :
    Phase.Spec (Faithful cap m₀) (Env.handleEvent fd events now ans) Returns := by
  have hmid : ∀ {p : Phase Env}, Phase.Spec (Faithful cap m₀) p (fun _ => Faithful cap m₀) →
      Phase.Spec (Faithful cap m₀) p Returns →
      Phase.Spec (Faithful cap m₀) p (Phase.Mid (Faithful cap m₀) Returns) :=
    fun hf hr env h => ⟨fun _ => hf env h, fun _ => hr env h⟩
  have hconnect : Phase.Spec (Faithful cap m₀) (Env.connectPhase fd events now ans) Returns := by
    intro env _
    unfold Env.connectPhase Env.finishUpstreamConnect
    obtain ⟨r, hr⟩ := Option.ne_none_iff_exists'.mp henough.connect
    rw [hr]
    intro _
    split
    · split
      · simp
      · by_cases hok : r = .ok none <;> simp [hok]
    · simp
  have herror : Phase.Spec (Faithful cap m₀) (Env.errorPhase fd events ans) Returns := by
    intro env _
    unfold Env.errorPhase
    obtain ⟨r, hr⟩ := Option.ne_none_iff_exists'.mp henough.error
    rw [hr]
    intro _
    split <;> simp
  have hserve : ∀ side, Phase.Spec (Faithful cap m₀)
      ((Env.readPhase side events now ans).andThen (Env.writePhase side events now ans)) Returns :=
    fun side => (hmid ((faithful_stable cap m₀ now).calm.readPhase side events ans)
      (readPhase_returns henough)).andThen (writePhase_returns henough)
  have hside : Phase.Spec (Faithful cap m₀) (Env.sidePhase fd events now ans) Returns := by
    intro env h
    unfold Env.sidePhase
    split
    · exact hserve .client env h
    · split
      · exact hserve .upstream env h
      · exact fun _ => by simp
  have hclosed : Phase.Spec (Faithful cap m₀) Env.closedPhase Returns := by
    intro env _
    unfold Env.closedPhase
    split <;> exact fun _ => by simp
  have hfinal : Phase.Spec (Faithful cap m₀) Env.finalPhase Returns := by
    intro env _
    unfold Env.finalPhase
    dsimp only
    split <;> exact fun _ => by simp
  have hstable := faithful_stable cap m₀ now
  exact (hmid Stable.closedPhase hclosed).andThen <|
    (hmid (hstable.connectPhase fd events ans) hconnect).andThen <|
    (hmid (hstable.calm.errorPhase fd events ans) herror).andThen <|
    (hmid (hstable.calm.sidePhase fd events ans) hside).andThen hfinal

end Returns

/-! ## Progress -/

def flags (s : ProxySession) : List Bool :=
  [s.upstreamConnecting, s.clientReadClosed, s.upstreamReadClosed, s.clientWriteShutdown,
    s.upstreamWriteShutdown, s.closing]

/-- A byte was received or sent, or a flag changed. -/
def Progress (env env' : Env) : Prop :=
  (∃ t, received t env'.log ≠ received t env.log) ∨ (∃ t, sent t env'.log ≠ sent t env.log) ∨
    flags env'.session ≠ flags env.session

section Progress

variable {env env' : Env} {f : Flow} {side : Side} {events : EventMask} {now : Nat} {ans : Answers}
  {k k' : Kernel} {calls : List Call}

theorem progress_of_work_lt (h : work env < work env') : Progress env env' := by
  by_contra hno
  simp only [Progress, not_or, not_exists, not_not] at hno
  obtain ⟨hr, hs, hf⟩ := hno
  have hm : moved env'.log = moved env.log := by simp only [moved, hr, hs]
  simp only [flags, List.cons.injEq, and_true] at hf
  obtain ⟨h1, h2, h3, h4, h5, h6⟩ := hf
  have hfl : flagsMoved env'.session = flagsMoved env.session := by
    simp only [flagsMoved, h1, h2, h3, h4, h5, h6]
  unfold work at h
  omega

/-- An ended connect moves a flag, whichever way it ended. -/
theorem connect_work_lt (hlive : env.session.closing = false)
    (hcon : env.session.upstreamConnecting = true)
    (hbits : has events (EPOLLOUT ||| EPOLLERR ||| EPOLLHUP) = true)
    (hcall : env.handleEvent env.session.upstreamFd events now ans = (f, env'))
    (hret : f ≠ .blocked) : work env < work env' := by
  have hconnect : Phase.Spec (fun e => e = env)
      (Env.connectPhase env.session.upstreamFd events now ans)
      (Phase.Mid (fun e => work env + 1 ≤ work e)
        (fun f e => f ≠ .blocked → work env + 1 ≤ work e)) := by
    rintro e rfl
    unfold Env.connectPhase Env.finishUpstreamConnect
    rw [if_pos ⟨rfl, hcon⟩, if_neg (by simp [hbits])]
    cases ans.connect with
    | none => exact ⟨fun hf => absurd hf (by simp), fun _ hf => absurd rfl hf⟩
    | some r =>
      by_cases hr : r = .ok none
      · simp only [ne_eq, hr, not_true_eq_false, ↓reduceIte]
        refine ⟨fun _ => ?_, fun hf => absurd rfl hf⟩
        simp only [work, Env.record, moved_append, flagsMoved, ProxySession.touch, hcon,
          Bool.not_true, Bool.not_false, Bool.toNat_true, Bool.toNat_false]
        omega
      · simp only [ne_eq, hr, not_false_eq_true, ↓reduceIte]
        refine ⟨fun hf => absurd hf (by simp), fun _ _ => ?_⟩
        exact Nat.lt_of_le_of_lt (work_le_record e (.soError e.session.upstreamFd r))
          (work_lt_close hlive)
  have hrest : Phase.Spec (fun e => work env + 1 ≤ work e)
      ((Env.errorPhase env.session.upstreamFd events ans).andThen <|
        (Env.sidePhase env.session.upstreamFd events now ans).andThen Env.finalPhase)
      (fun _ e => work env + 1 ≤ work e) :=
    (work_stable _ now).calm.rest _ _ _
  have hall := hconnect.andThen (hrest.weaken (fun _ h => h) (fun _ _ h _ => h)) env rfl
  rw [← handleEvent_live _ hlive, hcall] at hall
  exact hall hret

/-- The error bit closes the session. -/
theorem error_work_lt (hlive : env.session.closing = false)
    (hcon : ¬ (side = .upstream ∧ env.session.upstreamConnecting = true))
    (hfd : env.session.clientFd ≠ env.session.upstreamFd)
    (herr : has events EPOLLERR = true)
    (hcall : env.handleEvent (env.session.fdOf side) events now ans = (f, env'))
    (hret : f ≠ .blocked) : work env < work env' := by
  rw [handleEvent_live _ hlive] at hcall
  simp only [Phase.andThen, connectPhase_skip hfd hcon, Env.errorPhase, herr, ↓reduceIte] at hcall
  cases hans : ans.error with
  | none =>
    rw [hans] at hcall
    cases hcall
    exact absurd rfl hret
  | some r =>
    rw [hans] at hcall
    cases hcall
    exact Nat.lt_of_le_of_lt (work_le_record env (.soError (env.session.fdOf side) r))
      (work_lt_close hlive)

/-- A phase that works keeps its gain through the phases after it. -/
theorem work_lt_andThen {p q : Phase Env} (hcall : (p.andThen q) env = (f, env'))
    (hret : f ≠ .blocked) (hlog : env'.log = env.log ++ calls) (hserve : Kernel.Serves k calls k')
    (hpre : env.log <+: (p env).2.log) (hext : ∀ e, e.log <+: (q e).2.log)
    (hkeep : ∀ n, Phase.Spec (fun e => n ≤ work e) q (fun _ e => n ≤ work e))
    (hp : ∀ g u c k₁, p env = (g, u) → g ≠ .blocked → u.log = env.log ++ c →
      Kernel.Serves k c k₁ → work env < work u) : work env < work env' := by
  rcases Phase.andThen_cases hcall with ⟨u, hu, hq⟩ | ⟨-, hu⟩
  · have hmore := hext u
    have hgain := hkeep (work env + 1) u
    rw [hu] at hpre
    rw [hq] at hmore hgain
    obtain ⟨c₁, hc₁⟩ := hpre
    obtain ⟨c₂, hc₂⟩ := hmore
    have hcalls : calls = c₁ ++ c₂ := by
      have hsum : env.log ++ calls = env.log ++ (c₁ ++ c₂) := by
        rw [← hlog, ← hc₂, ← hc₁, List.append_assoc]
      exact List.append_cancel_left hsum
    rw [hcalls] at hserve
    obtain ⟨k₁, hs₁, -⟩ := hserve.split
    exact hgain (hp .next u c₁ k₁ hu (by simp) hc₁.symm hs₁)
  · exact hp f env' calls k' hu hret hlog hserve

/-- **Every reported event but those of `Spins` makes the session work.** -/
theorem handleEvent_work_lt (hfd : env.session.clientFd ≠ env.session.upstreamFd)
    (hlive : env.session.closing = false) (hrange : ∀ c ∈ env.log, c.InRange)
    (hrep : Reports k env.session side events) (hspin : ¬ Spins env.session side events)
    (hcall : env.handleEvent (env.session.fdOf side) events now ans = (f, env'))
    (hret : f ≠ .blocked) (hlog : env'.log = env.log ++ calls)
    (hserve : Kernel.Serves k calls k') : work env < work env' := by
  by_cases hcon : side = .upstream ∧ env.session.upstreamConnecting = true
  · have hbits : has events (EPOLLOUT ||| EPOLLERR ||| EPOLLHUP) = true := by
      by_contra hno
      simp only [Bool.not_eq_true, has_or, Bool.or_eq_false_iff] at hno
      exact hspin ⟨hno.1.2, hno.1.1, by rw [if_pos hcon]; exact hno.2⟩
    obtain ⟨rfl, hc⟩ := hcon
    exact connect_work_lt hlive hc hbits hcall hret
  cases herr : has events EPOLLERR with
  | true => exact error_work_lt hlive hcon hfd herr hcall hret
  | false =>
    rw [handleEvent_serve now ans hfd hlive hcon herr] at hcall
    rw [Phase.andThen_assoc] at hcall
    have hwrite : ∀ e : Env, e.log <+: (e.writePhase side events now ans).2.log := by
      intro e
      have ht : Tracks 0 events e (e.writePhase side events now ans).2 :=
        writePhase_tracks side now ans (Unread.refl e).tracks
      exact ht.log
    have hfinal : ∀ e : Env, e.log <+: e.finalPhase.2.log := by
      intro e
      have ht : Tracks 0 events e e.finalPhase.2 := finalPhase_tracks e e (Unread.refl e).tracks
      exact ht.log
    have hbit := hrep.some_bit
    cases hread : !env.session.readClosed side &&
        has events (EPOLLIN ||| EPOLLRDHUP ||| EPOLLHUP) with
    | true =>
      -- the side is read
      simp only [Bool.and_eq_true, Bool.not_eq_true'] at hread
      obtain ⟨hopen, hbits⟩ := hread
      have hpre : env.log <+: (env.readPhase side events now ans).2.log :=
        (readPhase_tracks side now ans (Unread.refl env) hlive herr rfl).log
      refine work_lt_andThen hcall hret hlog hserve hpre ?_
        (fun n => ((work_stable n now).calm.writePhase _ _ _).keep (work_stable n now).calm.finalPhase) ?_
      · intro e
        unfold Phase.andThen
        have hw := hwrite e
        cases he : e.writePhase side events now ans with
        | mk g u =>
          rw [he] at hw
          cases g with
          | next => exact hw.trans (hfinal u)
          | ret b => exact hw
          | blocked => exact hw
      · intro g u c k₁ hu hg hl hs
        refine readPhase_work_lt hu hg hopen hlive hbits (fun hin => ?_) hl hs
        exact ⟨(hrep.input hin).2, hrep.readable hin⟩
    | false =>
      -- only `EPOLLOUT` is left, so the side is written to
      have hskip : env.readPhase side events now ans = (.next, env) := by
        unfold Env.readPhase
        rw [hread]
        rfl
      have hout : has events EPOLLOUT = true := by
        cases hopen : env.session.readClosed side with
        | true =>
          by_contra hno
          exact hspin ⟨herr, by simpa using hno, by rw [if_neg hcon]; exact hopen⟩
        | false =>
          simp only [hopen, Bool.not_false, Bool.true_and, has_or, Bool.or_eq_false_iff] at hread
          simpa [hread.1.1, hread.1.2, hread.2, herr] using hbit
      have hspace := (hrep.writable hout).resolve_right hcon
      have hwf : ((Env.writePhase side events now ans).andThen Env.finalPhase) env = (f, env') := by
        rw [← hcall]
        simp only [Phase.andThen, hskip]
      refine work_lt_andThen hwf hret hlog hserve (hwrite env) hfinal
        (fun n => (work_stable n now).calm.finalPhase) ?_
      intro g u c k₁ hu hg hl hs
      exact writePhase_work_lt hu hg hlive hout (hrep.output hout hcon) hspace hrange hl hs

end Progress

theorem run_fds (s : ProxySession) (backend : Backend) (m₀ : Metrics) (inputs : List Input)
    (t : Side) : (Env.run inputs (.start s backend m₀)).2.session.fdOf t = s.fdOf t := by
  have h := run_point (S := fun e => ∀ t, e.session.fdOf t = s.fdOf t)
    (B := fun e => ∀ t, e.session.fdOf t = s.fdOf t) (fun _ h => h)
    (fun fd events now ans env h =>
      have hk := fun t => ((handleEvent_tracks fd events now ans env).fds t).trans (h t)
      ⟨hk, fun _ => hk⟩)
    (fun env h t => by rw [← h t]; cases t <;> rfl) inputs (.start s backend m₀) (fun _ => rfl)
  exact h.1 t

/-- **When an event is work.** For every reachable live session, every state
of its sockets and every mask epoll may report for one of them, the call of
`handleEvent` returns, and it receives or sends a byte or changes a flag
unless the event is one of `Spins`, and only then. -/
theorem progress_iff_not_spins (cap id : Nat) (cfd ufd : Fd) (connecting : Bool) (b t₀ : Nat)
    (backend : Backend) (m₀ : Metrics) (hfd : cfd ≠ ufd) (inputs : List Input) (env : Env)
    (hrun : Env.run inputs (.start (.new id cfd ufd connecting b cap t₀) backend m₀) = (.next, env))
    (hrange : ∀ c ∈ env.log, c.InRange) (hlive : env.session.closing = false)
    (k : Kernel) (side : Side) (events : EventMask) (hrep : Reports k env.session side events)
    (now : Nat) (ans : Answers) (f : Flow) (env' : Env) (calls : List Call) (k' : Kernel)
    (hcall : env.handleEvent (env.session.fdOf side) events now ans = (f, env'))
    (hlog : env'.log = env.log ++ calls) (hserve : Kernel.Serves k calls k') :
    (Enough cap ans → f ≠ .blocked) ∧
      (f ≠ .blocked → (Progress env env' ↔ ¬ Spins env.session side events)) := by
  have hsound := run_sound cap id cfd ufd connecting b t₀ backend m₀ inputs
  have hfaith := run_faithful cap id cfd ufd connecting b t₀ backend m₀ inputs
  have hfds := run_fds (.new id cfd ufd connecting b cap t₀) backend m₀ inputs
  rw [hrun] at hsound hfaith hfds
  have hne : env.session.clientFd ≠ env.session.upstreamFd := by
    have hc : env.session.clientFd = cfd := hfds .client
    have hu : env.session.upstreamFd = ufd := hfds .upstream
    rw [hc, hu]
    exact hfd
  have hrest : HalfClose env.session := (hsound.2 (by simp)).2 hlive
  refine ⟨fun henough => ?_, fun hret => ⟨fun hprog hspin => ?_, fun hspin => ?_⟩⟩
  · have hreturns : Returns (env.handleEvent (env.session.fdOf side) events now ans).1
        (env.handleEvent (env.session.fdOf side) events now ans).2 :=
      handleEvent_returns (env.session.fdOf side) henough env hfaith
    rw [hcall] at hreturns
    apply hreturns
    intro c hc
    rw [hlog] at hc
    rcases List.mem_append.mp hc with hc | hc
    · exact hrange c hc
    · exact (hserve.spec side).1 c hc
  · have hidle := handleEvent_idle now ans hne hlive hrest hspin
    rw [hcall] at hidle
    cases hidle
    simp [Progress] at hprog
  · exact progress_of_work_lt
      (handleEvent_work_lt hne hlive hrange hrep hspin hcall hret hlog hserve)

namespace Demo

/-- A session with four bytes of buffer in each direction. -/
def fourBytes : Env := .start (.new 1 10 11 false 0 4 0) (.new ⟨"app", "127.0.0.1", 9001, 1⟩) .new

/-- The client has sent two bytes, which have not been forwarded yet. -/
def firstBytes : List Input := [.event 10 EPOLLIN 1 ⟨none, none, [.ok [5, 6], .error .eagain], []⟩]

def halfFull : Env := (Env.run firstBytes fourBytes).2

/-- Five more bytes are waiting; `recv` is interrupted before it takes two of them. -/
def waiting : Kernel := ⟨⟨Pipe.empty.push [7, 8, 9, 10, 11], false, 8⟩, ⟨.empty, false, 8⟩⟩

def moreBytes : Answers where
  connect := some (.ok none)
  error := some (.ok none)
  recvs := .error .eintr :: .ok [7, 8] :: List.replicate 4 (.error .eagain)
  sends := List.replicate 5 (.error .eagain)

end Demo

/-- Bytes arrive at a session whose buffer is half full: an interrupted `recv` is repeated and fills it. -/
theorem progress_on_half_full :
    ∃ env', Demo.halfFull.handleEvent 10 EPOLLIN 2 Demo.moreBytes = (.ret true, env') ∧
      env'.session.clientToUpstream.readData = [5, 6, 7, 8] ∧ Progress Demo.halfFull env' := by
  have hrep : Reports Demo.waiting Demo.halfFull.session .client EPOLLIN :=
    ⟨by decide, by decide, by decide, by decide, by decide⟩
  have hserve : Kernel.Serves Demo.waiting [.recv .client 2 (.error .eintr), .recv .client 2 (.ok [7, 8])]
      (Demo.waiting.set .client { Demo.waiting.client with rx := Demo.waiting.client.rx.pop 2 }) := .of_answers rfl
  have hmain := progress_iff_not_spins 4 1 10 11 false 0 0 (.new ⟨"app", "127.0.0.1", 9001, 1⟩) .new
    (by decide) Demo.firstBytes Demo.halfFull rfl (by decide) rfl Demo.waiting .client EPOLLIN hrep 2 Demo.moreBytes
    (.ret true) _ _ _ rfl rfl hserve
  have hret := hmain.1 ⟨by decide, by decide, by decide, by decide⟩
  exact ⟨_, rfl, rfl, (hmain.2 hret).mpr (fun h => absurd h.2.2 (by decide))⟩

namespace World

/-- A client that has sent its FIN: the session reads the end of file, shuts
the upstream down and waits for the response. `EPOLLRDHUP` is still
subscribed and reported, and the call it leads to does nothing. -/
theorem spins_after_client_fin :
    ∃ moves w, Run (Guarded Subscribed Step)
        (start 1 1 10 11 false 0 0 (.new ⟨"app", "127.0.0.1", 9001, 1⟩) .new 8 8) moves w ∧
      w.env.session.closing = false ∧ Reports w.kernel w.env.session .client EPOLLRDHUP ∧
      (∀ now ans, w.env.handleEvent 10 EPOLLRDHUP now ans = (.ret true, w.env)) ∧
      ¬ Progress w.env w.env := by
  let w₀ := start 1 1 10 11 false 0 0 (.new ⟨"app", "127.0.0.1", 9001, 1⟩) .new 8 8
  let w₁ : World := ⟨w₀.env, w₀.kernel.set .client { w₀.kernel.client with fin := true }⟩
  let w₂ := w₁.handle .client (EPOLLIN ||| EPOLLRDHUP) 1 ⟨none, none, [.ok []], []⟩
  have h₁ : Step w₀ .net w₁ := .net (.fin .client)
  have h₂ : Step w₁ _ w₂ := step_handle (by decide) (by decide) (by decide)
  have hrun : Run (Guarded Subscribed Step) w₀ _ w₂ :=
    (Run.nil.snoc ⟨by decide, h₁⟩).snoc ⟨by decide, h₂⟩
  refine ⟨_, w₂, hrun, rfl, ⟨by decide, by decide, by decide, by decide, by decide⟩, ?_, ?_⟩
  · intro now ans
    rfl
  · simp [Progress]

end World

end FluxGate
