import FluxGate.Effects

/-!
# Byte-stream fidelity of a session

Each direction of a session is a pipe: the bytes received from the source
socket are the bytes accepted by the destination socket followed by what the
buffer of that direction holds. `Relay` states this for one direction,
together with the cursor invariant of the buffer and the growth of the byte
counter; it holds at every point of every run.
-/

namespace FluxGate

open Lib

/-! ## Reading the log -/

namespace Call

/-- The bytes a call delivered from `side`. -/
def bytesFrom (side : Side) : Call → List Byte
  | .recv s _ (.ok data) => if s = side then data else []
  | _ => []

/-- The bytes `side` accepted in a call. -/
def bytesTo (side : Side) : Call → List Byte
  | .send s data (.ok count) => if s = side then data.take count else []
  | _ => []

/-- The count returned does not exceed the length asked for. -/
def InRange : Call → Prop
  | .recv _ length (.ok data) => data.length ≤ length
  | .send _ data (.ok count) => count ≤ data.length
  | _ => True

instance (c : Call) : Decidable c.InRange :=
  match c with
  | .recv _ length (.ok data) => inferInstanceAs (Decidable (data.length ≤ length))
  | .recv _ _ (.error _) => .isTrue trivial
  | .send _ data (.ok count) => inferInstanceAs (Decidable (count ≤ data.length))
  | .send _ _ (.error _) => .isTrue trivial
  | .soError _ _ => .isTrue trivial
  | .shutdownWrite _ => .isTrue trivial

theorem bytesFrom_of_quiet {c : Call} (h : c.quiet = true) (side : Side) : c.bytesFrom side = [] := by
  cases c with
  | recv s length result =>
    cases result with
    | ok data =>
      have hd : data = [] := by simpa [quiet] using h
      simp [bytesFrom, hd]
    | error e => rfl
  | send s data result => rfl
  | soError fd result => rfl
  | shutdownWrite s => rfl

theorem bytesTo_of_quiet {c : Call} (h : c.quiet = true) (side : Side) : c.bytesTo side = [] := by
  cases c with
  | recv s length result => rfl
  | send s data result =>
    cases result with
    | ok count =>
      have hc : count = 0 := by simpa [quiet] using h
      simp [bytesTo, hc]
    | error e => rfl
  | soError fd result => rfl
  | shutdownWrite s => rfl

end Call

/-- The bytes received from `side`, in order. -/
def received (side : Side) (log : List Call) : List Byte := log.flatMap (Call.bytesFrom side)

/-- The bytes accepted by `send` on `side`, in order. -/
def sent (side : Side) (log : List Call) : List Byte := log.flatMap (Call.bytesTo side)

theorem received_append (side : Side) (log : List Call) (calls : List Call) :
    received side (log ++ calls) = received side log ++ received side calls :=
  List.flatMap_append

theorem sent_append (side : Side) (log : List Call) (calls : List Call) :
    sent side (log ++ calls) = sent side log ++ sent side calls :=
  List.flatMap_append

/-- The `Metrics` byte counter of the direction that reads from `side`. -/
def byteCounter (side : Side) (m : Metrics) : UInt64 :=
  match side with
  | .client => m.clientToBackendBytes
  | .upstream => m.backendToClientBytes

/-! ## Runs of a session -/

/-- What a session is subjected to: a call of `handleEvent`, or the mark its
worker sets when an epoll update failed. -/
inductive Input where
  | event (fd : Fd) (events : EventMask) (now : Nat) (answers : Answers)
  | markClosing
  deriving DecidableEq, Repr

namespace Env

def input : Input → Phase Env
  | .markClosing => fun env => (.next, env.close)
  | .event fd events now ans => fun env =>
    match env.handleEvent fd events now ans with
    | (.blocked, env') => (.blocked, env')
    | (_, env') => (.next, env')

/-- A run ends between two calls (`next`), or inside the call whose answers
ran out (`blocked`). -/
def run : List Input → Phase Env
  | [] => fun env => (.next, env)
  | i :: rest => (input i).andThen (run rest)

/-- A session as `createSession` builds it, with nothing logged yet. -/
def start (s : ProxySession) (backend : Backend) (metrics : Metrics) : Env :=
  ⟨s, backend, metrics, []⟩

end Env

/-- What holds inside a call, and what holds between two calls. -/
def Point (S B : Env → Prop) (f : Flow) (env : Env) : Prop := S env ∧ (f ≠ .blocked → B env)

/-- **Run rule.** If every call takes `B` to `B`, with `S` wherever it may
stop inside, then so does every run. -/
theorem run_point {S B : Env → Prop} (hBS : ∀ env, B env → S env)
    (hevent : ∀ fd events now ans,
      Phase.Spec B (Env.handleEvent fd events now ans) (Point S B))
    (hclose : ∀ env, B env → B env.close) (inputs : List Input) :
    Phase.Spec B (Env.run inputs) (Point S B) := by
  induction inputs with
  | nil => exact fun env h => ⟨hBS env h, fun _ => h⟩
  | cons i rest ih =>
    refine Phase.Spec.andThen (M := B) ?_ ih
    intro env h
    cases i with
    | markClosing => exact ⟨fun _ => hclose env h, fun hf => absurd rfl hf⟩
    | event fd events now ans =>
      have he := hevent fd events now ans env h
      cases hr : env.handleEvent fd events now ans with
      | mk f env' =>
        rw [hr] at he
        simp only [Env.input, hr]
        cases f with
        | next => exact ⟨fun _ => he.2 (by simp), fun hf => absurd rfl hf⟩
        | ret b => exact ⟨fun _ => he.2 (by simp), fun hf => absurd rfl hf⟩
        | blocked => exact ⟨fun hf => absurd hf (by simp), fun _ => he⟩

/-! ## The invariant of one direction -/

structure Relay (cap : Nat) (m₀ : Metrics) (side : Side) (env : Env) : Prop where
  wf : (env.session.inbound side).WF
  capacity : (env.session.inbound side).capacity = cap
  bytes : received side env.log =
    sent side.other env.log ++ (env.session.inbound side).readData
  counter : byteCounter side env.metrics =
    byteCounter side m₀ + UInt64.ofNat (received side env.log).length

/-- Both directions relay faithfully, provided the answers were in range. -/
def Faithful (cap : Nat) (m₀ : Metrics) (env : Env) : Prop :=
  (∀ c ∈ env.log, c.InRange) → ∀ side, Relay cap m₀ side env

section Steps

variable {cap : Nat} {m₀ : Metrics} {env : Env} {side : Side}

theorem Relay.congr {env' : Env} (h : Relay cap m₀ side env)
    (hb : env'.session.inbound side = env.session.inbound side)
    (hr : received side env'.log = received side env.log)
    (hs : sent side.other env'.log = sent side.other env.log)
    (hm : byteCounter side env'.metrics = byteCounter side env.metrics) :
    Relay cap m₀ side env' :=
  ⟨hb ▸ h.wf, hb ▸ h.capacity, by rw [hr, hs, hb]; exact h.bytes, by rw [hm, hr]; exact h.counter⟩

theorem received_record (t : Side) (c : Call) :
    received t (env.record c).log = received t env.log ++ c.bytesFrom t := by
  simp [Env.record, received]

theorem sent_record (t : Side) (c : Call) :
    sent t (env.record c).log = sent t env.log ++ c.bytesTo t := by
  simp [Env.record, sent]

/-- A call that moves no bytes. -/
theorem Faithful.record {c : Call} (h : Faithful cap m₀ env) (hc : c.quiet = true) :
    Faithful cap m₀ (env.record c) := by
  intro hr t
  have hrel := h (fun d hd => hr d (List.mem_append_left _ hd)) t
  apply hrel.congr
  · rfl
  · rw [received_record, Call.bytesFrom_of_quiet hc, List.append_nil]
  · rw [sent_record, Call.bytesTo_of_quiet hc, List.append_nil]
  · rfl

/-- A change of flags or timestamps only. -/
theorem Faithful.flags {s : ProxySession} (h : Faithful cap m₀ env)
    (hs : ∀ t, s.inbound t = env.session.inbound t) :
    Faithful cap m₀ { env with session := s } :=
  fun hr t => (h hr t).congr (hs t) rfl rfl rfl

theorem Faithful.close (h : Faithful cap m₀ env) : Faithful cap m₀ env.close :=
  h.flags (fun t => ProxySession.inbound_markClosing env.session t)

theorem Faithful.makeWritable (h : Faithful cap m₀ env) (side : Side) :
    Faithful cap m₀ (env.makeWritable side) := by
  intro hr t
  have hrel := h hr t
  rcases Side.eq_or_other side t with rfl | rfl
  · have hb : (env.makeWritable t).session.inbound t = (env.session.inbound t).makeWritable :=
      ProxySession.inbound_setInbound _ _ _
    refine ⟨?_, ?_, ?_, hrel.counter⟩
    · rw [hb]
      exact ByteBuffer.makeWritable_wf hrel.wf
    · rw [hb, ByteBuffer.makeWritable_capacity]
      exact hrel.capacity
    · rw [hb, ByteBuffer.makeWritable_readData hrel.wf]
      exact hrel.bytes
  · exact hrel.congr (ProxySession.inbound_setInbound_other _ _ _) rfl rfl rfl

theorem byteCounter_addBytes (m : Metrics) (n : Nat) :
    byteCounter side (Env.addBytes m side n) = byteCounter side m + UInt64.ofNat n := by
  cases side <;> rfl

theorem byteCounter_addBytes_other (m : Metrics) (n : Nat) :
    byteCounter side.other (Env.addBytes m side n) = byteCounter side.other m := by
  cases side <;> rfl

/-- A `recv` that stored bytes: the pipe of its direction is fed, the other
one is untouched. -/
theorem Faithful.recv (h : Faithful cap m₀ env) (side : Side) (data : List Byte) (now : Nat) :
    Faithful cap m₀ ((env.recvCall side (.ok data)).received side data now) := by
  intro hr t
  have hlen : data.length ≤ env.room side :=
    hr (.recv side _ (.ok data)) (List.mem_append_right _ (List.mem_singleton_self _))
  have hrel := h.makeWritable side (fun d hd => hr d (List.mem_append_left _ hd)) t
  rcases Side.eq_or_other side t with rfl | rfl
  · have hb : ((env.recvCall t (.ok data)).received t data now).session.inbound t
        = ((env.makeWritable t).session.inbound t).append data := by
      simp [Env.received, Env.recvCall, Env.record]
    have hrec : received t (env.recvCall t (.ok data)).log = received t env.log ++ data := by
      rw [Env.recvCall, received_record]
      simp [Call.bytesFrom, Env.makeWritable]
    refine ⟨?_, ?_, ?_, ?_⟩
    · rw [hb]
      exact ByteBuffer.append_wf hlen hrel.wf
    · rw [hb, ByteBuffer.append_capacity hlen hrel.wf]
      exact hrel.capacity
    · show received t (env.recvCall t _).log = sent t.other (env.recvCall t _).log ++ _
      have hbytes : received t env.log = sent t.other env.log ++ _ := hrel.bytes
      rw [hb, hrec, Env.recvCall, sent_record, ByteBuffer.append_readData data hrel.wf, hbytes]
      simp [Call.bytesTo, Env.makeWritable]
    · show byteCounter t (Env.addBytes env.metrics t data.length) =
        byteCounter t m₀ + UInt64.ofNat (received t (env.recvCall t _).log).length
      rw [hrec, byteCounter_addBytes, List.length_append, UInt64.ofNat_add, ← UInt64.add_assoc]
      congr 1
      exact hrel.counter
  · apply hrel.congr
    · simp [Env.received, Env.recvCall, Env.record]
    · show received side.other (env.recvCall side _).log = _
      rw [Env.recvCall, received_record]
      simp [Call.bytesFrom, (Side.other_ne side).symm]
    · show sent side.other.other (env.recvCall side _).log = _
      rw [Env.recvCall, sent_record]
      simp [Call.bytesTo]
    · exact byteCounter_addBytes_other _ _

/-- A `send` that took bytes: the pipe that ends at its side is drained. -/
theorem Faithful.send (h : Faithful cap m₀ env) (side : Side) (n now : Nat) :
    Faithful cap m₀ ((env.sendCall side (.ok n)).sent side n now) := by
  intro hr t
  have hrel := h (fun d hd => hr d (List.mem_append_left _ hd)) t
  have hn : n ≤ (env.session.outbound side).readData.length :=
    hr (.send side _ (.ok n)) (List.mem_append_right _ (List.mem_singleton_self _))
  rcases Side.eq_or_other side t with rfl | rfl
  · apply hrel.congr
    · simp [Env.sent, Env.sendCall, Env.record]
    · show received t (env.sendCall _ _).log = _
      rw [Env.sendCall, received_record]
      simp [Call.bytesFrom]
    · show sent t.other (env.sendCall _ _).log = _
      rw [Env.sendCall, sent_record]
      simp [Call.bytesTo, (Side.other_ne t).symm]
    · rfl
  · have hread : n ≤ (env.session.outbound side).readableBytes :=
      Nat.le_trans hn (Nat.le_of_eq (ByteBuffer.readData_length hrel.wf))
    have hb : ((env.sendCall side (.ok n)).sent side n now).session.inbound side.other
        = (env.session.outbound side).consume n := by
      simp [Env.sent, Env.sendCall, Env.record]
    have hbytes := hrel.bytes
    rw [Side.other_other] at hbytes
    refine ⟨?_, ?_, ?_, ?_⟩
    · rw [hb]
      exact ByteBuffer.consume_wf hread hrel.wf
    · rw [hb, ByteBuffer.consume_capacity]
      exact hrel.capacity
    · show received side.other (env.sendCall _ _).log =
        sent side.other.other (env.sendCall _ _).log ++ _
      rw [hb, Env.sendCall, received_record, sent_record, Side.other_other, hbytes,
        ByteBuffer.consume_readData hread]
      simp [Call.bytesTo, Call.bytesFrom, ProxySession.outbound]
    · show byteCounter side.other env.metrics = _ + UInt64.ofNat (received _ (env.sendCall _ _).log).length
      rw [Env.sendCall, received_record, hrel.counter]
      simp [Call.bytesFrom]

/-! ## Whole calls and whole runs -/

theorem faithful_stable (cap : Nat) (m₀ : Metrics) (now : Nat) : Stable now (Faithful cap m₀) where
  close _ h := h.close
  readClosed _ _ h := h.flags (fun t => ProxySession.inbound_setReadClosed _ _ t)
  writeShutdown _ _ h := h.flags (fun t => ProxySession.inbound_setWriteShutdown _ _ t)
  connected _ h hr t := (h hr t).congr (by cases t <;> rfl) rfl rfl rfl
  connectFailed _ h hr t := (h hr t).congr rfl rfl rfl (by cases t <;> rfl)
  call _ _ hc h := h.record hc
  makeWritable _ side h := h.makeWritable side
  recv _ side b data h := h.recv side (b :: data) now
  send _ side n h := h.send side (n + 1) now

end Steps

theorem handleEvent_faithful (cap : Nat) (m₀ : Metrics) (fd : Fd) (events : EventMask) (now : Nat)
    (ans : Answers) : Phase.Spec (Faithful cap m₀) (Env.handleEvent fd events now ans)
      (fun _ => Faithful cap m₀) :=
  (faithful_stable cap m₀ now).handleEvent fd events ans

theorem start_faithful (cap id : Nat) (cfd ufd : Fd) (connecting : Bool) (b now : Nat)
    (backend : Backend) (m₀ : Metrics) :
    Faithful cap m₀ (.start (.new id cfd ufd connecting b cap now) backend m₀) := by
  intro _ side
  have hb : (ProxySession.new id cfd ufd connecting b cap now).inbound side = .new cap := by
    cases side <;> rfl
  refine ⟨?_, ?_, ?_, ?_⟩
  · exact hb ▸ ByteBuffer.new_wf cap
  · exact hb ▸ ByteBuffer.new_capacity cap
  · show [] = [] ++ ((ProxySession.new id cfd ufd connecting b cap now).inbound side).readData
    rw [hb, ByteBuffer.new_readData, List.append_nil]
  · exact (UInt64.add_zero _).symm

theorem run_faithful (cap id : Nat) (cfd ufd : Fd) (connecting : Bool) (b now : Nat)
    (backend : Backend) (m₀ : Metrics) (inputs : List Input) :
    Faithful cap m₀ (Env.run inputs (.start (.new id cfd ufd connecting b cap now) backend m₀)).2 := by
  have h := run_point (S := Faithful cap m₀) (fun _ h => h)
    (fun fd events now ans env h =>
      have hk := handleEvent_faithful cap m₀ fd events now ans env h
      ⟨hk, fun _ => hk⟩)
    (fun _ h => h.close) inputs _ (start_faithful cap id cfd ufd connecting b now backend m₀)
  exact h.1

/-- **Byte-stream fidelity.** At every point of every run, in each direction:
the bytes received are the bytes accepted on the other side followed by the
unread content of the buffer, which never exceeds its capacity, and the byte
counter has grown by the number of bytes received (modulo its 64 bits). -/
theorem run_relay (cap id : Nat) (cfd ufd : Fd) (connecting : Bool) (b now : Nat)
    (backend : Backend) (m₀ : Metrics) (inputs : List Input) (flow : Flow) (env : Env)
    (hrun : Env.run inputs (.start (.new id cfd ufd connecting b cap now) backend m₀) = (flow, env))
    (hrange : ∀ c ∈ env.log, c.InRange) (side : Side) :
    received side env.log = sent side.other env.log ++ (env.session.inbound side).readData ∧
      (env.session.inbound side).readData.length ≤ cap ∧
      byteCounter side env.metrics =
        byteCounter side m₀ + UInt64.ofNat (received side env.log).length := by
  have hf := run_faithful cap id cfd ufd connecting b now backend m₀ inputs
  rw [hrun] at hf
  have hrel := hf hrange side
  refine ⟨hrel.bytes, ?_, hrel.counter⟩
  rw [← hrel.capacity]
  exact ByteBuffer.readData_length_le hrel.wf

/-- Three bytes arrive in two short reads and one of them leaves: one byte was
accepted and two are held. -/
theorem run_relay_short_write :
    ∃ env, Env.run
        [.event 10 EPOLLIN 1 ⟨none, none, [.ok [7], .error .eintr, .ok [8, 9], .error .eagain], []⟩,
          .event 11 EPOLLOUT 2 ⟨none, none, [], [.ok 1, .error .eagain]⟩]
        (.start (.new 1 10 11 false 0 4 0) (.new ⟨"app", "127.0.0.1", 9001, 1⟩) .new) = (.next, env) ∧
      received .client env.log = [7, 8, 9] ∧ sent .upstream env.log = [7] ∧
      received .client env.log =
        sent .upstream env.log ++ (env.session.inbound .client).readData := by
  refine ⟨_, rfl, by decide, by decide, ?_⟩
  exact (run_relay 4 1 10 11 false 0 0 (.new ⟨"app", "127.0.0.1", 9001, 1⟩) .new
    [.event 10 EPOLLIN 1 ⟨none, none, [.ok [7], .error .eintr, .ok [8, 9], .error .eagain], []⟩,
      .event 11 EPOLLOUT 2 ⟨none, none, [], [.ok 1, .error .eagain]⟩]
    .next _ rfl (by decide) .client).1

end FluxGate
