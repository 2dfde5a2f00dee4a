import FluxGate.ByteBuffer
import FluxGate.Shared
import FluxGate.Lib.Phase

/-!
# `ProxySession`: the bidirectional forwarding state machine

The system calls a session makes are answered by the environment: a call of
`handleEvent` receives the answers it may consume (`Answers`) and records
every call it makes in a log. When the answers run out in the middle of the
function the state reached so far is kept and control is `blocked`; so the
states a session passes through between two system calls are exactly the
states reached on shorter answers, and a statement about all answers is a
statement about every point of the run.

One reading of the clock serves a whole call of `handleEvent`. Log texts are
left out.
-/

namespace FluxGate

open Lib

abbrev Fd := Nat

/-! ## Event masks -/

abbrev EventMask := UInt32

def EPOLLIN : EventMask := 0x001
def EPOLLOUT : EventMask := 0x004
def EPOLLERR : EventMask := 0x008
def EPOLLHUP : EventMask := 0x010
def EPOLLRDHUP : EventMask := 0x2000

/-- `(events & bits) != 0`. -/
def has (events bits : EventMask) : Bool := (events &&& bits) != 0

/-! ## System calls and their answers -/

inductive Errno where
  | eintr | eagain | ewouldblock | econnreset | epipe
  | other (code : Nat)
  deriving DecidableEq, Repr

/-- `errno == EAGAIN || errno == EWOULDBLOCK`. -/
def Errno.again (e : Errno) : Bool := e == .eagain || e == .ewouldblock

/-- `recv`: the bytes stored (none at end of file), or `-1` and `errno`. -/
inductive RecvResult where
  | ok (data : List Byte)
  | error (errno : Errno)
  deriving DecidableEq, Repr

/-- `send`: the number of bytes taken, or `-1` and `errno`. -/
inductive SendResult where
  | ok (count : Nat)
  | error (errno : Errno)
  deriving DecidableEq, Repr

/-- `getsockopt(SO_ERROR)`: the pending error (`none` for 0), or `-1`. -/
inductive SoError where
  | ok (error : Option Errno)
  | failed (errno : Errno)
  deriving DecidableEq, Repr

/-- The two sockets of a session. -/
inductive Side where
  | client | upstream
  deriving DecidableEq, Repr

def Side.other : Side → Side
  | .client => .upstream
  | .upstream => .client

@[simp] theorem Side.other_other (side : Side) : side.other.other = side := by
  cases side <;> rfl

theorem Side.eq_or_other (side t : Side) : t = side ∨ t = side.other := by
  cases side <;> cases t <;> simp [Side.other]

theorem Side.other_ne (side : Side) : side.other ≠ side := by
  cases side <;> simp [Side.other]

/-- One system call of a session with its answer. -/
inductive Call where
  | recv (side : Side) (length : Nat) (result : RecvResult)
  | send (side : Side) (data : List Byte) (result : SendResult)
  | soError (fd : Fd) (result : SoError)
  | shutdownWrite (side : Side)
  deriving DecidableEq, Repr

/-- The answers one call of `handleEvent` may consume: those of the two
`getsockopt` sites, and the successive results of `recv` and of `send`. -/
structure Answers where
  connect : Option SoError
  error : Option SoError
  recvs : List RecvResult
  sends : List SendResult
  deriving DecidableEq, Repr

/-! ## The session object -/

structure ProxySession where
  id : Nat
  clientFd : Fd
  upstreamFd : Fd
  upstreamConnecting : Bool
  /-- the backend of the lease, by its index in the pool -/
  backend : Nat
  clientToUpstream : ByteBuffer
  upstreamToClient : ByteBuffer
  clientReadClosed : Bool
  upstreamReadClosed : Bool
  clientWriteShutdown : Bool
  upstreamWriteShutdown : Bool
  closing : Bool
  createdAt : Nat
  lastActivity : Nat
  deriving DecidableEq, Repr

inductive IoResult where
  | progress | wouldBlock | closed | error
  deriving DecidableEq, Repr

/-- The result of a transfer that cannot go on now. -/
def stalled (progressed : Bool) : IoResult := if progressed then .progress else .wouldBlock

theorem stalled_cases (p : Bool) : stalled p = .progress ∨ stalled p = .wouldBlock := by
  cases p
  · exact Or.inr rfl
  · exact Or.inl rfl

namespace ProxySession

def new (id : Nat) (clientFd upstreamFd : Fd) (upstreamConnecting : Bool) (backend : Nat)
    (bufferSize now : Nat) : ProxySession where
  id := id
  clientFd := clientFd
  upstreamFd := upstreamFd
  upstreamConnecting := upstreamConnecting
  backend := backend
  clientToUpstream := ByteBuffer.new bufferSize
  upstreamToClient := ByteBuffer.new bufferSize
  clientReadClosed := false
  upstreamReadClosed := false
  clientWriteShutdown := false
  upstreamWriteShutdown := false
  closing := false
  createdAt := now
  lastActivity := now

def markClosing (s : ProxySession) : ProxySession := { s with closing := true }

def touch (s : ProxySession) (now : Nat) : ProxySession := { s with lastActivity := now }

/-- The buffer filled by reading from a side. -/
def inbound (s : ProxySession) : Side → ByteBuffer
  | .client => s.clientToUpstream
  | .upstream => s.upstreamToClient

/-- The buffer drained by writing to a side. -/
def outbound (s : ProxySession) (side : Side) : ByteBuffer := s.inbound side.other

def setInbound (s : ProxySession) (side : Side) (b : ByteBuffer) : ProxySession :=
  match side with
  | .client => { s with clientToUpstream := b }
  | .upstream => { s with upstreamToClient := b }

def setOutbound (s : ProxySession) (side : Side) (b : ByteBuffer) : ProxySession :=
  s.setInbound side.other b

def readClosed (s : ProxySession) : Side → Bool
  | .client => s.clientReadClosed
  | .upstream => s.upstreamReadClosed

def setReadClosed (s : ProxySession) : Side → ProxySession
  | .client => { s with clientReadClosed := true }
  | .upstream => { s with upstreamReadClosed := true }

def writeShutdown (s : ProxySession) : Side → Bool
  | .client => s.clientWriteShutdown
  | .upstream => s.upstreamWriteShutdown

def setWriteShutdown (s : ProxySession) : Side → ProxySession
  | .client => { s with clientWriteShutdown := true }
  | .upstream => { s with upstreamWriteShutdown := true }

def fdOf (s : ProxySession) : Side → Fd
  | .client => s.clientFd
  | .upstream => s.upstreamFd

def clientEvents (s : ProxySession) : EventMask :=
  let events := EPOLLRDHUP
  let events := if !s.clientReadClosed && decide (0 < s.clientToUpstream.writableBytes) then
    events ||| EPOLLIN else events
  if !s.upstreamToClient.empty then events ||| EPOLLOUT else events

def upstreamEvents (s : ProxySession) : EventMask :=
  let events := EPOLLRDHUP
  if s.upstreamConnecting then events ||| EPOLLOUT
  else
    let events := if !s.upstreamReadClosed && decide (0 < s.upstreamToClient.writableBytes) then
      events ||| EPOLLIN else events
    if !s.clientToUpstream.empty then events ||| EPOLLOUT else events

def events (s : ProxySession) : Side → EventMask
  | .client => s.clientEvents
  | .upstream => s.upstreamEvents

/-- Times are in milliseconds. -/
def idleFor (s : ProxySession) (timeout now : Nat) : Bool := decide (timeout ≤ now - s.lastActivity)

def connectTimedOut (s : ProxySession) (timeout now : Nat) : Bool :=
  s.upstreamConnecting && decide (timeout ≤ now - s.createdAt)

def completed (s : ProxySession) : Bool := s.upstreamReadClosed && s.upstreamToClient.empty

/-- The part of a session that the transfer loops leave alone. -/
structure Control where
  clientFd : Fd
  upstreamFd : Fd
  upstreamConnecting : Bool
  clientReadClosed : Bool
  upstreamReadClosed : Bool
  clientWriteShutdown : Bool
  upstreamWriteShutdown : Bool
  closing : Bool
  deriving DecidableEq, Repr

def control (s : ProxySession) : Control where
  clientFd := s.clientFd
  upstreamFd := s.upstreamFd
  upstreamConnecting := s.upstreamConnecting
  clientReadClosed := s.clientReadClosed
  upstreamReadClosed := s.upstreamReadClosed
  clientWriteShutdown := s.clientWriteShutdown
  upstreamWriteShutdown := s.upstreamWriteShutdown
  closing := s.closing

section Accessors

variable (s : ProxySession) (side : Side) (b : ByteBuffer) (now : Nat)

@[simp] theorem inbound_setInbound : (s.setInbound side b).inbound side = b := by
  cases side <;> rfl
@[simp] theorem inbound_setInbound_other :
    (s.setInbound side b).inbound side.other = s.inbound side.other := by
  cases side <;> rfl
@[simp] theorem inbound_setOutbound : (s.setOutbound side b).inbound side = s.inbound side := by
  cases side <;> rfl
@[simp] theorem inbound_setOutbound_other : (s.setOutbound side b).inbound side.other = b := by
  cases side <;> rfl
@[simp] theorem inbound_touch (t : Side) : (s.touch now).inbound t = s.inbound t := by
  cases t <;> rfl
@[simp] theorem inbound_markClosing (t : Side) : s.markClosing.inbound t = s.inbound t := by
  cases t <;> rfl
@[simp] theorem inbound_setReadClosed (t : Side) :
    (s.setReadClosed side).inbound t = s.inbound t := by
  cases side <;> cases t <;> rfl
@[simp] theorem inbound_setWriteShutdown (t : Side) :
    (s.setWriteShutdown side).inbound t = s.inbound t := by
  cases side <;> cases t <;> rfl

@[simp] theorem control_touch : (s.touch now).control = s.control := rfl
@[simp] theorem control_setInbound : (s.setInbound side b).control = s.control := by
  cases side <;> rfl
@[simp] theorem control_setOutbound : (s.setOutbound side b).control = s.control := by
  cases side <;> rfl

end Accessors

end ProxySession

/-! ## What a call of `handleEvent` works on -/

structure Env where
  session : ProxySession
  backend : Backend
  metrics : Metrics
  log : List Call
  deriving DecidableEq, Repr

namespace Env

def record (env : Env) (call : Call) : Env := { env with log := env.log ++ [call] }

def close (env : Env) : Env := { env with session := env.session.markClosing }

def makeWritable (env : Env) (side : Side) : Env :=
  { env with session :=
      env.session.setInbound side (env.session.inbound side).makeWritable }

/-- The byte counter of the direction that reads from `side`. -/
def addBytes (m : Metrics) (side : Side) (bytes : Nat) : Metrics :=
  match side with
  | .client => m.addClientToBackend bytes
  | .upstream => m.addBackendToClient bytes

/-- A `recv` that stored `data`: the write cursor, the byte counter of the
direction and the time of the last activity move on. -/
def received (env : Env) (side : Side) (data : List Byte) (now : Nat) : Env :=
  { env with
    session :=
      (env.session.setInbound side ((env.session.inbound side).append data)).touch now
    metrics := addBytes env.metrics side data.length }

/-- A `send` that took `count` bytes. -/
def sent (env : Env) (side : Side) (count now : Nat) : Env :=
  { env with session :=
      (env.session.setOutbound side ((env.session.outbound side).consume count)).touch now }

/-- `writableBytes()` after `makeWritable()`: the length offered to `recv`. -/
def room (env : Env) (side : Side) : Nat :=
  ((env.makeWritable side).session.inbound side).writableBytes

/-- After `makeWritable()` and a `recv` answered by `r`. -/
def recvCall (env : Env) (side : Side) (r : RecvResult) : Env :=
  (env.makeWritable side).record (.recv side (env.room side) r)

/-- After a `send` of the unread bytes answered by `r`. -/
def sendCall (env : Env) (side : Side) (r : SendResult) : Env :=
  env.record (.send side (env.session.outbound side).readData r)

/-- `readInto`, from the head of its loop; `none` when the answers ran out. -/
def readInto (side : Side) (now : Nat) (progressed : Bool) (answers : List RecvResult)
    (env : Env) : Option IoResult × Env :=
  if env.room side = 0 then (some (stalled progressed), env.makeWritable side)
  else match answers with
    | [] => (none, env.makeWritable side)
    | .ok (b :: data) :: rest =>
      readInto side now true rest
        ((env.recvCall side (.ok (b :: data))).received side (b :: data) now)
    | .ok [] :: _ => (some .closed, env.recvCall side (.ok []))
    | .error e :: rest =>
      if e = .eintr then readInto side now progressed rest (env.recvCall side (.error e))
      else if e.again then (some (stalled progressed), env.recvCall side (.error e))
      else (some .error, env.recvCall side (.error e))

/-- `writeFrom`, from the head of its loop. -/
def writeFrom (side : Side) (now : Nat) (progressed : Bool) (answers : List SendResult)
    (env : Env) : Option IoResult × Env :=
  if (env.session.outbound side).empty then (some .progress, env)
  else match answers with
    | [] => (none, env)
    | .ok (n + 1) :: rest =>
      writeFrom side now true rest ((env.sendCall side (.ok (n + 1))).sent side (n + 1) now)
    | .ok 0 :: _ => (some .closed, env.sendCall side (.ok 0))
    | .error e :: rest =>
      if e = .eintr then writeFrom side now progressed rest (env.sendCall side (.error e))
      else if e.again then (some (stalled progressed), env.sendCall side (.error e))
      else (some .error, env.sendCall side (.error e))

def finishUpstreamConnect (now : Nat) (answer : Option SoError) (env : Env) :
    Option Bool × Env :=
  match answer with
  | none => (none, env)
  | some r =>
    let env := env.record (.soError env.session.upstreamFd r)
    if r ≠ .ok none then
      (some false, { env with
        backend := env.backend.recordConnectFailure
        metrics := env.metrics.onConnectFailure })
    else
      (some true, { env with
        session := { env.session with upstreamConnecting := false }.touch now
        backend := env.backend.recordConnectSuccess })

/-- One of the two `if`s of `updateHalfClose`: once `side` has ended and its
bytes are forwarded, end the other side's write direction. -/
def halfClose (side : Side) (mayShutdown : ProxySession → Bool) (env : Env) : Env :=
  let s := env.session
  if s.readClosed side && (s.inbound side).empty && !s.writeShutdown side.other && mayShutdown s then
    let env := env.record (.shutdownWrite side.other)
    { env with session := env.session.setWriteShutdown side.other }
  else env

def updateHalfClose (env : Env) : Env :=
  (env.halfClose .client (fun s => !s.upstreamConnecting)).halfClose .upstream (fun _ => true)

/-! ## `handleEvent`, phase by phase -/

def closedPhase : Phase Env := fun env =>
  if env.session.closing then (.ret false, env) else (.next, env)

/-- A pending connect: only the bits that end it are looked at. -/
def connectPhase (fd : Fd) (events : EventMask) (now : Nat) (ans : Answers) : Phase Env :=
  fun env =>
    if fd = env.session.upstreamFd ∧ env.session.upstreamConnecting = true then
      if !has events (EPOLLOUT ||| EPOLLERR ||| EPOLLHUP) then (.ret true, env)
      else match env.finishUpstreamConnect now ans.connect with
        | (none, env) => (.blocked, env)
        | (some false, env) => (.ret false, env.close)
        | (some true, env) => (.next, env)
    else (.next, env)

def errorPhase (fd : Fd) (events : EventMask) (ans : Answers) : Phase Env := fun env =>
  if has events EPOLLERR then
    match ans.error with
    | none => (.blocked, env)
    | some r => (.ret false, (env.record (.soError fd r)).close)
  else (.next, env)

def peerHangup (events : EventMask) : Bool := has events (EPOLLRDHUP ||| EPOLLHUP)

def readPhase (side : Side) (events : EventMask) (now : Nat) (ans : Answers) : Phase Env :=
  fun env =>
    if !env.session.readClosed side && has events (EPOLLIN ||| EPOLLRDHUP ||| EPOLLHUP) then
      match env.readInto side now false ans.recvs with
      | (none, env) => (.blocked, env)
      | (some .error, env) => (.ret false, env.close)
      | (some .closed, env) => (.next, { env with session := env.session.setReadClosed side })
      | (some .wouldBlock, env) =>
        if peerHangup events then
          (.next, { env with session := env.session.setReadClosed side })
        else (.next, env)
      | (some .progress, env) => (.next, env)
    else (.next, env)

def writePhase (side : Side) (events : EventMask) (now : Nat) (ans : Answers) : Phase Env :=
  fun env =>
    if has events EPOLLOUT && !(env.session.outbound side).empty then
      match env.writeFrom side now false ans.sends with
      | (none, env) => (.blocked, env)
      | (some .error, env) => (.ret false, env.close)
      | (some .closed, env) => (.ret false, env.close)
      | (some _, env) => (.next, env)
    else (.next, env)

def sidePhase (fd : Fd) (events : EventMask) (now : Nat) (ans : Answers) : Phase Env := fun env =>
  if fd = env.session.clientFd then
    ((readPhase .client events now ans).andThen (writePhase .client events now ans)) env
  else if fd = env.session.upstreamFd then
    ((readPhase .upstream events now ans).andThen (writePhase .upstream events now ans)) env
  else (.ret false, env.close)

def finalPhase : Phase Env := fun env =>
  let env := env.updateHalfClose
  if env.session.completed then (.ret false, env.close) else (.ret true, env)

def handleEvent (fd : Fd) (events : EventMask) (now : Nat) (ans : Answers) : Phase Env :=
  closedPhase.andThen <| (connectPhase fd events now ans).andThen <|
    (errorPhase fd events ans).andThen <| (sidePhase fd events now ans).andThen finalPhase

/-! ## What the transfer loops do

One constructor per way through the body of a loop; every later fact about
`readInto` and `writeFrom` is an induction on these. -/

inductive ReadLoop (side : Side) (now : Nat) : Bool → Env → Option IoResult → Env → Prop
  | full (p : Bool) (env : Env) (h : env.room side = 0) :
      ReadLoop side now p env (some (stalled p)) (env.makeWritable side)
  | starved (p : Bool) (env : Env) (h : env.room side ≠ 0) :
      ReadLoop side now p env none (env.makeWritable side)
  | data (p : Bool) (env : Env) (b : Byte) (data : List Byte) (r : Option IoResult) (env' : Env)
      (h : env.room side ≠ 0)
      (rest : ReadLoop side now true
        ((env.recvCall side (.ok (b :: data))).received side (b :: data) now) r env') :
      ReadLoop side now p env r env'
  | eof (p : Bool) (env : Env) (h : env.room side ≠ 0) :
      ReadLoop side now p env (some .closed) (env.recvCall side (.ok []))
  | eintr (p : Bool) (env : Env) (r : Option IoResult) (env' : Env) (h : env.room side ≠ 0)
      (rest : ReadLoop side now p (env.recvCall side (.error .eintr)) r env') :
      ReadLoop side now p env r env'
  | again (p : Bool) (env : Env) (e : Errno) (he : e.again = true) (h : env.room side ≠ 0) :
      ReadLoop side now p env (some (stalled p)) (env.recvCall side (.error e))
  | fail (p : Bool) (env : Env) (e : Errno) (he : e.again = false) (hi : e ≠ .eintr)
      (h : env.room side ≠ 0) :
      ReadLoop side now p env (some .error) (env.recvCall side (.error e))

theorem readInto_loop (side : Side) (now : Nat) (p : Bool) (answers : List RecvResult)
    (env : Env) : ReadLoop side now p env (env.readInto side now p answers).1
      (env.readInto side now p answers).2 := by
  induction answers generalizing p env with
  | nil =>
    by_cases h : env.room side = 0
    · simp only [readInto, h, ↓reduceIte]
      exact .full p env h
    · simp only [readInto, h, ↓reduceIte]
      exact .starved p env h
  | cons r rest ih =>
    by_cases h : env.room side = 0
    · unfold readInto
      rw [if_pos h]
      exact .full p env h
    · unfold readInto
      rw [if_neg h]
      cases r with
      | ok data =>
        cases data with
        | nil => exact .eof p env h
        | cons b data => exact .data p env b data _ _ h (ih true _)
      | error e =>
        dsimp only
        split
        · rename_i he
          subst he
          exact .eintr p env _ _ h (ih p _)
        · rename_i hi
          split
          · rename_i he
            exact .again p env e he h
          · rename_i he
            exact .fail p env e (by simpa using he) hi h

inductive WriteLoop (side : Side) (now : Nat) : Bool → Env → Option IoResult → Env → Prop
  | drained (p : Bool) (env : Env) (h : (env.session.outbound side).empty = true) :
      WriteLoop side now p env (some .progress) env
  | starved (p : Bool) (env : Env) (h : (env.session.outbound side).empty = false) :
      WriteLoop side now p env none env
  | data (p : Bool) (env : Env) (n : Nat) (r : Option IoResult) (env' : Env)
      (h : (env.session.outbound side).empty = false)
      (rest : WriteLoop side now true
        ((env.sendCall side (.ok (n + 1))).sent side (n + 1) now) r env') :
      WriteLoop side now p env r env'
  | zero (p : Bool) (env : Env) (h : (env.session.outbound side).empty = false) :
      WriteLoop side now p env (some .closed) (env.sendCall side (.ok 0))
  | eintr (p : Bool) (env : Env) (r : Option IoResult) (env' : Env)
      (h : (env.session.outbound side).empty = false)
      (rest : WriteLoop side now p (env.sendCall side (.error .eintr)) r env') :
      WriteLoop side now p env r env'
  | again (p : Bool) (env : Env) (e : Errno) (he : e.again = true)
      (h : (env.session.outbound side).empty = false) :
      WriteLoop side now p env (some (stalled p)) (env.sendCall side (.error e))
  | fail (p : Bool) (env : Env) (e : Errno) (he : e.again = false) (hi : e ≠ .eintr)
      (h : (env.session.outbound side).empty = false) :
      WriteLoop side now p env (some .error) (env.sendCall side (.error e))

theorem writeFrom_loop (side : Side) (now : Nat) (p : Bool) (answers : List SendResult)
    (env : Env) : WriteLoop side now p env (env.writeFrom side now p answers).1
      (env.writeFrom side now p answers).2 := by
  induction answers generalizing p env with
  | nil =>
    cases h : (env.session.outbound side).empty with
    | true =>
      simp only [writeFrom, h, ↓reduceIte]
      exact .drained p env h
    | false =>
      simp only [writeFrom, h, Bool.false_eq_true, ↓reduceIte]
      exact .starved p env h
  | cons r rest ih =>
    cases h : (env.session.outbound side).empty with
    | true =>
      unfold writeFrom
      rw [if_pos h]
      exact .drained p env h
    | false =>
      unfold writeFrom
      rw [if_neg (by simp [h])]
      cases r with
      | ok n =>
        cases n with
        | zero => exact .zero p env h
        | succ n => exact .data p env n _ _ h (ih true _)
      | error e =>
        dsimp only
        split
        · rename_i he
          subst he
          exact .eintr p env _ _ h (ih p _)
        · rename_i hi
          split
          · rename_i he
            exact .again p env e he h
          · rename_i he
            exact .fail p env e (by simpa using he) hi h

/-! ## The calls a loop makes -/

/-- A `recv` after which the read loop goes on. -/
def Continues (side : Side) (c : Call) : Prop :=
  ∃ length result, c = .recv side length result ∧ result ≠ .ok [] ∧
    ∀ e, result = .error e → e = .eintr

/-- The last call of a read loop, and the result it gives. -/
inductive ReadEnd (side : Side) : Option IoResult → List Call → Prop
  | starved : ReadEnd side none []
  | full (r : IoResult) (hr : r = .progress ∨ r = .wouldBlock) : ReadEnd side (some r) []
  | eof (length : Nat) : ReadEnd side (some .closed) [.recv side length (.ok [])]
  | again (r : IoResult) (hr : r = .progress ∨ r = .wouldBlock) (length : Nat) (e : Errno)
      (he : e.again = true) : ReadEnd side (some r) [.recv side length (.error e)]
  | fail (length : Nat) (e : Errno) : ReadEnd side (some .error) [.recv side length (.error e)]

/-- Compacting a buffer that has tail space does nothing. -/
theorem room_recvCall {env : Env} {side : Side} {r : RecvResult} (h : env.room side ≠ 0) :
    (env.recvCall side r).room side = env.room side := by
  have hb : (env.recvCall side r).session.inbound side = (env.session.inbound side).makeWritable := by
    simp [recvCall, record, makeWritable]
  unfold room at h ⊢
  simp only [makeWritable, ProxySession.inbound_setInbound, hb] at h ⊢
  rw [ByteBuffer.makeWritable_of_writable h]

theorem ReadLoop.calls {side : Side} {now : Nat} {p : Bool} {env env' : Env}
    {r : Option IoResult} (h : ReadLoop side now p env r env') :
    ∃ init last, env'.log = env.log ++ (init ++ last) ∧ (∀ c ∈ init, Continues side c) ∧
      ReadEnd side r last ∧
      (r = some .wouldBlock → p = false ∧ (last = [] → env.room side = 0)) := by
  induction h with
  | full p env hroom =>
    refine ⟨[], [], by simp [makeWritable], by simp, .full _ (stalled_cases p),
      fun hr => ⟨?_, fun _ => hroom⟩⟩
    cases p <;> simp_all [stalled]
  | starved p env _ => exact ⟨[], [], by simp [makeWritable], by simp, .starved, by simp⟩
  | data p env b data r env' _ _ ih =>
    obtain ⟨init, last, hlog, hinit, hlast, hwb⟩ := ih
    refine ⟨.recv side (env.room side) (.ok (b :: data)) :: init, last, ?_, ?_, hlast,
      fun hr => absurd (hwb hr).1 (by simp)⟩
    · rw [hlog]
      simp [received, recvCall, record, makeWritable]
    · intro c hc
      rcases List.mem_cons.mp hc with rfl | hc
      · exact ⟨_, _, rfl, by simp, by simp⟩
      · exact hinit c hc
  | eof p env _ =>
    exact ⟨[], _, by simp [recvCall, makeWritable, record], by simp, .eof (env.room side), by simp⟩
  | eintr p env r env' hroom _ ih =>
    obtain ⟨init, last, hlog, hinit, hlast, hwb⟩ := ih
    refine ⟨.recv side (env.room side) (.error .eintr) :: init, last, ?_, ?_, hlast,
      fun hr => ⟨(hwb hr).1, fun hl => ?_⟩⟩
    · rw [hlog]
      simp [recvCall, record, makeWritable]
    · intro c hc
      rcases List.mem_cons.mp hc with rfl | hc
      · exact ⟨_, _, rfl, by simp, by simp⟩
      · exact hinit c hc
    · rw [← room_recvCall hroom]
      exact (hwb hr).2 hl
  | again p env e he _ =>
    refine ⟨[], _, by simp [recvCall, makeWritable, record], by simp,
      .again _ (stalled_cases p) (env.room side) e he, fun hr => ⟨?_, by simp⟩⟩
    cases p <;> simp_all [stalled]
  | fail p env e _ _ _ =>
    exact ⟨[], _, by simp [recvCall, makeWritable, record], by simp, .fail (env.room side) e,
      by simp⟩

theorem WriteLoop.calls {side : Side} {now : Nat} {p : Bool} {env env' : Env}
    {r : Option IoResult} (h : WriteLoop side now p env r env') :
    ∃ calls, env'.log = env.log ++ calls ∧
      ∀ c ∈ calls, ∃ data result, c = .send side data result := by
  induction h with
  | drained p env _ => exact ⟨[], by simp, by simp⟩
  | starved p env _ => exact ⟨[], by simp, by simp⟩
  | data p env n r env' _ _ ih =>
    obtain ⟨calls, hlog, hcalls⟩ := ih
    refine ⟨.send side (env.session.outbound side).readData (.ok (n + 1)) :: calls, ?_, ?_⟩
    · rw [hlog]
      simp [sent, sendCall, record]
    · intro c hc
      rcases List.mem_cons.mp hc with rfl | hc
      · exact ⟨_, _, rfl⟩
      · exact hcalls c hc
  | zero p env _ => exact ⟨_, rfl, by simp⟩
  | eintr p env r env' _ _ ih =>
    obtain ⟨calls, hlog, hcalls⟩ := ih
    refine ⟨.send side (env.session.outbound side).readData (.error .eintr) :: calls, ?_, ?_⟩
    · rw [hlog]
      simp [sendCall, record]
    · intro c hc
      rcases List.mem_cons.mp hc with rfl | hc
      · exact ⟨_, _, rfl⟩
      · exact hcalls c hc
  | again p env e _ _ => exact ⟨_, rfl, by simp⟩
  | fail p env e _ _ _ => exact ⟨_, rfl, by simp⟩

/-! The loops touch one buffer and leave the control state alone. -/

theorem ReadLoop.frame {side : Side} {now : Nat} {p : Bool} {env env' : Env}
    {r : Option IoResult} (h : ReadLoop side now p env r env') :
    env'.session.control = env.session.control ∧
      env'.session.inbound side.other = env.session.inbound side.other := by
  induction h with
  | full p env _ => simp [makeWritable]
  | starved p env _ => simp [makeWritable]
  | data p env b data r env' _ _ ih =>
    simpa [recvCall, makeWritable, record, received] using ih
  | eof p env _ => simp [recvCall, makeWritable, record]
  | eintr p env r env' _ _ ih => simpa [recvCall, makeWritable, record] using ih
  | again p env e _ _ => simp [recvCall, makeWritable, record]
  | fail p env e _ _ _ => simp [recvCall, makeWritable, record]

theorem WriteLoop.frame {side : Side} {now : Nat} {p : Bool} {env env' : Env}
    {r : Option IoResult} (h : WriteLoop side now p env r env') :
    env'.session.control = env.session.control ∧
      env'.session.inbound side = env.session.inbound side := by
  induction h with
  | drained p env _ => simp
  | starved p env _ => simp
  | data p env n r env' _ _ ih => simpa [sendCall, record, sent] using ih
  | zero p env _ => simp [sendCall, record]
  | eintr p env r env' _ _ ih => simpa [sendCall, record] using ih
  | again p env e _ _ => simp [sendCall, record]
  | fail p env e _ _ _ => simp [sendCall, record]

end Env

end FluxGate
