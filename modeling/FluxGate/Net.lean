import FluxGate.ConfigLoader
import FluxGate.UniqueFd
import FluxGate.Lib.Scoped

/-!
# Sockets: `createListenSocket`, `connectNonBlocking`, `waitForConnect`

The socket functions as programs over the descriptor table of the process and
`errno`. Each system call takes its answer from the environment: it works, or
it fails with any `errno`; a call that works does what it is documented to do
to the table. A `UniqueFd` is a local object of the program, so its destructor
runs on every way out.
-/

namespace FluxGate

open Lib

/-- `EINPROGRESS` on Linux. -/
def EINPROGRESS : Errno := .other 115

/-- `EBADF` on Linux. -/
def EBADF : Errno := .other 9

def FD_CLOEXEC : Nat := 1

def O_NONBLOCK : Nat := 0x800

/-- An address with its length, and its text for the log. -/
structure ResolvedEndpoint where
  family : Nat
  address : List Byte
  length : Nat
  text : Text
  deriving DecidableEq, Repr

structure ConnectResult where
  fd : Int
  connecting : Bool
  deriving DecidableEq, Repr

/-- What the kernel keeps about a socket. -/
structure SocketState where
  family : Nat
  fdFlags : Nat
  statusFlags : Nat
  reuseAddress : Bool
  noDelay : Bool
  /-- the address of `bind` -/
  bound : Option ResolvedEndpoint
  /-- the backlog of `listen` -/
  backlog : Option Int
  /-- the address of `connect`, when it has ended or is in progress -/
  peer : Option ResolvedEndpoint
  deriving DecidableEq, Repr

def SocketState.new (family : Nat) : SocketState := ⟨family, 0, 0, false, false, none, none, none⟩

def SocketState.closeOnExec (d : SocketState) : Prop := d.fdFlags &&& FD_CLOEXEC = FD_CLOEXEC

def SocketState.nonBlocking (d : SocketState) : Prop := d.statusFlags &&& O_NONBLOCK = O_NONBLOCK

structure NetState where
  table : Fd → Option SocketState
  errno : Errno
  /-- calls of `close` on a descriptor that is not open -/
  badCloses : Nat

/-- The socket functions throw `runtime_error`s, which carry a text. -/
abbrev Net := Prog NetState Text

namespace NetState

variable (s : NetState)

/-- The call fails: `errno` is set, and `-1` returned. -/
def fail (e : Errno) : Int × NetState := (-1, { s with errno := e })

/-- A call on an open descriptor which, when it works, changes what the kernel keeps about it. -/
def onSocket (fd : Int) (ans : Option Errno) (f : SocketState → SocketState) : Int × NetState :=
  match s.table fd.toNat, ans with
  | none, _ => s.fail EBADF
  | some _, some e => s.fail e
  | some d, none => (0, { s with table := Function.update s.table fd.toNat (some (f d)) })

/-- `::close(fd)`. -/
def close (fd : Fd) : NetState :=
  match s.table fd with
  | some _ => { s with table := Function.update s.table fd none }
  | none => { s with errno := EBADF, badCloses := s.badCloses + 1 }

end NetState

/-- `~UniqueFd()`. -/
def UniqueFd.destroy (u : UniqueFd) (s : NetState) : NetState :=
  match (u.reset (-1)).1 with
  | some fd => s.close fd
  | none => s

/-! ## System calls -/

/-- `::socket(family, SOCK_STREAM, IPPROTO_TCP)`: the kernel answers with a number that is not in use. -/
def sysSocket (family : Nat) (ans : Except Errno Fd) : Net Int := fun s =>
  match ans with
  | .error e => some (.ok (-1), (s.fail e).2)
  | .ok fd => match s.table fd with
    | some _ => none
    | none => some (.ok fd, { s with table := Function.update s.table fd (some (.new family)) })

/-- The two words of flags that `fcntl` reads and writes. -/
inductive FlagWord where
  /-- `F_GETFD`, `F_SETFD` -/
  | descriptor
  /-- `F_GETFL`, `F_SETFL` -/
  | status
  deriving DecidableEq, Repr

def SocketState.flags (d : SocketState) : FlagWord → Nat
  | .descriptor => d.fdFlags
  | .status => d.statusFlags

def SocketState.setFlags (d : SocketState) (value : Nat) : FlagWord → SocketState
  | .descriptor => { d with fdFlags := value }
  | .status => { d with statusFlags := value }

/-- `fcntl(fd, F_GET…, 0)`. -/
def sysGetFlags (word : FlagWord) (fd : Int) (ans : Option Errno) : Net Int :=
  .step fun s =>
    match s.table fd.toNat, ans with
    | none, _ => s.fail EBADF
    | some _, some e => s.fail e
    | some d, none => (d.flags word, s)

/-- `fcntl(fd, F_SET…, flags)`. -/
def sysSetFlags (word : FlagWord) (fd : Int) (flags : Nat) (ans : Option Errno) : Net Int :=
  .step fun s => s.onSocket fd ans fun d => d.setFlags flags word

/-- `::connect`: a connect that has only begun is reported as a failure with `EINPROGRESS`. -/
def sysConnect (fd : Int) (endpoint : ResolvedEndpoint) (ans : Option Errno) : Net Int :=
  .step fun s =>
    if ans = some EINPROGRESS then
      ((s.onSocket fd none fun d => { d with peer := some endpoint }).2).fail EINPROGRESS
    else s.onSocket fd ans fun d => { d with peer := some endpoint }

/-- The value of `errno`. -/
def getErrno : Net Errno := .step fun s => (s.errno, s)

section Functions

variable (strerror : Errno → Text)

/-- `throw systemError(action)`. -/
def throwSystemError {α : Type} (action : Text) : Net α := do
  let errno ← getErrno
  .throw (action ++ ": ".toList ++ strerror errno)

/-- Answers to the two calls of `fcntl`. -/
structure FcntlAnswers where
  get : Option Errno
  set : Option Errno
  deriving DecidableEq, Repr

/-- Read a word of flags and write it back with one more flag. -/
def setFlag (word : FlagWord) (flag : Nat) (action : Text) (fd : Int) (ans : FcntlAnswers) : Net Unit := do
  let flags ← sysGetFlags word fd ans.get
  if flags < 0 then throwSystemError strerror action
  else do
    let status ← sysSetFlags word fd (flags.toNat ||| flag) ans.set
    if status < 0 then throwSystemError strerror action else pure ()

def setNonBlocking (fd : Int) (ans : FcntlAnswers) : Net Unit :=
  setFlag strerror .status O_NONBLOCK "fcntl(O_NONBLOCK) failed".toList fd ans

def setCloseOnExec (fd : Int) (ans : FcntlAnswers) : Net Unit :=
  setFlag strerror .descriptor FD_CLOEXEC "fcntl(FD_CLOEXEC) failed".toList fd ans

/-- A call that changes a socket, and an exception when it fails. -/
def orThrow (action : Text) (fd : Int) (ans : Option Errno) (f : SocketState → SocketState) : Net Unit := do
  let status ← Prog.step fun s => s.onSocket fd ans f
  if status < 0 then throwSystemError strerror action else pure ()

def setTcpNoDelay (fd : Int) (ans : Option Errno) : Net Unit :=
  orThrow strerror "setsockopt(TCP_NODELAY) failed".toList fd ans fun d => { d with noDelay := true }

def setReuseAddress (fd : Int) (ans : Option Errno) : Net Unit :=
  orThrow strerror "setsockopt(SO_REUSEADDR) failed".toList fd ans fun d => { d with reuseAddress := true }

/-- `UniqueFd socketFd(::socket(…))`, the test whether that worked, and the rest of the function. -/
def withSocket {α : Type} (family : Nat) (action : Text) (ans : Except Errno Fd)
    (rest : UniqueFd → Prog (UniqueFd × NetState) Text α) : Net α := do
  let fd ← sysSocket family ans
  .withObject UniqueFd.destroy ⟨fd⟩ do
    let socketFd : UniqueFd ← .object fun u => (u, u)
    if !socketFd.valid then .outer (throwSystemError strerror action) else rest socketFd

/-- What the kernel says to the calls of `createListenSocket`. -/
structure ListenAnswers where
  socket : Except Errno Fd
  closeOnExec : FcntlAnswers
  nonBlocking : FcntlAnswers
  reuseAddress : Option Errno
  bind : Option Errno
  listen : Option Errno

/-- `createListenSocket` after the address is resolved. -/
def listenOn (endpoint : ResolvedEndpoint) (backlog : Int) (ans : ListenAnswers) : Net Int :=
  withSocket strerror endpoint.family "socket failed".toList ans.socket fun socketFd => do
    .outer (setCloseOnExec strerror socketFd.fd ans.closeOnExec)
    .outer (setNonBlocking strerror socketFd.fd ans.nonBlocking)
    .outer (setReuseAddress strerror socketFd.fd ans.reuseAddress)
    .outer (orThrow strerror "bind failed".toList socketFd.fd ans.bind
      fun d => { d with bound := some endpoint })
    .outer (orThrow strerror "listen failed".toList socketFd.fd ans.listen
      fun d => { d with backlog := some backlog })
    .object UniqueFd.release

/-- One answer of `getaddrinfo`. -/
structure AddrInfo where
  family : Nat
  address : List Byte
  length : Nat
  deriving DecidableEq, Repr

/-- What the resolver of the C library says. -/
structure Resolver where
  /-- the addresses, or a status -/
  getaddrinfo : Text → Text → Except Int (List AddrInfo)
  gaiStrerror : Int → Text
  /-- the text of an address; empty where it cannot be written -/
  inetNtop : Nat → List Byte → Text

/-- The first address that fits into a `sockaddr_storage`, with its text. -/
def resolveTcpEndpoint (resolver : Resolver) (host : Text) (port : Nat) : Except Text ResolvedEndpoint :=
  let service := Nat.toDigits 10 port
  match resolver.getaddrinfo host service with
  | .error status => .error ("getaddrinfo failed for ".toList ++ host ++ ": ".toList ++ resolver.gaiStrerror status)
  | .ok items =>
    match items.find? fun item => decide (item.length ≤ 128) with
    | some item =>
      if item.length = 0 then .error ("no usable address for ".toList ++ host)
      else .ok ⟨item.family, item.address, item.length,
        resolver.inetNtop item.family item.address ++ ":".toList ++ service⟩
    | none => .error ("no usable address for ".toList ++ host)

def createListenSocket (resolver : Resolver) (host : Text) (port : Nat) (backlog : Int) (ans : ListenAnswers) :
    Net Int :=
  match resolveTcpEndpoint resolver host port with
  | .error m => .throw m
  | .ok endpoint => listenOn strerror endpoint backlog ans

/-- What the kernel says to the calls of `connectNonBlocking`. -/
structure ConnectAnswers where
  socket : Except Errno Fd
  closeOnExec : FcntlAnswers
  nonBlocking : FcntlAnswers
  noDelay : Option Errno
  connect : Option Errno

/-- The end of `connectNonBlocking`: `connect`, and what its status means. -/
def callConnect (endpoint : ResolvedEndpoint) (ans : Option Errno) (socketFd : UniqueFd) :
    Prog (UniqueFd × NetState) Text ConnectResult := do
  let status ← .outer (sysConnect socketFd.fd endpoint ans)
  if status = 0 then do
    let fd ← .object UniqueFd.release
    pure ⟨fd, false⟩
  else do
    let errno ← .outer getErrno
    if errno = EINPROGRESS then do
      let fd ← .object UniqueFd.release
      pure ⟨fd, true⟩
    else .outer (throwSystemError strerror ("connect to ".toList ++ endpoint.text ++ " failed".toList))

def connectNonBlocking (endpoint : ResolvedEndpoint) (ans : ConnectAnswers) : Net ConnectResult :=
  withSocket strerror endpoint.family "upstream socket failed".toList ans.socket fun socketFd => do
    .outer (setCloseOnExec strerror socketFd.fd ans.closeOnExec)
    .outer (setNonBlocking strerror socketFd.fd ans.nonBlocking)
    .outer (setTcpNoDelay strerror socketFd.fd ans.noDelay)
    callConnect strerror endpoint ans.connect socketFd

/-- `poll` on one descriptor: whether it is ready, or `-1` and `errno`. -/
inductive PollResult where
  | ok (count : Nat)
  | error (errno : Errno)
  deriving DecidableEq, Repr

/-- `do … while (pollResult < 0 && errno == EINTR)`, on the answers to come. -/
def pollLoop : List PollResult → Net Int
  | [] => .waits
  | .ok count :: _ => pure count
  | .error e :: rest => do
    let pollResult ← Prog.step fun s => s.fail e
    let errno ← getErrno
    if pollResult < 0 ∧ errno = .eintr then pollLoop rest else pure pollResult

/-- `getsockopt(fd, SOL_SOCKET, SO_ERROR, …)`: the status, and `error`. -/
def sysSoError (ans : SoError) : Net (Int × Option Errno) :=
  .step fun s =>
    match ans with
    | .failed e => ((-1, none), (s.fail e).2)
    | .ok error => ((0, error), s)

/-- What the kernel says to the calls of `waitForConnect`. -/
structure ProbeAnswers extends ConnectAnswers where
  polls : List PollResult
  soError : SoError

/-- The end of `waitForConnect`: wait for the connect to end, and ask how it ended. -/
def awaitConnect (polls : List PollResult) (soError : SoError) : Net Bool := do
  let pollResult ← pollLoop polls
  if pollResult ≤ 0 then pure false
  else do
    let (status, error) ← sysSoError soError
    pure (status == 0 && error == none)

def waitForConnect (endpoint : ResolvedEndpoint) (ans : ProbeAnswers) : Net Bool :=
  .tryCatch
    (do
      let result ← connectNonBlocking strerror endpoint ans.toConnectAnswers
      .withObject UniqueFd.destroy ⟨result.fd⟩ <|
        if !result.connecting then pure true else .outer (awaitConnect ans.polls ans.soError))
    fun _ => pure false

end Functions

/-! ## Which call fails first -/

/-- Calls in the order in which they are made, each with the text of its exception and its answer. -/
abbrev Calls := List (Text × Option Errno)

def firstFailure : Calls → Option (Text × Errno)
  | [] => none
  | (action, some e) :: _ => some (action, e)
  | (_, none) :: rest => firstFailure rest

theorem firstFailure_append (cs ds : Calls) :
    firstFailure (cs ++ ds) = (firstFailure cs).or (firstFailure ds) := by
  induction cs with
  | nil => rfl
  | cons c cs ih =>
    obtain ⟨action, ans⟩ := c
    cases ans with
    | none => exact ih
    | some e => rfl

/-- The text of `systemError`. -/
def message (strerror : Errno → Text) (failure : Text × Errno) : Text :=
  failure.1 ++ ": ".toList ++ strerror failure.2

/-- Answers to `socket` as an outcome of a call. -/
def socketErrno : Except Errno Fd → Option Errno
  | .error e => some e
  | .ok _ => none

def FcntlAnswers.calls (ans : FcntlAnswers) (action : Text) : Calls := [(action, ans.get), (action, ans.set)]

def ListenAnswers.calls (ans : ListenAnswers) : Calls :=
  [("socket failed".toList, socketErrno ans.socket)] ++
    (ans.closeOnExec.calls "fcntl(FD_CLOEXEC) failed".toList ++
    (ans.nonBlocking.calls "fcntl(O_NONBLOCK) failed".toList ++
    [("setsockopt(SO_REUSEADDR) failed".toList, ans.reuseAddress), ("bind failed".toList, ans.bind),
      ("listen failed".toList, ans.listen)]))

/-- `connect` has failed, unless it is only in progress. -/
def connectErrno (ans : Option Errno) : Option Errno := if ans = some EINPROGRESS then none else ans

def ConnectAnswers.calls (ans : ConnectAnswers) (endpoint : ResolvedEndpoint) : Calls :=
  [("upstream socket failed".toList, socketErrno ans.socket)] ++
    (ans.closeOnExec.calls "fcntl(FD_CLOEXEC) failed".toList ++
    (ans.nonBlocking.calls "fcntl(O_NONBLOCK) failed".toList ++
    [("setsockopt(TCP_NODELAY) failed".toList, ans.noDelay),
      ("connect to ".toList ++ endpoint.text ++ " failed".toList, connectErrno ans.connect)]))

/-! ## One specification for each function -/

/-- The table is `t`, and one socket more. -/
def NetState.With (t : Fd → Option SocketState) (bad : Nat) (fd : Fd) (d : SocketState) (s : NetState) : Prop :=
  s.table = Function.update t fd (some d) ∧ s.badCloses = bad

/-- The first call of `cs` that failed gave the text of the exception. -/
def Thrown (strerror : Errno → Text) (cs : Calls) (m : Text) : Prop :=
  ∃ failure, firstFailure cs = some failure ∧ m = message strerror failure

section Specs

variable {strerror : Errno → Text} {t : Fd → Option SocketState} {bad : Nat} {fd : Fd} {d : SocketState}

theorem With.lookup {s : NetState} (h : s.With t bad fd d) : s.table ((fd : Int).toNat) = some d := by
  rw [h.1, Int.toNat_natCast, Function.update_self]

theorem throwSystemError_spec {α : Type} (action : Text) (e : Errno) {P : NetState → Prop} {Q : α → NetState → Prop} :
    Prog.Spec (fun s => P s ∧ s.errno = e) (throwSystemError strerror action) Q
      (fun m s => P s ∧ m = message strerror (action, e)) := by
  refine .bind (M := fun errno s => P s ∧ errno = e) (.step fun s hs => hs) fun errno => .throw fun s hs => ?_
  exact ⟨hs.1, by rw [hs.2]; rfl⟩

theorem onSocket_ok {s : NetState} (h : s.With t bad fd d) (f : SocketState → SocketState) :
    (s.onSocket fd none f).1 = 0 ∧ (s.onSocket fd none f).2.With t bad fd (f d) := by
  unfold NetState.onSocket
  rw [With.lookup h]
  refine ⟨rfl, ?_, h.2⟩
  simp [h.1]

theorem onSocket_fails {s : NetState} (h : s.With t bad fd d) (e : Errno) (f : SocketState → SocketState) :
    (s.onSocket fd (some e) f).1 = -1 ∧ (s.onSocket fd (some e) f).2.With t bad fd d ∧
      (s.onSocket fd (some e) f).2.errno = e := by
  unfold NetState.onSocket
  rw [With.lookup h]
  exact ⟨rfl, h, rfl⟩

/-- What follows a call: an exception when it failed. -/
theorem failed_spec (action : Text) (ans : Option Errno) {status : Int} (rest : Net Unit)
    {cs : Calls} {R : NetState → Prop} {Q : Unit → NetState → Prop}
    (hrest : ans = none → Prog.Spec R rest Q
      (fun m s => Thrown strerror cs m ∧ ∃ d, s.With t bad fd d))
    (hcs : ∀ e, ans = some e → firstFailure cs = some (action, e)) :
    Prog.Spec (fun s => match ans with
        | none => status ≥ 0 ∧ R s
        | some e => status = -1 ∧ s.With t bad fd d ∧ s.errno = e)
      (if status < 0 then throwSystemError strerror action else rest) Q
      (fun m s => Thrown strerror cs m ∧ ∃ d, s.With t bad fd d) := by
  cases ans with
  | none =>
    refine .of_fact fun hstatus => ?_
    rw [if_neg (by omega)]
    exact hrest rfl
  | some e =>
    refine .of_fact fun hstatus => ?_
    rw [if_pos (by omega)]
    refine (throwSystemError_spec action e).weaken (fun s hs => hs) (fun a s hs => hs) fun m s hs => ?_
    exact ⟨⟨_, hcs e rfl, hs.2⟩, d, hs.1⟩

/-- A call on the socket, and the exception when it fails. -/
theorem orThrow_spec (action : Text) (ans : Option Errno) (f : SocketState → SocketState) :
    Prog.Spec (NetState.With t bad fd d) (orThrow strerror action fd ans f)
      (fun _ s => firstFailure [(action, ans)] = none ∧ s.With t bad fd (f d))
      (fun m s => Thrown strerror [(action, ans)] m ∧ ∃ d, s.With t bad fd d) := by
  refine .bind (.step fun s hs => ?_) fun status =>
    failed_spec action ans (pure ()) (d := d) (R := NetState.With t bad fd (f d)) (fun hans => .pure fun s hs => ?_)
      fun e hans => ?_
  · cases ans with
    | none =>
      obtain ⟨hstatus, hwith⟩ := onSocket_ok hs f
      exact ⟨by omega, hwith⟩
    | some e => exact onSocket_fails hs e f
  · rw [hans]
    exact ⟨rfl, hs⟩
  · rw [hans]
    rfl

/-- A flag is added to the flags that are there. -/
theorem setFlag_spec (word : FlagWord) (flag : Nat) (action : Text) (ans : FcntlAnswers) :
    Prog.Spec (NetState.With t bad fd d) (setFlag strerror word flag action fd ans)
      (fun _ s => firstFailure (ans.calls action) = none ∧
        s.With t bad fd (d.setFlags (d.flags word ||| flag) word))
      (fun m s => Thrown strerror (ans.calls action) m ∧ ∃ d, s.With t bad fd d) := by
  obtain ⟨get, set⟩ := ans
  refine .bind (.step fun s hs => ?_) fun flags => failed_spec action get _ (d := d)
    (R := fun s => flags = d.flags word ∧ s.With t bad fd d) (fun hget => .of_fact fun hflags => ?_) fun e hget => ?_
  · cases get with
    | none =>
      simp only [With.lookup hs]
      exact ⟨Int.natCast_nonneg _, trivial, hs⟩
    | some e =>
      simp only [With.lookup hs]
      exact ⟨rfl, hs, rfl⟩
  · rw [hget, hflags]
    refine .bind (.step fun s hs => ?_) fun status => failed_spec action set (pure ()) (d := d)
      (R := NetState.With t bad fd (d.setFlags (d.flags word ||| flag) word)) (fun hset => .pure fun s hs => ?_)
      fun e hset => ?_
    · cases set with
      | none =>
        obtain ⟨hstatus, hwith⟩ := onSocket_ok hs fun d' => d'.setFlags (d.flags word ||| flag) word
        exact ⟨Int.le_of_eq hstatus.symm, hwith⟩
      | some e => exact onSocket_fails hs e _
    · rw [hset]
      exact ⟨rfl, hs⟩
    · rw [hset]
      rfl
  · rw [hget]
    rfl

/-! ### A socket in the scope of a `UniqueFd` -/

/-- The function has thrown, and left the table as it found it. -/
def Undone (strerror : Errno → Text) (cs : Calls) (t : Fd → Option SocketState) (bad : Nat) (m : Text)
    (s : NetState) : Prop :=
  Thrown strerror cs m ∧ s.table = t ∧ s.badCloses = bad

theorem Thrown.within {pre cs post : Calls} {m : Text} (hpre : firstFailure pre = none)
    (h : Thrown strerror cs m) : Thrown strerror (pre ++ cs ++ post) m := by
  obtain ⟨failure, hf, hm⟩ := h
  exact ⟨failure, by simp [firstFailure_append, hpre, hf], hm⟩

/-- The destructor takes the new socket away. -/
theorem destroy_with (hfree : t fd = none) {s : NetState} (h : s.With t bad fd d) :
    (UniqueFd.destroy ⟨fd⟩ s).table = t ∧ (UniqueFd.destroy ⟨fd⟩ s).badCloses = bad := by
  have hat : s.table fd = some d := by simp [h.1]
  simp only [UniqueFd.destroy, UniqueFd.reset, UniqueFd.held_natCast, NetState.close, hat]
  refine ⟨?_, h.2⟩
  rw [h.1, Function.update_idem, ← hfree, Function.update_eq_self]

/-- The function has the new socket in a `UniqueFd`, and the calls `cs` have worked. -/
def Holding (t : Fd → Option SocketState) (bad : Nat) (fd : Fd) (cs : Calls) (d : SocketState)
    (s : UniqueFd × NetState) : Prop :=
  s.1 = ⟨fd⟩ ∧ firstFailure cs = none ∧ s.2.With t bad fd d

/-- One more call inside the scope: an exception closes the socket. -/
theorem stage {α : Type} (hfree : t fd = none) {pre cs all : Calls} {d' : SocketState} {x : Net Unit}
    {rest : Prog (UniqueFd × NetState) Text α} {Q : α → UniqueFd × NetState → Prop}
    (hx : Prog.Spec (NetState.With t bad fd d) x (fun _ s => firstFailure cs = none ∧ s.With t bad fd d')
      (fun m s => Thrown strerror cs m ∧ ∃ d, s.With t bad fd d))
    (post : Calls) (hall : pre ++ cs ++ post = all)
    (hrest : Prog.Spec (Holding t bad fd (pre ++ cs) d') rest Q
      (fun m s => Undone strerror all t bad m (UniqueFd.destroy s.1 s.2))) :
    Prog.Spec (Holding t bad fd pre d) (.outer x >>= fun _ => rest) Q
      (fun m s => Undone strerror all t bad m (UniqueFd.destroy s.1 s.2)) := by
  intro s ⟨hu, hpre, hwith⟩
  refine Prog.Spec.bind (P := fun s => s.1 = ⟨fd⟩ ∧ s.2.With t bad fd d)
    (M := fun _ => Holding t bad fd (pre ++ cs) d')
    (hx.keep.weaken (fun s hs => hs) (fun _ s hs => ?_) fun m s hs => ?_) (fun _ => hrest) s ⟨hu, hwith⟩
  · exact ⟨hs.1, by rw [firstFailure_append, hpre, hs.2.1]; rfl, hs.2.2⟩
  · obtain ⟨hobj, hthrown, d', hlast⟩ := hs
    rw [hobj, ← hall]
    exact ⟨hthrown.within hpre, destroy_with hfree hlast⟩

/-- The kernel gives out numbers that are not in use. -/
def Fresh (t : Fd → Option SocketState) (ans : Except Errno Fd) : Prop := ∀ fd, ans = .ok fd → t fd = none

/-- The head of both functions: without a socket they throw, with one the rest runs on it. -/
theorem withSocket_spec {α : Type} (family : Nat) (action : Text) (ans : Except Errno Fd) (hfresh : Fresh t ans)
    {cs : Calls} {rest : UniqueFd → Prog (UniqueFd × NetState) Text α} {Q : α → NetState → Prop}
    (hrest : ∀ fd : Fd, ans = .ok fd → t fd = none →
      Prog.Spec (Holding t bad fd [(action, socketErrno ans)] (.new family)) (rest ⟨fd⟩)
        (fun a s => Q a (UniqueFd.destroy s.1 s.2))
        (fun m s => Undone strerror ([(action, socketErrno ans)] ++ cs) t bad m (UniqueFd.destroy s.1 s.2))) :
    Prog.Spec (fun s => s.table = t ∧ s.badCloses = bad) (withSocket strerror family action ans rest) Q
      (Undone strerror ([(action, socketErrno ans)] ++ cs) t bad) := by
  unfold withSocket
  cases ans with
  | error e =>
    refine .bind (M := fun i s => i = -1 ∧ (s.table = t ∧ s.badCloses = bad) ∧ s.errno = e)
      (fun s hs => Or.inl ⟨-1, (s.fail e).2, rfl, rfl, hs, rfl⟩) fun i => .of_fact fun hi => ?_
    rw [hi]
    refine .withObject (.bind (M := fun u s => u = ⟨-1⟩ ∧ s.1 = ⟨-1⟩ ∧ (s.2.table = t ∧ s.2.badCloses = bad) ∧
      s.2.errno = e) (.object fun u s hs => ⟨hs.1, hs.1, hs.2⟩) fun u => .of_fact fun hu => ?_)
    rw [hu, if_pos (show (!(UniqueFd.mk (-1)).valid) = true from rfl)]
    refine (throwSystemError_spec (P := fun s => s.table = t ∧ s.badCloses = bad) (Q := fun _ _ => False) action
      e).keep.weaken (fun s hs => hs) (fun a s hs => hs.2.elim) fun m s hs => ?_
    rw [hs.1]
    exact ⟨⟨_, rfl, hs.2.2⟩, hs.2.1⟩
  | ok fd =>
    have hfree : t fd = none := hfresh fd rfl
    refine .bind (M := fun (i : Int) (s : NetState) => i = fd ∧ s.With t bad fd (.new family)) (fun s hs => Or.inl ?_)
      fun i => .of_fact fun hi => ?_
    · refine ⟨fd, { s with table := Function.update s.table fd (some (.new family)) }, ?_, rfl, ?_, hs.2⟩
      · have hnone : s.table fd = none := by rw [hs.1, hfree]
        simp [sysSocket, hnone]
      · simp [hs.1]
    · rw [hi]
      refine .withObject (.bind (M := fun u s => u = ⟨fd⟩ ∧ Holding t bad fd [(action, none)] (.new family) s)
        (.object fun u s hs => ⟨hs.1, hs.1, rfl, hs.2⟩) fun u => .of_fact fun hu => ?_)
      have hvalid : ¬ (!(UniqueFd.mk (fd : Int)).valid) = true := by simp [UniqueFd.valid]
      rw [hu, if_neg hvalid]
      exact hrest fd rfl hfree

/-- The socket that `createListenSocket` returns. -/
def listeningSocket (endpoint : ResolvedEndpoint) (backlog : Int) : SocketState :=
  { SocketState.new endpoint.family with
    fdFlags := 0 ||| FD_CLOEXEC, statusFlags := 0 ||| O_NONBLOCK, reuseAddress := true, bound := some endpoint
    backlog := some backlog }

theorem listenOn_spec (endpoint : ResolvedEndpoint) (backlog : Int) (ans : ListenAnswers)
    (hfresh : Fresh t ans.socket) :
    Prog.Spec (fun s => s.table = t ∧ s.badCloses = bad) (listenOn strerror endpoint backlog ans)
      (fun r s => firstFailure ans.calls = none ∧ ∃ fd : Fd, ans.socket = .ok fd ∧ r = fd ∧
        s.With t bad fd (listeningSocket endpoint backlog))
      (Undone strerror ans.calls t bad) := by
  refine withSocket_spec _ _ _ hfresh fun fd hsocket hfree => ?_
  refine stage hfree (setFlag_spec _ _ _ _) _ rfl ?_
  refine stage hfree (setFlag_spec _ _ _ _) _ rfl ?_
  refine stage hfree (orThrow_spec _ _ _) _ rfl ?_
  refine stage hfree (orThrow_spec _ _ _) _ rfl ?_
  refine stage hfree (orThrow_spec _ _ _) [] rfl ?_
  refine .object fun u s hs => ⟨hs.2.1, fd, hsocket, ?_, hs.2.2⟩
  rw [show u = ⟨fd⟩ from hs.1]
  rfl

/-- The socket that `connectNonBlocking` returns. -/
def connectedSocket (endpoint : ResolvedEndpoint) : SocketState :=
  { SocketState.new endpoint.family with
    fdFlags := 0 ||| FD_CLOEXEC, statusFlags := 0 ||| O_NONBLOCK, noDelay := true, peer := some endpoint }

/-- `connect` on a new socket: the status, and `errno` when it is not 0. -/
theorem sysConnect_spec (endpoint : ResolvedEndpoint) (ans : Option Errno) {E : Text → NetState → Prop} :
    Prog.Spec (NetState.With t bad fd d) (sysConnect fd endpoint ans)
      (fun status s => match ans with
        | none => status = 0 ∧ s.With t bad fd { d with peer := some endpoint }
        | some e => status = -1 ∧ s.errno = e ∧
          s.With t bad fd (if e = EINPROGRESS then { d with peer := some endpoint } else d)) E := by
  refine .step fun s hs => ?_
  cases ans with
  | none => exact onSocket_ok hs _
  | some e =>
    by_cases he : e = EINPROGRESS
    · simp only [he, if_true]
      exact ⟨rfl, rfl, (onSocket_ok hs fun d => { d with peer := some endpoint }).2⟩
    · simp only [Option.some.injEq, he, if_false]
      obtain ⟨hstatus, hwith, herrno⟩ := onSocket_fails hs e fun d => { d with peer := some endpoint }
      exact ⟨hstatus, herrno, hwith⟩

/-- `release` hands the socket to the caller: the destructor has nothing to close. -/
theorem release_spec (connecting : Bool) {E : Text → UniqueFd × NetState → Prop} :
    Prog.Spec (fun s => s.1 = ⟨fd⟩ ∧ s.2.With t bad fd d)
      (do
        let fd ← .object UniqueFd.release
        pure (ConnectResult.mk fd connecting))
      (fun r s => r = ⟨fd, connecting⟩ ∧ (UniqueFd.destroy s.1 s.2).With t bad fd d) E := by
  refine .bind (M := fun (i : Int) (s : UniqueFd × NetState) => i = fd ∧ s.1 = .empty ∧ s.2.With t bad fd d)
    (.object fun u s hs => ⟨?_, rfl, hs.2⟩) fun i => .pure fun s hs => ⟨?_, ?_⟩
  · rw [show u = ⟨fd⟩ from hs.1]
    rfl
  · rw [hs.1]
  · rw [hs.2.1]
    exact hs.2.2

/-- `connect` among the calls of `connectNonBlocking`. -/
def connectCall (endpoint : ResolvedEndpoint) (ans : Option Errno) : Calls :=
  [("connect to ".toList ++ endpoint.text ++ " failed".toList, connectErrno ans)]

theorem firstFailure_connectCall (endpoint : ResolvedEndpoint) (ans : Option Errno) {pre : Calls}
    (hpre : firstFailure pre = none) (hans : ans = none ∨ ans = some EINPROGRESS) :
    firstFailure (pre ++ connectCall endpoint ans) = none := by
  rw [firstFailure_append, hpre]
  rcases hans with rfl | rfl <;> rfl

theorem callConnect_spec (endpoint : ResolvedEndpoint) (ans : Option Errno) (hfree : t fd = none) {pre : Calls} :
    Prog.Spec (Holding t bad fd pre d) (callConnect strerror endpoint ans ⟨fd⟩)
      (fun r s => firstFailure (pre ++ connectCall endpoint ans) = none ∧
        r = ⟨fd, decide (ans = some EINPROGRESS)⟩ ∧
        (UniqueFd.destroy s.1 s.2).With t bad fd { d with peer := some endpoint })
      (fun m s => Undone strerror (pre ++ connectCall endpoint ans) t bad m (UniqueFd.destroy s.1 s.2)) := by
  rintro s ⟨hu, hpre, hwith⟩
  refine Prog.Spec.bind (P := fun s => s.1 = ⟨fd⟩ ∧ s.2.With t bad fd d)
    ((sysConnect_spec (E := fun _ _ => False) endpoint ans).keep.weaken (fun s hs => hs) (fun _ s hs => hs)
      fun m s hs => hs.2.elim) (fun status => ?_) s ⟨hu, hwith⟩
  cases ans with
  | none =>
    intro s ⟨hobj, hstatus, hlast⟩
    rw [if_pos hstatus]
    refine (release_spec (d := { d with peer := some endpoint }) false).weaken (fun s hs => hs)
      (fun r s hs => ?_) (fun m s hs => hs) s ⟨hobj, hlast⟩
    exact ⟨firstFailure_connectCall endpoint none hpre (Or.inl rfl), hs⟩
  | some e =>
    -- `errno` tells a connect that goes on from one that failed
    intro s ⟨hobj, hstatus, herrno, hlast⟩
    rw [if_neg (by omega)]
    by_cases hprog : e = EINPROGRESS
    · rw [if_pos hprog] at hlast
      refine Prog.Spec.bind
        (P := fun s => s.2.errno = e ∧ s.1 = ⟨fd⟩ ∧ s.2.With t bad fd { d with peer := some endpoint })
        (M := fun errno s => errno = e ∧ s.1 = ⟨fd⟩ ∧ s.2.With t bad fd { d with peer := some endpoint })
        (.outer fun g => .step fun s hs => hs) (fun errno => .of_fact fun he => ?_) s ⟨herrno, hobj, hlast⟩
      rw [he, if_pos hprog]
      refine (release_spec (d := { d with peer := some endpoint }) true).weaken (fun s hs => hs)
        (fun r s hs => ⟨?_, ?_, hs.2⟩) fun m s hs => hs
      · exact firstFailure_connectCall endpoint (some e) hpre (Or.inr (by rw [hprog]))
      · rw [hs.1, hprog]
        rfl
    · rw [if_neg hprog] at hlast
      refine Prog.Spec.bind (M := fun errno s => errno = e ∧ s.1 = ⟨fd⟩ ∧ s.2.With t bad fd d ∧ s.2.errno = e)
        (P := fun s => s.1 = ⟨fd⟩ ∧ s.2.With t bad fd d ∧ s.2.errno = e)
        (.outer fun g => .step fun s hs => ⟨hs.2.2, hs⟩)
        (fun errno => .of_fact fun he => ?_) s ⟨hobj, hlast, herrno⟩
      rw [he, if_neg hprog]
      refine (throwSystemError_spec (P := NetState.With t bad fd d) (Q := fun _ _ => False) _ e).keep.weaken
        (fun s hs => hs) (fun a s hs => hs.2.elim) fun m s hs => ?_
      rw [hs.1]
      refine ⟨⟨_, ?_, hs.2.2⟩, destroy_with hfree hs.2.1⟩
      simp [connectCall, firstFailure_append, hpre, connectErrno, firstFailure, hprog]

theorem connectNonBlocking_spec (endpoint : ResolvedEndpoint) (ans : ConnectAnswers) (hfresh : Fresh t ans.socket) :
    Prog.Spec (fun s => s.table = t ∧ s.badCloses = bad) (connectNonBlocking strerror endpoint ans)
      (fun r s => firstFailure (ans.calls endpoint) = none ∧ ∃ fd : Fd, ans.socket = .ok fd ∧
        r = ⟨fd, decide (ans.connect = some EINPROGRESS)⟩ ∧ s.With t bad fd (connectedSocket endpoint))
      (Undone strerror (ans.calls endpoint) t bad) := by
  refine withSocket_spec _ _ _ hfresh fun fd hsocket hfree => ?_
  refine stage hfree (setFlag_spec _ _ _ _) _ rfl ?_
  refine stage hfree (setFlag_spec _ _ _ _) _ rfl ?_
  refine stage hfree (orThrow_spec _ _ _) _ rfl ?_
  refine (callConnect_spec endpoint ans.connect hfree).weaken (fun s hs => hs) (fun r s hs => ?_) fun m s hs => hs
  exact ⟨hs.1, fd, hsocket, hs.2⟩

/-! ### The probe -/

/-- An answer that does not send the loop around again. -/
def PollResult.final (r : PollResult) : Bool := r != .error .eintr

def PollResult.status : PollResult → Int
  | .ok count => count
  | .error _ => -1

/-- The loop ends with the first answer that is not `EINTR`. -/
theorem pollLoop_spec {polls : List PollResult} {r : PollResult} (hr : polls.find? PollResult.final = some r)
    {E : Text → NetState → Prop} :
    Prog.Spec (NetState.With t bad fd d) (pollLoop polls) (fun i s => i = r.status ∧ s.With t bad fd d) E := by
  induction polls with
  | nil => cases hr
  | cons first rest ih =>
    cases first with
    | ok count =>
      obtain rfl := Option.some.inj hr
      exact .pure fun s hs => ⟨rfl, hs⟩
    | error e =>
      refine .bind (M := fun i s => i = -1 ∧ s.With t bad fd d ∧ s.errno = e)
        (.step fun s hs => ⟨rfl, hs, rfl⟩) fun i => .of_fact fun hi => ?_
      refine .bind (M := fun errno s => errno = e ∧ s.With t bad fd d) (.step fun s hs => ⟨hs.2, hs.1⟩)
        fun errno => .of_fact (P := NetState.With t bad fd d) fun he => ?_
      rw [hi, he]
      by_cases hintr : e = .eintr
      · rw [if_pos ⟨by decide, hintr⟩]
        rw [List.find?_cons_of_neg (by simp [PollResult.final, hintr])] at hr
        exact ih hr
      · rw [if_neg fun h => hintr h.2]
        rw [List.find?_cons_of_pos (by simp [PollResult.final, hintr])] at hr
        obtain rfl := Option.some.inj hr
        exact .pure fun s hs => ⟨rfl, hs⟩

theorem sysSoError_spec (ans : SoError) {E : Text → NetState → Prop} :
    Prog.Spec (NetState.With t bad fd d) (sysSoError ans)
      (fun out s => (out.1 == 0 && out.2 == none) = (ans == .ok none) ∧ s.With t bad fd d) E := by
  refine .step fun s hs => ?_
  cases ans with
  | ok error => exact ⟨by cases error <;> rfl, hs⟩
  | failed e => exact ⟨rfl, hs⟩

theorem awaitConnect_spec {polls : List PollResult} {r : PollResult} (hr : polls.find? PollResult.final = some r)
    (soError : SoError) {E : Text → NetState → Prop} :
    Prog.Spec (NetState.With t bad fd d) (awaitConnect polls soError)
      (fun b s => b = (decide (0 < r.status) && soError == .ok none) ∧ s.With t bad fd d) E := by
  refine .bind (pollLoop_spec hr) fun i => .of_fact (P := NetState.With t bad fd d) fun hi => ?_
  rw [hi]
  refine .ite (fun hle => .pure fun s hs => ⟨?_, hs⟩) fun hpos => ?_
  · simp [Int.not_lt.mpr hle]
  · refine .bind (sysSoError_spec soError) fun out => .pure fun s hs => ⟨?_, hs.2⟩
    rw [← hs.1, decide_eq_true (Int.not_le.mp hpos), Bool.true_and]

/-- `poll` goes on answering until it does not answer `EINTR`. -/
def ProbeAnswers.Decided (ans : ProbeAnswers) (endpoint : ResolvedEndpoint) : Prop :=
  firstFailure (ans.calls endpoint) = none → ans.connect = some EINPROGRESS →
    ∃ r, ans.polls.find? PollResult.final = some r

/-- What the probe finds, told by the answers of the kernel. -/
def ProbeAnswers.reachable (ans : ProbeAnswers) (endpoint : ResolvedEndpoint) : Bool :=
  if (firstFailure (ans.calls endpoint)).isSome then false
  else if ans.connect = some EINPROGRESS then
    match ans.polls.find? PollResult.final with
    | some r => decide (0 < r.status) && ans.soError == .ok none
    | none => false
  else true

theorem waitForConnect_spec (endpoint : ResolvedEndpoint) (ans : ProbeAnswers) (hfresh : Fresh t ans.socket)
    (hdecided : ans.Decided endpoint) :
    Prog.Spec (fun s => s.table = t ∧ s.badCloses = bad) (waitForConnect strerror endpoint ans)
      (fun r s => r = ans.reachable endpoint ∧ s.table = t ∧ s.badCloses = bad) (fun _ _ => False) := by
  refine .tryCatch (F := Undone strerror (ans.calls endpoint) t bad)
    (.bind (connectNonBlocking_spec endpoint ans.toConnectAnswers hfresh) fun result => ?_)
    fun m => .pure fun s hs => ?_
  · rintro s ⟨hok, fd, hsocket, hresult, hwith⟩
    have hfree : t fd = none := hfresh fd hsocket
    rw [hresult]
    refine Prog.Spec.withObject (P := NetState.With t bad fd (connectedSocket endpoint)) ?_ s hwith
    by_cases hprog : ans.connect = some EINPROGRESS
    · obtain ⟨r, hr⟩ := hdecided hok hprog
      simp only [hprog, decide_true, Bool.not_true, Bool.false_eq_true, if_false]
      refine (awaitConnect_spec (E := fun _ _ => False) hr ans.soError).keep.weaken (fun s hs => hs)
        (fun b s hs => ?_) fun m s hs => hs.2.elim
      obtain ⟨hobj, hb, hlast⟩ := hs
      rw [hobj]
      refine ⟨?_, destroy_with hfree hlast⟩
      simp [ProbeAnswers.reachable, hok, hprog, hr, hb]
    · simp only [hprog, decide_false, Bool.not_false, if_true]
      refine .pure fun s hs => ?_
      rw [hs.1]
      refine ⟨?_, destroy_with hfree hs.2⟩
      simp [ProbeAnswers.reachable, hok, hprog]
  · obtain ⟨⟨failure, hfailure, -⟩, htable⟩ := hs
    exact ⟨by simp [ProbeAnswers.reachable, hfailure], htable⟩

/-- A probe whose `poll` never gets past `EINTR` does not come back. -/
theorem pollLoop_waits {polls : List PollResult} (h : polls.find? PollResult.final = none) (s : NetState) :
    pollLoop polls s = none := by
  induction polls generalizing s with
  | nil => rfl
  | cons first rest ih =>
    have hall := List.find?_eq_none.mp h
    have hrest : rest.find? PollResult.final = none :=
      List.find?_eq_none.mpr fun r hr => hall r (List.mem_cons_of_mem _ hr)
    obtain rfl : first = .error .eintr := by simpa [PollResult.final] using hall first List.mem_cons_self
    exact ih hrest _

/-- The probe waits as long as `poll` is interrupted. -/
theorem waitForConnect_waits (endpoint : ResolvedEndpoint) (ans : ProbeAnswers) {s : NetState}
    (hfresh : Fresh s.table ans.socket) (hnot : ¬ ans.Decided endpoint) :
    waitForConnect strerror endpoint ans s = none := by
  simp only [ProbeAnswers.Decided, not_forall, not_exists] at hnot
  obtain ⟨hok, hprog, hpolls⟩ := hnot
  have hnone : ans.polls.find? PollResult.final = none := by
    cases hf : ans.polls.find? PollResult.final with
    | none => rfl
    | some r => exact absurd hf (hpolls r)
  rcases @connectNonBlocking_spec strerror _ _ endpoint ans.toConnectAnswers hfresh s ⟨rfl, rfl⟩ with
    ⟨r, s', hrun, -, fd, hsocket, hr, hwith⟩ | ⟨m, s', hrun, ⟨failure, hfailure, hm⟩, -⟩
  · have hconnecting : r.connecting = true := by
      rw [hr]
      exact decide_eq_true hprog
    unfold waitForConnect Prog.tryCatch
    rw [Prog.bind_ok hrun]
    have hwait : awaitConnect ans.polls ans.soError s' = none := by
      show Prog.bind (pollLoop ans.polls) _ s' = none
      rw [Prog.bind, pollLoop_waits hnone]
    simp [Prog.withObject, Prog.outer, hconnecting, hwait]
  · rw [hok] at hfailure
    cases hfailure

/-- What is known about a probe that has come back. -/
theorem waitForConnect_returned {endpoint : ResolvedEndpoint} {ans : ProbeAnswers} {s s' : NetState}
    {r : Except Text Bool} (hfresh : Fresh s.table ans.socket)
    (hcall : waitForConnect strerror endpoint ans s = some (r, s')) :
    r = .ok (ans.reachable endpoint) ∧ s'.table = s.table ∧ s'.badCloses = s.badCloses := by
  by_cases hdecided : ans.Decided endpoint
  · rcases @waitForConnect_spec strerror _ _ endpoint ans hfresh hdecided s ⟨rfl, rfl⟩ with
      ⟨b, t, hrun, hb, htable, hbad⟩ | ⟨m, t, hrun, hfalse⟩
    · obtain ⟨rfl, rfl⟩ := Prod.mk.inj (Option.some.inj (hcall.symm.trans hrun))
      exact ⟨by rw [hb], htable, hbad⟩
    · exact hfalse.elim
  · rw [waitForConnect_waits endpoint ans hfresh hdecided] at hcall
    cases hcall

theorem or_flag (flags flag : Nat) : (flags ||| flag) &&& flag = flag := by
  apply Nat.eq_of_testBit_eq
  intro i
  rw [Nat.testBit_and, Nat.testBit_or]
  cases flags.testBit i <;> cases flag.testBit i <;> rfl

end Specs

/-! A kernel that answers, for the results below. -/

namespace Demo

def endpoint : ResolvedEndpoint := ⟨2, [127, 0, 0, 1], 16, "127.0.0.1:80".toList⟩

/-- The connect begins, and ends well after an interrupted `poll`. -/
def answers : ProbeAnswers where
  socket := .ok 5
  closeOnExec := ⟨none, none⟩
  nonBlocking := ⟨none, none⟩
  noDelay := none
  connect := some EINPROGRESS
  polls := [.error .eintr, .ok 1]
  soError := .ok none

def idle : NetState := ⟨fun _ => none, .other 0, 0⟩

/-- The address is taken. -/
def addressTaken : ListenAnswers where
  socket := .ok 5
  closeOnExec := ⟨none, none⟩
  nonBlocking := ⟨none, none⟩
  reuseAddress := none
  bind := some (.other 98)
  listen := none

/-- A resolver that knows one address. -/
def resolver : Resolver where
  getaddrinfo := fun _ _ => .ok [⟨2, [127, 0, 0, 1], 16⟩]
  gaiStrerror := fun _ => []
  inetNtop := fun _ _ => "127.0.0.1".toList

def strerror : Errno → Text := fun _ => "Address already in use".toList

theorem fresh_idle (ans : Except Errno Fd) : Fresh idle.table ans := fun _ _ => rfl

end Demo

/-- **`connectNonBlocking` is all or nothing.** Whatever the kernel answers, the function comes back. When a
call fails it throws the text of the first one that did, and the descriptor table is as before, so nothing
leaks; otherwise exactly one descriptor is new: a socket that is non-blocking, closed on `exec`, without
Nagle's delay and on its way to the endpoint, and `connecting` says whether the connect is still going on. -/
theorem connectNonBlocking_sound (strerror : Errno → Text) (endpoint : ResolvedEndpoint) (ans : ConnectAnswers)
    (s : NetState) (hfresh : Fresh s.table ans.socket) :
    ∃ r s', connectNonBlocking strerror endpoint ans s = some (r, s') ∧ s'.badCloses = s.badCloses ∧
      match firstFailure (ans.calls endpoint) with
      | some failure => r = .error (message strerror failure) ∧ s'.table = s.table
      | none => ∃ (fd : Fd) (d : SocketState), s.table fd = none ∧
        r = .ok ⟨fd, decide (ans.connect = some EINPROGRESS)⟩ ∧ s'.table = Function.update s.table fd (some d) ∧
        d.closeOnExec ∧ d.nonBlocking ∧ d.noDelay = true ∧ d.peer = some endpoint := by
  rcases @connectNonBlocking_spec strerror _ _ endpoint ans hfresh s ⟨rfl, rfl⟩ with
    ⟨r, s', hrun, hok, fd, hsocket, hr, hwith⟩ | ⟨m, s', hrun, ⟨failure, hfailure, hm⟩, htable, hbad⟩
  · refine ⟨.ok r, s', hrun, hwith.2, ?_⟩
    rw [hok]
    exact ⟨fd, connectedSocket endpoint, hfresh fd hsocket, by rw [hr], hwith.1, or_flag 0 FD_CLOEXEC,
      or_flag 0 O_NONBLOCK, rfl, rfl⟩
  · refine ⟨.error m, s', hrun, hbad, ?_⟩
    rw [hfailure]
    exact ⟨by rw [hm], htable⟩

/-- The connect of the small kernel begins. -/
theorem connectNonBlocking_sound_begun : ∃ (fd : Fd) (s' : NetState),
    connectNonBlocking Demo.strerror Demo.endpoint Demo.answers.toConnectAnswers Demo.idle =
      some (.ok ⟨fd, true⟩, s') ∧ (s'.table fd).isSome := by
  obtain ⟨r, s', hrun, -, fd, d, -, hr, htable, -⟩ := connectNonBlocking_sound Demo.strerror Demo.endpoint
    Demo.answers.toConnectAnswers Demo.idle (Demo.fresh_idle _)
  refine ⟨fd, s', ?_, ?_⟩
  · rw [hrun, hr]
    rfl
  · rw [htable, Function.update_self]
    rfl

/-- **`createListenSocket` is all or nothing.** An address that cannot be resolved, or the first call that
fails, gives the text of the exception and leaves the descriptor table as before; otherwise exactly one
descriptor is new: a socket that is non-blocking, closed on `exec`, bound to the resolved address with
`SO_REUSEADDR`, and listening with the given backlog. -/
theorem createListenSocket_sound (strerror : Errno → Text) (resolver : Resolver) (host : Text) (port : Nat)
    (backlog : Int) (ans : ListenAnswers) (s : NetState) (hfresh : Fresh s.table ans.socket) :
    ∃ r s', createListenSocket strerror resolver host port backlog ans s = some (r, s') ∧
      s'.badCloses = s.badCloses ∧
      match resolveTcpEndpoint resolver host port, firstFailure ans.calls with
      | .error m, _ => r = .error m ∧ s'.table = s.table
      | .ok _, some failure => r = .error (message strerror failure) ∧ s'.table = s.table
      | .ok endpoint, none => ∃ (fd : Fd) (d : SocketState), s.table fd = none ∧ r = .ok (fd : Int) ∧
        s'.table = Function.update s.table fd (some d) ∧ d.closeOnExec ∧ d.nonBlocking ∧ d.reuseAddress = true ∧
        d.bound = some endpoint ∧ d.backlog = some backlog := by
  unfold createListenSocket
  cases hresolve : resolveTcpEndpoint resolver host port with
  | error m => exact ⟨.error m, s, rfl, rfl, rfl, rfl⟩
  | ok endpoint =>
    rcases @listenOn_spec strerror _ _ endpoint backlog ans hfresh s ⟨rfl, rfl⟩ with
      ⟨r, s', hrun, hok, fd, hsocket, hr, hwith⟩ | ⟨m, s', hrun, ⟨failure, hfailure, hm⟩, htable, hbad⟩
    · refine ⟨.ok r, s', hrun, hwith.2, ?_⟩
      rw [hok]
      exact ⟨fd, listeningSocket endpoint backlog, hfresh fd hsocket, by rw [hr], hwith.1, or_flag 0 FD_CLOEXEC,
        or_flag 0 O_NONBLOCK, rfl, rfl, rfl⟩
    · refine ⟨.error m, s', hrun, hbad, ?_⟩
      rw [hfailure]
      exact ⟨by rw [hm], htable⟩

/-- The address is taken: the socket is closed again. -/
theorem createListenSocket_sound_taken : ∃ s',
    createListenSocket Demo.strerror Demo.resolver "localhost".toList 80 16 Demo.addressTaken Demo.idle =
      some (.error "bind failed: Address already in use".toList, s') ∧ s'.table 5 = none := by
  obtain ⟨r, s', hrun, -, hr, htable⟩ := createListenSocket_sound Demo.strerror Demo.resolver "localhost".toList 80 16
    Demo.addressTaken Demo.idle (Demo.fresh_idle _)
  refine ⟨s', ?_, ?_⟩
  · rw [hrun, hr]
    rfl
  · rw [htable]
    rfl

/-- **A probe costs no descriptor and says what the kernel said.** `waitForConnect` comes back unless `poll`
answers `EINTR` for ever; it never throws, it leaves the descriptor table as it was, and its result is true
exactly when every call up to `connect` worked and `connect` ended at once, or the first answer of `poll`
that is not `EINTR` reports the socket ready and `SO_ERROR` is then 0. -/
theorem waitForConnect_sound (strerror : Errno → Text) (endpoint : ResolvedEndpoint) (ans : ProbeAnswers)
    (s : NetState) (hfresh : Fresh s.table ans.socket) :
    (ans.Decided endpoint → ∃ s', waitForConnect strerror endpoint ans s = some (.ok (ans.reachable endpoint), s') ∧
      s'.table = s.table ∧ s'.badCloses = s.badCloses) ∧
    (¬ ans.Decided endpoint → waitForConnect strerror endpoint ans s = none) := by
  constructor
  · intro hdecided
    rcases @waitForConnect_spec strerror _ _ endpoint ans hfresh hdecided s ⟨rfl, rfl⟩ with
      ⟨r, s', hrun, hr, htable, hbad⟩ | ⟨m, s', hrun, hfalse⟩
    · exact ⟨s', hr ▸ hrun, htable, hbad⟩
    · exact hfalse.elim
  · exact fun hnot => waitForConnect_waits endpoint ans hfresh hnot

/-- The probe of the small kernel is interrupted once and then finds the backend reachable. -/
theorem waitForConnect_sound_reachable : ∃ s',
    waitForConnect Demo.strerror Demo.endpoint Demo.answers Demo.idle = some (.ok true, s') ∧ s'.table 5 = none := by
  obtain ⟨s', hrun, htable, -⟩ := (waitForConnect_sound Demo.strerror Demo.endpoint Demo.answers Demo.idle
    (Demo.fresh_idle _)).1 fun _ _ => ⟨.ok 1, rfl⟩
  refine ⟨s', hrun, ?_⟩
  rw [htable]
  rfl

end FluxGate
