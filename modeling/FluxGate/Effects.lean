import FluxGate.Session

/-!
# The elementary effects of `handleEvent`

Whatever happens in a call of `handleEvent` is a sequence of a few effects: a
flag is set, the connect ends, a system call that moves no byte is made, a
buffer is compacted, bytes are received, bytes are sent. A property that no
such effect destroys (`Stable`) survives every phase and so every call.
-/

namespace FluxGate

open Lib

/-- A call that moved no byte. -/
def Call.quiet : Call → Bool
  | .recv _ _ (.ok data) => data.isEmpty
  | .send _ _ (.ok count) => count == 0
  | _ => true

namespace Env

/-- The connect of the upstream ended well. -/
def connected (env : Env) (now : Nat) : Env :=
  { env with
    session := { env.session with upstreamConnecting := false }.touch now
    backend := env.backend.recordConnectSuccess }

/-- The connect of the upstream failed. -/
def connectFailed (env : Env) : Env :=
  { env with
    backend := env.backend.recordConnectFailure
    metrics := env.metrics.onConnectFailure }

def setReadClosed (env : Env) (side : Side) : Env :=
  { env with session := env.session.setReadClosed side }

def setWriteShutdown (env : Env) (side : Side) : Env :=
  { env with session := env.session.setWriteShutdown side }

end Env

/-- Not destroyed by anything that happens apart from the end of the connect. -/
structure Calm (now : Nat) (I : Env → Prop) : Prop where
  close : ∀ env, I env → I env.close
  readClosed : ∀ env side, I env → I (env.setReadClosed side)
  writeShutdown : ∀ env side, I env → I (env.setWriteShutdown side)
  call : ∀ env c, c.quiet = true → I env → I (env.record c)
  makeWritable : ∀ env side, I env → I (env.makeWritable side)
  recv : ∀ env side b data, I env →
    I ((env.recvCall side (.ok (b :: data))).received side (b :: data) now)
  send : ∀ env side n, I env → I ((env.sendCall side (.ok (n + 1))).sent side (n + 1) now)

structure Stable (now : Nat) (I : Env → Prop) : Prop where
  close : ∀ env, I env → I env.close
  readClosed : ∀ env side, I env → I (env.setReadClosed side)
  writeShutdown : ∀ env side, I env → I (env.setWriteShutdown side)
  connected : ∀ env, I env → I (env.connected now)
  connectFailed : ∀ env, I env → I env.connectFailed
  call : ∀ env c, c.quiet = true → I env → I (env.record c)
  makeWritable : ∀ env side, I env → I (env.makeWritable side)
  recv : ∀ env side b data, I env →
    I ((env.recvCall side (.ok (b :: data))).received side (b :: data) now)
  send : ∀ env side n, I env → I ((env.sendCall side (.ok (n + 1))).sent side (n + 1) now)

theorem Stable.calm {now : Nat} {I : Env → Prop} (h : Stable now I) : Calm now I :=
  ⟨h.close, h.readClosed, h.writeShutdown, h.call, h.makeWritable, h.recv, h.send⟩

namespace Calm

variable {now : Nat} {I : Env → Prop} {env env' : Env} {side : Side} {p : Bool}
  {r : Option IoResult}

theorem readLoop (h : Calm now I) (hloop : Env.ReadLoop side now p env r env') (hi : I env) :
    I env' := by
  have hquiet : ∀ env res, (Call.recv side (Env.room env side) res).quiet = true → I env →
      I (env.recvCall side res) := fun env res hq hi =>
    h.call _ _ hq (h.makeWritable env side hi)
  induction hloop with
  | full p env _ => exact h.makeWritable env side hi
  | starved p env _ => exact h.makeWritable env side hi
  | data p env b data r env' _ _ ih => exact ih (h.recv env side b data hi)
  | eof p env _ => exact hquiet env _ rfl hi
  | eintr p env r env' _ _ ih => exact ih (hquiet env _ rfl hi)
  | again p env e _ _ => exact hquiet env _ rfl hi
  | fail p env e _ _ _ => exact hquiet env _ rfl hi

theorem writeLoop (h : Calm now I) (hloop : Env.WriteLoop side now p env r env') (hi : I env) :
    I env' := by
  induction hloop with
  | drained p env _ => exact hi
  | starved p env _ => exact hi
  | data p env n r env' _ _ ih => exact ih (h.send env side n hi)
  | zero p env _ => exact h.call env _ rfl hi
  | eintr p env r env' _ _ ih => exact ih (h.call env _ rfl hi)
  | again p env e _ _ => exact h.call env _ rfl hi
  | fail p env e _ _ _ => exact h.call env _ rfl hi

theorem errorPhase (h : Calm now I) (fd : Fd) (events : EventMask) (ans : Answers) :
    Phase.Spec I (Env.errorPhase fd events ans) (fun _ => I) := by
  intro env hi
  unfold Env.errorPhase
  split
  · cases ans.error with
    | none => exact hi
    | some res => exact h.close _ (h.call env (.soError fd res) rfl hi)
  · exact hi

theorem readPhase (h : Calm now I) (side : Side) (events : EventMask) (ans : Answers) :
    Phase.Spec I (Env.readPhase side events now ans) (fun _ => I) := by
  intro env hi
  unfold Env.readPhase
  split
  · have hr := h.readLoop (Env.readInto_loop side now false ans.recvs env) hi
    cases he : env.readInto side now false ans.recvs with
    | mk result env' =>
      rw [he] at hr
      cases result with
      | none => exact hr
      | some r =>
        cases r with
        | progress => exact hr
        | closed => exact h.readClosed env' side hr
        | error => exact h.close env' hr
        | wouldBlock =>
          dsimp only
          split
          · exact h.readClosed env' side hr
          · exact hr
  · exact hi

theorem writePhase (h : Calm now I) (side : Side) (events : EventMask) (ans : Answers) :
    Phase.Spec I (Env.writePhase side events now ans) (fun _ => I) := by
  intro env hi
  unfold Env.writePhase
  split
  · have hw := h.writeLoop (Env.writeFrom_loop side now false ans.sends env) hi
    cases he : env.writeFrom side now false ans.sends with
    | mk result env' =>
      rw [he] at hw
      cases result with
      | none => exact hw
      | some r =>
        cases r with
        | progress => exact hw
        | wouldBlock => exact hw
        | closed => exact h.close env' hw
        | error => exact h.close env' hw
  · exact hi

theorem sidePhase (h : Calm now I) (fd : Fd) (events : EventMask) (ans : Answers) :
    Phase.Spec I (Env.sidePhase fd events now ans) (fun _ => I) := by
  intro env hi
  unfold Env.sidePhase
  split
  · exact (h.readPhase .client events ans).keep (h.writePhase .client events ans) env hi
  · split
    · exact (h.readPhase .upstream events ans).keep (h.writePhase .upstream events ans) env hi
    · exact h.close env hi

theorem finalPhase (h : Calm now I) : Phase.Spec I Env.finalPhase (fun _ => I) := by
  have hhalf : ∀ env side may, I env → I (Env.halfClose side may env) := by
    intro env side may hi
    unfold Env.halfClose
    dsimp only
    split
    · exact h.writeShutdown _ _ (h.call env (.shutdownWrite side.other) rfl hi)
    · exact hi
  intro env hi
  have hu : I env.updateHalfClose := hhalf _ _ _ (hhalf _ _ _ hi)
  unfold Env.finalPhase
  dsimp only
  split
  · exact h.close _ hu
  · exact hu

/-- Everything after the connect phase. -/
theorem rest (h : Calm now I) (fd : Fd) (events : EventMask) (ans : Answers) :
    Phase.Spec I ((Env.errorPhase fd events ans).andThen <|
      (Env.sidePhase fd events now ans).andThen Env.finalPhase) (fun _ => I) :=
  (h.errorPhase fd events ans).keep <| (h.sidePhase fd events ans).keep h.finalPhase

end Calm

namespace Stable

variable {now : Nat} {I : Env → Prop}

theorem closedPhase : Phase.Spec I Env.closedPhase (fun _ => I) := by
  intro env hi
  unfold Env.closedPhase
  split <;> exact hi

theorem connectPhase (h : Stable now I) (fd : Fd) (events : EventMask) (ans : Answers) :
    Phase.Spec I (Env.connectPhase fd events now ans) (fun _ => I) := by
  intro env hi
  unfold Env.connectPhase Env.finishUpstreamConnect
  split
  · split
    · exact hi
    · cases ans.connect with
      | none => exact hi
      | some res =>
        have hrec := h.call env (.soError env.session.upstreamFd res) rfl hi
        by_cases hr : res = .ok none
        · simp only [ne_eq, hr, not_true_eq_false, ↓reduceIte]
          rw [hr] at hrec
          exact h.connected _ hrec
        · simp only [ne_eq, hr, not_false_eq_true, ↓reduceIte]
          exact h.close _ (h.connectFailed _ hrec)
  · exact hi

/-- **A stable property survives `handleEvent`.** -/
theorem handleEvent (h : Stable now I) (fd : Fd) (events : EventMask) (ans : Answers) :
    Phase.Spec I (Env.handleEvent fd events now ans) (fun _ => I) :=
  closedPhase.keep <| (h.connectPhase fd events ans).keep (h.calm.rest fd events ans)

end Stable

/-- A live session starts with the connect phase. -/
theorem handleEvent_live {env : Env} {events : EventMask} {now : Nat} {ans : Answers} (fd : Fd)
    (hlive : env.session.closing = false) :
    env.handleEvent fd events now ans =
      ((Env.connectPhase fd events now ans).andThen <| (Env.errorPhase fd events ans).andThen <|
        (Env.sidePhase fd events now ans).andThen Env.finalPhase) env := by
  simp [Env.handleEvent, Phase.andThen, Env.closedPhase, hlive]

end FluxGate
