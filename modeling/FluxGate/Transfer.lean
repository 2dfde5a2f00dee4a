import FluxGate.Relay
import FluxGate.Lib.Count

/-!
# The transfer loops `readInto` and `writeFrom`

Both loops go on as long as bytes move and stop at the first answer that moves
none, `EINTR` apart. `Trace` relates a loop to the calls it made: which answer
each call got, and how the result follows from the calls. What the calls did to
the buffer is a separate fact, under the assumption that the counts returned are
in range. Together they bound the calls: every one that moved bytes used up free
space or unsent bytes, so a stream of answers in which `EINTR` does not repeat
forever ends the loop.
-/

namespace FluxGate

open Lib

/-- An `errno` that neither retries nor waits. -/
def Errno.hard (e : Errno) : Bool := e != .eintr && !e.again

namespace Call

/-- The call returned 0. -/
def isZero : Call → Bool
  | .recv _ _ (.ok data) => data.isEmpty
  | .send _ _ (.ok count) => count == 0
  | _ => false

/-- The call failed for good. -/
def isHard : Call → Bool
  | .recv _ _ (.error e) => e.hard
  | .send _ _ (.error e) => e.hard
  | _ => false

end Call

/-- How the result of a loop follows from its calls; `moved` says that there is
progress to report. -/
structure Reported (moved : Bool) (calls : List Call) (r : IoResult) : Prop where
  closed : r = .closed ↔ ∃ c ∈ calls, c.isZero = true
  error : r = .error ↔ ∃ c ∈ calls, c.isHard = true
  wouldBlock : r = .wouldBlock ↔ r ≠ .closed ∧ r ≠ .error ∧ moved = false

namespace Reported

variable {moved : Bool} {calls : List Call} {r : IoResult} {c : Call}

theorem stalled (hz : ∀ c ∈ calls, c.isZero = false) (hh : ∀ c ∈ calls, c.isHard = false) :
    Reported moved calls (stalled moved) := by
  have hzero : ¬ ∃ c ∈ calls, c.isZero = true := by
    rintro ⟨c, hc, h⟩
    rw [hz c hc] at h
    cases h
  have hhard : ¬ ∃ c ∈ calls, c.isHard = true := by
    rintro ⟨c, hc, h⟩
    rw [hh c hc] at h
    cases h
  cases moved <;>
    exact ⟨iff_of_false (by simp [FluxGate.stalled]) hzero,
      iff_of_false (by simp [FluxGate.stalled]) hhard, by simp [FluxGate.stalled]⟩

theorem eof (hz : c.isZero = true) (hh : c.isHard = false) : Reported moved [c] .closed :=
  ⟨by simp [hz], by simp [hh], by simp⟩

theorem fail (hz : c.isZero = false) (hh : c.isHard = true) : Reported moved [c] .error :=
  ⟨by simp [hz], by simp [hh], by simp⟩

/-- A call after which the loop goes on. -/
theorem cons (h : Reported moved calls r) (hz : c.isZero = false) (hh : c.isHard = false) :
    Reported moved (c :: calls) r :=
  ⟨h.closed.trans (by simp [hz]), h.error.trans (by simp [hh]), h.wouldBlock⟩

end Reported

/-- What a loop did: `ask` is the shape of its calls with their answers. -/
structure Trace {α : Type} [DecidableEq α] (ask : Call → α → Prop) (eintr : α) (moved : Bool)
    (answers : List α) (env env' : Env) (r : Option IoResult) (calls : List Call) : Prop where
  log : env'.log = env.log ++ calls
  /-- the calls got the first answers, in order -/
  answered : ∀ (i : Nat) (c : Call), calls[i]? = some c → ∃ a, answers[i]? = some a ∧ ask c a
  report : ∀ res, r = some res → Reported (moved || calls.any fun c => !c.quiet) calls res
  /-- a loop left without answers has used each of them, and moved bytes with all but `EINTR` -/
  starved : r = none → answers.countP (fun a => a ≠ eintr) = calls.countP fun c => !c.quiet

namespace Trace

variable {α : Type} [DecidableEq α] {ask : Call → α → Prop} {eintr a : α} {moved : Bool}
  {answers : List α} {env env₁ env' : Env} {r : Option IoResult} {res : IoResult} {calls : List Call}
  {c : Call}

/-- The loop leaves before another call. -/
theorem leave (hlog : env'.log = env.log) (hres : Reported moved [] res) :
    Trace ask eintr moved answers env env' (some res) [] where
  log := by simp [hlog]
  answered := by simp
  report := by
    rintro _ ⟨⟩
    simpa using hres
  starved := by simp

theorem stop (hlog : env'.log = env.log) : Trace ask eintr moved [] env env' none [] where
  log := by simp [hlog]
  answered := by simp
  report := by simp
  starved := by simp

/-- The last call of a loop. -/
theorem last (hlog : env'.log = env.log ++ [c]) (hc : ask c a) (hq : c.quiet = true)
    (hres : Reported moved [c] res) : Trace ask eintr moved (a :: answers) env env' (some res) [c] where
  log := hlog
  answered := by
    intro i d hd
    cases i with
    | zero =>
      cases hd
      exact ⟨a, rfl, hc⟩
    | succ i => simp at hd
  report := by
    rintro _ ⟨⟩
    simpa [hq] using hres
  starved := by simp

/-- A call after which the loop goes on. -/
theorem cons {after : Bool} (h : Trace ask eintr after answers env₁ env' r calls)
    (hafter : after = (moved || !c.quiet)) (hlog : env₁.log = env.log ++ [c]) (hc : ask c a)
    (hz : c.isZero = false) (hh : c.isHard = false) (hq : c.quiet = decide (a = eintr)) :
    Trace ask eintr moved (a :: answers) env env' r (c :: calls) where
  log := by rw [h.log, hlog, List.append_assoc, List.singleton_append]
  answered := by
    intro i d hd
    cases i with
    | zero =>
      cases hd
      exact ⟨a, rfl, hc⟩
    | succ i => exact h.answered i d hd
  report := by
    intro res hres
    have hrep := (h.report res hres).cons hz hh
    rwa [hafter, Bool.or_assoc] at hrep
  starved := by
    intro hr
    rw [List.countP_cons, List.countP_cons, h.starved hr, hq]
    by_cases ha : a = eintr <;> simp [ha]

theorem asked (h : Trace ask eintr moved answers env env' r calls) (hc : c ∈ calls) : ∃ a, ask c a := by
  obtain ⟨i, hi⟩ := List.mem_iff_getElem?.mp hc
  obtain ⟨a, -, ha⟩ := h.answered i c hi
  exact ⟨a, ha⟩

end Trace

/-- The calls made between two points of a run were answered in range. -/
def Env.InRangeSince (env env' : Env) : Prop :=
  ∀ calls, env'.log = env.log ++ calls → ∀ c ∈ calls, c.InRange

/-! ## `readInto` -/

/-- A call of `recv` on `side` with a positive length, answered by `a`. -/
def Recvs (side : Side) (c : Call) (a : RecvResult) : Prop :=
  ∃ length, 0 < length ∧ c = .recv side length a

namespace Env

theorem readInto_trace (side : Side) (now : Nat) (p : Bool) (answers : List RecvResult) (env : Env) :
    ∃ calls, Trace (Recvs side) (.error .eintr) p answers env
      (env.readInto side now p answers).2 (env.readInto side now p answers).1 calls := by
  induction answers generalizing p env with
  | nil =>
    by_cases h : env.room side = 0
    · simp only [readInto, h, ↓reduceIte]
      exact ⟨[], .leave rfl (.stalled (by simp) (by simp))⟩
    · simp only [readInto, h, ↓reduceIte]
      exact ⟨[], .stop rfl⟩
  | cons a rest ih =>
    by_cases h : env.room side = 0
    · unfold readInto
      rw [if_pos h]
      exact ⟨[], .leave rfl (.stalled (by simp) (by simp))⟩
    · have hask : Recvs side (.recv side (env.room side) a) a := ⟨_, Nat.pos_of_ne_zero h, rfl⟩
      unfold readInto
      rw [if_neg h]
      cases a with
      | ok data =>
        cases data with
        | nil => exact ⟨_, .last rfl hask rfl (.eof rfl rfl)⟩
        | cons b data =>
          obtain ⟨calls, ht⟩ := ih true
            ((env.recvCall side (.ok (b :: data))).received side (b :: data) now)
          exact ⟨_, ht.cons (by simp [Call.quiet]) rfl hask rfl rfl (by simp [Call.quiet])⟩
      | error e =>
        dsimp only
        split
        · rename_i he
          subst he
          obtain ⟨calls, ht⟩ := ih p (env.recvCall side (.error .eintr))
          exact ⟨_, ht.cons (by simp [Call.quiet]) rfl hask rfl rfl (by simp [Call.quiet])⟩
        · rename_i hi
          split
          · rename_i he
            exact ⟨_, .last rfl hask rfl (.stalled (by simp [Call.isZero])
              (by simp [Call.isHard, Errno.hard, he]))⟩
          · rename_i he
            exact ⟨_, .last rfl hask rfl (.fail rfl (by simp [Call.isHard, Errno.hard, hi, he]))⟩

/-- What the calls of a read loop have put into the buffer. -/
theorem ReadLoop.content {side : Side} {now : Nat} {p : Bool} {env env' : Env}
    {r : Option IoResult} (h : ReadLoop side now p env r env') {calls : List Call}
    (hlog : env'.log = env.log ++ calls) (hrange : ∀ c ∈ calls, c.InRange)
    (hwf : (env.session.inbound side).WF) :
    (env'.session.inbound side).WF ∧
      (env'.session.inbound side).capacity = (env.session.inbound side).capacity ∧
      (env'.session.inbound side).readData =
        (env.session.inbound side).readData ++ FluxGate.received side calls := by
  -- compaction, with or without a call that moves nothing
  have hcompact : ∀ {env env' : Env} {calls : List Call}, (env.session.inbound side).WF →
      env'.session.inbound side = (env.session.inbound side).makeWritable →
      FluxGate.received side calls = [] →
      (env'.session.inbound side).WF ∧
        (env'.session.inbound side).capacity = (env.session.inbound side).capacity ∧
        (env'.session.inbound side).readData =
          (env.session.inbound side).readData ++ FluxGate.received side calls := by
    intro env env' calls hwf hb hrec
    rw [hb, hrec, List.append_nil]
    exact ⟨ByteBuffer.makeWritable_wf hwf, ByteBuffer.makeWritable_capacity _,
      ByteBuffer.makeWritable_readData hwf⟩
  have hcall : ∀ (env : Env) res, (env.recvCall side res).session.inbound side =
      (env.session.inbound side).makeWritable := by
    intro env res
    simp [recvCall, record, makeWritable]
  induction h generalizing calls with
  | full p env _ =>
    have hnil : calls = [] := by simpa [makeWritable] using hlog
    exact hcompact hwf (by simp [makeWritable]) (by simp [hnil, FluxGate.received])
  | starved p env _ =>
    have hnil : calls = [] := by simpa [makeWritable] using hlog
    exact hcompact hwf (by simp [makeWritable]) (by simp [hnil, FluxGate.received])
  | data p env b data r env' _ rest ih =>
    obtain ⟨init, last, hrest, -⟩ := rest.calls
    have hcalls : calls = .recv side (env.room side) (.ok (b :: data)) :: (init ++ last) := by
      rw [hrest] at hlog
      simpa [received, recvCall, record, makeWritable] using hlog.symm
    have hroom : (b :: data).length ≤ env.room side :=
      hrange (.recv side (env.room side) (.ok (b :: data))) (by simp [hcalls])
    have hfit : (b :: data).length ≤ (env.session.inbound side).makeWritable.writableBytes := by
      simpa [room, makeWritable] using hroom
    have hmw := ByteBuffer.makeWritable_wf hwf
    have hnew : ((env.recvCall side (.ok (b :: data))).received side (b :: data)
        now).session.inbound side = (env.session.inbound side).makeWritable.append (b :: data) := by
      simp [received, hcall]
    have hwf' := ByteBuffer.append_wf hfit hmw
    obtain ⟨h1, h2, h3⟩ := ih hrest (fun c hc => hrange c (by simp [hcalls, hc])) (hnew ▸ hwf')
    refine ⟨h1, ?_, ?_⟩
    · rw [h2, hnew, ByteBuffer.append_capacity hfit hmw, ByteBuffer.makeWritable_capacity]
    · rw [h3, hnew, ByteBuffer.append_readData _ hmw, ByteBuffer.makeWritable_readData hwf, hcalls]
      simp [FluxGate.received, Call.bytesFrom]
  | eof p env _ =>
    have hcalls : calls = [.recv side (env.room side) (.ok [])] := by
      simpa [recvCall, record, makeWritable] using hlog.symm
    exact hcompact hwf (hcall env _) (by simp [hcalls, FluxGate.received, Call.bytesFrom])
  | eintr p env r env' _ rest ih =>
    obtain ⟨init, last, hrest, -⟩ := rest.calls
    have hcalls : calls = .recv side (env.room side) (.error .eintr) :: (init ++ last) := by
      rw [hrest] at hlog
      simpa [recvCall, record, makeWritable] using hlog.symm
    obtain ⟨h1, h2, h3⟩ := ih hrest (fun c hc => hrange c (by simp [hcalls, hc]))
      (hcall env _ ▸ ByteBuffer.makeWritable_wf hwf)
    refine ⟨h1, ?_, ?_⟩
    · rw [h2, hcall, ByteBuffer.makeWritable_capacity]
    · rw [h3, hcall, ByteBuffer.makeWritable_readData hwf, hcalls]
      simp [FluxGate.received, Call.bytesFrom]
  | again p env e _ _ =>
    have hcalls : calls = [.recv side (env.room side) (.error e)] := by
      simpa [recvCall, record, makeWritable] using hlog.symm
    exact hcompact hwf (hcall env _) (by simp [hcalls, FluxGate.received, Call.bytesFrom])
  | fail p env e _ _ _ =>
    have hcalls : calls = [.recv side (env.room side) (.error e)] := by
      simpa [recvCall, record, makeWritable] using hlog.symm
    exact hcompact hwf (hcall env _) (by simp [hcalls, FluxGate.received, Call.bytesFrom])

/-- A read loop that reports neither an end nor an error has filled the buffer, or was told to wait. -/
theorem ReadLoop.stops {side : Side} {now : Nat} {p : Bool} {env env' : Env} {r : Option IoResult} {res : IoResult}
    (h : ReadLoop side now p env r env') (hr : r = some res) (hclosed : res ≠ .closed) (herror : res ≠ .error) :
    ((env'.session.inbound side).readIndex = 0 ∧ (env'.session.inbound side).writableBytes = 0) ∨
      ∃ init length e, env'.log = env.log ++ (init ++ [.recv side length (.error e)]) ∧ e.again = true := by
  induction h with
  | full p env hroom =>
    have hfull : (env.session.inbound side).makeWritable.writableBytes = 0 := by
      simpa [room, makeWritable] using hroom
    refine Or.inl ?_
    simpa [makeWritable] using ⟨ByteBuffer.makeWritable_readIndex hfull, hfull⟩
  | starved p env _ => cases hr
  | data p env b data r env' _ _ ih =>
    refine (ih hr).imp id ?_
    rintro ⟨init, length, e, hlog, he⟩
    exact ⟨.recv side (env.room side) (.ok (b :: data)) :: init, length, e, by
      simpa [received, recvCall, record, makeWritable] using hlog, he⟩
  | eof p env _ => exact absurd (Option.some.inj hr).symm hclosed
  | eintr p env r env' _ _ ih =>
    refine (ih hr).imp id ?_
    rintro ⟨init, length, e, hlog, he⟩
    exact ⟨.recv side (env.room side) (.error .eintr) :: init, length, e, by
      simpa [recvCall, record, makeWritable] using hlog, he⟩
  | again p env e he _ => exact Or.inr ⟨[], env.room side, e, rfl, he⟩
  | fail p env e _ _ _ => exact absurd (Option.some.inj hr).symm herror

/-- A read loop does not look at answers beyond its end. -/
theorem readInto_append {side : Side} {now : Nat} {p : Bool} {answers more : List RecvResult}
    {env env' : Env} {r : IoResult} (h : env.readInto side now p answers = (some r, env')) :
    env.readInto side now p (answers ++ more) = (some r, env') := by
  induction answers generalizing p env with
  | nil =>
    unfold readInto at h ⊢
    split at h
    · rename_i hroom
      rw [if_pos hroom]
      exact h
    · cases h
  | cons a rest ih =>
    rw [List.cons_append]
    unfold readInto at h ⊢
    split at h
    · rename_i hroom
      rw [if_pos hroom]
      exact h
    · rename_i hroom
      rw [if_neg hroom]
      cases a with
      | ok data =>
        cases data with
        | nil => exact h
        | cons b data => exact ih h
      | error e =>
        dsimp only at h ⊢
        split at h
        · rename_i he
          rw [if_pos he]
          exact ih h
        · rename_i he
          rw [if_neg he]
          exact h

/-- Each `recv` that stored bytes used up free space. -/
theorem readInto_moved_le {side : Side} {now : Nat} {p : Bool} {answers : List RecvResult} {env : Env}
    {calls : List Call} (ht : Trace (Recvs side) (.error .eintr) p answers env
      (env.readInto side now p answers).2 (env.readInto side now p answers).1 calls)
    (hwf : (env.session.inbound side).WF) (hrange : ∀ c ∈ calls, c.InRange) :
    calls.countP (fun c => !c.quiet) ≤
      (env.session.inbound side).capacity - (env.session.inbound side).readableBytes := by
  have hcount : calls.countP (fun c => !c.quiet) ≤ (FluxGate.received side calls).length := by
    refine countP_le_length_flatMap fun c hc hmoved => ?_
    obtain ⟨a, length, -, rfl⟩ := ht.asked hc
    cases a with
    | ok data => simpa [Call.quiet, Call.bytesFrom] using hmoved
    | error e => cases hmoved
  obtain ⟨hwf', hcap, hdata⟩ := (readInto_loop side now p answers env).content ht.log hrange hwf
  have hle := ByteBuffer.readData_length_le hwf'
  rw [hcap, hdata, List.length_append, ByteBuffer.readData_length hwf] at hle
  omega

/-- More answers than free space, not counting `EINTR`, end the loop. -/
theorem readInto_returns (side : Side) (now : Nat) (answers : List RecvResult) (p : Bool) (env : Env)
    (hwf : (env.session.inbound side).WF)
    (hn : (env.session.inbound side).capacity - (env.session.inbound side).readData.length <
      answers.countP (fun r => r ≠ .error .eintr))
    (hrange : env.InRangeSince (env.readInto side now p answers).2) :
    (env.readInto side now p answers).1 ≠ none := by
  obtain ⟨calls, ht⟩ := readInto_trace side now p answers env
  intro hnone
  have hle := readInto_moved_le ht hwf (hrange calls ht.log)
  rw [← ht.starved hnone, ← ByteBuffer.readData_length hwf] at hle
  exact absurd hn (Nat.not_lt.mpr hle)

end Env

/-! ## `writeFrom` -/

/-- A call of `send` on `side`, answered by `a`. -/
def Sends (side : Side) (c : Call) (a : SendResult) : Prop := ∃ data, c = .send side data a

namespace Env

/-- An empty buffer is reported as progress, with or without a call. -/
theorem writeFrom_trace (side : Side) (now : Nat) (p : Bool) (answers : List SendResult) (env : Env) :
    ∃ calls, Trace (Sends side) (.error .eintr) (p || (env.session.outbound side).empty) answers env
      (env.writeFrom side now p answers).2 (env.writeFrom side now p answers).1 calls := by
  induction answers generalizing p env with
  | nil =>
    cases h : (env.session.outbound side).empty with
    | true =>
      simp only [writeFrom, h, ↓reduceIte, Bool.or_true]
      exact ⟨[], .leave rfl (.stalled (by simp) (by simp))⟩
    | false =>
      simp only [writeFrom, h, Bool.false_eq_true, ↓reduceIte]
      exact ⟨[], .stop rfl⟩
  | cons a rest ih =>
    cases h : (env.session.outbound side).empty with
    | true =>
      unfold writeFrom
      rw [if_pos h, Bool.or_true]
      exact ⟨[], .leave rfl (.stalled (by simp) (by simp))⟩
    | false =>
      have hask : Sends side (.send side (env.session.outbound side).readData a) a := ⟨_, rfl⟩
      unfold writeFrom
      rw [if_neg (by simp [h]), Bool.or_false]
      cases a with
      | ok n =>
        cases n with
        | zero => exact ⟨_, .last rfl hask rfl (.eof rfl rfl)⟩
        | succ n =>
          obtain ⟨calls, ht⟩ := ih true ((env.sendCall side (.ok (n + 1))).sent side (n + 1) now)
          exact ⟨_, ht.cons (by simp [Call.quiet]) rfl hask rfl rfl (by simp [Call.quiet])⟩
      | error e =>
        dsimp only
        split
        · rename_i he
          subst he
          obtain ⟨calls, ht⟩ := ih p (env.sendCall side (.error .eintr))
          have hsame : ((env.sendCall side (.error .eintr)).session.outbound side).empty = false := h
          rw [hsame, Bool.or_false] at ht
          exact ⟨_, ht.cons (by simp [Call.quiet]) rfl hask rfl rfl (by simp [Call.quiet])⟩
        · rename_i hi
          split
          · rename_i he
            exact ⟨_, .last rfl hask rfl (.stalled (by simp [Call.isZero])
              (by simp [Call.isHard, Errno.hard, he]))⟩
          · rename_i he
            exact ⟨_, .last rfl hask rfl (.fail rfl (by simp [Call.isHard, Errno.hard, hi, he]))⟩

/-- What the calls of a write loop have taken from the buffer, and that each
was offered something. -/
theorem WriteLoop.content {side : Side} {now : Nat} {p : Bool} {env env' : Env}
    {r : Option IoResult} (h : WriteLoop side now p env r env') {calls : List Call}
    (hlog : env'.log = env.log ++ calls) (hrange : ∀ c ∈ calls, c.InRange)
    (hwf : (env.session.outbound side).WF) :
    (env'.session.outbound side).WF ∧
      (env.session.outbound side).readData =
        FluxGate.sent side calls ++ (env'.session.outbound side).readData ∧
      ∀ c ∈ calls, ∃ data result, c = .send side data result ∧ data ≠ [] := by
  -- a loop that is not left at once offers the unread bytes
  have hoffer : ∀ {env : Env}, (env.session.outbound side).WF →
      (env.session.outbound side).empty = false → (env.session.outbound side).readData ≠ [] := by
    intro env hwf hne hnil
    rw [(ByteBuffer.empty_iff hwf).mpr hnil] at hne
    cases hne
  -- a loop that ends with a call that moves nothing
  have hend : ∀ {env : Env} {result : SendResult} {calls : List Call},
      (env.session.outbound side).WF → (env.session.outbound side).empty = false →
      (env.sendCall side result).log = env.log ++ calls →
      (Call.send side (env.session.outbound side).readData result).quiet = true →
      ((env.sendCall side result).session.outbound side).WF ∧
        (env.session.outbound side).readData = FluxGate.sent side calls ++
          ((env.sendCall side result).session.outbound side).readData ∧
        ∀ c ∈ calls, ∃ data result, c = .send side data result ∧ data ≠ [] := by
    intro env result calls hwf hne hlog hquiet
    have hcalls : calls = [.send side (env.session.outbound side).readData result] := by
      simpa [sendCall, record] using hlog.symm
    refine ⟨hwf, ?_, ?_⟩
    · rw [hcalls, FluxGate.sent, List.flatMap_singleton, Call.bytesTo_of_quiet hquiet, List.nil_append]
      rfl
    · rw [hcalls]
      simpa using hoffer hwf hne
  induction h generalizing calls with
  | drained p env _ =>
    have hnil : calls = [] := by simpa using hlog
    exact ⟨hwf, by simp [hnil, FluxGate.sent], by simp [hnil]⟩
  | starved p env _ =>
    have hnil : calls = [] := by simpa using hlog
    exact ⟨hwf, by simp [hnil, FluxGate.sent], by simp [hnil]⟩
  | data p env n r env' hne rest ih =>
    obtain ⟨more, hrest, -⟩ := rest.calls
    have hcalls : calls = .send side (env.session.outbound side).readData (.ok (n + 1)) :: more := by
      rw [hrest] at hlog
      simpa [sent, sendCall, record] using hlog.symm
    have hle : n + 1 ≤ (env.session.outbound side).readData.length :=
      hrange (.send side (env.session.outbound side).readData (.ok (n + 1))) (by simp [hcalls])
    have hread : n + 1 ≤ (env.session.outbound side).readableBytes :=
      ByteBuffer.readData_length hwf ▸ hle
    have hnew : ((env.sendCall side (.ok (n + 1))).sent side (n + 1) now).session.outbound side =
        (env.session.outbound side).consume (n + 1) := by
      simp [ProxySession.outbound, sent, sendCall, record]
    obtain ⟨h1, h2, h3⟩ := ih hrest (fun c hc => hrange c (by simp [hcalls, hc]))
      (hnew ▸ ByteBuffer.consume_wf hread hwf)
    refine ⟨h1, ?_, ?_⟩
    · rw [hnew, ByteBuffer.consume_readData hread] at h2
      rw [hcalls, FluxGate.sent, List.flatMap_cons, List.append_assoc, ← FluxGate.sent, ← h2]
      simp [Call.bytesTo]
    · rw [hcalls]
      exact List.forall_mem_cons.mpr ⟨⟨_, _, rfl, hoffer hwf hne⟩, h3⟩
  | zero p env hne => exact hend hwf hne hlog rfl
  | eintr p env r env' hne rest ih =>
    obtain ⟨more, hrest, -⟩ := rest.calls
    have hcalls : calls = .send side (env.session.outbound side).readData (.error .eintr) :: more := by
      rw [hrest] at hlog
      simpa [sendCall, record] using hlog.symm
    obtain ⟨h1, h2, h3⟩ := ih hrest (fun c hc => hrange c (by simp [hcalls, hc])) hwf
    refine ⟨h1, ?_, ?_⟩
    · rw [hcalls]
      exact h2
    · rw [hcalls]
      exact List.forall_mem_cons.mpr ⟨⟨_, _, rfl, hoffer hwf hne⟩, h3⟩
  | again p env e _ hne => exact hend hwf hne hlog rfl
  | fail p env e _ _ hne => exact hend hwf hne hlog rfl

/-- A write loop that reports neither an end nor an error has sent everything, or was told to wait. -/
theorem WriteLoop.stops {side : Side} {now : Nat} {p : Bool} {env env' : Env} {r : Option IoResult} {res : IoResult}
    (h : WriteLoop side now p env r env') (hr : r = some res) (hclosed : res ≠ .closed) (herror : res ≠ .error) :
    (env'.session.outbound side).empty = true ∨
      ∃ init data e, env'.log = env.log ++ (init ++ [.send side data (.error e)]) ∧ e.again = true := by
  induction h with
  | drained p env hempty => exact Or.inl hempty
  | starved p env _ => cases hr
  | data p env n r env' _ _ ih =>
    refine (ih hr).imp id ?_
    rintro ⟨init, data, e, hlog, he⟩
    exact ⟨.send side (env.session.outbound side).readData (.ok (n + 1)) :: init, data, e, by
      simpa [sent, sendCall, record] using hlog, he⟩
  | zero p env _ => exact absurd (Option.some.inj hr).symm hclosed
  | eintr p env r env' _ _ ih =>
    refine (ih hr).imp id ?_
    rintro ⟨init, data, e, hlog, he⟩
    exact ⟨.send side (env.session.outbound side).readData (.error .eintr) :: init, data, e, by
      simpa [sendCall, record] using hlog, he⟩
  | again p env e he _ => exact Or.inr ⟨[], _, e, rfl, he⟩
  | fail p env e _ _ _ => exact absurd (Option.some.inj hr).symm herror

/-- A write loop does not look at answers beyond its end. -/
theorem writeFrom_append {side : Side} {now : Nat} {p : Bool} {answers more : List SendResult}
    {env env' : Env} {r : IoResult} (h : env.writeFrom side now p answers = (some r, env')) :
    env.writeFrom side now p (answers ++ more) = (some r, env') := by
  induction answers generalizing p env with
  | nil =>
    unfold writeFrom at h ⊢
    split at h
    · rename_i hempty
      rw [if_pos hempty]
      exact h
    · cases h
  | cons a rest ih =>
    rw [List.cons_append]
    unfold writeFrom at h ⊢
    split at h
    · rename_i hempty
      rw [if_pos hempty]
      exact h
    · rename_i hempty
      rw [if_neg hempty]
      cases a with
      | ok n =>
        cases n with
        | zero => exact h
        | succ n => exact ih h
      | error e =>
        dsimp only at h ⊢
        split at h
        · rename_i he
          rw [if_pos he]
          exact ih h
        · rename_i he
          rw [if_neg he]
          exact h

/-- Each `send` that took bytes took unsent ones. -/
theorem writeFrom_moved_le {side : Side} {now : Nat} {p moved : Bool} {answers : List SendResult}
    {env : Env} {calls : List Call} (ht : Trace (Sends side) (.error .eintr) moved answers env
      (env.writeFrom side now p answers).2 (env.writeFrom side now p answers).1 calls)
    (hwf : (env.session.outbound side).WF) (hrange : ∀ c ∈ calls, c.InRange) :
    calls.countP (fun c => !c.quiet) ≤ (env.session.outbound side).readableBytes := by
  obtain ⟨-, hdata, hoffered⟩ := (writeFrom_loop side now p answers env).content ht.log hrange hwf
  have hcount : calls.countP (fun c => !c.quiet) ≤ (FluxGate.sent side calls).length := by
    refine countP_le_length_flatMap fun c hc hmoved => ?_
    obtain ⟨data, result, rfl, hne⟩ := hoffered c hc
    cases result with
    | ok n =>
      have hn : n ≠ 0 := by simpa [Call.quiet] using hmoved
      simp [Call.bytesTo, hn, hne]
    | error e => cases hmoved
  rw [← ByteBuffer.readData_length hwf, hdata, List.length_append]
  omega

/-- More answers than unsent bytes, not counting `EINTR`, end the loop. -/
theorem writeFrom_returns (side : Side) (now : Nat) (answers : List SendResult) (p : Bool) (env : Env)
    (hwf : (env.session.outbound side).WF)
    (hn : (env.session.outbound side).readData.length <
      answers.countP (fun r => r ≠ .error .eintr))
    (hrange : env.InRangeSince (env.writeFrom side now p answers).2) :
    (env.writeFrom side now p answers).1 ≠ none := by
  obtain ⟨calls, ht⟩ := writeFrom_trace side now p answers env
  intro hnone
  have hle := writeFrom_moved_le ht hwf (hrange calls ht.log)
  rw [← ht.starved hnone, ← ByteBuffer.readData_length hwf] at hle
  exact absurd hn (Nat.not_lt.mpr hle)

end Env

/-! ## Termination and faithful reports -/

/-- What is known of a call of `readInto` on the stream `recvs`: it returns `r`
in `env'`, having made `calls`. -/
structure ReadReport (side : Side) (now : Nat) (recvs : Nat → RecvResult) (env : Env) (r : IoResult)
    (env' : Env) (calls : List Call) : Prop where
  returns : ∃ m, ∀ m', m ≤ m' →
    env.readInto side now false ((List.range m').map recvs) = (some r, env')
  log : env'.log = env.log ++ calls
  asked : ∀ (i : Nat) (c : Call), calls[i]? = some c →
    ∃ length, 0 < length ∧ c = .recv side length (recvs i)
  bounded : calls.countP (fun c => !c.quiet) ≤
    (env.session.inbound side).capacity - (env.session.inbound side).readableBytes
  closed : r = .closed ↔ ∃ length, .recv side length (.ok []) ∈ calls
  error : r = .error ↔ ∃ length e, .recv side length (.error e) ∈ calls ∧ e ≠ .eintr ∧ e.again = false
  wouldBlock : r = .wouldBlock ↔ r ≠ .closed ∧ r ≠ .error ∧ received side calls = []
  progress : r = .progress ↔ r ≠ .closed ∧ r ≠ .error ∧ received side calls ≠ []
  content : (env'.session.inbound side).readData =
    (env.session.inbound side).readData ++ received side calls
  /-- otherwise it goes on until the buffer is full or the last answer is `EAGAIN` -/
  stops : r ≠ .closed → r ≠ .error →
    (env'.session.inbound side).readData.length = (env'.session.inbound side).capacity ∨
      ∃ length e, calls.getLast? = some (.recv side length (.error e)) ∧ e.again = true

/-- The same of a call of `writeFrom` on the stream `sends`. -/
structure WriteReport (side : Side) (now : Nat) (sends : Nat → SendResult) (env : Env) (r : IoResult)
    (env' : Env) (calls : List Call) : Prop where
  returns : ∃ m, ∀ m', m ≤ m' →
    env.writeFrom side now false ((List.range m').map sends) = (some r, env')
  log : env'.log = env.log ++ calls
  asked : ∀ (i : Nat) (c : Call), calls[i]? = some c →
    ∃ data, 0 < data.length ∧ c = .send side data (sends i)
  bounded : calls.countP (fun c => !c.quiet) ≤ (env.session.outbound side).readableBytes
  closed : r = .closed ↔ ∃ data, .send side data (.ok 0) ∈ calls
  error : r = .error ↔ ∃ data e, .send side data (.error e) ∈ calls ∧ e ≠ .eintr ∧ e.again = false
  wouldBlock : r = .wouldBlock ↔ r ≠ .closed ∧ r ≠ .error ∧ sent side calls = [] ∧
    (env.session.outbound side).empty = false
  progress : r = .progress ↔ r ≠ .closed ∧ r ≠ .error ∧
    (sent side calls ≠ [] ∨ (env.session.outbound side).empty = true)
  content : (env.session.outbound side).readData =
    sent side calls ++ (env'.session.outbound side).readData
  /-- otherwise it goes on until the buffer is empty or the last answer is `EAGAIN` -/
  stops : r ≠ .closed → r ≠ .error → (env'.session.outbound side).empty = true ∨
    ∃ data e, calls.getLast? = some (.send side data (.error e)) ∧ e.again = true

section Reports

variable {side : Side} {now : Nat} {env : Env}

/-- The remaining case of a report. -/
theorem Reported.progress {moved : Bool} {calls : List Call} {r : IoResult} (h : Reported moved calls r) :
    r = .progress ↔ r ≠ .closed ∧ r ≠ .error ∧ moved = true := by
  have hw := h.wouldBlock
  cases r <;> cases moved <;> simp_all

/-- The answer a call got, in a stream. -/
theorem getElem?_firsts {α : Type} {f : Nat → α} {m i : Nat} {a : α}
    (h : ((List.range m).map f)[i]? = some a) : a = f i := by
  rw [List.getElem?_map, Option.map_eq_some_iff] at h
  obtain ⟨j, hj, rfl⟩ := h
  rw [List.getElem?_eq_some_iff] at hj
  obtain ⟨_, rfl⟩ := hj
  rw [List.getElem_range]

theorem firsts_append {α : Type} (f : Nat → α) {m m' : Nat} (h : m ≤ m') :
    ∃ more, (List.range m').map f = (List.range m).map f ++ more := by
  obtain ⟨k, rfl⟩ := Nat.exists_eq_add_of_le h
  rw [List.range_add, List.map_append]
  exact ⟨_, rfl⟩

/-- Nothing was received by calls that moved nothing. -/
theorem received_eq_nil_iff {calls : List Call} (h : ∀ c ∈ calls, ∃ a, Recvs side c a) :
    received side calls = [] ↔ (calls.any fun c => !c.quiet) = false := by
  rw [received, List.flatMap_eq_nil_iff, List.any_eq_false]
  refine forall₂_congr fun c hc => ?_
  obtain ⟨a, length, -, rfl⟩ := h c hc
  cases a with
  | ok data => simp [Call.bytesFrom, Call.quiet]
  | error e => simp [Call.bytesFrom, Call.quiet]

theorem recv_zero_iff {calls : List Call} (h : ∀ c ∈ calls, ∃ a, Recvs side c a) :
    (∃ c ∈ calls, c.isZero = true) ↔ ∃ length, .recv side length (.ok []) ∈ calls := by
  constructor
  · rintro ⟨c, hc, hz⟩
    obtain ⟨a, length, -, rfl⟩ := h c hc
    cases a with
    | ok data =>
      have hnil : data = [] := by simpa [Call.isZero] using hz
      exact ⟨length, hnil ▸ hc⟩
    | error e => cases hz
  · rintro ⟨length, hc⟩
    exact ⟨_, hc, rfl⟩

theorem recv_hard_iff {calls : List Call} (h : ∀ c ∈ calls, ∃ a, Recvs side c a) :
    (∃ c ∈ calls, c.isHard = true) ↔
      ∃ length e, .recv side length (.error e) ∈ calls ∧ e ≠ .eintr ∧ e.again = false := by
  constructor
  · rintro ⟨c, hc, hh⟩
    obtain ⟨a, length, -, rfl⟩ := h c hc
    cases a with
    | ok data => cases hh
    | error e => exact ⟨length, e, hc, by simpa [Call.isHard, Errno.hard] using hh⟩
  · rintro ⟨length, e, hc, hi, ha⟩
    exact ⟨_, hc, by simp [Call.isHard, Errno.hard, hi, ha]⟩

theorem sent_eq_nil_iff {calls : List Call}
    (h : ∀ c ∈ calls, ∃ data result, c = .send side data result ∧ data ≠ []) :
    sent side calls = [] ↔ (calls.any fun c => !c.quiet) = false := by
  rw [sent, List.flatMap_eq_nil_iff, List.any_eq_false]
  refine forall₂_congr fun c hc => ?_
  obtain ⟨data, result, rfl, hne⟩ := h c hc
  cases result with
  | ok n => simp [Call.bytesTo, Call.quiet, hne]
  | error e => simp [Call.bytesTo, Call.quiet]

theorem send_zero_iff {calls : List Call}
    (h : ∀ c ∈ calls, ∃ data result, c = .send side data result ∧ data ≠ []) :
    (∃ c ∈ calls, c.isZero = true) ↔ ∃ data, .send side data (.ok 0) ∈ calls := by
  constructor
  · rintro ⟨c, hc, hz⟩
    obtain ⟨data, a, rfl, -⟩ := h c hc
    cases a with
    | ok n =>
      have hzero : n = 0 := by simpa [Call.isZero] using hz
      exact ⟨data, hzero ▸ hc⟩
    | error e => cases hz
  · rintro ⟨data, hc⟩
    exact ⟨_, hc, rfl⟩

theorem send_hard_iff {calls : List Call}
    (h : ∀ c ∈ calls, ∃ data result, c = .send side data result ∧ data ≠ []) :
    (∃ c ∈ calls, c.isHard = true) ↔
      ∃ data e, .send side data (.error e) ∈ calls ∧ e ≠ .eintr ∧ e.again = false := by
  constructor
  · rintro ⟨c, hc, hh⟩
    obtain ⟨data, a, rfl, -⟩ := h c hc
    cases a with
    | ok n => cases hh
    | error e => exact ⟨data, e, hc, by simpa [Call.isHard, Errno.hard] using hh⟩
  · rintro ⟨data, e, hc, hi, ha⟩
    exact ⟨_, hc, by simp [Call.isHard, Errno.hard, hi, ha]⟩

theorem readInto_reports (hwf : (env.session.inbound side).WF) {recvs : Nat → RecvResult}
    (hfair : ∀ i, ∃ j, i ≤ j ∧ recvs j ≠ .error .eintr)
    (hrange : ∀ m, env.InRangeSince (env.readInto side now false ((List.range m).map recvs)).2) :
    ∃ r env' calls, ReadReport side now recvs env r env' calls := by
  obtain ⟨m, hm⟩ := exists_lt_countP (p := fun r => decide (r ≠ RecvResult.error .eintr)) (f := recvs)
    (fun i => (hfair i).imp fun j hj => ⟨hj.1, by simpa using hj.2⟩)
    ((env.session.inbound side).capacity - (env.session.inbound side).readData.length)
  have hret := Env.readInto_returns side now _ false env hwf hm (hrange m)
  obtain ⟨calls, ht⟩ := Env.readInto_trace side now false ((List.range m).map recvs) env
  obtain ⟨r, hr⟩ := Option.ne_none_iff_exists'.mp hret
  have hin := hrange m calls ht.log
  have hrep := ht.report r hr
  have hasked : ∀ c ∈ calls, ∃ a, Recvs side c a := fun c hc => ht.asked hc
  rw [Bool.false_or] at hrep
  have hmoved : received side calls ≠ [] ↔ (calls.any fun c => !c.quiet) = true := by
    rw [Ne, received_eq_nil_iff hasked, Bool.not_eq_false]
  have hloop := Env.readInto_loop side now false ((List.range m).map recvs) env
  obtain ⟨hwf', -, hdata⟩ := hloop.content ht.log hin hwf
  refine ⟨r, _, calls, ⟨m, fun m' hm' => ?_⟩, ht.log, fun i c hc => ?_,
    Env.readInto_moved_le ht hwf hin, hrep.closed.trans (recv_zero_iff hasked),
    hrep.error.trans (recv_hard_iff hasked), ?_, ?_, hdata, fun hclosed herror => ?_⟩
  · obtain ⟨more, hmore⟩ := firsts_append recvs hm'
    rw [hmore]
    exact Env.readInto_append (Prod.ext hr rfl)
  · obtain ⟨a, ha, length, hpos, rfl⟩ := ht.answered i c hc
    exact ⟨length, hpos, by rw [getElem?_firsts ha]⟩
  · rw [hrep.wouldBlock, received_eq_nil_iff hasked]
  · rw [hrep.progress, hmoved]
  · rcases hloop.stops hr hclosed herror with ⟨hread, hwrite⟩ | ⟨init, length, e, hlog, he⟩
    · have hbounded := hwf'.bounded
      refine Or.inl ?_
      rw [ByteBuffer.readData_length hwf']
      simp only [ByteBuffer.writableBytes, ByteBuffer.readableBytes, ByteBuffer.capacity] at hwrite ⊢
      omega
    · rw [ht.log] at hlog
      exact Or.inr ⟨length, e, by rw [List.append_cancel_left hlog, List.getLast?_concat], he⟩

theorem writeFrom_reports (hwf : (env.session.outbound side).WF) {sends : Nat → SendResult}
    (hfair : ∀ i, ∃ j, i ≤ j ∧ sends j ≠ .error .eintr)
    (hrange : ∀ m, env.InRangeSince (env.writeFrom side now false ((List.range m).map sends)).2) :
    ∃ r env' calls, WriteReport side now sends env r env' calls := by
  obtain ⟨m, hm⟩ := exists_lt_countP (p := fun r => decide (r ≠ SendResult.error .eintr)) (f := sends)
    (fun i => (hfair i).imp fun j hj => ⟨hj.1, by simpa using hj.2⟩)
    (env.session.outbound side).readData.length
  have hret := Env.writeFrom_returns side now _ false env hwf hm (hrange m)
  obtain ⟨calls, ht⟩ := Env.writeFrom_trace side now false ((List.range m).map sends) env
  obtain ⟨r, hr⟩ := Option.ne_none_iff_exists'.mp hret
  have hin := hrange m calls ht.log
  have hrep := ht.report r hr
  have hloop := Env.writeFrom_loop side now false ((List.range m).map sends) env
  obtain ⟨-, hdata, hoffered⟩ := hloop.content ht.log hin hwf
  rw [Bool.false_or] at hrep
  have hmoved : sent side calls ≠ [] ↔ (calls.any fun c => !c.quiet) = true := by
    rw [Ne, sent_eq_nil_iff hoffered, Bool.not_eq_false]
  refine ⟨r, _, calls, ⟨m, fun m' hm' => ?_⟩, ht.log, fun i c hc => ?_,
    Env.writeFrom_moved_le ht hwf hin, hrep.closed.trans (send_zero_iff hoffered),
    hrep.error.trans (send_hard_iff hoffered), ?_, ?_, hdata, fun hclosed herror => ?_⟩
  · obtain ⟨more, hmore⟩ := firsts_append sends hm'
    rw [hmore]
    exact Env.writeFrom_append (Prod.ext hr rfl)
  · obtain ⟨a, ha, data, rfl⟩ := ht.answered i c hc
    obtain ⟨data', result, hsame, hne⟩ := hoffered _ (List.mem_of_getElem? hc)
    cases hsame
    exact ⟨data, List.length_pos_iff.mpr hne, by rw [getElem?_firsts ha]⟩
  · rw [hrep.wouldBlock, sent_eq_nil_iff hoffered, Bool.or_eq_false_iff,
      and_comm (a := (env.session.outbound side).empty = false)]
  · rw [hrep.progress, hmoved, Bool.or_eq_true, or_comm]
  · refine (hloop.stops hr hclosed herror).imp id ?_
    rintro ⟨init, data, e, hlog, he⟩
    rw [ht.log] at hlog
    exact ⟨data, e, by rw [List.append_cancel_left hlog, List.getLast?_concat], he⟩

/-- **The transfer loops terminate and report faithfully**: on every stream of
answers in range in which `EINTR` does not repeat forever. -/
theorem transfers_report (side : Side) (now : Nat) (env : Env)
    (hin : (env.session.inbound side).WF) (hout : (env.session.outbound side).WF)
    (recvs : Nat → RecvResult) (sends : Nat → SendResult)
    (hrecvs : ∀ i, ∃ j, i ≤ j ∧ recvs j ≠ .error .eintr)
    (hsends : ∀ i, ∃ j, i ≤ j ∧ sends j ≠ .error .eintr)
    (hrecvRange : ∀ m, env.InRangeSince (env.readInto side now false ((List.range m).map recvs)).2)
    (hsendRange : ∀ m, env.InRangeSince (env.writeFrom side now false ((List.range m).map sends)).2) :
    (∃ r env' calls, ReadReport side now recvs env r env' calls) ∧
      ∃ r env' calls, WriteReport side now sends env r env' calls :=
  ⟨readInto_reports hin hrecvs hrecvRange, writeFrom_reports hout hsends hsendRange⟩

namespace Demo

/-- A session with two unsent bytes of the client and three for it, in buffers of four bytes. -/
def partlyFull : Env :=
  .start (((ProxySession.new 1 6 7 false 0 4 0).setInbound .client ⟨[5, 6, 0, 0], 0, 2⟩).setOutbound .client
    ⟨[0, 1, 2, 3], 1, 4⟩) (.new ⟨"app", "127.0.0.1", 9001, 1⟩) .new

/-- One byte at a time, and every other call is interrupted. -/
def recvs (i : Nat) : RecvResult := if i % 2 = 0 then .error .eintr else .ok [7]

/-- Two bytes, an interrupted call, and then nothing more is taken. -/
def sends : Nat → SendResult
  | 0 => .ok 2
  | 1 => .error .eintr
  | _ => .error .eagain

/-- What the first answers of a stream decide, all of it decides. -/
theorem inRange_of_firsts {α : Type} {f : Nat → α} (run : List α → Option IoResult × Env) (m₀ : Nat) {env : Env}
    {r : IoResult} {env' : Env} (hrun : run ((List.range m₀).map f) = (some r, env'))
    (happend : ∀ {answers more : List α} {r : IoResult} {env' : Env}, run answers = (some r, env') →
      run (answers ++ more) = (some r, env'))
    (hend : env.InRangeSince env') (hfirst : ∀ m < m₀, env.InRangeSince (run ((List.range m).map f)).2) (m : Nat) :
    env.InRangeSince (run ((List.range m).map f)).2 := by
  rcases Nat.lt_or_ge m m₀ with hlt | hge
  · exact hfirst m hlt
  · obtain ⟨more, hmore⟩ := firsts_append f hge
    rw [hmore, happend hrun]
    exact hend

theorem inRangeSince_start {s : ProxySession} {backend : Backend} {metrics : Metrics} {env' : Env}
    (h : ∀ c ∈ env'.log, c.InRange) : (Env.start s backend metrics).InRangeSince env' := by
  intro calls hlog
  rw [hlog] at h
  exact h

end Demo

/-- Interrupted calls on buffers that are partly full: the reader fills its buffer, the writer is told to wait
with one byte left. -/
theorem transfers_report_interrupted :
    (∃ r env' calls, ReadReport .client 0 Demo.recvs Demo.partlyFull r env' calls) ∧
      ∃ r env' calls, WriteReport .client 0 Demo.sends Demo.partlyFull r env' calls := by
  refine transfers_report .client 0 Demo.partlyFull ⟨by decide, by decide, by decide⟩
    ⟨by decide, by decide, by decide⟩ _ _ (fun i => ⟨2 * i + 1, by omega, by simp [Demo.recvs]⟩)
    (fun i => ⟨i + 2, by omega, by simp [Demo.sends]⟩) ?_ ?_
  · have hfirst : ∀ m < 4, ∀ c ∈ (Demo.partlyFull.readInto .client 0 false ((List.range m).map Demo.recvs)).2.log,
        c.InRange := by decide
    exact Demo.inRange_of_firsts (Demo.partlyFull.readInto .client 0 false) 4 rfl Env.readInto_append
      (Demo.inRangeSince_start (by decide)) fun m hm => Demo.inRangeSince_start (hfirst m hm)
  · have hfirst : ∀ m < 3, ∀ c ∈ (Demo.partlyFull.writeFrom .client 0 false ((List.range m).map Demo.sends)).2.log,
        c.InRange := by decide
    exact Demo.inRange_of_firsts (Demo.partlyFull.writeFrom .client 0 false) 3 rfl Env.writeFrom_append
      (Demo.inRangeSince_start (by decide)) fun m hm => Demo.inRangeSince_start (hfirst m hm)

end Reports

end FluxGate
