import FluxGate.ByteBuffer
import FluxGate.Lib.Pipe
import FluxGate.Lib.Run

/-!
# `ByteBuffer` refines a bounded queue of bytes

The abstract queue is a pipe that is pushed what `recv` stores and popped what
`send` takes; compaction is no operation of it. The buffer refines it along
every sequence of operations that keeps to the callers' promises: a write fits
into the tail space, and no more is consumed than there is.
-/

namespace FluxGate

open Lib

namespace ByteBuffer

/-- What a session does to a buffer; `write` is `recv` at `writeData()` and then `hasWritten`. -/
inductive Op where
  | write (data : List Byte)
  | consume (bytes : Nat)
  | makeWritable
  deriving DecidableEq, Repr

def exec (b : ByteBuffer) : Op → ByteBuffer
  | .write data => b.append data
  | .consume bytes => b.consume bytes
  | .makeWritable => b.makeWritable

/-- What the caller has to see to. -/
def Admits (b : ByteBuffer) : Op → Prop
  | .write data => data.length ≤ b.writableBytes
  | .consume bytes => bytes ≤ b.readableBytes
  | .makeWritable => True

instance (b : ByteBuffer) (op : Op) : Decidable (b.Admits op) :=
  match op with
  | .write data => inferInstanceAs (Decidable (data.length ≤ b.writableBytes))
  | .consume bytes => inferInstanceAs (Decidable (bytes ≤ b.readableBytes))
  | .makeWritable => .isTrue trivial

/-- The operation on the abstract queue. -/
def Op.onPipe (q : Pipe Byte) : Op → Pipe Byte
  | .write data => q.push data
  | .consume bytes => q.pop bytes
  | .makeWritable => q

/-- The queue after a sequence of operations. -/
def queue (ops : List Op) : Pipe Byte := ops.foldl Op.onPipe .empty

/-- A buffer of capacity `c` that holds what the queue holds. -/
structure Refines (c : Nat) (q : Pipe Byte) (b : ByteBuffer) : Prop where
  wf : b.WF
  capacity : b.capacity = c
  content : b.readData = q.held

theorem queue_snoc (ops : List Op) (op : Op) : queue (ops ++ [op]) = op.onPipe (queue ops) := by
  simp [queue, List.foldl_append]

theorem new_refines (c : Nat) : Refines c .empty (new c) :=
  ⟨new_wf c, new_capacity c, new_readData c⟩

/-- One operation. -/
theorem Refines.exec {c : Nat} {q : Pipe Byte} {b : ByteBuffer} {op : Op} (h : Refines c q b)
    (hop : b.Admits op) : Refines c (op.onPipe q) (b.exec op) := by
  cases op with
  | write data =>
    refine ⟨append_wf hop h.wf, (append_capacity hop h.wf).trans h.capacity, ?_⟩
    show (b.append data).readData = q.held ++ data
    rw [append_readData data h.wf, h.content]
  | consume bytes =>
    refine ⟨consume_wf hop h.wf, (consume_capacity b bytes).trans h.capacity, ?_⟩
    show (b.consume bytes).readData = q.held.drop bytes
    rw [consume_readData hop, h.content]
  | makeWritable =>
    refine ⟨makeWritable_wf h.wf, (makeWritable_capacity b).trans h.capacity, ?_⟩
    show b.makeWritable.readData = q.held
    rw [makeWritable_readData h.wf, h.content]

/-- Every sequence of operations. -/
theorem run_refines {c : Nat} {ops : List Op} {b : ByteBuffer}
    (hrun : Run (Guarded Admits fun b op b' => b' = b.exec op) (new c) ops b) :
    Refines c (queue ops) b := by
  induction hrun with
  | nil => exact new_refines c
  | snoc _ hstep ih =>
    obtain ⟨hop, rfl⟩ := hstep
    rw [queue_snoc]
    exact ih.exec hop

/-- The address handed to `send` is inside the storage. -/
theorem WF.readIndex_lt {b : ByteBuffer} (h : b.WF) (he : b.empty = false) :
    b.readIndex < b.storage.length := by
  have h1 := h.ordered
  have h2 := h.bounded
  simp only [empty, readableBytes, beq_eq_false_iff_ne, ne_eq] at he
  omega

/-- The address handed to `recv` is inside the storage. -/
theorem writeIndex_lt {b : ByteBuffer} (hw : 0 < b.writableBytes) :
    b.writeIndex < b.storage.length := by
  unfold writableBytes at hw
  omega

/-- **Refinement of a bounded queue.** After every admissible sequence of
operations on a new buffer of capacity `c` the cursors are in order and equal
only at zero, the bytes between them are the queue, compaction keeps them and
leaves no tail space only if the queue is full, and both data pointers are in
bounds where they are used. -/
theorem run_fifo (c : Nat) (ops : List Op) (b : ByteBuffer)
    (hrun : Run (Guarded Admits fun b op b' => b' = b.exec op) (new c) ops b) :
    b.storage.length = c ∧ b.readIndex ≤ b.writeIndex ∧ b.writeIndex ≤ c ∧
      (b.readIndex = b.writeIndex → b.readIndex = 0 ∧ b.writeIndex = 0) ∧
      b.readData = (queue ops).held ∧
      b.makeWritable.readData = (queue ops).held ∧
      (b.makeWritable.writableBytes = 0 ↔ (queue ops).held.length = c) ∧
      (b.empty = false → b.readIndex < b.storage.length) ∧
      (0 < b.writableBytes → b.writeIndex < b.storage.length) := by
  have h := run_refines hrun
  have hc : b.storage.length = c := h.capacity
  refine ⟨hc, h.wf.ordered, hc ▸ h.wf.bounded, ?_, h.content, ?_, ?_, h.wf.readIndex_lt, writeIndex_lt⟩
  · intro he
    have hzero := h.wf.reset he
    exact ⟨he.trans hzero, hzero⟩
  · rw [makeWritable_readData h.wf, h.content]
  · rw [makeWritable_writable_zero h.wf, h.content, h.capacity]

/-- A full buffer, one byte of which has been sent, is compacted. -/
theorem run_fifo_compacted : ∃ b : ByteBuffer,
    Run (Guarded Admits fun b op b' => b' = b.exec op) (new 3)
      [.write [1, 2, 3], .consume 1, .makeWritable] b ∧
    b.readData = [2, 3] ∧ b.makeWritable.writableBytes ≠ 0 := by
  have hrun : Run (Guarded Admits fun b op b' => b' = b.exec op) (new 3)
      ((([] ++ [.write [1, 2, 3]]) ++ [.consume 1]) ++ [.makeWritable]) _ :=
    ((Run.nil.snoc ⟨by decide, rfl⟩).snoc ⟨by decide, rfl⟩).snoc ⟨by decide, rfl⟩
  have h := run_fifo 3 _ _ hrun
  refine ⟨_, hrun, h.2.2.2.2.1, fun hz => ?_⟩
  exact absurd (h.2.2.2.2.2.2.1.mp hz) (by decide)

end ByteBuffer

end FluxGate
