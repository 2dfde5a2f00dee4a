import Mathlib.Data.List.Basic
import Mathlib.Tactic.Common

/-!
# `ByteBuffer`: the fixed-capacity forwarding buffer

The storage is the vector allocated once per direction of a session; the two
cursors delimit the bytes received but not yet sent. `std::copy` in
`makeWritable` is modelled as the loop it is, one element at a time on the
array being overwritten, so that the overlap of source and target is real.

`WF` is the cursor invariant. Its last clause, that equal cursors are both
zero, is what makes an empty buffer fully writable (`writable_of_empty`).
-/

namespace FluxGate

abbrev Byte := UInt8

structure ByteBuffer where
  storage : List Byte
  readIndex : Nat
  writeIndex : Nat
  deriving DecidableEq, Repr

namespace ByteBuffer

def new (capacity : Nat) : ByteBuffer := ⟨List.replicate capacity 0, 0, 0⟩

def capacity (b : ByteBuffer) : Nat := b.storage.length

def readableBytes (b : ByteBuffer) : Nat := b.writeIndex - b.readIndex

/-- Tail space only; the space freed at the head does not count. -/
def writableBytes (b : ByteBuffer) : Nat := b.storage.length - b.writeIndex

def empty (b : ByteBuffer) : Bool := b.readableBytes == 0

/-- The range offered to `send`. -/
def readData (b : ByteBuffer) : List Byte := (b.storage.drop b.readIndex).take b.readableBytes

/-- `recv` storing `data` from `writeData()` on. -/
def storeAt (b : ByteBuffer) (data : List Byte) : ByteBuffer :=
  { b with storage :=
      b.storage.take b.writeIndex ++ data ++ b.storage.drop (b.writeIndex + data.length) }

def hasWritten (b : ByteBuffer) (bytes : Nat) : ByteBuffer :=
  { b with writeIndex := b.writeIndex + bytes }

def consume (b : ByteBuffer) (bytes : Nat) : ByteBuffer :=
  let readIndex := b.readIndex + bytes
  if readIndex = b.writeIndex then { b with readIndex := 0, writeIndex := 0 }
  else { b with readIndex := readIndex }

/-- `std::copy` of `n` elements, front to back. -/
def copyForward (storage : List Byte) (src dst : Nat) : Nat → List Byte
  | 0 => storage
  | n + 1 => copyForward (storage.set dst (storage.getD src 0)) (src + 1) (dst + 1) n

def makeWritable (b : ByteBuffer) : ByteBuffer :=
  if b.writableBytes = 0 ∧ 0 < b.readIndex then
    { storage := copyForward b.storage b.readIndex 0 b.readableBytes
      readIndex := 0
      writeIndex := b.readableBytes }
  else b

/-! ## The cursor invariant -/

structure WF (b : ByteBuffer) : Prop where
  ordered : b.readIndex ≤ b.writeIndex
  bounded : b.writeIndex ≤ b.storage.length
  reset : b.readIndex = b.writeIndex → b.writeIndex = 0

theorem new_wf (c : Nat) : (new c).WF := ⟨Nat.le_refl 0, Nat.zero_le _, fun _ => rfl⟩

@[simp] theorem new_capacity (c : Nat) : (new c).capacity = c := by simp [new, capacity]

@[simp] theorem new_readData (c : Nat) : (new c).readData = [] := by
  simp [new, readData, readableBytes]

theorem readData_length {b : ByteBuffer} (h : b.WF) : b.readData.length = b.readableBytes := by
  have := h.ordered
  have := h.bounded
  simp only [readData, readableBytes, List.length_take, List.length_drop]
  omega

theorem readData_length_le {b : ByteBuffer} (h : b.WF) : b.readData.length ≤ b.capacity := by
  have := h.bounded
  rw [readData_length h]
  unfold readableBytes capacity
  omega

theorem empty_iff {b : ByteBuffer} (h : b.WF) : b.empty = true ↔ b.readData = [] := by
  rw [← List.length_eq_zero_iff, readData_length h]
  simp [empty]

/-- An empty buffer has its cursors at zero, so all of it is tail space. -/
theorem writable_of_empty {b : ByteBuffer} (h : b.WF) (he : b.empty = true) :
    b.writableBytes = b.capacity := by
  have hr : b.readIndex = b.writeIndex := by
    have := h.ordered
    simp only [empty, readableBytes, beq_iff_eq] at he
    omega
  simp [writableBytes, capacity, h.reset hr]

/-! ## One lemma per operation -/

/-- `recv` of `data` into the tail, then `hasWritten`. -/
def append (b : ByteBuffer) (data : List Byte) : ByteBuffer :=
  (b.storeAt data).hasWritten data.length

theorem append_capacity {b : ByteBuffer} {data : List Byte} (hd : data.length ≤ b.writableBytes)
    (h : b.WF) : (b.append data).capacity = b.capacity := by
  have := h.bounded
  unfold writableBytes at hd
  simp only [append, hasWritten, storeAt, capacity, List.length_append, List.length_take,
    List.length_drop]
  omega

theorem append_wf {b : ByteBuffer} {data : List Byte} (hd : data.length ≤ b.writableBytes)
    (h : b.WF) : (b.append data).WF := by
  have hc := append_capacity hd h
  obtain ⟨h1, h2, h3⟩ := h
  unfold capacity at hc
  unfold writableBytes at hd
  refine ⟨?_, ?_, ?_⟩
  · show b.readIndex ≤ b.writeIndex + data.length
    omega
  · rw [hc]
    show b.writeIndex + data.length ≤ b.storage.length
    omega
  · show b.readIndex = b.writeIndex + data.length → b.writeIndex + data.length = 0
    omega

theorem append_readData {b : ByteBuffer} (data : List Byte) (h : b.WF) :
    (b.append data).readData = b.readData ++ data := by
  have h1 := h.ordered
  have h2 := h.bounded
  have hr : b.writeIndex + data.length - b.readIndex = b.readData.length + data.length := by
    rw [readData_length h]
    unfold readableBytes
    omega
  have hw : b.readIndex ≤ (b.storage.take b.writeIndex).length := by
    simp only [List.length_take]
    omega
  have hseg : (b.storage.take b.writeIndex).drop b.readIndex = b.readData := List.drop_take
  show ((b.storage.take b.writeIndex ++ data ++
    b.storage.drop (b.writeIndex + data.length)).drop b.readIndex).take
      (b.writeIndex + data.length - b.readIndex) = _
  rw [hr, List.append_assoc, List.drop_append_of_le_length hw, hseg, List.take_length_add_append,
    List.take_append_of_le_length (Nat.le_refl _), List.take_length]

theorem consume_capacity (b : ByteBuffer) (n : Nat) : (b.consume n).capacity = b.capacity := by
  simp only [consume]
  split <;> rfl

theorem consume_wf {b : ByteBuffer} {n : Nat} (hn : n ≤ b.readableBytes) (h : b.WF) :
    (b.consume n).WF := by
  obtain ⟨h1, h2, h3⟩ := h
  unfold readableBytes at hn
  simp only [consume]
  split
  · exact ⟨Nat.le_refl 0, Nat.zero_le _, fun _ => rfl⟩
  · rename_i hne
    refine ⟨?_, h2, ?_⟩
    · show b.readIndex + n ≤ b.writeIndex
      omega
    · intro he
      exact absurd he hne

theorem consume_readData {b : ByteBuffer} {n : Nat} (hn : n ≤ b.readableBytes) :
    (b.consume n).readData = b.readData.drop n := by
  unfold readableBytes at hn
  simp only [consume]
  split
  · rename_i he
    have : b.writeIndex - b.readIndex = n := by omega
    simp [readData, readableBytes, this]
  · simp only [readData, readableBytes, List.drop_take, List.drop_drop]
    congr 1
    omega

/-! ## In-place compaction -/

theorem copyForward_length (st : List Byte) (src dst n : Nat) :
    (copyForward st src dst n).length = st.length := by
  induction n generalizing st src dst with
  | zero => rfl
  | succ n ih => simp [copyForward, ih]

/-- Copying downwards never reads an element it has already overwritten. -/
theorem copyForward_getElem? (st : List Byte) (src dst n : Nat) (hle : dst ≤ src)
    (hsrc : src + n ≤ st.length) (i : Nat) :
    (copyForward st src dst n)[i]? =
      if dst ≤ i ∧ i < dst + n then st[src + (i - dst)]? else st[i]? := by
  induction n generalizing st src dst with
  | zero => rw [if_neg (by omega)]; rfl
  | succ n ih =>
    have hlen : src + 1 + n ≤ (st.set dst (st.getD src 0)).length := by
      rw [List.length_set]; omega
    have hget : st.getD src 0 = st[src] := by
      rw [List.getD_eq_getElem?_getD, List.getElem?_eq_getElem (by omega), Option.getD_some]
    rw [copyForward, ih _ _ _ (by omega) hlen]
    by_cases hi : i = dst
    · subst hi
      rw [if_neg (by omega), if_pos (by omega), hget,
        List.getElem?_set_self (by omega), Nat.sub_self, Nat.add_zero,
        List.getElem?_eq_getElem (by omega)]
    · by_cases hin : dst + 1 ≤ i ∧ i < dst + 1 + n
      · rw [if_pos hin, if_pos (by omega), List.getElem?_set_ne (by omega)]
        congr 1
        omega
      · rw [if_neg hin, if_neg (by omega), List.getElem?_set_ne (by omega)]

theorem makeWritable_of_writable {b : ByteBuffer} (h : b.writableBytes ≠ 0) :
    b.makeWritable = b := by
  unfold makeWritable
  rw [if_neg (fun hc => h hc.1)]

theorem makeWritable_capacity (b : ByteBuffer) : b.makeWritable.capacity = b.capacity := by
  unfold makeWritable
  split
  · exact copyForward_length _ _ _ _
  · rfl

theorem makeWritable_wf {b : ByteBuffer} (h : b.WF) : b.makeWritable.WF := by
  obtain ⟨h1, h2, h3⟩ := h
  unfold makeWritable
  split
  · refine ⟨Nat.zero_le _, ?_, fun he => he.symm⟩
    simp only [copyForward_length, readableBytes]
    omega
  · exact ⟨h1, h2, h3⟩

/-- Compaction keeps the unread bytes and their order. -/
theorem makeWritable_readData {b : ByteBuffer} (h : b.WF) :
    b.makeWritable.readData = b.readData := by
  obtain ⟨h1, h2, h3⟩ := h
  unfold makeWritable
  split
  · apply List.ext_getElem?
    intro i
    simp only [readData, readableBytes, Nat.sub_zero, List.drop_zero, List.getElem?_take,
      List.getElem?_drop]
    by_cases hi : i < b.writeIndex - b.readIndex
    · rw [if_pos hi, if_pos hi, copyForward_getElem? _ _ _ _ (Nat.zero_le _) (by omega),
        if_pos (by omega), Nat.sub_zero]
    · rw [if_neg hi, if_neg hi]
  · rfl

/-- After compaction there is tail space unless the buffer is full. -/
theorem makeWritable_writable_zero {b : ByteBuffer} (h : b.WF) :
    b.makeWritable.writableBytes = 0 ↔ b.readData.length = b.capacity := by
  rw [readData_length h]
  obtain ⟨h1, h2, h3⟩ := h
  unfold makeWritable
  split
  · rename_i hc
    obtain ⟨hw, hr⟩ := hc
    simp only [writableBytes, copyForward_length, readableBytes, capacity] at hw ⊢
    omega
  · rename_i hc
    simp only [writableBytes, readableBytes, capacity] at hc ⊢
    omega

/-- A buffer that is still without tail space begins at its head. -/
theorem makeWritable_readIndex {b : ByteBuffer} (h : b.makeWritable.writableBytes = 0) :
    b.makeWritable.readIndex = 0 := by
  unfold makeWritable at h ⊢
  split
  · rfl
  · rename_i hc
    rw [if_neg hc] at h
    omega

end ByteBuffer

end FluxGate
