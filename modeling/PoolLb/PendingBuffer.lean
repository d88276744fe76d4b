import Mathlib.Data.List.Basic
import Mathlib.Tactic.Common

/-!
# Relay queues

`PendingBuffer` (`src/net/pending_buffer.hpp`) is a string with a read offset.
Consuming moves the offset; the consumed bytes are dropped lazily, when an
append finds too many of them, and may be overwritten in place by a prepend.
`bytes` is what `data()` and `size()` expose.  The capacity of the string is
not modelled: `release_oversized_string` changes nothing else.
-/

namespace PoolLb

/-- Bytes in memory, on a socket or in a queue. -/
abbrev Bytes := List UInt8

instance : LawfulBEq Bytes := inferInstance

def kMaximumRetainedBufferBytes : Nat := 4096

/-- The offset of an empty string. -/
theorem start_of_nothing : 0 ≤ ([] : Bytes).length := Nat.le_refl 0

/-- `PendingBuffer`; the offset never leaves the string. -/
structure PendingBuffer where
  data : Bytes := []
  offset : Nat := 0
  offset_le : offset ≤ data.length := by first | exact start_of_nothing | exact Nat.zero_le _
deriving DecidableEq

namespace PendingBuffer

instance : Inhabited PendingBuffer := ⟨{}⟩

def isEmpty (buffer : PendingBuffer) : Bool := buffer.offset = buffer.data.length

def size (buffer : PendingBuffer) : Nat := buffer.data.length - buffer.offset

/-- The readable bytes, `data()` up to `size()`. -/
def bytes (buffer : PendingBuffer) : Bytes := buffer.data.drop buffer.offset

/-- `compact_if_needed`. -/
def compactIfNeeded (buffer : PendingBuffer) : PendingBuffer :=
  if buffer.offset > 0 ∧ (buffer.offset ≥ buffer.data.length / 2 ∨
      buffer.offset > kMaximumRetainedBufferBytes) then
    { data := buffer.data.drop buffer.offset, offset := 0, offset_le := Nat.zero_le _ }
  else buffer

def append (buffer : PendingBuffer) (bytes : Bytes) : PendingBuffer :=
  let compacted := buffer.compactIfNeeded
  { data := compacted.data ++ bytes
    offset := compacted.offset
    offset_le := by
      have := compacted.offset_le
      rw [List.length_append]
      omega }

/-- `prepend`: in place over consumed bytes if they suffice, else a new string. -/
def prepend (buffer : PendingBuffer) (bytes : Bytes) : PendingBuffer :=
  if bytes = [] then buffer
  else if buffer.offset ≥ bytes.length then
    { data := buffer.data.take (buffer.offset - bytes.length) ++ bytes ++
        buffer.data.drop buffer.offset
      offset := buffer.offset - bytes.length
      offset_le := by
        have := buffer.offset_le
        simp only [List.length_append, List.length_take, List.length_drop]
        omega }
  else { data := bytes ++ buffer.bytes, offset := 0, offset_le := Nat.zero_le _ }

def consume (buffer : PendingBuffer) (count : Nat) : PendingBuffer :=
  if h : count < buffer.size then
    { data := buffer.data
      offset := buffer.offset + count
      offset_le := by
        unfold size at h
        omega }
  else {}

variable (buffer : PendingBuffer)

@[simp] theorem length_bytes : buffer.bytes.length = buffer.size := List.length_drop

@[simp] theorem bytes_empty : ({} : PendingBuffer).bytes = [] := rfl

@[simp] theorem size_empty : ({} : PendingBuffer).size = 0 := rfl

/-- `empty()` is about what can be read. -/
theorem isEmpty_iff : buffer.isEmpty = true ↔ buffer.bytes = [] := by
  have := buffer.offset_le
  unfold isEmpty bytes
  rw [decide_eq_true_iff, List.drop_eq_nil_iff]
  omega

/-- So is its opposite. -/
theorem isEmpty_eq_false_iff : buffer.isEmpty = false ↔ buffer.bytes ≠ [] := by
  rw [← Bool.not_eq_true, Ne, not_congr buffer.isEmpty_iff]

@[simp] theorem bytes_compactIfNeeded : buffer.compactIfNeeded.bytes = buffer.bytes := by
  unfold compactIfNeeded
  split
  · rfl
  · rfl

/-- Appending puts the new bytes behind the readable ones. -/
@[simp] theorem bytes_append (bytes : Bytes) :
    (buffer.append bytes).bytes = buffer.bytes ++ bytes := by
  have hcompact := buffer.bytes_compactIfNeeded
  have hle := buffer.compactIfNeeded.offset_le
  unfold PendingBuffer.bytes at hcompact ⊢
  simp only [append]
  rw [List.drop_append_of_le_length hle, hcompact]

/-- Prepending puts the new bytes before the readable ones. -/
@[simp] theorem bytes_prepend (bytes : Bytes) :
    (buffer.prepend bytes).bytes = bytes ++ buffer.bytes := by
  unfold prepend
  split
  · rename_i hnil
    rw [hnil, List.nil_append]
  · split
    · rename_i hfits
      have hle := buffer.offset_le
      have hlength : (buffer.data.take (buffer.offset - bytes.length)).length =
          buffer.offset - bytes.length := by
        rw [List.length_take]
        omega
      unfold PendingBuffer.bytes
      dsimp only
      rw [List.append_assoc]
      exact List.drop_left' hlength
    · rfl

/-- Consuming drops from the front, and everything if asked for too much. -/
@[simp] theorem bytes_consume (count : Nat) :
    (buffer.consume count).bytes = buffer.bytes.drop count := by
  unfold consume
  split
  · unfold PendingBuffer.bytes
    rw [List.drop_drop]
  · rename_i hge
    have hlength : buffer.bytes.length ≤ count := by
      rw [length_bytes]
      omega
    rw [bytes_empty, List.drop_eq_nil_of_le hlength]

@[simp] theorem size_append (bytes : Bytes) :
    (buffer.append bytes).size = buffer.size + bytes.length := by
  rw [← length_bytes, bytes_append, List.length_append, length_bytes]

@[simp] theorem size_prepend (bytes : Bytes) :
    (buffer.prepend bytes).size = bytes.length + buffer.size := by
  rw [← length_bytes, bytes_prepend, List.length_append, length_bytes]

@[simp] theorem size_consume (count : Nat) :
    (buffer.consume count).size = buffer.size - count := by
  rw [← length_bytes, bytes_consume, List.length_drop, length_bytes]

end PendingBuffer

end PoolLb
