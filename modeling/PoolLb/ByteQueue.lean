import PoolLb.Memory
import PoolLb.PendingBuffer

/-!
# Relay queues are queues

A relay queue is used through three operations.  On an abstract list of bytes they
are concatenation at either end and dropping from the front; a `PendingBuffer` does
them on a string with a read offset, of which the part before the offset is dead.
The readable part of the string is the abstract list after every sequence of
operations, whatever the string has kept.
-/

namespace PoolLb

/-- A use of a relay queue. -/
inductive QueueOp where
  | append (bytes : Bytes)
  | prepend (bytes : Bytes)
  | consume (count : Nat)
deriving DecidableEq, Repr

namespace QueueOp

/-- The operation on the list of queued bytes. -/
def onQueue (queue : Bytes) : QueueOp → Bytes
  | append bytes => queue ++ bytes
  | prepend bytes => bytes ++ queue
  | consume count => if count < queue.length then queue.drop count else []

/-- The operation on the buffer. -/
def onBuffer (buffer : PendingBuffer) : QueueOp → PendingBuffer
  | append bytes => buffer.append bytes
  | prepend bytes => buffer.prepend bytes
  | consume count => buffer.consume count

/-- **The buffer is a queue of bytes**, operation by operation. -/
theorem bytes_onBuffer (buffer : PendingBuffer) (op : QueueOp) :
    (onBuffer buffer op).bytes = onQueue buffer.bytes op := by
  cases op with
  | append bytes => exact buffer.bytes_append bytes
  | prepend bytes => exact buffer.bytes_prepend bytes
  | consume count =>
      rw [onBuffer, onQueue, buffer.bytes_consume]
      split
      · rfl
      · rename_i hall
        exact List.drop_eq_nil_of_le (by omega)

end QueueOp

namespace PendingBuffer

/-- A buffer after some operations on an empty one. -/
def after (ops : List QueueOp) : PendingBuffer := ops.foldl QueueOp.onBuffer {}

/-- The run of the buffer follows the run of the queue. -/
theorem bytes_foldl_onBuffer (ops : List QueueOp) (buffer : PendingBuffer) :
    (ops.foldl QueueOp.onBuffer buffer).bytes = ops.foldl QueueOp.onQueue buffer.bytes := by
  induction ops generalizing buffer with
  | nil => rfl
  | cons op rest ih => rw [List.foldl_cons, List.foldl_cons, ih, QueueOp.bytes_onBuffer]

variable (buffer : PendingBuffer)

/-- An append leaves few dead bytes: it drops them if they are many. -/
theorem offset_append_le (bytes : Bytes) :
    (buffer.append bytes).offset ≤ kMaximumRetainedBufferBytes := by
  have hsame : (buffer.append bytes).offset = buffer.compactIfNeeded.offset := rfl
  rw [hsame]
  unfold compactIfNeeded
  split
  · exact Nat.zero_le _
  · rename_i hkept
    by_cases hzero : buffer.offset = 0
    · rw [hzero]
      exact Nat.zero_le _
    · by_contra hmany
      exact hkept ⟨Nat.pos_of_ne_zero hzero, .inr (by omega)⟩

variable {buffer}

/-- A prepend that finds room is a copy into the string that is there. -/
theorem store_prepend {bytes : Bytes} (hsome : bytes ≠ []) (hroom : bytes.length ≤ buffer.offset) :
    Memory.store buffer.data (buffer.offset - bytes.length) bytes =
      some (buffer.prepend bytes).data := by
  have hle := buffer.offset_le
  have hend : buffer.offset - bytes.length + bytes.length = buffer.offset := by omega
  rw [Memory.store_of_fits (by omega), hend]
  unfold prepend
  rw [if_neg hsome, if_pos hroom]

/-- The bytes such a prepend changes had been consumed. -/
theorem prepend_writes_consumed {bytes : Bytes} (hsome : bytes ≠ [])
    (hroom : bytes.length ≤ buffer.offset) {index : Nat}
    (hchanged : (buffer.prepend bytes).data[index]? ≠ buffer.data[index]?) :
    buffer.offset - bytes.length ≤ index ∧ index < buffer.offset := by
  have hstore := store_prepend hsome hroom
  constructor
  · by_contra hbefore
    exact hchanged (Memory.getElem?_of_store_of_lt hstore (by omega))
  · by_contra hbehind
    exact hchanged (Memory.getElem?_of_store hstore (by omega))

/-- **A relay queue refines a byte queue.**  After any sequence of operations the
readable bytes are those of the abstract queue, and the offset is inside the string.
From there a prepend that finds room copies within the string and changes consumed
bytes only, and an append leaves at most `kMaximumRetainedBufferBytes` dead bytes. -/
theorem after_refines_queue (ops : List QueueOp) :
    (after ops).bytes = ops.foldl QueueOp.onQueue [] ∧
    (after ops).bytes.length = (after ops).size ∧
    (after ops).offset ≤ (after ops).data.length ∧
    (∀ bytes : Bytes, bytes ≠ [] → bytes.length ≤ (after ops).offset →
      Memory.store (after ops).data ((after ops).offset - bytes.length) bytes =
          some ((after ops).prepend bytes).data ∧
        ∀ index, ((after ops).prepend bytes).data[index]? ≠ (after ops).data[index]? →
          index < (after ops).offset) ∧
    ∀ bytes : Bytes, (after (ops ++ [.append bytes])).offset ≤ kMaximumRetainedBufferBytes := by
  refine ⟨bytes_foldl_onBuffer ops {}, length_bytes _, (after ops).offset_le, ?_, ?_⟩
  · intro bytes hsome hroom
    exact ⟨store_prepend hsome hroom,
      fun index hchanged => (prepend_writes_consumed hsome hroom hchanged).2⟩
  · intro bytes
    have hlast : after (ops ++ [.append bytes]) = (after ops).append bytes := by
      unfold after
      rw [List.foldl_append]
      rfl
    rw [hlast]
    exact offset_append_le _ bytes

/-- Two of three bytes consumed, and one of them overwritten. -/
theorem after_refines_queue_overwritten :
    Memory.store [1, 2, 3] 1 [9] =
        some ((after [.append [1, 2, 3], .consume 2]).prepend [9]).data ∧
      ∀ index, ((after [.append [1, 2, 3], .consume 2]).prepend [9]).data[index]? ≠
        (after [.append [1, 2, 3], .consume 2]).data[index]? → index < 2 :=
  (after_refines_queue [.append [1, 2, 3], .consume 2]).2.2.2.1 [9] (by decide) (by decide)

end PendingBuffer

end PoolLb
