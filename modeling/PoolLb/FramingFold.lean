import PoolLb.SessionRun

/-!
# Framing as a fold over lines

What `process_client_bytes` is for, without chunks, marks or buffers: cut the
stream of a miner at its newlines and fold over the lines.  A line is accepted
and passed on, or dropped, or ends the session.

The invariant `Framed` says that at every point of a handler the fold over all
that was read, continued in any way, is the fold from the session's present
state over what is left in the buffer, continued in the same way.
-/

namespace PoolLb

/-! ## The reference -/

/-- The lines of a stream, without their newlines, and what follows the last
newline. -/
def cutLines : Bytes → List Bytes × Bytes
  | [] => ([], [])
  | byte :: rest =>
      if byte = kNewline then ([] :: (cutLines rest).1, (cutLines rest).2)
      else match cutLines rest with
        | ([], tail) => ([], byte :: tail)
        | (line :: lines, tail) => ((byte :: line) :: lines, tail)

/-- What the fold knows: the protocol state, the run of refused lines, what was
passed on, and whether the session is over. -/
structure FramingState where
  protocol : ProtocolState := {}
  errors : Nat := 0
  emitted : Bytes := []
  closed : Bool := false

variable (json : Glaze) (runtime : RuntimeSnapshot)

/-- One line. -/
def FramingState.next (st : FramingState) (line : Bytes) : FramingState :=
  if st.closed then st
  else if line.length > runtime.limits.maxLineBytes then { st with closed := true }
  else match Validator.validateRequest json line st.protocol runtime.protocol with
    | .error _ =>
        if st.emitted = [] ∨ st.errors + 1 > kMaximumConsecutiveProtocolErrors then
          { st with closed := true }
        else { st with errors := st.errors + 1 }
    | .ok method =>
        { st with
          protocol := Validator.recordRequest st.protocol method
          errors := 0
          emitted := st.emitted ++ (line ++ [kNewline]) }

/-- The fold over a stream, begun in `st`; the tail has to be short enough. -/
def framingFrom (st : FramingState) (stream : Bytes) : FramingState :=
  let st' := (cutLines stream).1.foldl (FramingState.next json runtime) st
  if (cutLines stream).2.length > runtime.limits.maxLineBytes then { st' with closed := true }
  else st'

/-- The fold over the stream of a new session. -/
def framing (stream : Bytes) : FramingState := framingFrom json runtime {} stream

/-! ## Its equations -/

/-- The first line is cut off at its newline. -/
theorem cutLines_line {line : Bytes} (h : kNewline ∉ line) (rest : Bytes) :
    cutLines (line ++ kNewline :: rest) = (line :: (cutLines rest).1, (cutLines rest).2) := by
  induction line with
  | nil => simp [cutLines]
  | cons byte line ih =>
      have hbyte : byte ≠ kNewline := fun heq => h (heq ▸ List.mem_cons_self)
      have hline : kNewline ∉ line := fun hmem => h (List.mem_cons_of_mem _ hmem)
      rw [List.cons_append, cutLines, if_neg hbyte, ih hline]

/-- Without a newline there is nothing to cut. -/
theorem cutLines_tail {tail : Bytes} (h : kNewline ∉ tail) : cutLines tail = ([], tail) := by
  induction tail with
  | nil => rfl
  | cons byte tail ih =>
      have hbyte : byte ≠ kNewline := fun heq => h (heq ▸ List.mem_cons_self)
      have htail : kNewline ∉ tail := fun hmem => h (List.mem_cons_of_mem _ hmem)
      rw [cutLines, if_neg hbyte, ih htail]

variable {json runtime} {st : FramingState}

/-- A complete line is folded first. -/
theorem framingFrom_line {line : Bytes} (h : kNewline ∉ line) (rest : Bytes) :
    framingFrom json runtime st (line ++ kNewline :: rest) =
      framingFrom json runtime (st.next json runtime line) rest := by
  unfold framingFrom
  rw [cutLines_line h]
  rfl

/-- A short tail changes nothing. -/
theorem framingFrom_tail {tail : Bytes} (h : kNewline ∉ tail)
    (hshort : tail.length ≤ runtime.limits.maxLineBytes) :
    framingFrom json runtime st tail = st := by
  unfold framingFrom
  rw [cutLines_tail h]
  exact if_neg (Nat.not_lt.mpr hshort)

/-- After the end no line is looked at. -/
theorem FramingState.next_closed (h : st.closed = true) (line : Bytes) :
    st.next json runtime line = st := by
  unfold FramingState.next
  rw [if_pos h]

/-- What is closed stays as it is. -/
theorem framingFrom_closed (h : st.closed = true) (stream : Bytes) :
    framingFrom json runtime st stream = st := by
  have hfold (lines : List Bytes) : lines.foldl (FramingState.next json runtime) st = st := by
    induction lines with
    | nil => rfl
    | cons line lines ih => rw [List.foldl_cons, FramingState.next_closed h, ih]
  unfold framingFrom
  rw [hfold]
  split
  · rw [← h]
  · rfl

/-- A tail that is too long closes, however it goes on. -/
theorem framingFrom_longTail {tail : Bytes} (h : kNewline ∉ tail)
    (hlong : runtime.limits.maxLineBytes < tail.length) (hopen : st.closed = false)
    (more : Bytes) :
    framingFrom json runtime st (tail ++ more) = { st with closed := true } := by
  by_cases hmore : kNewline ∈ more
  · obtain ⟨before, after, rfl, hbefore⟩ := List.eq_append_cons_of_mem hmore
    have hline : kNewline ∉ tail ++ before := by
      rw [List.mem_append]
      exact fun hmem => hmem.elim h hbefore
    have hnext : st.next json runtime (tail ++ before) = { st with closed := true } := by
      unfold FramingState.next
      rw [hopen, if_neg Bool.false_ne_true, if_pos]
      rw [List.length_append]
      omega
    rw [← List.append_assoc, framingFrom_line hline, hnext, framingFrom_closed rfl]
  · have hnot : kNewline ∉ tail ++ more := by
      rw [List.mem_append]
      exact fun hmem => hmem.elim h hmore
    unfold framingFrom
    rw [cutLines_tail hnot]
    refine if_pos ?_
    rw [List.length_append]
    omega

/-- Nothing that was passed on is taken back. -/
theorem FramingState.next_emitted (st : FramingState) (line : Bytes) :
    st.emitted <+: (st.next json runtime line).emitted := by
  unfold FramingState.next
  split
  · exact List.prefix_rfl
  · split
    · exact List.prefix_rfl
    · split
      · split
        · exact List.prefix_rfl
        · exact List.prefix_rfl
      · exact List.prefix_append _ _

/-- What was emitted stays emitted. -/
theorem framingFrom_emitted (st : FramingState) (stream : Bytes) :
    st.emitted <+: (framingFrom json runtime st stream).emitted := by
  have hfold (lines : List Bytes) (st : FramingState) :
      st.emitted <+: (lines.foldl (FramingState.next json runtime) st).emitted := by
    induction lines generalizing st with
    | nil => exact List.prefix_rfl
    | cons line lines ih => exact (st.next_emitted line).trans (ih _)
  unfold framingFrom
  dsimp only
  split
  · exact hfold _ _
  · exact hfold _ _

/-! ## Where the newlines are -/

/-- `find` splits the buffer at the first newline behind the mark. -/
theorem findNewline_some {buffer : Bytes} {start newline : Nat}
    (h : findNewline buffer start = some newline) :
    buffer.drop start =
        (buffer.drop start).take (newline - start) ++ kNewline :: buffer.drop (newline + 1) ∧
      kNewline ∉ (buffer.drop start).take (newline - start) := by
  unfold findNewline at h
  obtain ⟨index, hindex, rfl⟩ := Option.map_eq_some_iff.mp h
  obtain ⟨hlt, hat, hbefore⟩ := List.findIdx?_eq_some_iff_getElem.mp hindex
  rw [Nat.add_sub_cancel_left]
  constructor
  · have hcons := List.drop_eq_getElem_cons hlt
    have hrest : (buffer.drop start).drop (index + 1) = buffer.drop (start + index + 1) := by
      rw [List.drop_drop, Nat.add_assoc]
    rw [beq_iff_eq.mp hat, hrest] at hcons
    rw [← hcons, List.take_append_drop]
  · intro hmem
    obtain ⟨position, hposition, heq⟩ := List.mem_take_iff_getElem.mp hmem
    have hfirst := hbefore position (by omega)
    rw [heq] at hfirst
    exact hfirst (beq_self_eq_true _)

/-- Where no newline is found there is none. -/
theorem findNewline_none {buffer : Bytes} {start : Nat} (h : findNewline buffer start = none) :
    kNewline ∉ buffer.drop start := by
  unfold findNewline at h
  rw [Option.map_eq_none_iff, List.idxOf?_eq_none_iff] at h
  exact h

end PoolLb
