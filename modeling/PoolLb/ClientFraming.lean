import PoolLb.UpstreamConnect

/-!
# From the bytes of a miner to lines for the pool

`read_from_client` takes chunks off the client socket within the budgets of the
session, and `process_client_bytes` cuts them into lines.  The lines that pass
validation stay at the head of `line_buffer`, up to a mark `consumed`, until
they are committed to the upstream queue in one piece; a refused line is cut
out of the buffer.
-/

namespace PoolLb

open Interaction Handler

/-- `commit_consumed`. -/
def commitConsumed (consumed : Nat) : SessionM Unit := do
  let s ← current
  if consumed = 0 then pure ()
  else if consumed > s.limits.maxBufferBytes ∨
      s.toUpstream.size > s.limits.maxBufferBytes - consumed then do
    query (.recordProtocolError .commitRefused .invalidShape)
    stop .queueLimit
  else
    modify fun s => { s with
      toUpstream := s.toUpstream.append (s.lineBuffer.take consumed)
      lineBuffer := s.lineBuffer.drop consumed }

/-- `discard_line_bytes`. -/
def discardLineBytes (count : Nat) : SessionM Unit := do
  modify fun s => { s with lineBuffer := s.lineBuffer.drop count }
  query (.releaseQueuedBytes count)

/-- `line_buffer.find('\n', start)`. -/
def findNewline (buffer : Bytes) (start : Nat) : Option Nat :=
  ((buffer.drop start).idxOf? kNewline).map fun index => start + index

/-- Give up on a session after a bad line: what was accepted before it is still
committed, if it fits, and the session is closed. -/
def commitAndStop (consumed : Nat) (exit : Exit) : SessionM Nat := do
  let _ ← attempt (commitConsumed consumed)
  stop exit

/-- The session takes note of an accepted line. -/
def Session.acceptLine (s : Session) (method : RequestMethod) : Session :=
  { s with
    consecutiveProtocolErrors := 0
    protocolState := Validator.recordRequest s.protocolState method }

variable (json : Glaze)

/-- The loop of `process_client_bytes` from the mark `consumed` on; it returns
the mark at which no further newline was found.  Each round passes or cuts out
at least one byte, so the bytes behind the mark are fuel enough. -/
def scanLines : Nat → Nat → SessionM Nat
  | 0, consumed => pure consumed
  | rounds + 1, consumed => do
      let s ← current
      match findNewline s.lineBuffer consumed with
      | none => pure consumed
      | some newline =>
          let lineSize := newline - consumed
          if lineSize > s.limits.maxLineBytes then do
            query (.recordProtocolError .oversizedLine .invalidShape)
            commitAndStop consumed .oversizedLine
          else
            let line := (s.lineBuffer.drop consumed).take lineSize
            match Validator.validateRequest json line s.protocolState s.runtime.protocol with
            | .error error => do
                query (.recordProtocolError .refusedLine error)
                if ¬ s.protocolState.receivedMessage then commitAndStop consumed .refusedLine
                else do
                  modify fun s => { s with
                    consecutiveProtocolErrors := s.consecutiveProtocolErrors + 1 }
                  if s.consecutiveProtocolErrors + 1 > kMaximumConsecutiveProtocolErrors then
                    commitAndStop consumed .refusedLine
                  else do
                    commitConsumed consumed
                    discardLineBytes (lineSize + 1)
                    scanLines rounds 0
            | .ok method => do
                modify (Session.acceptLine · method)
                if ¬ s.protocolState.receivedMessage then
                  match ← attempt beginUpstreamConnect with
                  | .error exit => commitAndStop (newline + 1) exit
                  | .ok () => scanLines rounds (newline + 1)
                else scanLines rounds (newline + 1)

/-- `append_line_bytes`. -/
def appendLineBytes (bytes : Bytes) : SessionM Unit := do
  if ← reserveQueuedBytes (.line bytes) then
    modify fun s => { s with lineBuffer := s.lineBuffer ++ bytes }
  else stop .queueBudget

/-- The size tests at the end of `process_client_bytes`. -/
def checkQueueSizes : SessionM Unit := do
  let s ← current
  if s.lineBuffer.length > s.limits.maxLineBytes then do
    query (.recordProtocolError .oversizedTail .invalidShape)
    stop .oversizedTail
  else if s.toUpstream.size > s.limits.maxBufferBytes then do
    query (.recordProtocolError .overfullQueue .invalidShape)
    stop .queueLimit
  else pure ()

/-- `process_client_bytes`. -/
def processClientBytes (bytes : Bytes) : SessionM Unit := do
  appendLineBytes bytes
  let s ← current
  let consumed ← scanLines json s.lineBuffer.length 0
  commitConsumed consumed
  checkQueueSizes

/-- The four tests of `read_from_client` on the traffic of a chunk, in order;
the later ones are not made if an earlier one fails. -/
def allowTraffic (bytes messages messagesThisEvent now : Nat) : SessionM Bool := do
  let s ← current
  if messages > s.limits.maxMessagesPerReadyEvent ∨
      messagesThisEvent > s.limits.maxMessagesPerReadyEvent - messages then pure false
  else do
    modify fun s => (s.consumeSessionTraffic bytes messages now).2
    if (s.consumeSessionTraffic bytes messages now).1 then
      query (.consumeTraffic s.admission bytes messages s.limits now)
    else pure false

/-- The client has closed its side: a line left unfinished is an error. -/
def closeClientRead : SessionM Bool := do
  modify fun s => { s.clearTls with clientReadClosed := true }
  let s ← current
  if s.lineBuffer ≠ [] then do
    query (.recordProtocolError .truncatedLine .invalidShape)
    stop .truncatedLine
  else pure false

/-- A chunk has been read: account for it and cut it into lines. -/
def takeChunk (chunk : Chunk) (messagesThisEvent : Nat) : SessionM Unit := do
  query (.count .clientBytes chunk.bytes.length)
  let now ← query .now
  modify (Session.touch · now)
  let messages := chunk.bytes.count kNewline
  if ← allowTraffic chunk.bytes.length messages messagesThisEvent now then
    processClientBytes json chunk.bytes
  else do
    query (.count .rejectedTrafficRate 1)
    stop .trafficLimit

/-- The loop of `read_from_client`; its result is `budget_exhausted`.  Every
chunk has at least one byte, so the byte budget is fuel enough. -/
def readRounds : Nat → Nat → Nat → SessionM Bool
  | 0, _, _ => pure true
  | rounds + 1, bytesThisEvent, messagesThisEvent => do
      match ← readClient with
      | .retryRead => pure false
      | .retryWrite => pure false
      | .closed => closeClientRead
      | .error => stop .clientReadFailed
      | .data chunk => do
          takeChunk json chunk messagesThisEvent
          let s ← current
          if s.toUpstream.size > queuePauseBytes s.limits then pure false
          else if bytesThisEvent + chunk.bytes.length ≥ kMaximumBytesPerReadyEvent then pure true
          else
            readRounds rounds (bytesThisEvent + chunk.bytes.length)
              (messagesThisEvent + chunk.bytes.count kNewline)

/-- `read_from_client`. -/
def readFromClient : SessionM Bool := readRounds json kMaximumBytesPerReadyEvent 0 0

/-! ## The fuel of the loops -/

variable {json}

/-- A newline that is found lies behind the mark and in the buffer. -/
theorem findNewline_lt {buffer : Bytes} {start newline : Nat}
    (h : findNewline buffer start = some newline) : start ≤ newline ∧ newline < buffer.length := by
  unfold findNewline at h
  obtain ⟨index, hindex, hnewline⟩ := Option.map_eq_some_iff.mp h
  have hlt : index < (buffer.drop start).length := by
    obtain ⟨hlt, _⟩ := List.findIdx?_eq_some_iff_getElem.mp hindex
    exact hlt
  rw [List.length_drop] at hlt
  omega

/-- Behind the end nothing is found. -/
theorem findNewline_none_of_le {buffer : Bytes} {start : Nat} (h : buffer.length ≤ start) :
    findNewline buffer start = none := by
  unfold findNewline
  rw [List.drop_eq_nil_of_le h]
  rfl

end PoolLb
