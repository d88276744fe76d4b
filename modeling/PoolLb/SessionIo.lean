import PoolLb.ReactorCalls

/-!
# Reading and writing the sockets of a session

The functions of `src/net/reactor.cpp` that move bytes between the sockets of a
session and its queues, and those that keep its timer.
-/

namespace PoolLb

open Interaction Handler

/-- `IoResult`: what was read, or how much was written. -/
inductive IoResult (α : Type) where
  | data (value : α)
  | retryRead
  | retryWrite
  | closed
  | error

namespace Session

def setTls (s : Session) (operation : TlsOperation) (direction : IoDirection) : Session :=
  { s with tlsOperation := operation, tlsDirection := direction }

def clearTls (s : Session) : Session := { s with tlsOperation := .none }

/-- An `SSL_read` that a signal interrupted is to be repeated. -/
def interruptedRead (s : Session) : Session :=
  if s.tlsOperation ≠ .read then s.setTls .read .read else s

/-- An `SSL_write` of `size` bytes that has to be repeated. -/
def retryWrite (s : Session) (direction : IoDirection) (size : Nat) : Session :=
  { s.setTls .write direction with clientWriteRetryBytes := size }

/-- An `SSL_write` that a signal interrupted is to be repeated. -/
def interruptedWrite (s : Session) (size : Nat) : Session :=
  if s.tlsOperation ≠ .write then s.retryWrite .write size
  else { s with clientWriteRetryBytes := size }

/-- How much `write_client` offers to `SSL_write`. -/
def sslWriteSize (s : Session) : Nat :=
  if s.clientWriteRetryBytes > 0 then s.clientWriteRetryBytes
  else min s.toClient.size kMaximumBytesPerReadyEvent

def touch (s : Session) (now : Nat) : Session := { s with lastActivity := now }

end Session

/-- What a pending TLS operation waits for. -/
def retryIn (direction : IoDirection) : IoResult α :=
  match direction with
  | .read => .retryRead
  | .write => .retryWrite

/-- `read_client` on a TLS stream. -/
def readClientTls : SessionM (IoResult Chunk) := do
  let s ← current
  match ← query (.sslRead s.id) with
  | .data chunk => do
      modify Session.clearTls
      pure (.data chunk)
  | .wantRead => do
      modify Session.clearTls
      pure .retryRead
  | .wantWrite => do
      modify (Session.setTls · .read .write)
      pure .retryWrite
  | .zeroReturn => pure .closed
  | .interrupted => do
      modify Session.interruptedRead
      let s ← current
      pure (retryIn s.tlsDirection)
  | .failed => pure .error

/-- `read_client` on a plain socket. -/
def readClientPlain : SessionM (IoResult Chunk) := do
  let s ← current
  match ← query (.recvClient s.client) with
  | .data chunk => pure (.data chunk)
  | .closed => pure .closed
  | .retry => pure .retryRead
  | .failed => pure .error

/-- `read_client`. -/
def readClient : SessionM (IoResult Chunk) := do
  let s ← current
  if s.ssl then readClientTls else readClientPlain

/-- `write_client` on a TLS stream, with something to write. -/
def writeClientTls : SessionM (IoResult Nat) := do
  let s ← current
  match ← query (.sslWrite s.id (s.toClient.bytes.take s.sslWriteSize)) with
  | .wrote count => do
      modify fun s => { s.clearTls with
        toClient := s.toClient.consume count, clientWriteRetryBytes := 0 }
      pure (.data count)
  | .wantRead => do
      modify (Session.retryWrite · .read s.sslWriteSize)
      pure .retryRead
  | .wantWrite => do
      modify (Session.retryWrite · .write s.sslWriteSize)
      pure .retryWrite
  | .interrupted => do
      modify (Session.interruptedWrite · s.sslWriteSize)
      let s ← current
      pure (retryIn s.tlsDirection)
  | .failed => pure .error

/-- `write_client` on a plain socket, with something to write. -/
def writeClientPlain : SessionM (IoResult Nat) := do
  let s ← current
  match ← query (.sendClient s.client (s.toClient.bytes.take kMaximumBytesPerReadyEvent)) with
  | .sent count => do
      modify fun s => { s with toClient := s.toClient.consume count }
      pure (.data count)
  | .retry => pure .retryWrite
  | .failed => pure .error

/-- `write_client`. -/
def writeClient : SessionM (IoResult Nat) := do
  let s ← current
  if s.toClient.isEmpty then pure (.data 0)
  else if s.ssl then writeClientTls
  else writeClientPlain

/-- `write_upstream`. -/
def writeUpstream : SessionM (IoResult Nat) := do
  let s ← current
  if s.toUpstream.isEmpty then pure (.data 0)
  else
    match ← query (.sendUpstream s.upstream
        (s.toUpstream.bytes.take kMaximumBytesPerReadyEvent)) with
    | .sent count => do
        modify fun s => { s with toUpstream := s.toUpstream.consume count }
        pure (.data count)
    | .retry => pure .retryWrite
    | .failed => pure .error

/-- Bytes have left a queue: they no longer count, and the session is active. -/
def releaseWritten (size : Nat) : SessionM Unit :=
  if size > 0 then do
    query (.releaseQueuedBytes size)
    let now ← query .now
    modify (Session.touch · now)
  else pure ()

/-- `flush_client`. -/
def flushClient : SessionM Unit := do
  match ← writeClient with
  | .error => stop .clientWriteFailed
  | .closed => stop .clientWriteFailed
  | .data size => releaseWritten size
  | .retryRead => pure ()
  | .retryWrite => pure ()

/-- One write to the upstream, as `client_ready` and `upstream_ready` make it. -/
def pushUpstream : SessionM Unit := do
  match ← writeUpstream with
  | .error => stop .upstreamWriteFailed
  | .closed => stop .upstreamWriteFailed
  | .data size => releaseWritten size
  | .retryRead => pure ()
  | .retryWrite => pure ()

/-- The loop of `flush_upstream_queue`; every round empties the queue by at
least one byte, so its size is fuel enough. -/
def flushRounds : Nat → SessionM Unit
  | 0 => pure ()
  | rounds + 1 => do
      let s ← current
      if s.upstream.isSome ∧ ¬ s.toUpstream.isEmpty then
        match ← writeUpstream with
        | .data size =>
            if size = 0 then pure ()
            else do
              query (.releaseQueuedBytes size)
              flushRounds rounds
        | .retryRead => pure ()
        | .retryWrite => pure ()
        | .closed => pure ()
        | .error => pure ()
      else pure ()

/-- `flush_upstream_queue`. -/
def flushUpstreamQueue : SessionM Unit := do
  let s ← current
  flushRounds s.toUpstream.size

/-- `reserve_queued_bytes`. -/
def reserveQueuedBytes (use : QueueUse) : SessionM Bool := do
  if ← query (.reserveQueuedBytes use) then pure true
  else do
    query (.count .rejectedQueueLimit 1)
    pure false

/-- `schedule_timeout`. -/
def scheduleTimeout : SessionM Unit := do
  modify fun s => { s with timeoutGeneration := s.timeoutGeneration + 1 }
  let s ← current
  query (.scheduleTimer s.id s.timeoutGeneration s.timeoutDeadline)

/-- `drive_tls_handshake`. -/
def driveTlsHandshake : SessionM Unit := do
  let s ← current
  match ← query (.sslAccept s.id) with
  | .done => do
      let now ← query .now
      modify fun s => { s.clearTls with
        stage := .firstMessage
        deadline := afterSeconds now s.limits.firstMessageTimeoutSeconds }
      query (.count .tlsHandshakeSuccesses 1)
      query (.count .tlsHandshakeNanoseconds (now - s.tlsHandshakeStartedAt))
      scheduleTimeout
  | .wantRead => modify (Session.setTls · .handshake .read)
  | .wantWrite => modify (Session.setTls · .handshake .write)
  | .interrupted =>
      modify fun s => if s.tlsOperation ≠ .handshake then s.setTls .handshake .read else s
  | .failed => do
      query (.count .rejectedTls 1)
      stop .tlsFailed

end PoolLb
