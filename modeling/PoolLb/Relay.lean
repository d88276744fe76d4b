import PoolLb.ClientFraming

/-!
# The handlers of a session

`client_ready` and `upstream_ready` react to the readiness of a socket,
`update_interests` sets the pause flags and arms epoll anew, and
`expire_timeouts` does with each expired session what `expireSession` does.
`Session.handle` is one such reaction as the reactor runs it.
-/

namespace PoolLb

open Interaction Handler

variable (json : Glaze)

/-! ## The client side -/

/-- A client event that cannot be used: the session ends if the event reports
an error or a hangup. -/
def stopIfGone (events : EventMask) : SessionM Unit :=
  if events.error ∨ events.hangup then stop .clientGone else pure ()

/-- `client_ready` while an `SSL_write` is pending. -/
def retryPendingWrite (events : EventMask) : SessionM Unit := do
  let s ← current
  if ¬ ioDirectionReady s.tlsDirection events then stopIfGone events
  else do
    flushClient
    let s ← current
    if s.upstreamReadClosed ∧ s.toClient.isEmpty then stop .drained
    else stopIfGone events

/-- The first write of the tail of `client_ready`. -/
def pushUpstreamIfRelay : SessionM Unit := do
  let s ← current
  if s.stage = .relay ∧ ¬ s.toUpstream.isEmpty then pushUpstream else pure ()

/-- The second write of the tail of `client_ready`. -/
def flushClientIfWritable (events : EventMask) : SessionM Unit := do
  let s ← current
  if events.writable ∧ s.tlsOperation = .none ∧ ¬ s.toClient.isEmpty then flushClient else pure ()

/-- The tests at the end of `client_ready`. -/
def clientChecks (events : EventMask) (readBudgetExhausted : Bool) : SessionM Unit := do
  let s ← current
  if s.upstreamReadClosed ∧ s.toClient.isEmpty then stop .drained
  else if events.error ∧ ¬ readBudgetExhausted then stop .clientGone
  else if events.hangup ∧ (s.clientReadClosed ∨ s.clientReadPaused) then stop .clientGone
  else if s.clientReadClosed ∧ s.stage = .firstMessage then stop .noFirstMessage
  else pure ()

/-- `client_ready` after the read. -/
def finishClientEvent (events : EventMask) (readBudgetExhausted : Bool) : SessionM Unit := do
  pushUpstreamIfRelay
  flushClientIfWritable events
  clientChecks events readBudgetExhausted

/-- The ordinary read of `client_ready`; its result is `read_budget_exhausted`. -/
def readIfReady (events : EventMask) : SessionM Bool := do
  let s ← current
  if s.tlsOperation = .none ∧ ¬ s.clientReadClosed ∧ ¬ s.clientReadPaused ∧
      (events.readable ∨ events.hangup ∨ events.readHangup) then readFromClient json
  else pure false

/-- `client_ready`. -/
def clientReady (events : EventMask) : SessionM Unit := do
  let s ← current
  if s.stage = .tlsHandshake then driveTlsHandshake
  else if s.tlsOperation = .write then retryPendingWrite events
  else if s.tlsOperation = .read then
    if ¬ ioDirectionReady s.tlsDirection events then stopIfGone events
    else do
      let exhausted ← readFromClient json
      finishClientEvent events exhausted
  else do
    let exhausted ← readIfReady json events
    finishClientEvent events exhausted

/-! ## The upstream side -/

/-- `append_queued` of bytes from the pool. -/
def queueForClient (chunk : Chunk) : SessionM Unit := do
  query (.count .upstreamBytes chunk.bytes.length)
  if ← reserveQueuedBytes (.fromPool chunk.bytes) then
    modify fun s => { s with toClient := s.toClient.append chunk.bytes }
  else stop .queueBudget

/-- The receive loop of `upstream_ready`; its result is `bytes_this_event`. -/
def recvRounds : Nat → Nat → SessionM Nat
  | 0, bytesThisEvent => pure bytesThisEvent
  | rounds + 1, bytesThisEvent => do
      let s ← current
      match ← query (.recvUpstream s.upstream) with
      | .closed => do
          modify fun s => { s with upstreamReadClosed := true }
          pure bytesThisEvent
      | .retry => pure bytesThisEvent
      | .failed => stop .upstreamReadFailed
      | .data chunk => do
          queueForClient chunk
          let s ← current
          let bytesThisEvent := bytesThisEvent + chunk.bytes.length
          if s.toClient.size > s.limits.maxBufferBytes then stop .queueLimit
          else if s.toClient.size > queuePauseBytes s.limits then pure bytesThisEvent
          else if bytesThisEvent ≥ kMaximumBytesPerReadyEvent then pure bytesThisEvent
          else recvRounds rounds bytesThisEvent

/-- The receiving part of `upstream_ready`. -/
def recvFromUpstream (events : EventMask) : SessionM Nat := do
  let s ← current
  if ¬ s.upstreamReadPaused ∧ (events.readable ∨ events.hangup ∨ events.readHangup) then do
    let bytesThisEvent ← recvRounds kMaximumBytesPerReadyEvent 0
    if bytesThisEvent > 0 then do
      let now ← query .now
      modify (Session.touch · now)
      pure bytesThisEvent
    else pure bytesThisEvent
  else pure 0

/-- The first write of `upstream_ready`. -/
def flushClientIfIdle : SessionM Unit := do
  let s ← current
  if s.tlsOperation = .none ∧ ¬ s.toClient.isEmpty then flushClient else pure ()

/-- The second write of `upstream_ready`. -/
def pushUpstreamIfWritable (events : EventMask) : SessionM Unit := do
  let s ← current
  if events.writable ∧ ¬ s.toUpstream.isEmpty then pushUpstream else pure ()

/-- The pool is gone: it gets what is queued for it, if it still reads, and the
session lives on while there is something left for the client. -/
def drainUpstream : SessionM Unit := do
  flushUpstreamQueue
  discardUpstream
  let s ← current
  if s.toClient.isEmpty then stop .drained else pure ()

/-- The end of `upstream_ready`: the pool is gone, or not. -/
def closeUpstreamRead (events : EventMask) : SessionM Unit := do
  modify fun s => { s with
    upstreamReadClosed := s.upstreamReadClosed || (s.upstreamReadPaused && events.hangup) }
  let s ← current
  if s.upstreamReadClosed then drainUpstream else pure ()

/-- `upstream_ready` on an established connection. -/
def upstreamRelay (events : EventMask) : SessionM Unit := do
  let bytesThisEvent ← recvFromUpstream events
  flushClientIfIdle
  pushUpstreamIfWritable events
  if events.error ∧ bytesThisEvent < kMaximumBytesPerReadyEvent then stop .upstreamError
  else closeUpstreamRead events

/-- A connect attempt that failed, in `upstream_ready`. -/
def retryUpstreamConnect : SessionM Unit := do
  let s ← current
  if s.queueLimitExceeded then stop .queueBudget
  else do
    recordUpstreamError
    discardUpstream
    let now ← query .now
    if now < s.upstreamOverallDeadline then startNextUpstreamConnect else stop .connectFailed

/-- `upstream_ready`. -/
def upstreamReady (events : EventMask) : SessionM Unit := do
  let s ← current
  if s.stage = .upstreamConnect then
    if ← finishUpstreamConnect then upstreamRelay events else retryUpstreamConnect
  else upstreamRelay events

/-! ## Pausing and arming -/

/-- What `refresh_read_pause` reads of the outside. -/
structure PressureReading where
  queued : Nat
  budget : Nat
  tlsBufferDrained : Bool

namespace Session

def sharedPressure (s : Session) (reading : PressureReading) : Bool :=
  reading.queued > (if s.sharedPressurePaused
    then reading.budget / kPercentWhole * kSharedQueueResumePercent
    else reading.budget / kPercentWhole * kSharedQueuePausePercent)

def clientQueueHigh (s : Session) : Bool :=
  s.toUpstream.size >
    (if s.clientQueueStalled then queueResumeBytes s.limits else queuePauseBytes s.limits)

def upstreamQueueHigh (s : Session) : Bool :=
  s.toClient.size >
    (if s.upstreamQueueStalled then queueResumeBytes s.limits else queuePauseBytes s.limits)

def clientPaused (s : Session) (reading : PressureReading) : Bool :=
  reading.tlsBufferDrained &&
    (s.clientQueueHigh || (s.sharedPressure reading && !s.toUpstream.isEmpty))

def upstreamPaused (s : Session) (reading : PressureReading) : Bool :=
  s.upstreamQueueHigh || (s.sharedPressure reading && !s.toClient.isEmpty)

/-- The flags `refresh_read_pause` sets. -/
def withPause (s : Session) (reading : PressureReading) : Session :=
  { s with
    sharedPressurePaused := s.sharedPressure reading
    clientQueueStalled := s.clientQueueHigh
    upstreamQueueStalled := s.upstreamQueueHigh
    clientReadPaused := s.clientPaused reading
    upstreamReadPaused := s.upstreamPaused reading }

def stalled (s : Session) : Bool := s.clientQueueStalled || s.upstreamQueueStalled

end Session

/-- `SSL_pending`, which a plain session has no need to ask. -/
def tlsBufferDrained : SessionM Bool := do
  let s ← current
  if s.ssl then do
    let pending ← query (.sslPending s.id)
    pure (pending = 0)
  else pure true

def readPressure : SessionM PressureReading := do
  let queued ← query .loadQueuedBytes
  let budget ← query .loadQueuedBytesLimit
  let drained ← tlsBufferDrained
  pure { queued := queued, budget := budget, tlsBufferDrained := drained }

def countWhen (condition : Bool) (counter : WorkerCounter) : SessionM Unit :=
  if condition then query (.count counter 1) else pure ()

/-- The counters `refresh_read_pause` bumps. -/
def countPauses (reading : PressureReading) : SessionM Unit := do
  let s ← current
  countWhen (s.clientQueueHigh && !s.clientQueueStalled) .clientReadsPaused
  countWhen (s.upstreamQueueHigh && !s.upstreamQueueStalled) .upstreamReadsPaused
  countWhen ((s.clientPaused reading || s.upstreamPaused reading) &&
    !(s.clientReadPaused || s.upstreamReadPaused) &&
    !s.clientQueueHigh && !s.upstreamQueueHigh) .sharedPressurePauses

/-- A stall that begins gets a deadline. -/
def beginStall : SessionM Unit := do
  let s ← current
  if s.stalled then do
    let now ← query .now
    modify fun s => { s with stallDeadline := now + kRelayStallTimeout }
  else pure ()

/-- `refresh_read_pause`. -/
def refreshReadPause : SessionM Unit := do
  let reading ← readPressure
  countPauses reading
  let before ← current
  modify (Session.withPause · reading)
  let s ← current
  if s.stalled = before.stalled then pure ()
  else do
    beginStall
    if s.stage = .relay then scheduleTimeout else pure ()

namespace Session

/-- The events the client socket is to be armed for. -/
def wantedClientEvents (s : Session) : EventMask :=
  let suppressed := s.clientReadClosed || (s.clientReadPaused && s.tlsOperation = .none)
  if ¬ s.clientReadClosed ∧ s.tlsOperation ≠ .none then
    { readable := s.tlsDirection = .read
      writable := s.tlsDirection = .write
      readHangup := !suppressed }
  else
    { readable := !suppressed
      writable := !s.toClient.isEmpty
      readHangup := !suppressed }

/-- The events an open upstream socket is to be armed for. -/
def wantedUpstreamEvents (s : Session) : EventMask :=
  if s.stage = .upstreamConnect then
    { writable := true, readHangup := !s.upstreamReadPaused }
  else
    { readable := !s.upstreamReadPaused
      writable := !s.toUpstream.isEmpty
      readHangup := !s.upstreamReadPaused }

end Session

def armClient : SessionM Unit := do
  let s ← current
  if s.wantedClientEvents = s.clientEvents then pure ()
  else if ← query (.epollModify s.client s.wantedClientEvents ⟨s.id, .client⟩) then
    modify fun s => { s with clientEvents := s.wantedClientEvents }
  else stop .interestFailed

def armUpstream : SessionM Unit := do
  let s ← current
  match s.upstream with
  | none => pure ()
  | some socket =>
      if s.wantedUpstreamEvents = s.upstreamEvents then pure ()
      else if ← query (.epollModify socket s.wantedUpstreamEvents ⟨s.id, .upstream⟩) then
        modify fun s => { s with upstreamEvents := s.wantedUpstreamEvents }
      else stop .interestFailed

/-- `update_interests`. -/
def updateInterests : SessionM Unit := do
  refreshReadPause
  armClient
  armUpstream

/-! ## Timeouts -/

/-- What `expire_timeouts` does with a session whose timer has fired. -/
def expireSession (now : Nat) : SessionM Unit := do
  let s ← current
  if now < s.timeoutDeadline then
    query (.scheduleTimer s.id s.timeoutGeneration s.timeoutDeadline)
  else if s.stage = .upstreamConnect then do
    recordUpstreamError
    discardUpstream
    if s.upstreamOverallDeadline ≤ now then stop .timedOut else startNextUpstreamConnect
  else if s.stage = .tlsHandshake then do
    query (.count .rejectedTls 1)
    stop .timedOut
  else stop .timedOut

/-- What can happen to a session. -/
inductive SessionEvent where
  | client (events : EventMask)
  | upstream (events : EventMask)
  | timeout (now : Nat)

/-- One reaction of the reactor on behalf of a session: the handler of a socket
event and then `update_interests`, or the expiry of its timer. -/
def Session.handle : SessionEvent → SessionM Unit
  | .client events => do
      clientReady json events
      updateInterests
  | .upstream events => do
      upstreamReady events
      updateInterests
  | .timeout now => expireSession now

end PoolLb
