import PoolLb.Relay

/-!
# The reactor of one worker

Accepting connections, dispatching events to sessions, expiring timers, closing
sessions and shutting down (`Reactor::Impl` in `src/net/reactor.cpp`).  The
sessions live in the worker's table; a handler takes a session out of it, works
on the record and stores it back, where the source works on it in place.

Listeners that are paused and rearmed are left out: whether `accept` is called
for a listener at all is up to the outside.
-/

namespace PoolLb

open Interaction

variable (json : Glaze)

def kMaximumAcceptsPerReadyEvent : Nat := 128

/-- Run a piece of session code and store the session back.  The result says
whether the code returned normally. -/
def onSession (s : Session) (code : SessionM Unit) : Prog reactorCalls Bool := do
  let outcome ← code s
  request (.storeSession outcome.2)
  match outcome.1 with
  | .ok () => pure true
  | .error _ => pure false

/-- `release_active_slot`. -/
def releaseActiveSlot : Prog reactorCalls Unit := do
  request .activeDecrement
  request .workerActiveDecrement

/-- `release_admission`. -/
def releaseAdmission (s : Session) : Prog reactorCalls Unit := do
  request (.releaseLease s.admission)
  releaseActiveSlot

/-- `flush_upstream_queue` at the start of `close_session`; whatever a write
answers, the session that comes out is the one to close. -/
def finalFlush (s : Session) : Prog reactorCalls Session :=
  if s.stage = .relay then do
    let outcome ← flushUpstreamQueue s
    request (.storeSession outcome.2)
    pure outcome.2
  else pure s

def leaveBackend (s : Session) : Prog reactorCalls Unit :=
  match s.backendCounted, s.backend with
  | true, some backend => request (.backendLeave backend.ref s.id)
  | _, _ => pure ()

def forgetSocket (socket : Option Nat) : Prog reactorCalls Unit :=
  match socket with
  | some upstream => request (.epollDelete upstream)
  | none => pure ()

def closeUpstreamSocket (socket : Option Nat) : Prog reactorCalls Unit :=
  match socket with
  | some upstream => request (.closeSocket upstream)
  | none => pure ()

/-- `close_session`. -/
def closeSession (id : Nat) : Prog reactorCalls Unit := do
  match ← request (.findSession id) with
  | none => pure ()
  | some found => do
      let s ← finalFlush found
      request (.epollDelete s.client)
      forgetSocket s.upstream
      leaveBackend s
      request (.cancelTimer id)
      request (.releaseQueuedBytes s.queuedBytes)
      releaseAdmission s
      request .closedIncrement
      request (.eraseSession id)
      request (.closeSocket s.client)
      closeUpstreamSocket s.upstream

/-- Close a session unless it is to be kept. -/
def closeUnless (keep : Bool) (id : Nat) : Prog reactorCalls Unit :=
  if keep then pure () else closeSession id

/-- One socket event of `dispatch_events`. -/
def dispatchEvent (id : Nat) (event : SessionEvent) : Prog reactorCalls Unit := do
  match ← request (.findSession id) with
  | none => pure ()
  | some s => do
      let keep ← onSession s (Session.handle json event)
      closeUnless keep id

/-- One expiry of `expire_timeouts`. -/
def expireOne (now : Nat) (expiry : TimerExpiry) : Prog reactorCalls Unit := do
  match ← request (.findSession expiry.sessionId) with
  | none => pure ()
  | some s =>
      if s.timeoutGeneration ≠ expiry.generation then pure ()
      else do
        let keep ← onSession s (expireSession now)
        closeUnless keep expiry.sessionId

def expireEach (now : Nat) : List TimerExpiry → Prog reactorCalls Unit
  | [] => pure ()
  | expiry :: rest => do
      expireOne now expiry
      expireEach now rest

/-- `expire_timeouts`. -/
def expireTimeouts (now : Nat) : Prog reactorCalls Unit := do
  let expired ← request (.advanceTimers now)
  expireEach now expired

/-- The sessions `shutdown` closes, one after the other; `rounds` bounds how
many there are. -/
def closeAll : Nat → Prog reactorCalls Unit
  | 0 => pure ()
  | rounds + 1 => do
      match ← request .anySession with
      | none => pure ()
      | some id => do
          closeSession id
          closeAll rounds

/-! ## Accepting -/

/-- The counter of a refused admission. -/
def refusalCounter : AdmissionResult → WorkerCounter
  | .concurrentLimit => .rejectedIpLimit
  | .globalRateLimit => .rejectedGlobalRate
  | .sourceCapacity => .rejectedSourceCapacity
  | _ => .rejectedRateLimit

/-- The record of a new session. -/
def freshSession (id client : Nat) (runtime : RuntimeSnapshot) (header : ProxyV2Header)
    (lease : Option Nat) (now : Nat) : Session where
  id := id
  client := client
  runtime := runtime
  proxyHeader := header
  admission := lease
  lastActivity := now

/-- A new session on a plain listener. -/
def Session.plain (s : Session) : Session :=
  { s with deadline := afterSeconds s.lastActivity s.limits.firstMessageTimeoutSeconds }

/-- A new session on a TLS listener. -/
def Session.tls (s : Session) : Session :=
  { s with
    ssl := true
    stage := .tlsHandshake
    tlsHandshakeStartedAt := s.lastActivity
    deadline := afterSeconds s.lastActivity s.limits.tlsHandshakeTimeoutSeconds }

/-- A new TLS session tries its handshake at once. -/
def firstHandshake : SessionM Unit := do
  driveTlsHandshake
  updateInterests

/-- Register a new session: in epoll, in the table, in the timer wheel. -/
def registerSession (s : Session) : Prog reactorCalls Unit := do
  if ← request (.epollAdd s.client { readable := true, readHangup := true } ⟨s.id, .client⟩) then do
    let _ ← request (.emplaceSession s)
    let _ ← onSession s scheduleTimeout
    request .acceptedIncrement
    match ← request (.findSession s.id) with
    | none => pure ()
    | some stored =>
        if stored.stage = .tlsHandshake then do
          let keep ← onSession stored firstHandshake
          closeUnless keep s.id
        else pure ()
  else do
    releaseAdmission s
    request (.closeSocket s.client)

/-- The TLS stream of a new session. -/
def createStream (listener client : Nat) : Prog reactorCalls Bool := do
  if ← request (.tlsContext listener) then request (.createServerStream client)
  else pure false

/-- A connection that was admitted becomes a session. -/
def openSession (listener : Nat) (tlsEnabled : Bool) (s : Session) : Prog reactorCalls Unit :=
  if tlsEnabled then do
    request (.count .tlsHandshakeAttempts 1)
    if ← createStream listener s.client then registerSession s.tls
    else do
      request (.count .rejectedTls 1)
      releaseAdmission s
      request (.closeSocket s.client)
  else registerSession s.plain

/-- A connection that holds a slot: name its ends and ask the rate limiter. -/
def admitConnection (listener : Nat) (tlsEnabled : Bool) (runtime : RuntimeSnapshot)
    (client : Nat) (peer : SockAddr) : Prog reactorCalls Unit := do
  match ← request (.getsockname client) with
  | none => do
      releaseActiveSlot
      request (.closeSocket client)
  | some localAddress => do
      let key := clientRateLimitKey peer runtime.limits.ipv6PrefixBits.toNat
      let admission ← request (.acquireLease key runtime.limits)
      request .publishTrackedClients
      if admission.result ≠ .accepted then do
        request (.count (refusalCounter admission.result) 1)
        releaseActiveSlot
        request (.closeSocket client)
      else do
        let id ← request .nextSessionId
        let now ← request .now
        openSession listener tlsEnabled
          (freshSession id client runtime (makeProxyV2Header peer localAddress) admission.lease now)

/-- A connection from `accept4`: the tentative slot, and what follows. -/
def acceptConnection (listener : Nat) (tlsEnabled : Bool) (runtime : RuntimeSnapshot)
    (client : Nat) (peer : SockAddr) : Prog reactorCalls Unit := do
  let priorActive ← request .activeIncrement
  if priorActive ≥ runtime.limits.maxConnections then do
    request .activeDecrement
    request (.count .rejectedGlobalLimit 1)
    request (.closeSocket client)
  else do
    request .workerActiveIncrement
    admitConnection listener tlsEnabled runtime client peer

/-- The loop of `accept_ready`. -/
def acceptRounds (listener : Nat) (tlsEnabled : Bool) (runtime : RuntimeSnapshot) :
    Nat → Prog reactorCalls Unit
  | 0 => pure ()
  | attempts + 1 => do
      match ← request (.accept listener) with
      | .interrupted => acceptRounds listener tlsEnabled runtime attempts
      | .noResources => pure ()
      | .nothing => pure ()
      | .accepted client peer => do
          acceptConnection listener tlsEnabled runtime client peer
          acceptRounds listener tlsEnabled runtime attempts

/-- `accept_ready`, on a registered listener. -/
def acceptReady (listener : Nat) (tlsEnabled : Bool) : Prog reactorCalls Unit := do
  let runtime ← request .loadRuntime
  acceptRounds listener tlsEnabled runtime kMaximumAcceptsPerReadyEvent

end PoolLb
