import PoolLb.SessionIo

/-!
# Connecting to the pool

From the choice of a backend to the established connection: the candidates of
`begin_upstream_connect`, the attempts of `start_next_upstream_connect`, and
`finish_upstream_connect`, which turns a connected socket into a relay.
-/

namespace PoolLb

open Interaction Handler

/-- `record_upstream_error`. -/
def recordUpstreamError : SessionM Unit := do
  let s ← current
  match s.backend with
  | some backend => do
      query (.backendError backend.ref)
      query (.count .upstreamConnectErrors 1)
  | none => query (.count .upstreamConnectErrors 1)

namespace Session

/-- The upstream socket is gone. -/
def dropUpstream (s : Session) : Session :=
  { s with upstream := none, upstreamEvents := {}, upstreamReadPaused := false }

def sources (s : Session) : List SocketAddress := s.runtime.routing.upstreamSourceAddresses

/-- The addresses of the selected backend. -/
def backendAddresses (s : Session) : List SocketAddress :=
  match s.backend with
  | some backend => backend.socketAddresses
  | none => []

/-- How many attempts one address of a family is worth. -/
def attemptsFor (s : Session) (family : AddressFamily) : Nat :=
  if s.sources = [] then 1 else compatibleSourceCount s.sources family

/-- One round of the inner loop of `start_next_upstream_connect`. -/
def nextAddress (s : Session) : Session :=
  let family := (s.backendAddresses[s.nextBackendAddress]?).elim .unspec SocketAddress.family
  { s with
    currentBackendAddress := s.nextBackendAddress
    nextBackendAddress := (s.nextBackendAddress + 1) % s.backendAddresses.length
    backendAddressesRemaining := s.backendAddressesRemaining - 1
    currentAddressSourcesRemaining := s.attemptsFor family }

/-- The inner loop: on to an address that has attempts left.  Each round takes
one of the remaining addresses. -/
def seekAddress : Nat → Session → Session
  | 0, s => s
  | rounds + 1, s =>
      if s.currentAddressSourcesRemaining = 0 ∧ s.backendAddressesRemaining > 0 then
        seekAddress rounds s.nextAddress
      else s

/-- The address and the source of the next attempt; `none` in the second place
is no source at all. -/
def candidate (s : Session) : Option (SocketAddress × Option SocketAddress) :=
  (s.backendAddresses[s.currentBackendAddress]?).bind fun address =>
    if s.sources = [] then some (address, none)
    else (selectCompatibleSource s.sources address.family s.upstreamSourceSequence).map
      fun source => (address, some source)

/-- `upstream_source_sequence++`, where sources are configured. -/
def advanceSource (s : Session) : Session :=
  if s.sources = [] then s
  else { s with upstreamSourceSequence := s.upstreamSourceSequence + 1 }

/-- The attempt is taken off the books. -/
def spendCandidate (s : Session) : Session :=
  { s with
    currentAddressSourcesRemaining := s.currentAddressSourcesRemaining - 1
    connectCandidatesRemaining := s.connectCandidatesRemaining - 1 }

/-- The deadline of one attempt: an equal share of the time that is left.  The
source divides a signed remainder; where it is negative, a share of it is not
below it, and the minimum is the overall deadline, as it is here. -/
def attemptDeadline (s : Session) (now : Nat) : Nat :=
  let slice := (s.upstreamOverallDeadline - now) / (s.connectCandidatesRemaining + 1)
  min (now + slice) s.upstreamOverallDeadline

end Session

/-- `discard_upstream`. -/
def discardUpstream : SessionM Unit := do
  let s ← current
  match s.upstream with
  | some socket => do
      query (.epollDelete socket)
      query (.closeSocket socket)
      modify Session.dropUpstream
  | none => modify Session.dropUpstream

/-- `schedule_connect_attempt_timeout`. -/
def scheduleConnectAttemptTimeout : SessionM Unit := do
  let now ← query .now
  modify fun s => { s with deadline := s.attemptDeadline now }
  scheduleTimeout

/-- `prepend_queued` of the header in `finish_upstream_connect`; nothing to do
for a backend that does not ask for it. -/
def prependHeader : SessionM Bool := do
  let s ← current
  if s.backend.any Backend.sendProxyV2 then
    if ← reserveQueuedBytes (.proxyHeader s.proxyHeader.view) then do
      modify fun s => { s with toUpstream := s.toUpstream.prepend s.proxyHeader.view }
      pure true
    else pure false
  else pure true

/-- The session becomes a relay, at the end of `finish_upstream_connect`. -/
def enterRelay : SessionM Unit := do
  modify fun s => { s with stage := .relay }
  let s ← current
  query (.writeRelayStage s.id (s.backend.map Backend.ref) s.backendCounted)
  scheduleTimeout
  let s ← current
  match s.backend with
  | some backend => do
      query (.backendEnter backend.ref s.id s.upstream)
      modify fun s => { s with backendCounted := true }
  | none => pure ()

/-- `finish_upstream_connect`. -/
def finishUpstreamConnect : SessionM Bool := do
  let s ← current
  if ← query (.socketError s.upstream) then pure false
  else if ← prependHeader then do
    enterRelay
    pure true
  else do
    modify fun s => { s with queueLimitExceeded := true }
    pure false

/-- The events of a connecting socket. -/
def connectEvents : EventMask := { writable := true, readHangup := true }

/-- A socket that is registered and timed: `some` if the function returns, with
its answer, `none` if the next candidate is due. -/
def completeConnect (started : ConnectStart) : SessionM (Option Bool) :=
  if ¬ started.connected then pure (some true)
  else do
    if ← finishUpstreamConnect then pure (some true)
    else do
      let s ← current
      if s.queueLimitExceeded then pure (some false)
      else do
        recordUpstreamError
        discardUpstream
        pure none

/-- A socket whose connect has started, from `try_add_fd` to its end. -/
def adoptSocket (started : ConnectStart) : SessionM (Option Bool) := do
  modify fun s => { s with upstream := some started.socket }
  let s ← current
  if ← query (.epollAdd started.socket connectEvents ⟨s.id, .upstream⟩) then do
    modify fun s => { s with upstreamEvents := connectEvents }
    scheduleConnectAttemptTimeout
    completeConnect started
  else do
    recordUpstreamError
    query (.closeSocket started.socket)
    modify fun s => { s with upstream := none }
    pure none

/-- One attempt to connect, with the answer of `adoptSocket`. -/
def tryCandidate (backend : Backend) (address : SocketAddress) (source : Option SocketAddress) :
    SessionM (Option Bool) := do
  modify Session.spendCandidate
  query (.backendAttempt backend.ref)
  match ← query (.startConnect address source) with
  | none => do
      recordUpstreamError
      pure none
  | some started => adoptSocket started

/-- The loop of `start_next_upstream_connect`; each round spends a candidate. -/
def connectRounds : Nat → SessionM Unit
  | 0 => stop .connectFailed
  | rounds + 1 => do
      let s ← current
      let now ← query .now
      if s.connectCandidatesRemaining = 0 ∨ s.upstreamOverallDeadline ≤ now then
        stop .connectFailed
      else do
        modify fun s => s.seekAddress s.backendAddressesRemaining
        let s ← current
        if s.currentAddressSourcesRemaining = 0 then stop .connectFailed
        else do
          modify Session.advanceSource
          match s.candidate, s.backend with
          | some (address, source), some backend => do
              match ← tryCandidate backend address source with
              | some true => pure ()
              | some false => stop .queueBudget
              | none => connectRounds rounds
          | _, _ => stop .connectFailed

/-- `start_next_upstream_connect`. -/
def startNextUpstreamConnect : SessionM Unit := do
  let s ← current
  if s.backendAddresses = [] then stop .connectFailed
  else connectRounds s.connectCandidatesRemaining

namespace Session

/-- How many attempts there are to make in all. -/
def allCandidates (s : Session) : Nat :=
  if s.sources = [] then s.backendAddresses.length
  else (s.backendAddresses.map fun address =>
    compatibleSourceCount s.sources address.family).sum

/-- The stage of connecting begins, at the address the selection names. -/
def openConnect (s : Session) (selection now : Nat) : Session :=
  { s with
    stage := .upstreamConnect
    upstreamOverallDeadline :=
      now + s.limits.upstreamConnectTimeoutMilliseconds.toNat * kNanosecondsPerMillisecond
    nextBackendAddress := selection % s.backendAddresses.length
    backendAddressesRemaining := s.backendAddresses.length
    connectCandidatesRemaining := s.allCandidates
    currentAddressSourcesRemaining := 0 }

end Session

/-- The session takes a source sequence number if sources are configured. -/
def drawSourceSequence : SessionM Unit := do
  let s ← current
  if s.sources = [] then pure ()
  else do
    let sequence ← query .nextSourceSequence
    modify fun s => { s with upstreamSourceSequence := sequence }

def rejectNoBackend : SessionM Unit := do
  query (.count .rejectedNoBackend 1)
  stop .noBackend

/-- `begin_upstream_connect` once the backend is selected. -/
def connectBackend (selection : Nat) : SessionM Unit := do
  let s ← current
  if s.backend.isNone ∨ s.backendAddresses = [] then rejectNoBackend
  else do
    let now ← query .now
    modify (Session.openConnect · selection now)
    drawSourceSequence
    let s ← current
    if s.connectCandidatesRemaining = 0 then rejectNoBackend
    else startNextUpstreamConnect

/-- `begin_upstream_connect`. -/
def beginUpstreamConnect : SessionM Unit := do
  let selection ← query .nextRouteSequence
  let view ← query .viewBackends
  modify fun s => { s with backend := Router.selectBackend view s.runtime.routing selection }
  connectBackend selection

end PoolLb
