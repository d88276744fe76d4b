import PoolLb.Config
import PoolLb.PendingBuffer
import PoolLb.ProxyProtocol
import PoolLb.Router
import PoolLb.TimerWheel
import PoolLb.Validator

/-!
# Sessions

The record a reactor keeps for one miner (`Session` in `src/net/reactor.cpp`),
the marks of its queues, its traffic budget and its timeout.

Clock readings are nanoseconds, and the epoch is `time_point{}`.  A descriptor
is a number, and an empty `UniqueFd` is `none`.  The timeouts of the limits are
`int` in the source; `validate` only lets positive ones through, and a negative
one is zero here.
-/

namespace PoolLb

def kIoChunkBytes : Nat := 16384
def kMaximumBytesPerReadyEvent : Nat := 65536
def kQueueMarkDivisor : Nat := 2
def kRelayStallTimeout : Nat := 60 * kNanosecondsPerSecond
def kSharedQueuePausePercent : Nat := 75
def kSharedQueueResumePercent : Nat := 50
def kPercentWhole : Nat := 100
def kMaximumConsecutiveProtocolErrors : Nat := 32
def kNanosecondsPerMillisecond : Nat := 1000000

/-- `SessionStage`. -/
inductive SessionStage where
  | tlsHandshake
  | firstMessage
  | upstreamConnect
  | relay
deriving DecidableEq, Repr

/-- `TlsOperation`. -/
inductive TlsOperation where
  | none
  | handshake
  | read
  | write
deriving DecidableEq, Repr

/-- `IoDirection`. -/
inductive IoDirection where
  | read
  | write
deriving DecidableEq, Repr

/-- A set of epoll events: `EPOLLIN`, `EPOLLOUT`, `EPOLLERR`, `EPOLLHUP` and
`EPOLLRDHUP`. -/
structure EventMask where
  readable : Bool := false
  writable : Bool := false
  error : Bool := false
  hangup : Bool := false
  readHangup : Bool := false
deriving DecidableEq, Repr

/-- `EventKind`, for the sockets of a session. -/
inductive EventKind where
  | client
  | upstream
  | listener
deriving DecidableEq, Repr

/-- What `event_token` packs into 64 bits. -/
structure EventToken where
  id : Nat
  kind : EventKind
deriving DecidableEq, Repr

/-- `RuntimeSnapshot`. -/
structure RuntimeSnapshot where
  limits : LimitsConfig := {}
  protocol : ProtocolConfig := {}
  routing : RoutingTable := {}

/-- `Session`. -/
structure Session where
  id : Nat
  client : Nat
  upstream : Option Nat := none
  ssl : Bool := false
  runtime : RuntimeSnapshot
  backend : Option Backend := none
  proxyHeader : ProxyV2Header
  admission : Option Nat := none
  lineBuffer : Bytes := []
  toUpstream : PendingBuffer := {}
  toClient : PendingBuffer := {}
  stage : SessionStage := .firstMessage
  deadline : Nat := 0
  upstreamOverallDeadline : Nat := 0
  lastActivity : Nat := 0
  stallDeadline : Nat := 0
  clientEvents : EventMask := { readable := true, readHangup := true }
  upstreamEvents : EventMask := {}
  timeoutGeneration : Nat := 0
  upstreamSourceSequence : Nat := 0
  currentBackendAddress : Nat := 0
  nextBackendAddress : Nat := 0
  backendAddressesRemaining : Nat := 0
  currentAddressSourcesRemaining : Nat := 0
  connectCandidatesRemaining : Nat := 0
  messageTokens : ℚ := 0
  byteTokens : ℚ := 0
  trafficUpdatedAt : Nat := 0
  tlsHandshakeStartedAt : Nat := 0
  protocolState : ProtocolState := {}
  backendCounted : Bool := false
  clientReadClosed : Bool := false
  upstreamReadClosed : Bool := false
  queueLimitExceeded : Bool := false
  clientReadPaused : Bool := false
  upstreamReadPaused : Bool := false
  clientQueueStalled : Bool := false
  upstreamQueueStalled : Bool := false
  sharedPressurePaused : Bool := false
  consecutiveProtocolErrors : Nat := 0
  tlsOperation : TlsOperation := .none
  tlsDirection : IoDirection := .read
  clientWriteRetryBytes : Nat := 0

/-- `queue_pause_bytes`; the headroom is a sum of `std::size_t`. -/
def queuePauseBytes (limits : LimitsConfig) : Nat :=
  let headroom := (limits.maxLineBytes + kIoChunkBytes) % kWordSize
  if limits.maxBufferBytes ≤ headroom then limits.maxBufferBytes
  else min (limits.maxBufferBytes / kQueueMarkDivisor) (limits.maxBufferBytes - headroom)

/-- `queue_resume_bytes`. -/
def queueResumeBytes (limits : LimitsConfig) : Nat := queuePauseBytes limits / kQueueMarkDivisor

/-- The resume mark is below the pause mark. -/
theorem queueResumeBytes_le (limits : LimitsConfig) :
    queueResumeBytes limits ≤ queuePauseBytes limits := Nat.div_le_self _ _

/-- A clock reading plus `std::chrono::seconds`. -/
def afterSeconds (time : Nat) (seconds : Int) : Nat := time + seconds.toNat * kNanosecondsPerSecond

namespace Session

def limits (s : Session) : LimitsConfig := s.runtime.limits

/-- The bytes a session accounts for in the shared ledger. -/
def queuedBytes (s : Session) : Nat := s.lineBuffer.length + s.toUpstream.size + s.toClient.size

/-- One token bucket of `consume_session_traffic`, brought up to date. -/
def refillTokens (s : Session) (tokens rate : ℚ) (burst now : Nat) : ℚ :=
  if s.trafficUpdatedAt = 0 then burst
  else
    let elapsed : ℚ := ((now : ℚ) - s.trafficUpdatedAt) / kNanosecondsPerSecond
    min burst (tokens + elapsed * rate)

/-- `consume_session_traffic`. -/
def consumeSessionTraffic (s : Session) (bytes messages now : Nat) : Bool × Session :=
  let messageTokens := s.refillTokens s.messageTokens s.limits.messagesPerSecondPerConnection
    s.limits.messageBurstPerConnection now
  let byteTokens := s.refillTokens s.byteTokens s.limits.bytesPerSecondPerConnection
    s.limits.byteBurstPerConnection now
  if messageTokens < (messages : ℚ) ∨ byteTokens < (bytes : ℚ) then
    (false, { s with messageTokens := messageTokens, byteTokens := byteTokens
                     trafficUpdatedAt := now })
  else
    (true, { s with messageTokens := messageTokens - messages, byteTokens := byteTokens - bytes
                    trafficUpdatedAt := now })

/-- `timeout_deadline`. -/
def timeoutDeadline (s : Session) : Nat :=
  if s.stage ≠ .relay then s.deadline
  else if s.clientQueueStalled ∨ s.upstreamQueueStalled then s.stallDeadline
  else afterSeconds s.lastActivity s.limits.idleTimeoutSeconds

end Session

/-- `compatible_source_count`. -/
def compatibleSourceCount (sources : List SocketAddress) (family : AddressFamily) : Nat :=
  sources.countP fun source => source.family = family

/-- `select_compatible_source`. -/
def selectCompatibleSource (sources : List SocketAddress) (family : AddressFamily)
    (sequence : Nat) : Option SocketAddress :=
  let compatible := sources.filter fun source => source.family = family
  if compatible.length = 0 then none else compatible[sequence % compatible.length]?

/-- `io_direction_ready`. -/
def ioDirectionReady (direction : IoDirection) (events : EventMask) : Bool :=
  match direction with
  | .read => events.readable
  | .write => events.writable

end PoolLb
