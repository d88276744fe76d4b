import PoolLb.Handler
import PoolLb.RateLimiter
import PoolLb.Session

/-!
# What a reactor asks of the outside

Everything a worker does beyond the `Session` record at hand is a call: the
clock, the counters it shares with the other workers, the rate limiter, the
sockets and TLS streams, epoll, its own table of sessions and its timer wheel.
A call that the source makes at several places carries a tag where it matters
which place it was; tags are not part of what the outside sees.
-/

namespace PoolLb

open Interaction

/-- Between one and `kIoChunkBytes` bytes, as a read into the chunk returns. -/
structure Chunk where
  bytes : Bytes
  nonempty : bytes ≠ []
  length_le : bytes.length ≤ kIoChunkBytes

/-- `recv`: bytes, end of stream, nothing for now (`EAGAIN`, `EINTR`), failure. -/
inductive RecvAnswer where
  | data (chunk : Chunk)
  | closed
  | retry
  | failed

/-- `send`: how much was taken, nothing for now, failure. -/
inductive SendAnswer where
  | sent (count : Nat)
  | retry
  | failed

/-- `SSL_read` with the `SSL_get_error` of a failure; `interrupted` is
`SSL_ERROR_SYSCALL` with `EINTR`. -/
inductive SslReadAnswer where
  | data (chunk : Chunk)
  | wantRead
  | wantWrite
  | zeroReturn
  | interrupted
  | failed

/-- `SSL_write` with the `SSL_get_error` of a failure. -/
inductive SslWriteAnswer where
  | wrote (count : Nat)
  | wantRead
  | wantWrite
  | interrupted
  | failed

/-- `SSL_accept` with the `SSL_get_error` of a failure. -/
inductive SslAcceptAnswer where
  | done
  | wantRead
  | wantWrite
  | interrupted
  | failed

/-- `accept4`: a connection with its peer, an interruption, a lack of
resources, or nothing more to accept. -/
inductive AcceptAnswer where
  | accepted (client : Nat) (peer : SockAddr)
  | interrupted
  | noResources
  | nothing

/-- `ConnectStart` with a socket. -/
structure ConnectStart where
  socket : Nat
  connected : Bool

/-- Bytes for which room in the shared ledger is reserved, and where they go. -/
inductive QueueUse where
  | line (bytes : Bytes)
  | fromPool (bytes : Bytes)
  | proxyHeader (bytes : Bytes)

def QueueUse.bytes : QueueUse → Bytes
  | .line bytes => bytes
  | .fromPool bytes => bytes
  | .proxyHeader bytes => bytes

/-- The places that call `record_protocol_error`. -/
inductive ProtocolErrorSite where
  | truncatedLine
  | oversizedLine
  | refusedLine
  | commitRefused
  | oversizedTail
  | overfullQueue
deriving DecidableEq, Repr

/-- The counters of `WorkerStats` that nothing reads back. -/
inductive WorkerCounter where
  | rejectedGlobalLimit
  | rejectedGlobalRate
  | rejectedSourceCapacity
  | rejectedIpLimit
  | rejectedRateLimit
  | rejectedTrafficRate
  | rejectedQueueLimit
  | rejectedTls
  | rejectedNoBackend
  | upstreamConnectErrors
  | clientBytes
  | upstreamBytes
  | clientReadsPaused
  | upstreamReadsPaused
  | sharedPressurePauses
  | tlsHandshakeAttempts
  | tlsHandshakeSuccesses
  | tlsHandshakeNanoseconds
deriving DecidableEq, Repr

/-- The calls of a reactor. -/
inductive ReactorCall where
  -- clock and sequence numbers
  | now
  | nextRouteSequence
  | nextSourceSequence
  | nextSessionId
  -- counters
  | reserveQueuedBytes (use : QueueUse)
  | releaseQueuedBytes (count : Nat)
  | loadQueuedBytes
  | loadQueuedBytesLimit
  | activeIncrement
  | activeDecrement
  | workerActiveIncrement
  | workerActiveDecrement
  | acceptedIncrement
  | closedIncrement
  | count (counter : WorkerCounter) (amount : Nat)
  | recordProtocolError (site : ProtocolErrorSite) (error : ValidationError)
  -- backends
  | viewBackends
  | backendAttempt (backend : Nat)
  | backendError (backend : Nat)
  /-- The write of `stage = Relay` to a session, with its `backend` and its `backend_counted`.  Of
  all the writes to a session it is the one whose place among the atomic steps matters, as the
  backend counts the session later. -/
  | writeRelayStage (session : Nat) (backend : Option Nat) (counted : Bool)
  | backendEnter (backend session : Nat) (socket : Option Nat)
  | backendLeave (backend session : Nat)
  -- rate limiter
  | acquireLease (key : ClientKey) (limits : LimitsConfig)
  | publishTrackedClients
  | consumeTraffic (lease : Option Nat) (bytes messages : Nat) (limits : LimitsConfig) (now : Nat)
  | releaseLease (lease : Option Nat)
  -- sockets
  | accept (listener : Nat)
  | getsockname (client : Nat)
  | recvClient (client : Nat)
  | sendClient (client : Nat) (data : Bytes)
  | startConnect (address : SocketAddress) (source : Option SocketAddress)
  | socketError (upstream : Option Nat)
  | recvUpstream (upstream : Option Nat)
  | sendUpstream (upstream : Option Nat) (data : Bytes)
  | closeSocket (socket : Nat)
  -- TLS
  | tlsContext (listener : Nat)
  | createServerStream (client : Nat)
  | sslAccept (session : Nat)
  | sslRead (session : Nat)
  | sslWrite (session : Nat) (data : Bytes)
  | sslPending (session : Nat)
  -- epoll
  | epollAdd (socket : Nat) (events : EventMask) (token : EventToken)
  | epollModify (socket : Nat) (events : EventMask) (token : EventToken)
  | epollDelete (socket : Nat)
  -- timer wheel
  | scheduleTimer (session generation deadline : Nat)
  | cancelTimer (session : Nat)
  | advanceTimers (now : Nat)
  -- the table of sessions
  | findSession (id : Nat)
  | storeSession (session : Session)
  | emplaceSession (session : Session)
  | eraseSession (id : Nat)
  | anySession
  | loadRuntime

/-- `Admission`, with the lease as a number. -/
structure AdmissionAnswer where
  result : AdmissionResult
  lease : Option Nat

@[reducible] def ReactorCall.Answer : ReactorCall → Type
  | .now | .nextRouteSequence | .nextSourceSequence | .nextSessionId => Nat
  | .reserveQueuedBytes _ => Bool
  | .loadQueuedBytes | .loadQueuedBytesLimit => Nat
  | .activeIncrement => Nat
  | .viewBackends => BackendView
  | .acquireLease _ _ => AdmissionAnswer
  | .consumeTraffic _ _ _ _ _ => Bool
  | .accept _ => AcceptAnswer
  | .getsockname _ => Option SockAddr
  | .recvClient _ => RecvAnswer
  | .sendClient _ _ => SendAnswer
  | .startConnect _ _ => Option ConnectStart
  | .socketError _ => Bool
  | .recvUpstream _ => RecvAnswer
  | .sendUpstream _ _ => SendAnswer
  | .tlsContext _ => Bool
  | .createServerStream _ => Bool
  | .sslAccept _ => SslAcceptAnswer
  | .sslRead _ => SslReadAnswer
  | .sslWrite _ _ => SslWriteAnswer
  | .sslPending _ => Nat
  | .epollAdd _ _ _ => Bool
  | .epollModify _ _ _ => Bool
  | .advanceTimers _ => List TimerExpiry
  | .findSession _ => Option Session
  | .emplaceSession _ => Bool
  | .anySession => Option Nat
  | .loadRuntime => RuntimeSnapshot
  | _ => Unit

abbrev reactorCalls : Signature := ⟨ReactorCall, ReactorCall.Answer⟩

/-- Why a handler of a session returns `false`: one name for each reason a
session is closed. -/
inductive Exit where
  | tlsFailed
  | clientGone
  | clientReadFailed
  | clientWriteFailed
  | truncatedLine
  | trafficLimit
  | queueBudget
  | oversizedLine
  | refusedLine
  | queueLimit
  | oversizedTail
  | noBackend
  | connectFailed
  | upstreamReadFailed
  | upstreamWriteFailed
  | upstreamError
  | drained
  | noFirstMessage
  | interestFailed
  | timedOut
deriving DecidableEq, Repr

/-- Code of a reactor that works on one session. -/
abbrev SessionM (α : Type) := Handler reactorCalls Session Exit α

/-- A call from code that works on a session. -/
abbrev query (c : ReactorCall) : SessionM c.Answer := Handler.ask (S := reactorCalls) c

/-- A call from code that works on the reactor. -/
abbrev request (c : ReactorCall) : Prog reactorCalls c.Answer := call (S := reactorCalls) c

end PoolLb
