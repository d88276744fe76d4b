import PoolLb.Relay

/-!
# What the traffic of a session leaves alone

Most of the code of a session moves bytes: it reads, cuts lines, writes, and sets the flags
and marks that belong to the queues.  None of it touches the rest of the record: which
sockets the session has and how they are armed, the stage it is in, its backend and where
it stands among the candidates, and the deadlines of its setup.  `Session.standing` is that
rest, and `Carries` says of a piece of code that it keeps it.

What is not traffic is the handshake, connecting, dropping the upstream, and arming.

What goes on to the pool is no business of the client either.  `Session.clientSide` is what a
session has for its client, `Spares` says of a piece of code that it keeps that and makes no
call on the TLS stream, and `Forwards` that it does both: it is traffic and spares the client.
-/

namespace PoolLb

open Interaction Handler

/-- The part of a session that no traffic touches. -/
structure Standing where
  id : Nat
  client : Nat
  upstream : Option Nat
  ssl : Bool
  runtime : RuntimeSnapshot
  backend : Option Backend
  proxyHeader : ProxyV2Header
  admission : Option Nat
  stage : SessionStage
  deadline : Nat
  upstreamOverallDeadline : Nat
  clientEvents : EventMask
  upstreamEvents : EventMask
  upstreamSourceSequence : Nat
  currentBackendAddress : Nat
  nextBackendAddress : Nat
  backendAddressesRemaining : Nat
  currentAddressSourcesRemaining : Nat
  connectCandidatesRemaining : Nat
  backendCounted : Bool
  queueLimitExceeded : Bool
  receivedMessage : Bool

def Session.standing (s : Session) : Standing where
  id := s.id
  client := s.client
  upstream := s.upstream
  ssl := s.ssl
  runtime := s.runtime
  backend := s.backend
  proxyHeader := s.proxyHeader
  admission := s.admission
  stage := s.stage
  deadline := s.deadline
  upstreamOverallDeadline := s.upstreamOverallDeadline
  clientEvents := s.clientEvents
  upstreamEvents := s.upstreamEvents
  upstreamSourceSequence := s.upstreamSourceSequence
  currentBackendAddress := s.currentBackendAddress
  nextBackendAddress := s.nextBackendAddress
  backendAddressesRemaining := s.backendAddressesRemaining
  currentAddressSourcesRemaining := s.currentAddressSourcesRemaining
  connectCandidatesRemaining := s.connectCandidatesRemaining
  backendCounted := s.backendCounted
  queueLimitExceeded := s.queueLimitExceeded
  receivedMessage := s.protocolState.receivedMessage

/-- The calls of traffic. -/
def ReactorCall.Traffic : ReactorCall → Prop
  | .now | .reserveQueuedBytes _ | .releaseQueuedBytes _ | .loadQueuedBytes
  | .loadQueuedBytesLimit | .count _ _ | .recordProtocolError _ _ | .consumeTraffic _ _ _ _ _
  | .recvClient _ | .sendClient _ _ | .recvUpstream _ | .sendUpstream _ _ | .sslRead _
  | .sslWrite _ _ | .sslPending _ | .scheduleTimer _ _ _ => True
  | _ => False

/-- The reasons for which traffic ends a session. -/
def Exit.OfTraffic : Exit → Prop
  | .tlsFailed | .noBackend | .connectFailed | .interestFailed | .timedOut => False
  | _ => True

/-- The code keeps the standing of a session. -/
abbrev Carries {α : Type} (m : SessionM α) : Prop :=
  Framed ReactorCall.Traffic Session.standing (fun _ => True) Exit.OfTraffic m

/-- What a session has for its client. -/
structure ClientSide where
  id : Nat
  greeted : Bool
  client : Nat
  ssl : Bool
  runtime : RuntimeSnapshot
  toClient : PendingBuffer
  clientReadClosed : Bool
  upstreamReadClosed : Bool
  tlsOperation : TlsOperation
  tlsDirection : IoDirection
  clientWriteRetryBytes : Nat

def Session.clientSide (s : Session) : ClientSide where
  id := s.id
  greeted := s.stage ≠ .tlsHandshake
  client := s.client
  ssl := s.ssl
  runtime := s.runtime
  toClient := s.toClient
  clientReadClosed := s.clientReadClosed
  upstreamReadClosed := s.upstreamReadClosed
  tlsOperation := s.tlsOperation
  tlsDirection := s.tlsDirection
  clientWriteRetryBytes := s.clientWriteRetryBytes

/-- The calls that do not move a TLS stream. -/
def ReactorCall.LeavesTls : ReactorCall → Prop
  | .sslAccept _ | .sslRead _ | .sslWrite _ _ => False
  | _ => True

/-- The code keeps the client side of a session that satisfies `G` and does not move its TLS
stream. -/
abbrev Spares {α : Type} (G : ClientSide → Prop) (m : SessionM α) : Prop :=
  Framed ReactorCall.LeavesTls Session.clientSide G (fun _ => True) m

/-- The calls of traffic that do not move a TLS stream. -/
def ReactorCall.Forwards : ReactorCall → Prop
  | .now | .reserveQueuedBytes _ | .releaseQueuedBytes _ | .loadQueuedBytes
  | .loadQueuedBytesLimit | .count _ _ | .recordProtocolError _ _ | .consumeTraffic _ _ _ _ _
  | .sendUpstream _ _ | .sslPending _ | .scheduleTimer _ _ _ => True
  | _ => False

/-- The code is traffic that does not concern the client. -/
abbrev Forwards {α : Type} (m : SessionM α) : Prop :=
  Framed ReactorCall.Forwards (fun s => (s.standing, s.clientSide)) (fun _ => True)
    Exit.OfTraffic m

theorem Forwards.carries {α : Type} {m : SessionM α} (h : Forwards m) : Carries m :=
  h.part (f := Prod.fst) (fun c hc => by cases c <;> trivial) (fun _ => rfl) fun _ he => he

theorem Forwards.spares {α : Type} {G : ClientSide → Prop} {m : SessionM α} (h : Forwards m) :
    Spares G m :=
  h.part (f := Prod.snd) (fun c hc => by cases c <;> trivial) (fun _ => rfl) fun _ _ => trivial

/-! ## Reading and writing -/

/-- A TLS read notes at most which operation the stream waits for. -/
theorem readClientTls_carries : Carries readClientTls := by
  refine framed_current.bind fun s => framed_ask_bind trivial fun answer => ?_
  cases answer with
  | data chunk => exact framed_modify_bind (fun _ => rfl) fun _ => framed_pure _
  | wantRead => exact framed_modify_bind (fun _ => rfl) fun _ => framed_pure _
  | wantWrite => exact framed_modify_bind (fun _ => rfl) fun _ => framed_pure _
  | zeroReturn => exact framed_pure _
  | interrupted =>
      have hinterrupted : ∀ s : Session, s.interruptedRead.standing = s.standing := by
        intro s
        unfold Session.interruptedRead
        split
        · rfl
        · rfl
      exact framed_modify_bind hinterrupted fun _ => framed_current.bind fun _ => framed_pure _
  | failed => exact framed_pure _

/-- A plain read writes no field at all. -/
theorem readClientPlain_carries : Carries readClientPlain := by
  refine framed_current.bind fun s => framed_ask_bind trivial fun answer => ?_
  cases answer with
  | data chunk => exact framed_pure _
  | closed => exact framed_pure _
  | retry => exact framed_pure _
  | failed => exact framed_pure _

theorem readClient_carries : Carries readClient :=
  framed_current.bind fun _ => framed_ite readClientTls_carries readClientPlain_carries

/-- A TLS write notes the operation and the bytes it has to repeat. -/
theorem writeClientTls_carries : Carries writeClientTls := by
  refine framed_current.bind fun s => framed_ask_bind trivial fun answer => ?_
  cases answer with
  | wrote count => exact framed_modify_bind (fun _ => rfl) fun _ => framed_pure _
  | wantRead => exact framed_modify_bind (fun _ => rfl) fun _ => framed_pure _
  | wantWrite => exact framed_modify_bind (fun _ => rfl) fun _ => framed_pure _
  | interrupted =>
      have hinterrupted : ∀ (size : Nat) (s : Session),
          (s.interruptedWrite size).standing = s.standing := by
        intro size s
        unfold Session.interruptedWrite
        split
        · rfl
        · rfl
      exact framed_modify_bind (hinterrupted _) fun _ => framed_current.bind fun _ =>
        framed_pure _
  | failed => exact framed_pure _

/-- A plain write takes what was sent off the queue to the client. -/
theorem writeClientPlain_carries : Carries writeClientPlain := by
  refine framed_current.bind fun s => framed_ask_bind trivial fun answer => ?_
  cases answer with
  | sent count => exact framed_modify_bind (fun _ => rfl) fun _ => framed_pure _
  | retry => exact framed_pure _
  | failed => exact framed_pure _

theorem writeClient_carries : Carries writeClient :=
  framed_current.bind fun _ => framed_ite (framed_pure _) <|
    framed_ite writeClientTls_carries writeClientPlain_carries

/-- A write to the pool takes what was sent off its queue. -/
theorem writeUpstream_forwards : Forwards writeUpstream := by
  refine framed_current.bind fun s => framed_ite (framed_pure _) <|
    framed_ask_bind trivial fun answer => ?_
  cases answer with
  | sent count => exact framed_modify_bind (fun _ => rfl) fun _ => framed_pure _
  | retry => exact framed_pure _
  | failed => exact framed_pure _

/-- What was written leaves the process-wide account and counts as activity. -/
theorem releaseWritten_forwards (size : Nat) : Forwards (releaseWritten size) :=
  framed_ite (framed_ask_bind trivial fun _ => framed_ask_bind trivial fun _ =>
    framed_modify fun _ => rfl)
    (framed_pure _)

/-- A flush ends the session only if the write fails. -/
theorem flushClient_carries : Carries flushClient := by
  refine writeClient_carries.bind fun result => ?_
  cases result with
  | data size => exact (releaseWritten_forwards size).carries
  | retryRead => exact framed_pure _
  | retryWrite => exact framed_pure _
  | closed => exact framed_stop trivial
  | error => exact framed_stop trivial

/-- A push ends the session only if the write fails. -/
theorem pushUpstream_forwards : Forwards pushUpstream := by
  refine writeUpstream_forwards.bind fun result => ?_
  cases result with
  | data size => exact releaseWritten_forwards size
  | retryRead => exact framed_pure _
  | retryWrite => exact framed_pure _
  | closed => exact framed_stop trivial
  | error => exact framed_stop trivial

/-- By induction on the rounds; each is one write to the pool. -/
theorem flushRounds_forwards (rounds : Nat) : Forwards (flushRounds rounds) := by
  induction rounds with
  | zero => exact framed_pure _
  | succ rounds ih =>
      refine framed_current.bind fun s => framed_ite
        (writeUpstream_forwards.bind fun result => ?_) (framed_pure _)
      cases result with
      | data size => exact framed_ite (framed_pure _) (framed_ask_bind trivial fun _ => ih)
      | retryRead => exact framed_pure _
      | retryWrite => exact framed_pure _
      | closed => exact framed_pure _
      | error => exact framed_pure _

theorem flushUpstreamQueue_forwards : Forwards flushUpstreamQueue :=
  framed_current.bind fun _ => flushRounds_forwards _

/-- A reservation that is refused is counted; no field changes. -/
theorem reserveQueuedBytes_forwards (use : QueueUse) : Forwards (reserveQueuedBytes use) :=
  framed_ask_bind trivial fun _ => framed_ite (framed_pure _)
    (framed_ask_bind trivial fun _ => framed_pure _)

/-! ## Lines -/

/-- Accepted lines move from the line buffer to the queue to the pool, or end the session. -/
theorem commitConsumed_forwards (consumed : Nat) : Forwards (commitConsumed consumed) :=
  framed_current.bind fun _ => framed_ite (framed_pure _) <| framed_ite
    (framed_ask_bind trivial fun _ => framed_stop trivial) (framed_modify fun _ => rfl)

/-- A refused line leaves the line buffer and the process-wide account. -/
theorem discardLineBytes_forwards (count : Nat) : Forwards (discardLineBytes count) :=
  framed_modify_bind (fun _ => rfl) fun _ => framed_ask trivial

/-- Bytes of the client join the line buffer once they are reserved. -/
theorem appendLineBytes_forwards (bytes : Bytes) : Forwards (appendLineBytes bytes) :=
  (reserveQueuedBytes_forwards _).bind fun _ =>
    framed_ite (framed_modify fun _ => rfl) (framed_stop trivial)

/-- The size tests only read the queues. -/
theorem checkQueueSizes_forwards : Forwards checkQueueSizes :=
  framed_current.bind fun _ => framed_ite (framed_ask_bind trivial fun _ => framed_stop trivial) <|
    framed_ite (framed_ask_bind trivial fun _ => framed_stop trivial) (framed_pure _)

/-- The tests drain the buckets of the session and ask the limiter. -/
theorem allowTraffic_forwards (bytes messages messagesThisEvent now : Nat) :
    Forwards (allowTraffic bytes messages messagesThisEvent now) := by
  refine framed_current.bind fun _ => framed_ite (framed_pure _) <|
    framed_modify_bind (fun s => ?_) fun _ => framed_ite (framed_ask trivial) (framed_pure _)
  unfold Session.consumeSessionTraffic
  dsimp only
  split
  · rfl
  · rfl

/-- The end of what the client sends is a flag; an unfinished line is an error. -/
theorem closeClientRead_carries : Carries closeClientRead :=
  framed_modify_bind (fun _ => rfl) fun _ => framed_current.bind fun _ =>
    framed_ite (framed_ask_bind trivial fun _ => framed_stop trivial) (framed_pure _)

/-! ## The handlers -/

/-- A hangup or an error of the client socket ends the session. -/
theorem stopIfGone_carries (events : EventMask) : Carries (stopIfGone events) :=
  framed_ite (framed_stop trivial) (framed_pure _)

/-- A pending `SSL_write` is tried again when its direction is ready. -/
theorem retryPendingWrite_carries (events : EventMask) : Carries (retryPendingWrite events) :=
  framed_current.bind fun _ => framed_ite (stopIfGone_carries events) <|
    flushClient_carries.bind fun _ => framed_current.bind fun _ =>
      framed_ite (framed_stop trivial) (stopIfGone_carries events)

/-- The push of a writable pool socket. -/
theorem pushUpstreamIfWritable_forwards (events : EventMask) :
    Forwards (pushUpstreamIfWritable events) :=
  framed_current.bind fun _ => framed_ite pushUpstream_forwards (framed_pure _)

/-- The push at the end of an event, in the relay only. -/
theorem pushUpstreamIfRelay_forwards : Forwards pushUpstreamIfRelay :=
  framed_current.bind fun _ => framed_ite pushUpstream_forwards (framed_pure _)

/-- The end of `client_ready`: two writes, and then the tests. -/
theorem finishClientEvent_carries (events : EventMask) (readBudgetExhausted : Bool) :
    Carries (finishClientEvent events readBudgetExhausted) := by
  have hflush : Carries (flushClientIfWritable events) :=
    framed_current.bind fun _ => framed_ite flushClient_carries (framed_pure _)
  have hchecks : Carries (clientChecks events readBudgetExhausted) :=
    framed_current.bind fun _ => framed_ite (framed_stop trivial) <| framed_ite (framed_stop trivial) <|
      framed_ite (framed_stop trivial) <| framed_ite (framed_stop trivial) (framed_pure _)
  exact pushUpstreamIfRelay_forwards.carries.bind fun _ => hflush.bind fun _ => hchecks

/-- Bytes of the pool join the queue to the client. -/
theorem queueForClient_carries (chunk : Chunk) : Carries (queueForClient chunk) :=
  framed_ask_bind trivial fun _ => (reserveQueuedBytes_forwards _).carries.bind fun _ =>
    framed_ite (framed_modify fun _ => rfl) (framed_stop trivial)

/-- By induction on the rounds; each receives one chunk and queues it. -/
theorem recvRounds_carries (rounds bytesThisEvent : Nat) :
    Carries (recvRounds rounds bytesThisEvent) := by
  induction rounds generalizing bytesThisEvent with
  | zero => exact framed_pure _
  | succ rounds ih =>
      refine framed_current.bind fun s => framed_ask_bind trivial fun answer => ?_
      cases answer with
      | data chunk =>
          exact (queueForClient_carries chunk).bind fun _ => framed_current.bind fun _ =>
            framed_ite (framed_stop trivial) <| framed_ite (framed_pure _) <|
              framed_ite (framed_pure _) (ih _)
      | closed => exact framed_modify_bind (fun _ => rfl) fun _ => framed_pure _
      | retry => exact framed_pure _
      | failed => exact framed_stop trivial

/-- The receiving part of `upstream_ready`: the loop, and the activity it was. -/
theorem recvFromUpstream_carries (events : EventMask) : Carries (recvFromUpstream events) :=
  framed_current.bind fun _ => framed_ite
    ((recvRounds_carries _ _).bind fun _ => framed_ite
      (framed_ask_bind trivial fun _ => framed_modify_bind (fun _ => rfl) fun _ => framed_pure _)
      (framed_pure _))
    (framed_pure _)

/-- The first write of `upstream_ready`, unless a TLS operation is pending. -/
theorem flushClientIfIdle_carries : Carries flushClientIfIdle :=
  framed_current.bind fun _ => framed_ite flushClient_carries (framed_pure _)

/-! ## Pausing -/

/-- A new timer only raises the generation. -/
theorem scheduleTimeout_forwards : Forwards scheduleTimeout :=
  framed_modify_bind (fun _ => rfl) fun _ => framed_current.bind fun _ => framed_ask trivial

/-- The readings of pressure are two loads and `SSL_pending`. -/
theorem readPressure_forwards : Forwards readPressure := by
  have hdrained : Forwards tlsBufferDrained :=
    framed_current.bind fun _ => framed_ite (framed_ask_bind trivial fun _ => framed_pure _)
      (framed_pure _)
  exact framed_ask_bind trivial fun _ => framed_ask_bind trivial fun _ => hdrained.bind fun _ =>
    framed_pure _

/-- The pauses that begin are counted. -/
theorem countPauses_forwards (reading : PressureReading) : Forwards (countPauses reading) := by
  have hcount : ∀ condition counter, Forwards (countWhen condition counter) :=
    fun _ _ => framed_ite (framed_ask trivial) (framed_pure _)
  exact framed_current.bind fun _ => (hcount _ _).bind fun _ => (hcount _ _).bind fun _ =>
    hcount _ _

/-- `refresh_read_pause` sets the flags of the pauses, and the deadline of a stall that
begins. -/
theorem refreshReadPause_forwards : Forwards refreshReadPause := by
  have hstall : Forwards beginStall :=
    framed_current.bind fun _ =>
      framed_ite (framed_ask_bind trivial fun _ => framed_modify fun _ => rfl)
      (framed_pure _)
  exact readPressure_forwards.bind fun reading => (countPauses_forwards reading).bind fun _ =>
    framed_current.bind fun _ => framed_modify_bind (fun _ => rfl) fun _ => framed_current.bind fun _ =>
      framed_ite (framed_pure _) <| hstall.bind fun _ =>
        framed_ite scheduleTimeout_forwards (framed_pure _)

/-! ## Arming -/

/-- A session, but for what its sockets are armed with. -/
def Session.unarmed (s : Session) : Session := { s with clientEvents := {}, upstreamEvents := {} }

/-- The one call of arming. -/
def ReactorCall.Rearms : ReactorCall → Prop
  | .epollModify _ _ _ => True
  | _ => False

/-- The code changes at most what the sockets are armed with. -/
abbrev Rearms {α : Type} (m : SessionM α) : Prop :=
  Framed ReactorCall.Rearms Session.unarmed (fun _ => True) (fun e => e = .interestFailed) m

/-- Both halves of `update_interests`, after the pauses. -/
theorem armSockets_rearms : Rearms (armClient >>= fun _ => armUpstream) := by
  refine Framed.bind ?_ fun _ => framed_current.bind fun s => ?_
  · exact framed_current.bind fun _ => framed_ite (framed_pure _) <| framed_ask_bind trivial fun _ =>
      framed_ite (framed_modify fun _ => rfl) (framed_stop rfl)
  · cases s.upstream with
    | none => exact framed_pure _
    | some socket =>
        exact framed_ite (framed_pure _) <| framed_ask_bind trivial fun _ =>
          framed_ite (framed_modify fun _ => rfl) (framed_stop rfl)

/-- Arming keeps every part of a session that has no masks in it. -/
theorem Rearms.keeps {α V : Type} {P : ReactorCall → Prop} {view : Session → V} {G : V → Prop}
    {X : Exit → Prop} {m : SessionM α} (h : Rearms m)
    (hP : ∀ socket events token, P (.epollModify socket events token))
    (hview : ∀ s, view s = view s.unarmed) (hX : X .interestFailed) : Framed P view G X m :=
  h.part (f := view)
    (fun c hc => by
      cases c with
      | epollModify socket events token => exact hP socket events token
      | _ => exact hc.elim)
    hview fun _ he => he ▸ hX

end PoolLb
