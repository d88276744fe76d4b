import Mathlib.Logic.Relation
import PoolLb.ConnectSteps
import PoolLb.Outside

/-!
# What the code of a session can do, move by move

The handlers of a session are long, but what they do to the session and its
surroundings is made of few kinds of moves: bytes enter or leave a queue, a
line is accepted or refused, a connect attempt starts, succeeds or is given up,
the timer is set.  `Move` lists them, each with the circumstances in which the
code makes it.  The claims about sessions are invariants of these moves; that
the handlers make no others is shown once, function by function, in the modules
that follow.

A `Config` is a session with its surroundings and with what the handler at work
knows and the record does not: how much of the line buffer is accepted but not
yet committed (`consumed`), where in its event the handler is (`phase`), whether
the pause flags are behind what a read has put into a queue, and what a read has
brought that is not in the line buffer yet (`unframed`).
-/

namespace PoolLb

namespace Outside

def note (w : Outside) (event : Event) : Outside := { w with log := event :: w.log }

def hold (w : Outside) (count : Nat) : Outside := { w with held := w.held + count }

def unhold (w : Outside) (count : Nat) : Outside := { w with held := w.held - count }

def schedule (w : Outside) (session generation deadline : Nat) : Outside :=
  { w with wheel := w.wheel.schedule session generation deadline }

end Outside

/-- Where in its event a handler is. -/
inductive Phase where
  /-- Nothing in particular is under way. -/
  | idle
  /-- A read of the client socket was allowed. -/
  | reading
  /-- The line buffer is being cut into lines. -/
  | scanning
  /-- The first line was accepted and no backend is selected yet. -/
  | opening
  /-- The backend of a new session was selected, or there was none. -/
  | routed
  /-- The handler is about to return `false`. -/
  | closing (exit : Exit)
deriving DecidableEq, Repr

/-- A session in the hands of a handler. -/
structure Config where
  session : Session
  outside : Outside
  consumed : Nat := 0
  phase : Phase := .idle
  clientFresh : Bool := true
  upstreamFresh : Bool := true
  unframed : Bytes := []

namespace Config

/-- The same point of the handler with a changed session and surroundings. -/
def next (c : Config) (s : Session) (w : Outside) : Config := { c with session := s, outside := w }

def setSession (c : Config) (s : Session) : Config := { c with session := s }

def setOutside (c : Config) (w : Outside) : Config := { c with outside := w }

/-- The configuration after an event that leaves the session alone. -/
def noted (c : Config) (event : Event) : Config := c.setOutside (c.outside.note event)

def limits (c : Config) : LimitsConfig := c.session.limits

/-- The client socket may be read: at the beginning of the event because the
session is not paused or a TLS read is pending, later because the queue is
below its mark. -/
def MayRead (c : Config) : Prop :=
  (c.clientFresh = true ∧ (c.session.clientReadPaused = false ∨ c.session.tlsOperation = .read)) ∨
    c.session.toUpstream.size ≤ queuePauseBytes c.limits

/-- The upstream socket may be read, likewise. -/
def MayRecv (c : Config) : Prop :=
  (c.upstreamFresh = true ∧ c.session.upstreamReadPaused = false) ∨
    c.session.toClient.size ≤ queuePauseBytes c.limits

/-- The pause flags are up to date again. -/
def refreshed (c : Config) (s : Session) (w : Outside) : Config :=
  { c with session := s, outside := w, clientFresh := true, upstreamFresh := true }

/-- A reading that finds plaintext left in the TLS stream has left a note of it. -/
def Knows (c : Config) (reading : PressureReading) : Prop :=
  reading.tlsBufferDrained = false → Event.strandedPlaintext ∈ c.outside.log

/-- The line that ends at `newline` in the line buffer. -/
def line (c : Config) (newline : Nat) : Bytes :=
  (c.session.lineBuffer.drop c.consumed).take (newline - c.consumed)

end Config

namespace Session

/-- The two sessions differ at most in fields that no move depends on: traffic
tokens, the details of a TLS retry, armed events and connect cursors. -/
def Inert (s s' : Session) : Prop :=
  s' = { s with
    messageTokens := s'.messageTokens
    byteTokens := s'.byteTokens
    trafficUpdatedAt := s'.trafficUpdatedAt
    tlsDirection := s'.tlsDirection
    clientWriteRetryBytes := s'.clientWriteRetryBytes
    clientEvents := s'.clientEvents
    upstreamEvents := s'.upstreamEvents
    upstreamSourceSequence := s'.upstreamSourceSequence
    currentBackendAddress := s'.currentBackendAddress
    nextBackendAddress := s'.nextBackendAddress
    backendAddressesRemaining := s'.backendAddressesRemaining
    currentAddressSourcesRemaining := s'.currentAddressSourcesRemaining
    connectCandidatesRemaining := s'.connectCandidatesRemaining
    queueLimitExceeded := s'.queueLimitExceeded }

/-- What is put before the queue when the session becomes a relay. -/
def headerFor (s : Session) (backend : Backend) : Bytes :=
  if backend.sendProxyV2 then s.proxyHeader.view else []

/-- The session has become a relay. -/
def relayed (s : Session) (backend : Backend) : Session :=
  { s with
    toUpstream := s.toUpstream.prepend (s.headerFor backend)
    stage := .relay
    timeoutGeneration := s.timeoutGeneration + 1
    backendCounted := true }

/-- The TLS handshake is complete. -/
def greeted (s : Session) (now : Nat) : Session :=
  { s with
    tlsOperation := .none
    stage := .firstMessage
    deadline := afterSeconds now s.limits.firstMessageTimeoutSeconds
    timeoutGeneration := s.timeoutGeneration + 1 }

/-- The stall deadline, set where a stall begins. -/
def withStall (s : Session) (now : Nat) : Session :=
  { s with stallDeadline := if s.stalled then now + kRelayStallTimeout else s.stallDeadline }

/-- Commit the accepted lines. -/
def commit (s : Session) (consumed : Nat) : Session :=
  { s with
    toUpstream := s.toUpstream.append (s.lineBuffer.take consumed)
    lineBuffer := s.lineBuffer.drop consumed }

/-- Cut a refused line out of the buffer. -/
def cutLine (s : Session) (newline : Nat) : Session :=
  { s with
    lineBuffer := s.lineBuffer.drop (newline + 1)
    consecutiveProtocolErrors := s.consecutiveProtocolErrors + 1 }

end Session

/-- A backend was selected, or there was none. -/
def Config.chose (c : Config) (backend : Option Backend) : Config :=
  { c with
    session := { c.session with backend := backend }
    outside := (c.outside.note .routed).note .selected
    phase := .routed }

/-- The stage of connecting has begun. -/
def Config.beganConnect (c : Config) (selection : Nat) : Config :=
  { c with
    session := c.session.openConnect selection c.outside.clock
    phase := .scanning }

variable (json : Glaze)

/-- The verdict of `validate_request` on the line that ends at `newline`. -/
def Config.verdict (c : Config) (newline : Nat) : Except ValidationError RequestMethod :=
  Validator.validateRequest json (c.line newline) c.session.protocolState
    c.session.runtime.protocol

/-- A complete line of admissible length stands behind the mark. -/
def Config.LineAt (c : Config) (newline : Nat) : Prop :=
  findNewline c.session.lineBuffer c.consumed = some newline ∧
    newline - c.consumed ≤ c.limits.maxLineBytes

/-- One move of the code of a session. -/
inductive Move : Config → Config → Prop where
  -- the clock, and fields nothing depends on
  | tick (c : Config) (time : Nat) (h : c.outside.clock ≤ time) :
      Move c (c.setOutside { c.outside with clock := time })
  | note (c : Config) (event : Event)
      (h : event = .strandedPlaintext ∨ event = .protocolError .truncatedLine) :
      Move c (c.noted event)
  | inert (c : Config) (s : Session) (h : c.session.Inert s) : Move c (c.setSession s)
  | touch (c : Config) : Move c (c.setSession (c.session.touch c.outside.clock))
  | tls (c : Config) (operation : TlsOperation)
      (h : operation = .read → c.phase = .reading ∧ c.session.ssl = true) :
      Move c (c.setSession { c.session with tlsOperation := operation })
  -- reading the client
  | startRead (c : Config) (hphase : c.phase = .idle) (h : c.MayRead) :
      Move c { c with phase := .reading }
  | endRead (c : Config) (hphase : c.phase = .reading) (hnothing : c.unframed = []) :
      Move c { c with phase := .idle }
  | closeClient (c : Config) (hphase : c.phase = .reading) :
      Move c (c.setSession { c.session with clientReadClosed := true })
  | hear (c : Config) (chunk : Chunk) (hphase : c.phase = .reading) (hnothing : c.unframed = []) :
      Move c { c with
        outside := c.outside.note (.heard chunk.bytes)
        unframed := chunk.bytes }
  | receive (c : Config) (chunk : Chunk) (hphase : c.phase = .reading)
      (hread : c.session.tlsOperation ≠ .read) (hchunk : c.unframed = chunk.bytes) :
      Move c { c with
        session := { c.session with lineBuffer := c.session.lineBuffer ++ chunk.bytes }
        outside := (c.outside.hold chunk.bytes.length).note (.framed chunk.bytes)
        phase := .scanning
        clientFresh := false
        unframed := [] }
  | refuseTraffic (c : Config) (hphase : c.phase = .reading) :
      Move c { c with outside := c.outside.note .overTraffic, phase := .closing .trafficLimit }
  -- cutting lines
  | acceptLine (c : Config) (newline : Nat) (method : RequestMethod) (hphase : c.phase = .scanning)
      (hline : c.LineAt newline) (hok : c.verdict json newline = .ok method)
      (hlater : c.session.protocolState.receivedMessage = true) :
      Move c { c with session := c.session.acceptLine method, consumed := newline + 1 }
  | acceptInitial (c : Config) (newline : Nat) (method : RequestMethod)
      (hphase : c.phase = .scanning) (hline : c.LineAt newline)
      (hok : c.verdict json newline = .ok method)
      (hfirst : c.session.protocolState.receivedMessage = false) :
      Move c { c with
        session := c.session.acceptLine method
        consumed := newline + 1
        phase := .opening }
  | refuseLine (c : Config) (newline : Nat) (error : ValidationError)
      (hphase : c.phase = .scanning) (hcommitted : c.consumed = 0) (hline : c.LineAt newline)
      (hbad : c.verdict json newline = .error error)
      (hlater : c.session.protocolState.receivedMessage = true)
      (hfew : c.session.consecutiveProtocolErrors + 1 ≤ kMaximumConsecutiveProtocolErrors) :
      Move c { c with
        session := c.session.cutLine newline
        outside := (c.outside.note (.protocolError .refusedLine)).unhold (newline + 1) }
  | strike (c : Config) (newline : Nat) (error : ValidationError) (errors : Nat) (exit : Exit)
      (hphase : c.phase = .scanning) (hline : c.LineAt newline)
      (hbad : c.verdict json newline = .error error)
      (hexit : (exit = .refusedLine ∧ (c.session.protocolState.receivedMessage = false ∨
        kMaximumConsecutiveProtocolErrors < c.session.consecutiveProtocolErrors + 1)) ∨
        (exit = .queueLimit ∧ c.limits.maxBufferBytes < c.session.toUpstream.size + c.consumed)) :
      Move c { c with
        session := { c.session with consecutiveProtocolErrors := errors }
        outside := c.outside.note (.protocolError .refusedLine)
        phase := .closing exit }
  | oversize (c : Config) (newline : Nat) (hphase : c.phase = .scanning)
      (hline : findNewline c.session.lineBuffer c.consumed = some newline)
      (hlong : c.limits.maxLineBytes < newline - c.consumed) :
      Move c { c with
        outside := c.outside.note (.protocolError .oversizedLine)
        phase := .closing .oversizedLine }
  | commit (c : Config) (hpos : 0 < c.consumed) (hphase : c.phase ≠ .reading)
      (hfits : c.session.toUpstream.size + c.consumed ≤ c.limits.maxBufferBytes) :
      Move c { c with session := c.session.commit c.consumed, consumed := 0 }
  | overflow (c : Config) (exit : Exit) (hpos : 0 < c.consumed)
      (hphase : c.phase = .scanning ∧ exit = .queueLimit ∨ c.phase = .closing exit)
      (hfull : c.limits.maxBufferBytes < c.session.toUpstream.size + c.consumed) :
      Move c { c with
        outside := c.outside.note (.protocolError .commitRefused)
        phase := .closing exit }
  | endScan (c : Config) (hphase : c.phase = .scanning) (hcommitted : c.consumed = 0)
      (hnone : findNewline c.session.lineBuffer 0 = none)
      (hshort : c.session.lineBuffer.length ≤ c.limits.maxLineBytes) :
      Move c { c with phase := .idle }
  | oversizedTail (c : Config) (hphase : c.phase = .scanning) (hcommitted : c.consumed = 0)
      (hnone : findNewline c.session.lineBuffer 0 = none)
      (hlong : c.limits.maxLineBytes < c.session.lineBuffer.length) :
      Move c { c with
        outside := c.outside.note (.protocolError .oversizedTail)
        phase := .closing .oversizedTail }
  | overfull (c : Config) (hphase : c.phase = .scanning) (hcommitted : c.consumed = 0)
      (hfull : c.limits.maxBufferBytes < c.session.toUpstream.size) :
      Move c { c with
        outside := c.outside.note (.protocolError .overfullQueue)
        phase := .closing .queueLimit }
  -- connecting
  | route (c : Config) (backend : Option Backend) (hphase : c.phase = .opening) :
      Move c (c.chose backend)
  | openConnect (c : Config) (selection : Nat) (hphase : c.phase = .routed)
      (hbackend : c.session.backend.isSome) :
      Move c (c.beganConnect selection)
  | giveUp (c : Config) (exit : Exit) (hphase : c.phase = .routed ∨ c.phase = .scanning)
      (hstage : c.session.stage ≠ .relay)
      (hexit : exit = .noBackend ∨ exit = .connectFailed ∨ exit = .queueBudget) :
      Move c { c with phase := .closing exit }
  | attempt (c : Config) (backend : Backend) (hstage : c.session.stage = .upstreamConnect)
      (hbackend : c.session.backend = some backend) :
      Move c (c.noted (.attempted backend.ref))
  | openSocket (c : Config) (socket : Nat) (hstage : c.session.stage = .upstreamConnect)
      (hclosed : c.session.upstream = none) :
      Move c (c.noted (.opened socket))
  | adopt (c : Config) (socket : Nat) (hstage : c.session.stage = .upstreamConnect)
      (hclosed : c.session.upstream = none) :
      Move c (c.next (c.session.adopt socket c.outside.clock)
        (c.outside.schedule c.session.id (c.session.timeoutGeneration + 1)
          (c.session.adopt socket c.outside.clock).timeoutDeadline))
  | finish (c : Config) (socket : Nat) (backend : Backend)
      (hphase : c.phase = .idle ∨ c.phase = .scanning)
      (hstage : c.session.stage = .upstreamConnect) (hsocket : c.session.upstream = some socket)
      (hbackend : c.session.backend = some backend) :
      Move c { c with
        session := c.session.relayed backend
        outside :=
          { ((c.outside.hold (c.session.headerFor backend).length).schedule c.session.id
              (c.session.timeoutGeneration + 1)
              (c.session.relayed backend).timeoutDeadline).note
                (.relayed backend.ref (some socket)) with
            entered := (backend.ref, c.session.id) :: c.outside.entered } }
  | dropUpstream (c : Config) : Move c (c.setSession c.session.dropUpstream)
  -- relaying
  | push (c : Config) (socket count : Nat) (hstage : c.session.stage = .relay)
      (hsocket : c.session.upstream = some socket) (hcount : count ≤ c.session.toUpstream.size) :
      Move c (c.next { c.session with toUpstream := c.session.toUpstream.consume count }
        ((c.outside.note (.wroteUpstream socket (c.session.toUpstream.bytes.take count))).unhold
          count))
  | poolBytes (c : Config) (socket : Nat) (chunk : Chunk) (hphase : c.phase = .idle)
      (hstage : c.session.stage = .relay) (hsocket : c.session.upstream = some socket)
      (h : c.MayRecv) :
      Move c { c with
        session := { c.session with toClient := c.session.toClient.append chunk.bytes }
        outside := (c.outside.note (.received chunk.bytes)).hold chunk.bytes.length
        upstreamFresh := false }
  | poolLost (c : Config) (bytes : Bytes) (hphase : c.phase = .idle) :
      Move c { c with
        outside := c.outside.note (.received bytes)
        phase := .closing .queueBudget }
  | poolClosed (c : Config) :
      Move c (c.setSession { c.session with upstreamReadClosed := true })
  | wrote (c : Config) (count : Nat) (hcount : count ≤ c.session.toClient.size) :
      Move c (c.next { c.session with toClient := c.session.toClient.consume count }
        ((c.outside.note (.wroteClient (c.session.toClient.bytes.take count))).unhold count))
  -- flags and timers
  | keepPause (c : Config) (reading : PressureReading) (hphase : c.phase = .idle)
      (hdrained : c.Knows reading)
      (hsame : (c.session.withPause reading).stalled = c.session.stalled) :
      Move c (c.refreshed (c.session.withPause reading) c.outside)
  | changeStall (c : Config) (reading : PressureReading) (hphase : c.phase = .idle)
      (hdrained : c.Knows reading) (hstage : c.session.stage ≠ .relay)
      (hchange : (c.session.withPause reading).stalled ≠ c.session.stalled) :
      Move c (c.refreshed ((c.session.withPause reading).withStall c.outside.clock) c.outside)
  | changeRelayStall (c : Config) (reading : PressureReading) (hphase : c.phase = .idle)
      (hdrained : c.Knows reading) (hstage : c.session.stage = .relay)
      (hchange : (c.session.withPause reading).stalled ≠ c.session.stalled) :
      Move c (c.refreshed ((c.session.withPause reading).withStall c.outside.clock).bump
        (c.outside.schedule c.session.id (c.session.timeoutGeneration + 1)
          ((c.session.withPause reading).withStall c.outside.clock).timeoutDeadline))
  | greet (c : Config) (hstage : c.session.stage = .tlsHandshake) :
      Move c (c.next (c.session.greeted c.outside.clock)
        (c.outside.schedule c.session.id (c.session.timeoutGeneration + 1)
          (c.session.greeted c.outside.clock).deadline))
  | reschedule (c : Config) :
      Move c (c.setOutside (c.outside.schedule c.session.id c.session.timeoutGeneration
        c.session.timeoutDeadline))

/-- Any number of moves. -/
def Follows : Config → Config → Prop := Relation.ReflTransGen (Move json)

variable {json} {c c' c'' : Config}

theorem Follows.refl (c : Config) : Follows json c c := Relation.ReflTransGen.refl

theorem Follows.trans (h : Follows json c c') (h' : Follows json c' c'') : Follows json c c'' :=
  Relation.ReflTransGen.trans h h'

/-- One move. -/
theorem Move.follows (h : Move json c c') : Follows json c c' := Relation.ReflTransGen.single h

/-- **The rule of invariants**: what every move keeps, every sequence of moves
keeps. -/
theorem Follows.invariant {P : Config → Prop} (h : Follows json c c')
    (hmove : ∀ c c', Move json c c' → P c → P c') (hc : P c) : P c' := by
  induction h with
  | refl => exact hc
  | tail _ hstep ih => exact hmove _ _ hstep ih

/-! ## What a session is always like -/

/-- The stages in which a session has a backend. -/
def SessionStage.Backed (stage : SessionStage) : Prop :=
  stage = .upstreamConnect ∨ stage = .relay

/-- Only a relay is counted at its backend. -/
def Session.CountedInRelay (s : Session) : Prop := s.backendCounted = true → s.stage = .relay

/-- What holds at every point of a handler: the session's share of the ledger
is its queues, `others` bytes being held for the rest of the worker, a
socket, a backend and the stage go together, only a relay is counted at its
backend, and bytes that are not in the line buffer yet are those of the read
under way. -/
structure Config.Sane (others : Nat) (c : Config) : Prop where
  balanced : c.outside.held = others + c.session.queuedBytes
  socket_backed : c.session.upstream.isSome → c.session.stage.Backed
  backed_backend : c.session.stage.Backed → c.session.backend.isSome
  silent_unbacked : c.session.protocolState.receivedMessage = false → ¬ c.session.stage.Backed
  opening_unbacked : c.phase = .opening ∨ c.phase = .routed →
    ¬ c.session.stage.Backed ∧ c.session.protocolState.receivedMessage = true
  plain_reads : c.session.ssl = false → c.session.tlsOperation ≠ .read
  unframed_reads : c.unframed ≠ [] → c.phase = .reading ∨ c.phase = .closing .trafficLimit
  counted : c.session.CountedInRelay

@[simp] theorem not_backed_firstMessage : ¬ SessionStage.firstMessage.Backed := by
  simp [SessionStage.Backed]

@[simp] theorem not_backed_tlsHandshake : ¬ SessionStage.tlsHandshake.Backed := by
  simp [SessionStage.Backed]

@[simp] theorem backed_upstreamConnect : SessionStage.upstreamConnect.Backed := .inl rfl

@[simp] theorem backed_relay : SessionStage.relay.Backed := .inr rfl

/-- What leaves a queue is taken off the ledger, and what enters is put there. -/
theorem Move.balanced {others : Nat} (h : Move json c c')
    (hc : c.outside.held = others + c.session.queuedBytes) :
    c'.outside.held = others + c'.session.queuedBytes := by
  unfold Session.queuedBytes at hc ⊢
  cases h with
  | inert s h =>
      rw [h]
      exact hc
  | receive chunk =>
      simp only [Outside.hold, Outside.note, List.length_append]
      omega
  | refuseLine newline error _ hcommitted hline =>
      have hlt := findNewline_lt hline.1
      simp only [Outside.unhold, Outside.note, Session.cutLine, List.length_drop]
      omega
  | commit =>
      simp only [Session.commit, PendingBuffer.size_append, List.length_take, List.length_drop]
      omega
  | finish =>
      simp only [Outside.hold, Outside.note, Outside.schedule, Session.relayed,
        PendingBuffer.size_prepend]
      omega
  | push socket count _ _ hcount =>
      simp only [Config.next, Outside.unhold, Outside.note, PendingBuffer.size_consume]
      omega
  | poolBytes =>
      simp only [Outside.hold, Outside.note, PendingBuffer.size_append]
      omega
  | wrote count hcount =>
      simp only [Config.next, Outside.unhold, Outside.note, PendingBuffer.size_consume]
      omega
  | _ => exact hc

/-- The stage changes by three moves only; a session that has a backend keeps
one, and a session without one has no socket. -/
theorem Move.socket_backed (h : Move json c c')
    (hc : c.session.upstream.isSome → c.session.stage.Backed) :
    c'.session.upstream.isSome → c'.session.stage.Backed := by
  cases h with
  | inert s h =>
      rw [h]
      exact hc
  | openConnect => exact fun _ => .inl rfl
  | adopt socket hstage => exact fun _ => .inl hstage
  | finish => exact fun _ => .inr rfl
  | greet hstage =>
      intro hsome
      have hbacked := hc hsome
      rw [hstage] at hbacked
      exact absurd hbacked not_backed_tlsHandshake
  | dropUpstream =>
      intro hsome
      simp [Config.setSession, Session.dropUpstream] at hsome
  | _ => exact hc

/-- A stage with a pool is reached with a backend. -/
theorem Move.backed_backend {others : Nat} (h : Move json c c') (hc : c.Sane others) :
    c'.session.stage.Backed → c'.session.backend.isSome := by
  cases h with
  | inert s h =>
      rw [h]
      exact hc.backed_backend
  | route backend hphase => exact fun hbacked => absurd hbacked (hc.opening_unbacked (.inl hphase)).1
  | openConnect selection hphase hbackend => exact fun _ => hbackend
  | finish socket backend _ hstage _ hbackend =>
      intro _
      exact hc.backed_backend (.inl hstage)
  | greet => exact fun hbacked => absurd hbacked not_backed_firstMessage
  | _ => exact hc.backed_backend

/-- And not before the first line. -/
theorem Move.silent_unbacked {others : Nat} (h : Move json c c') (hc : c.Sane others) :
    c'.session.protocolState.receivedMessage = false → ¬ c'.session.stage.Backed := by
  cases h with
  | inert s h =>
      rw [h]
      exact hc.silent_unbacked
  | acceptLine newline method =>
      intro hsilent
      simp [Session.acceptLine, Validator.recordRequest_receivedMessage] at hsilent
  | acceptInitial newline method =>
      intro hsilent
      simp [Session.acceptLine, Validator.recordRequest_receivedMessage] at hsilent
  | openConnect selection hphase =>
      intro hsilent
      have hreceived := (hc.opening_unbacked (.inr hphase)).2
      exact absurd (hreceived.symm.trans hsilent) (by decide)
  | finish socket backend _ hstage =>
      intro hsilent
      exact absurd (.inl hstage) (hc.silent_unbacked hsilent)
  | greet => exact fun _ => not_backed_firstMessage
  | _ => exact hc.silent_unbacked

/-- While the first line leads to a backend there is no pool yet. -/
theorem Move.opening_unbacked {others : Nat} (h : Move json c c') (hc : c.Sane others) :
    c'.phase = .opening ∨ c'.phase = .routed →
      ¬ c'.session.stage.Backed ∧ c'.session.protocolState.receivedMessage = true := by
  cases h with
  | inert s h =>
      rw [h]
      exact hc.opening_unbacked
  | acceptLine newline method hphase =>
      intro hopening
      simp [hphase] at hopening
  | acceptInitial newline method _ _ _ hfirst =>
      exact fun _ => ⟨hc.silent_unbacked hfirst, Validator.recordRequest_receivedMessage _ _⟩
  | route backend hphase => exact fun _ => hc.opening_unbacked (.inl hphase)
  | finish socket backend hphase =>
      intro hopening
      rcases hphase with hphase | hphase <;> simp [hphase] at hopening
  | greet hstage =>
      intro hopening
      exact ⟨not_backed_firstMessage, (hc.opening_unbacked hopening).2⟩
  | startRead | endRead | receive | refuseTraffic | strike | oversize | overflow | endScan
  | oversizedTail | overfull | openConnect | giveUp | poolLost =>
      intro hopening
      simp [Config.beganConnect] at hopening
  | _ => exact hc.opening_unbacked

/-- A plain session never waits for a TLS read. -/
theorem Move.plain_reads (h : Move json c c')
    (hc : c.session.ssl = false → c.session.tlsOperation ≠ .read) :
    c'.session.ssl = false → c'.session.tlsOperation ≠ .read := by
  cases h with
  | inert s h =>
      rw [h]
      exact hc
  | tls operation h =>
      intro hplain hread
      exact absurd (hplain.symm.trans (h hread).2) Bool.false_ne_true
  | greet => exact fun _ => TlsOperation.noConfusion
  | _ => exact hc

/-- Only a refusal ends a read with bytes in hand. -/
theorem Move.unframed_reads (h : Move json c c')
    (hc : c.unframed ≠ [] → c.phase = .reading ∨ c.phase = .closing .trafficLimit) :
    c'.unframed ≠ [] → c'.phase = .reading ∨ c'.phase = .closing .trafficLimit := by
  cases h with
  | startRead => exact fun _ => .inl rfl
  | endRead _ hnothing => exact fun hbytes => absurd hnothing hbytes
  | hear chunk hphase => exact fun _ => .inl hphase
  | receive => exact fun hbytes => absurd rfl hbytes
  | refuseTraffic => exact fun _ => .inr rfl
  | acceptLine | acceptInitial | refuseLine | strike | oversize | endScan | oversizedTail
  | overfull | route | openConnect | poolLost =>
      intro hbytes
      have hold := hc hbytes
      simp_all
  | overflow exit _ hphase =>
      intro hbytes
      have hold := hc hbytes
      rcases hphase with ⟨hphase, _⟩ | hphase
      · simp [hphase] at hold
      · rw [hphase] at hold
        exact hold
  | giveUp exit hphase =>
      intro hbytes
      have hold := hc hbytes
      rcases hphase with hphase | hphase <;> simp [hphase] at hold
  | _ => exact hc

/-- A session is counted at its backend in the same move in which it becomes a relay. -/
theorem Move.countedInRelay {others : Nat} (h : Move json c c') (hsane : c.Sane others) :
    c'.session.CountedInRelay := by
  cases h with
  | inert s h =>
      rw [h]
      exact hsane.counted
  | openConnect selection hphase =>
      intro hcounted
      have hbacked : c.session.stage.Backed := .inr (hsane.counted hcounted)
      exact absurd hbacked (hsane.opening_unbacked (.inr hphase)).1
  | finish => exact fun _ => rfl
  | greet hstage =>
      intro hcounted
      have hrelay := hsane.counted hcounted
      rw [hstage] at hrelay
      exact absurd hrelay (by decide)
  | _ => exact hsane.counted

/-- **Every move keeps a session sane.** -/
theorem Move.sane {others : Nat} (h : Move json c c') (hc : c.Sane others) : c'.Sane others where
  balanced := h.balanced hc.balanced
  socket_backed := h.socket_backed hc.socket_backed
  backed_backend := h.backed_backend hc
  silent_unbacked := h.silent_unbacked hc
  opening_unbacked := h.opening_unbacked hc
  plain_reads := h.plain_reads hc.plain_reads
  unframed_reads := h.unframed_reads hc.unframed_reads
  counted := h.countedInRelay hc

/-- Between two reads nothing is in hand. -/
theorem Config.Sane.nothing_unframed {others : Nat} (h : c.Sane others) (hphase : c.phase = .idle) :
    c.unframed = [] := by
  by_contra hbytes
  have hreads := h.unframed_reads hbytes
  simp [hphase] at hreads

/-- A session that is connecting is not counted yet. -/
theorem Config.Sane.uncounted {others : Nat} (h : c.Sane others)
    (hstage : c.session.stage = .upstreamConnect) : c.session.backendCounted = false := by
  by_contra hcounted
  rw [Bool.not_eq_false] at hcounted
  have hrelay := h.counted hcounted
  rw [hstage] at hrelay
  exact absurd hrelay (by decide)

theorem Follows.sane {others : Nat} (h : Follows json c c') (hc : c.Sane others) :
    c'.Sane others :=
  h.invariant (fun _ _ hmove hsane => hmove.sane hsane) hc

/-- The limits, the protocol and the header of a session never change. -/
theorem Move.frame (h : Move json c c') : c'.session.runtime = c.session.runtime ∧
    c'.session.proxyHeader = c.session.proxyHeader ∧ c'.session.id = c.session.id := by
  cases h with
  | inert s h =>
      rw [h]
      exact ⟨rfl, rfl, rfl⟩
  | _ => exact ⟨rfl, rfl, rfl⟩

/-- The configuration, the header and the id of a session are for life. -/
theorem Follows.frame (h : Follows json c c') : c'.session.runtime = c.session.runtime ∧
    c'.session.proxyHeader = c.session.proxyHeader ∧ c'.session.id = c.session.id := by
  refine h.invariant (P := fun c' => c'.session.runtime = c.session.runtime ∧
    c'.session.proxyHeader = c.session.proxyHeader ∧ c'.session.id = c.session.id) ?_ ⟨rfl, rfl, rfl⟩
  intro d d' hmove hd
  obtain ⟨hruntime, hheader, hid⟩ := hmove.frame
  exact ⟨hruntime.trans hd.1, hheader.trans hd.2.1, hid.trans hd.2.2⟩

/-- And so are its limits. -/
theorem Follows.limits_eq (h : Follows json c c') : c'.session.limits = c.session.limits :=
  congrArg RuntimeSnapshot.limits h.frame.1

end PoolLb
