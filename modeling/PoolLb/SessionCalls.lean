import PoolLb.ConnectSteps
import PoolLb.SessionFrames

/-!
# The calls that the code of a session makes

Code that works on one session never touches the books of the worker that count sessions:
the slots, the leases, the table, the listeners.  `ReactorCall.OfSession` lists the calls that
it does make, but for the two with which it enters a backend: it writes the stage of the session
and a little later counts it.  In between it only sets the timer.

`Passage` is how far the code is with that, and `sessionCode` the world that demands the order.
`Local` says of a piece of code that it makes no other calls, in no other order and whatever the
answers are, and that it keeps what the session is known by.  It is shown function by function,
up to `Session.handle`.
-/

namespace PoolLb

open Interaction Handler

/-- The calls of code that works on one session, but for those that enter it at a backend. -/
def ReactorCall.OfSession : ReactorCall → Prop
  | .now | .nextRouteSequence | .nextSourceSequence | .reserveQueuedBytes _
  | .releaseQueuedBytes _ | .loadQueuedBytes | .loadQueuedBytesLimit | .count _ _
  | .recordProtocolError _ _ | .viewBackends | .backendAttempt _ | .backendError _
  | .consumeTraffic _ _ _ _ _ | .recvClient _ | .sendClient _ _
  | .startConnect _ _ | .socketError _ | .recvUpstream _ | .sendUpstream _ _ | .closeSocket _
  | .sslAccept _ | .sslRead _ | .sslWrite _ _ | .sslPending _ | .epollAdd _ _ _
  | .epollModify _ _ _ | .epollDelete _ | .scheduleTimer _ _ _ => True
  | _ => False

/-- The calls that enter a session at a backend. -/
def ReactorCall.Enters : ReactorCall → Prop
  | .writeRelayStage _ _ _ | .backendEnter _ _ _ => True
  | _ => False

/-- Where a worker stands between the stage of a session and the count of its backend. -/
inductive Window where
  /-- The two agree. -/
  | shut
  /-- The session is a relay, and the backend does not count it yet. -/
  | entering (backend session : Nat)
  /-- The backend does not count the session any more, and the session is still in the table. -/
  | leaving (backend session : Nat)
deriving DecidableEq

/-- How far a session is on its way to a backend. -/
structure Passage where
  window : Window := .shut
  /-- The session is counted at a backend. -/
  counted : Bool

/-- What the code of the session `id` may call. -/
def Passage.requires (id : Nat) (passage : Passage) : ReactorCall → Prop
  | .writeRelayStage session _ counted =>
      passage.window = .shut ∧ session = id ∧ counted = passage.counted
  | .backendEnter backend session _ => passage.window = .entering backend session
  | .scheduleTimer session _ _ =>
      passage.window = .shut ∨ ∃ backend, passage.window = .entering backend session
  | c => passage.window = .shut ∧ c.OfSession

def Passage.after (passage : Passage) : ReactorCall → Passage
  | .writeRelayStage session (some backend) _ =>
      { passage with window := .entering backend session }
  | .backendEnter _ _ _ => { window := .shut, counted := true }
  | _ => passage

/-- The code of a session, as far as entering a backend goes. -/
def sessionCode (id : Nat) : World reactorCalls Passage where
  requires := Passage.requires id
  allows _ _ _ := True
  after passage c _ := passage.after c

/-- What a session is known by. -/
def Session.badge (s : Session) : Nat × Option Nat := (s.id, s.admission)

/-- The same, and whether its backend counts it. -/
def Session.mark (s : Session) : (Nat × Option Nat) × Bool := (s.badge, s.backendCounted)

/-- The session is not on its way to a backend. -/
def Session.passage (s : Session) : Passage := { counted := s.backendCounted }

/-- The code has kept what the session was known by, and is through with any backend. -/
def Session.Leads {α : Type} (s : Session) (_ : α) (s' : Session) (passage : Passage) : Prop :=
  s'.badge = s.badge ∧ passage = s'.passage

/-- The code makes only the calls of a session, enters at most one backend, and keeps the id and
the lease of the session. -/
def Local {α : Type} (m : SessionM α) : Prop :=
  ∀ s, Holds (sessionCode s.id) s s.passage m s.Leads s.Leads

/-- A call of a session does not enter it at a backend. -/
theorem ReactorCall.OfSession.passes {c : ReactorCall} (h : c.OfSession) (s : Session) :
    s.passage.requires s.id c ∧ s.passage.after c = s.passage := by
  cases c with
  | writeRelayStage session backend counted => exact h.elim
  | backendEnter backend session socket => exact h.elim
  | scheduleTimer session generation deadline => exact ⟨.inl rfl, rfl⟩
  | _ => exact ⟨⟨rfl, h⟩, rfl⟩

section

variable {α β : Type}

theorem local_pure (a : α) : Local (pure a) := fun _ => ⟨rfl, rfl⟩

theorem local_stop (e : Exit) : Local (stop e : SessionM α) := fun _ => ⟨rfl, rfl⟩

theorem local_current : Local current := fun _ => ⟨rfl, rfl⟩

/-- A change of the session that does not concern its backend. -/
theorem local_modify {g : Session → Session} (h : ∀ s, (g s).mark = s.mark) : Local (modify g) := by
  intro s
  refine ⟨congrArg Prod.fst (h s), ?_⟩
  have hcounted : (g s).backendCounted = s.backendCounted := congrArg Prod.snd (h s)
  unfold Session.passage
  rw [hcounted]

theorem local_query {c : ReactorCall} (h : c.OfSession) : Local (query c) := fun s =>
  ⟨(h.passes s).1, fun _ _ => ⟨rfl, (h.passes s).2⟩⟩

/-- One piece of code after the other. -/
theorem Local.bind {m : SessionM α} {f : α → SessionM β} (hm : Local m) (hf : ∀ a, Local (f a)) :
    Local (m >>= f) := by
  intro s
  apply (hm s).bind
  intro a s' passage hled
  obtain ⟨hbadge, rfl⟩ := hled
  have hid : s'.id = s.id := congrArg Prod.fst hbadge
  have hnext := hf a s'
  rw [hid] at hnext
  exact hnext.mono (fun _ _ _ h => ⟨h.1.trans hbadge, h.2⟩) fun _ _ _ h => ⟨h.1.trans hbadge, h.2⟩

/-- Catching a stop adds no call. -/
theorem Local.attempt {m : SessionM α} (hm : Local m) : Local (Handler.attempt m) :=
  fun s => holds_attempt (hm s)

theorem local_modify_bind {g : Session → Session} {f : Unit → SessionM α}
    (h : ∀ s, (g s).mark = s.mark) (hf : ∀ r, Local (f r)) : Local (modify g >>= f) :=
  (local_modify h).bind hf

theorem local_query_bind {c : ReactorCall} {f : c.Answer → SessionM α} (h : c.OfSession)
    (hf : ∀ r, Local (f r)) : Local (query c >>= f) := (local_query h).bind hf

theorem local_ite {p : Prop} [Decidable p] {m m' : SessionM α} (h : Local m) (h' : Local m') :
    Local (if p then m else m') := by
  split
  · exact h
  · exact h'

/-- Whatever the order, these are the calls. -/
theorem Local.stays {m : SessionM α} (h : Local m) (s : Session) :
    Stays (fun c : ReactorCall => c.OfSession ∨ c.Enters)
      (fun outcome => outcome.2.badge = s.badge) (m s) := by
  refine Ensures.stays (M := sessionCode s.id) (fun _ _ _ => trivial) (fun passage c hc => ?_)
    (Ensures.mono (h s) fun outcome _ hled => ?_)
  · cases c with
    | writeRelayStage session backend counted => exact .inr trivial
    | backendEnter backend session socket => exact .inr trivial
    | scheduleTimer session generation deadline => exact .inl trivial
    | _ => exact .inl hc.2
  · obtain ⟨r, s'⟩ := outcome
    cases r with
    | ok _ => exact hled.1
    | error _ => exact hled.1

end

/-! ## Traffic and tidying up -/

/-- Code that keeps the mark of a session and makes only its calls does not concern a backend. -/
theorem local_of_framed {α : Type} {X : Exit → Prop} {m : SessionM α}
    (h : Framed ReactorCall.OfSession Session.mark (fun _ => True) X m) : Local m := by
  intro s
  have hstill := (h s trivial).keeps (M := sessionCode s.id)
    (I := fun passage => passage = s.passage)
    (fun passage c hpassage hc => by
      subst hpassage
      obtain ⟨hrequires, hafter⟩ := hc.passes s
      exact ⟨hrequires, fun _ _ => hafter⟩) rfl
  apply Ensures.mono hstill
  intro outcome passage hout
  obtain ⟨r, s'⟩ := outcome
  obtain ⟨⟨hmark, -⟩, rfl⟩ := hout
  have hcounted : s.backendCounted = s'.backendCounted := congrArg Prod.snd hmark.symm
  have hled : s'.badge = s.badge ∧ s.passage = s'.passage := by
    refine ⟨congrArg Prod.fst hmark, ?_⟩
    unfold Session.passage
    rw [hcounted]
  cases r with
  | ok a => exact hled
  | error e => exact hled

/-- Traffic takes only calls of the session. -/
theorem ReactorCall.Traffic.ofSession {c : ReactorCall} (h : c.Traffic) : c.OfSession := by
  cases c <;> trivial

/-- **Traffic does not concern a backend**, since the mark is part of the standing. -/
theorem Carries.isLocal {α : Type} {m : SessionM α} (h : Carries m) : Local m :=
  local_of_framed (X := fun _ => True) <| h.part
    (f := fun standing => ((standing.id, standing.admission), standing.backendCounted))
    (fun _ hc => hc.ofSession) (fun _ => rfl) fun _ _ => trivial

/-- The handshake calls the stream, and when it is done the clock and the timer. -/
theorem driveTlsHandshake_local : Local driveTlsHandshake := by
  refine local_current.bind fun s => local_query_bind trivial fun answer => ?_
  cases answer with
  | done =>
      exact local_query_bind trivial fun _ => local_modify_bind (fun _ => rfl) fun _ =>
        local_query_bind trivial fun _ => local_query_bind trivial fun _ =>
          scheduleTimeout_forwards.carries.isLocal
  | wantRead => exact local_modify fun _ => rfl
  | wantWrite => exact local_modify fun _ => rfl
  | interrupted =>
      refine local_modify fun s => ?_
      split
      · rfl
      · rfl
  | failed => exact local_query_bind trivial fun _ => local_stop _

/-! ## Connecting -/

/-- Giving up an attempt takes only calls of the session. -/
theorem ReactorCall.Tidies.ofSession {c : ReactorCall} (h : c.Tidies) : c.OfSession := by
  cases c with
  | backendError backend => trivial
  | count counter amount => trivial
  | epollDelete socket => trivial
  | closeSocket socket => trivial
  | _ => exact h.elim

/-- A function that only tidies up does not concern the backend. -/
theorem local_of_tidies {α : Type} {m : SessionM α} {Q : Session → α → Session → Prop}
    (h : ∀ s, Completes ReactorCall.Tidies s m (Q s))
    (hQ : ∀ s a s', Q s a s' → s'.mark = s.mark) : Local m :=
  local_of_framed (X := fun _ => True) <| framed_of_yields
    (fun s _ => (h s).mono (fun a s' => hQ s a s') fun _ _ h => h.elim) fun _ hc => hc.ofSession

/-- An error is recorded at the backend that was tried. -/
theorem recordUpstreamError_local : Local recordUpstreamError :=
  local_of_tidies recordUpstreamError_yields fun _ _ _ h => h ▸ rfl

/-- The pool socket is deregistered and closed. -/
theorem discardUpstream_local : Local discardUpstream :=
  local_of_tidies discardUpstream_yields fun _ _ _ h => h ▸ rfl

/-- The PROXY header goes into the queue, with its bytes reserved. -/
theorem prependHeader_local : Local prependHeader :=
  local_current.bind fun _ => local_ite
    ((reserveQueuedBytes_forwards _).carries.isLocal.bind fun _ => local_ite
      (local_modify_bind (fun _ => rfl) fun _ => local_pure _) (local_pure _))
    (local_pure _)

/-- **The passage to a backend**: the stage, the timer, the count. -/
theorem enterRelay_local : Local enterRelay := by
  intro s
  cases hbackend : s.backend with
  | none =>
      refine holds_modify_bind (holds_current_bind (holds_ask_bind ⟨rfl, rfl, rfl⟩ fun _ _ => ?_))
      have hnone : (sessionCode s.id).after s.passage
          (.writeRelayStage s.id (s.backend.map Backend.ref) s.backendCounted) () = s.passage := by
        rw [hbackend]
        rfl
      rw [hnone]
      refine ⟨.inl rfl, fun _ _ => ?_⟩
      simp only [hbackend]
      exact ⟨rfl, rfl⟩
  | some backend =>
      refine holds_modify_bind (holds_current_bind (holds_ask_bind ⟨rfl, rfl, rfl⟩ fun _ _ => ?_))
      have hentering : (sessionCode s.id).after s.passage
          (.writeRelayStage s.id (s.backend.map Backend.ref) s.backendCounted) () =
            { s.passage with window := .entering backend.ref s.id } := by
        rw [hbackend]
        rfl
      rw [hentering]
      refine ⟨.inr ⟨backend.ref, rfl⟩, fun _ _ => ?_⟩
      simp only [hbackend]
      exact ⟨rfl, fun _ _ => ⟨rfl, rfl⟩⟩

/-- **The one place where a session enters a backend**: the stage, then the count, and only
the timer between them. -/
theorem finishUpstreamConnect_local : Local finishUpstreamConnect :=
  local_current.bind fun _ => local_query_bind trivial fun _ => local_ite (local_pure _) <|
    prependHeader_local.bind fun _ => local_ite (enterRelay_local.bind fun _ => local_pure _)
      (local_modify_bind (fun _ => rfl) fun _ => local_pure _)

/-- A connect that succeeds at once goes on into the relay. -/
theorem completeConnect_local (started : ConnectStart) : Local (completeConnect started) :=
  local_ite (local_pure _) <| finishUpstreamConnect_local.bind fun _ => local_ite (local_pure _) <|
    local_current.bind fun _ => local_ite (local_pure _) <| recordUpstreamError_local.bind fun _ =>
      discardUpstream_local.bind fun _ => local_pure _

/-- The new socket is registered, or closed if it cannot be. -/
theorem adoptSocket_local (started : ConnectStart) : Local (adoptSocket started) := by
  have hschedule : Local scheduleConnectAttemptTimeout :=
    local_query_bind trivial fun _ => local_modify_bind (fun _ => rfl) fun _ =>
      scheduleTimeout_forwards.carries.isLocal
  exact local_modify_bind (fun _ => rfl) fun _ => local_current.bind fun _ =>
    local_query_bind trivial fun _ =>
    local_ite
      (local_modify_bind (fun _ => rfl) fun _ => hschedule.bind fun _ => completeConnect_local started)
      (recordUpstreamError_local.bind fun _ => local_query_bind trivial fun _ =>
        local_modify_bind (fun _ => rfl) fun _ => local_pure _)

/-- One attempt, counted at its backend. -/
theorem tryCandidate_local (backend : Backend) (address : SocketAddress)
    (source : Option SocketAddress) : Local (tryCandidate backend address source) := by
  refine local_modify_bind (fun _ => rfl) fun _ => local_query_bind trivial fun _ =>
    local_query_bind trivial fun started => ?_
  cases started with
  | none => exact recordUpstreamError_local.bind fun _ => local_pure _
  | some started => exact adoptSocket_local started

theorem connectRounds_local (rounds : Nat) : Local (connectRounds rounds) := by
  induction rounds with
  | zero => exact local_stop _
  | succ rounds ih =>
      refine local_current.bind fun _ => local_query_bind trivial fun _ =>
        local_ite (local_stop _) <| local_modify_bind
          (fun s => s.seekAddress_view Session.mark (fun _ _ _ _ _ => rfl) _) fun _ =>
          local_current.bind fun s => local_ite (local_stop _) <|
            local_modify_bind (fun s => s.advanceSource_view Session.mark fun _ _ => rfl) fun _ => ?_
      cases s.candidate with
      | none => exact local_stop _
      | some attempt =>
          cases s.backend with
          | none => exact local_stop _
          | some backend =>
              refine (tryCandidate_local backend attempt.1 attempt.2).bind fun result => ?_
              cases result with
              | none => exact ih
              | some done =>
                  cases done with
                  | true => exact local_pure _
                  | false => exact local_stop _

/-- `start_next_upstream_connect`, over all candidates. -/
theorem startNextUpstreamConnect_local : Local startNextUpstreamConnect :=
  local_current.bind fun _ => local_ite (local_stop _) (connectRounds_local _)

/-- The choice of a backend looks at all of them, and the attempts follow. -/
theorem beginUpstreamConnect_local : Local beginUpstreamConnect := by
  have hreject : Local rejectNoBackend := local_query_bind trivial fun _ => local_stop _
  have hdraw : Local drawSourceSequence :=
    local_current.bind fun _ => local_ite (local_pure _) <| local_query_bind trivial fun _ =>
      local_modify fun _ => rfl
  have hconnect : ∀ selection, Local (connectBackend selection) := fun _ =>
    local_current.bind fun _ => local_ite hreject <| local_query_bind trivial fun _ =>
      local_modify_bind (fun _ => rfl) fun _ => hdraw.bind fun _ => local_current.bind fun _ =>
        local_ite hreject startNextUpstreamConnect_local
  exact local_query_bind trivial fun _ => local_query_bind trivial fun _ =>
    local_modify_bind (fun _ => rfl) fun _ => hconnect _

/-! ## Lines -/

variable (json : Glaze)

/-- What was accepted before a bad line is committed, and the session ends. -/
theorem commitAndStop_local (consumed : Nat) (e : Exit) : Local (commitAndStop consumed e) :=
  (commitConsumed_forwards consumed).carries.isLocal.attempt.bind fun _ => local_stop e

/-- By induction on the lines; the first line of a client is what connects it. -/
theorem scanLines_local (rounds consumed : Nat) : Local (scanLines json rounds consumed) := by
  induction rounds generalizing consumed with
  | zero => exact local_pure _
  | succ rounds ih =>
      refine local_current.bind fun s => ?_
      cases findNewline s.lineBuffer consumed with
      | none => exact local_pure _
      | some newline =>
          refine local_ite (local_query_bind trivial fun _ => commitAndStop_local _ _) ?_
          dsimp only
          split
          · exact local_query_bind trivial fun _ => local_ite (commitAndStop_local _ _) <|
              local_modify_bind (fun _ => rfl) fun _ => local_ite (commitAndStop_local _ _) <|
                (commitConsumed_forwards _).carries.isLocal.bind fun _ =>
                  (discardLineBytes_forwards _).carries.isLocal.bind fun _ => ih 0
          · refine local_modify_bind (fun _ => rfl) fun _ => local_ite
              (beginUpstreamConnect_local.attempt.bind fun outcome => ?_) (ih _)
            cases outcome with
            | error e => exact commitAndStop_local _ _
            | ok _ => exact ih _

/-- `process_client_bytes`, with its reservation and its checks. -/
theorem processClientBytes_local (bytes : Bytes) : Local (processClientBytes json bytes) :=
  (appendLineBytes_forwards bytes).carries.isLocal.bind fun _ => local_current.bind fun _ =>
    (scanLines_local json _ _).bind fun _ => (commitConsumed_forwards _).carries.isLocal.bind fun _ =>
      checkQueueSizes_forwards.carries.isLocal

/-- One chunk: the buckets, then the lines in it. -/
theorem takeChunk_local (chunk : Chunk) (messagesThisEvent : Nat) :
    Local (takeChunk json chunk messagesThisEvent) :=
  local_query_bind trivial fun _ => local_query_bind trivial fun _ =>
    local_modify_bind (fun _ => rfl) fun _ =>
      (allowTraffic_forwards _ _ _ _).carries.isLocal.bind fun _ =>
      local_ite (processClientBytes_local json _) (local_query_bind trivial fun _ => local_stop _)

theorem readRounds_local (rounds bytesThisEvent messagesThisEvent : Nat) :
    Local (readRounds json rounds bytesThisEvent messagesThisEvent) := by
  induction rounds generalizing bytesThisEvent messagesThisEvent with
  | zero => exact local_pure _
  | succ rounds ih =>
      refine readClient_carries.isLocal.bind fun result => ?_
      cases result with
      | retryRead => exact local_pure _
      | retryWrite => exact local_pure _
      | closed => exact closeClientRead_carries.isLocal
      | error => exact local_stop _
      | data chunk =>
          exact (takeChunk_local json chunk _).bind fun _ => local_current.bind fun _ =>
            local_ite (local_pure _) <| local_ite (local_pure _) (ih _ _)

/-! ## The handlers -/

/-- **An event of the client socket**, in every stage. -/
theorem clientReady_local (events : EventMask) : Local (clientReady json events) := by
  have hgone := (stopIfGone_carries events).isLocal
  have hfinish : ∀ exhausted, Local (finishClientEvent events exhausted) := fun exhausted =>
    (finishClientEvent_carries events exhausted).isLocal
  have hready : Local (readIfReady json events) :=
    local_current.bind fun _ => local_ite (readRounds_local json _ _ _) (local_pure _)
  exact local_current.bind fun _ => local_ite driveTlsHandshake_local <|
    local_ite (retryPendingWrite_carries events).isLocal <| local_ite
      (local_ite hgone <| (readRounds_local json _ _ _).bind fun _ => hfinish _)
      (hready.bind fun _ => hfinish _)

/-- **An event of the pool socket**, in every stage. -/
theorem upstreamReady_local (events : EventMask) : Local (upstreamReady events) := by
  have hdrain : Local drainUpstream :=
    flushUpstreamQueue_forwards.carries.isLocal.bind fun _ => discardUpstream_local.bind fun _ =>
      local_current.bind fun _ => local_ite (local_stop _) (local_pure _)
  have hclose : Local (closeUpstreamRead events) :=
    local_modify_bind (fun _ => rfl) fun _ => local_current.bind fun _ =>
      local_ite hdrain (local_pure _)
  have hrelay : Local (upstreamRelay events) :=
    (recvFromUpstream_carries events).isLocal.bind fun _ => flushClientIfIdle_carries.isLocal.bind
      fun _ => (pushUpstreamIfWritable_forwards events).carries.isLocal.bind fun _ =>
        local_ite (local_stop _) hclose
  have hretry : Local retryUpstreamConnect :=
    local_current.bind fun _ => local_ite (local_stop _) <| recordUpstreamError_local.bind fun _ =>
      discardUpstream_local.bind fun _ => local_query_bind trivial fun _ =>
        local_ite startNextUpstreamConnect_local (local_stop _)
  exact local_current.bind fun _ => local_ite
    (finishUpstreamConnect_local.bind fun _ => local_ite hrelay hretry) hrelay

/-- Arming changes the registrations of the two sockets. -/
theorem updateInterests_local : Local updateInterests :=
  refreshReadPause_forwards.carries.isLocal.bind fun _ => local_of_framed (X := fun _ => True) <|
    armSockets_rearms.keeps (fun _ _ _ => trivial) (fun _ => rfl) trivial

/-- **A timer that fires**: it is set again, the next candidate is tried, or the session ends.
-/
theorem expireSession_local (now : Nat) : Local (expireSession now) :=
  local_current.bind fun _ => local_ite (local_query trivial) <| local_ite
    (recordUpstreamError_local.bind fun _ => discardUpstream_local.bind fun _ =>
      local_ite (local_stop _) startNextUpstreamConnect_local)
    (local_ite (local_query_bind trivial fun _ => local_stop _) (local_stop _))

/-- **A reaction makes only the calls of a session.** -/
theorem handle_local (event : SessionEvent) : Local (Session.handle json event) := by
  cases event with
  | client events => exact (clientReady_local json events).bind fun _ => updateInterests_local
  | upstream events => exact (upstreamReady_local events).bind fun _ => updateInterests_local
  | timeout now => exact expireSession_local now

end PoolLb
