import PoolLb.SessionRun

/-!
# Scenarios

A scenario settles what the outside answers: the clock stands still, the budget
is never spent, epoll and the counters never fail, and the peers do as they are
told.  A session in a scenario can be run, and its run is one of those that the
theorems speak about.
-/

namespace PoolLb

open Interaction Handler

/-- What the peers of a worker do. -/
structure Scenario where
  /-- What a plain client socket has to read. -/
  client : Outside → RecvAnswer := fun _ => .retry
  /-- What an open upstream socket has to read. -/
  pool : Outside → RecvAnswer := fun _ => .retry
  /-- The client socket takes everything, or nothing. -/
  clientTakes : Bool := true
  /-- An open upstream socket takes everything, or nothing. -/
  poolTakes : Bool := true
  /-- What `start_connect` returns. -/
  connect : Option ConnectStart := none
  /-- What `accept4` returns. -/
  accept : AcceptAnswer := .nothing
  /-- The configuration in force. -/
  runtime : RuntimeSnapshot := {}

namespace Scenario

/-- A socket that takes everything, or nothing. -/
def send (takes : Bool) (data : Bytes) : SendAnswer :=
  if takes ∧ data ≠ [] then .sent data.length else .retry

/-- A lease number that is not in use. -/
def freshLease (leases : List Nat) : Nat := leases.foldr (fun lease next => max (lease + 1) next) 0

/-- The answers of the scenario. -/
def answer (scenario : Scenario) (w : Outside) : (c : ReactorCall) → c.Answer
  | .now => w.clock
  | .nextRouteSequence => (0 : Nat)
  | .nextSourceSequence => (0 : Nat)
  | .nextSessionId => w.nextId
  | .reserveQueuedBytes _ => true
  | .loadQueuedBytes => w.held
  | .loadQueuedBytesLimit => (scenario.runtime.limits.maxQueuedBytes : Nat)
  | .activeIncrement => w.slots
  | .viewBackends => fun _ => { healthy := true, activeConnections := 0 }
  | .acquireLease _ _ => { result := .accepted, lease := some (freshLease w.leases) }
  | .consumeTraffic _ _ _ _ _ => true
  | .accept _ => scenario.accept
  | .getsockname _ => some SockAddr.other
  | .recvClient _ => scenario.client w
  | .sendClient _ data => send scenario.clientTakes data
  | .startConnect _ _ => scenario.connect
  | .socketError socket => socket.isNone
  | .recvUpstream none => RecvAnswer.failed
  | .recvUpstream (some _) => scenario.pool w
  | .sendUpstream none _ => SendAnswer.failed
  | .sendUpstream (some _) data => send scenario.poolTakes data
  | .tlsContext _ => true
  | .createServerStream _ => true
  | .sslAccept _ => SslAcceptAnswer.done
  | .sslRead _ => SslReadAnswer.wantRead
  | .sslWrite _ _ => SslWriteAnswer.wantWrite
  | .sslPending _ => (0 : Nat)
  | .epollAdd _ _ _ => true
  | .epollModify _ _ _ => true
  | .advanceTimers now => (w.wheel.advance now).2
  | .findSession id => w.sessions.lookup id
  | .emplaceSession s => (w.sessions.lookup s.id).isNone
  | .anySession => w.sessions.keys.head?
  | .loadRuntime => scenario.runtime
  | .releaseQueuedBytes _ | .activeDecrement | .workerActiveIncrement | .workerActiveDecrement
  | .acceptedIncrement | .closedIncrement | .count _ _ | .recordProtocolError _ _
  | .backendAttempt _ | .backendError _ | .writeRelayStage _ _ _ | .backendEnter _ _ _
  | .backendLeave _ _
  | .publishTrackedClients | .releaseLease _ | .closeSocket _ | .epollDelete _
  | .scheduleTimer _ _ _ | .cancelTimer _ | .storeSession _ | .eraseSession _ => ()

/-- A fresh lease is none of those that are out. -/
theorem lt_freshLease {leases : List Nat} {lease : Nat} (h : lease ∈ leases) :
    lease < freshLease leases := by
  induction leases with
  | nil => simp at h
  | cons first leases ih =>
      unfold freshLease
      rw [List.foldr_cons]
      rcases List.mem_cons.mp h with rfl | hmem
      · exact Nat.lt_of_lt_of_le (Nat.lt_succ_self _) (Nat.le_max_left _ _)
      · exact Nat.lt_of_lt_of_le (ih hmem) (Nat.le_max_right _ _)

/-- A scenario only gives answers that the outside may give. -/
theorem answer_allowed (scenario : Scenario) (w : Outside) (c : ReactorCall) :
    outside.allows w c (scenario.answer w c) := by
  cases c with
  | now => exact le_rfl
  | nextSessionId => rfl
  | acquireLease key limits =>
      refine ⟨⟨fun _ => rfl, fun _ => rfl⟩, fun lease hlease hmem => ?_⟩
      have heq : freshLease w.leases = lease := Option.some.inj hlease
      exact absurd (lt_freshLease hmem) (by omega)
  | sendClient client data =>
      show w.allows (.sendClient client data) (send scenario.clientTakes data)
      unfold send
      split
      · rename_i htakes
        exact ⟨List.length_pos_iff.mpr htakes.2, le_rfl⟩
      · trivial
  | socketError socket =>
      intro hnone
      show socket.isNone = true
      rw [hnone]
      rfl
  | recvUpstream socket =>
      cases socket with
      | none => trivial
      | some socket =>
          show w.allows (.recvUpstream (some socket)) (scenario.pool w)
          cases scenario.pool w with
          | data chunk => rfl
          | closed => rfl
          | retry => rfl
          | failed => trivial
  | sendUpstream socket data =>
      cases socket with
      | none => trivial
      | some socket =>
          show w.allows (.sendUpstream (some socket) data) (send scenario.poolTakes data)
          unfold send
          split
          · rename_i htakes
            exact ⟨rfl, List.length_pos_iff.mpr htakes.2, le_rfl⟩
          · rfl
  | advanceTimers now => rfl
  | findSession id => rfl
  | emplaceSession s => rfl
  | anySession =>
      show w.allows .anySession w.sessions.keys.head?
      cases hkeys : w.sessions.keys.head? with
      | none =>
          have hentries : w.sessions.entries = [] := by
            have hnil : w.sessions.entries.map Sigma.fst = [] := List.head?_eq_none_iff.mp hkeys
            exact List.map_eq_nil_iff.mp hnil
          exact AList.ext hentries
      | some id =>
          have hmem : id ∈ w.sessions := List.mem_of_mem_head? (Option.mem_def.mpr hkeys)
          exact AList.lookup_isSome.mpr hmem
  | _ => trivial

/-- One reaction in the scenario. -/
def react (scenario : Scenario) (json : Glaze) (event : SessionEvent) (s : Session) (w : Outside) :
    (Except Exit Unit × Session) × Outside :=
  (Session.handle json event s).play outside scenario.answer w

variable (scenario : Scenario) (event : SessionEvent) {json : Glaze} {s : Session} {w : Outside}

theorem runs_react :
    Runs outside w (Session.handle json event s) (scenario.react json event s w).1
      (scenario.react json event s w).2 :=
  runs_play scenario.answer_allowed w (Session.handle json event s)

/-- The execution that a reaction is, by its result. -/
theorem runs_react_of {result : Except Exit Unit}
    (h : (scenario.react json event s w).1.1 = result) :
    Runs outside w (Session.handle json event s) (result, (scenario.react json event s w).1.2)
      (scenario.react json event s w).2 := by
  rw [← h]
  exact runs_react scenario event

/-- A reaction that the session survives. -/
theorem react_reached (h : Reached json s w) (hok : (scenario.react json event s w).1.1 = .ok ()) :
    Reached json (scenario.react json event s w).1.2 (scenario.react json event s w).2 :=
  .handled event h (runs_react_of scenario event hok)

/-- A reaction that ends the session. -/
theorem react_stopped {e : Exit} (h : Reached json s w)
    (hstop : (scenario.react json event s w).1.1 = .error e) :
    Stopped json e (scenario.react json event s w).1.2 (scenario.react json event s w).2 :=
  .handled event h (runs_react_of scenario event hstop)

/-- A client that sends the given chunks, one for each chunk already read. -/
def sends (chunks : List Chunk) (w : Outside) : RecvAnswer :=
  match chunks[(w.log.filter fun event => event.asHeard.isSome).length]? with
  | some chunk => .data chunk
  | none => .retry

end Scenario

/-- One pool with one backend. -/
def onePool (sendProxyV2 : Bool) : RuntimeSnapshot where
  routing :=
    { pools := [{ backends := [{ ref := 1, socketAddresses := [⟨[], .inet⟩]
                                 sendProxyV2 := sendProxyV2 }] }] }

/-- A miner on a plain listener. -/
def plainMiner (runtime : RuntimeSnapshot) (header : ProxyV2Header := {}) : Session :=
  (freshSession 1 7 runtime header (some 1) 0).plain.bump

/-- A miner on a plain listener, just accepted. -/
theorem plainMiner_reached {json : Glaze} (runtime : RuntimeSnapshot)
    (header : ProxyV2Header := {}) : Reached json (plainMiner runtime header) {} :=
  .accepted ⟨1, 7, runtime, header, some 1, 0, .inl rfl⟩ rfl

/-- The text of a request with nothing but a method. -/
def requestText (method : String) : Bytes :=
  ascii "\x7b\"method\":\"" ++ ascii method ++ ascii "\"\x7d"

/-- The opening of a subscribing miner. -/
def subscribeChunk : Chunk :=
  ⟨requestText "mining.subscribe" ++ [kNewline], by decide +kernel, by decide +kernel⟩

/-- A JSON library that knows one text: the opening of a subscribing miner. -/
def subscribeJson : Glaze where
  readGeneric _ := none
  readEnvelope text :=
    if text = requestText "mining.subscribe" then
      some { method := some (kQuote :: (ascii "mining.subscribe" ++ [kQuote])) }
    else none
  readString _ := none
  readDouble _ := none
  readParams _ := none

end PoolLb
