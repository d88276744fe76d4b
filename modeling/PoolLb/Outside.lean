import PoolLb.Reactor
import PoolLb.Tally

/-!
# The outside of a worker

What one worker can rely on when it calls, whatever the other workers, the
miners and the pools do.  The clock does not go back; a read returns bytes, a
write takes some of what it was offered, and neither works on a socket that is
not there; the worker's own table of sessions and timer wheel answer as the
data structures they are.  The counters it shares with other workers may
answer anything.

`Outside` also keeps the worker's own share of each shared counter, and a log
of what happened to the bytes, the latest event first.  A worker must not take more off a shared
counter than it has put there, nor enter a session at a backend twice or erase it while it is
still entered: that is what `requires` says.
-/

namespace PoolLb

open Interaction Tally

/-- What the log of a worker records. -/
inductive Event where
  /-- Bytes were read from the client. -/
  | heard (bytes : Bytes)
  /-- Bytes of the client entered the line buffer. -/
  | framed (bytes : Bytes)
  /-- Bytes arrived from the pool. -/
  | received (bytes : Bytes)
  /-- Bytes were written to the client. -/
  | wroteClient (bytes : Bytes)
  /-- Bytes were written to an upstream socket. -/
  | wroteUpstream (socket : Nat) (bytes : Bytes)
  /-- `begin_upstream_connect` took a route sequence number. -/
  | routed
  /-- `select_backend` read the backends. -/
  | selected
  /-- `connection_attempts` of a backend was incremented. -/
  | attempted (backend : Nat)
  /-- `start_connect` returned a socket. -/
  | opened (socket : Nat)
  /-- `finish_upstream_connect` succeeded on a socket. -/
  | relayed (backend : Nat) (socket : Option Nat)
  /-- A call of `record_protocol_error`. -/
  | protocolError (site : ProtocolErrorSite)
  /-- A chunk of the client was over the traffic budget. -/
  | overTraffic
  /-- `SSL_pending` was not zero. -/
  | strandedPlaintext
deriving DecidableEq

namespace Event

/-- Bytes that were read from the client. -/
def asHeard : Event → Option Bytes
  | .heard bytes => some bytes
  | _ => none

/-- Bytes of the client that entered the line buffer. -/
def asFramed : Event → Option Bytes
  | .framed bytes => some bytes
  | _ => none

/-- Bytes that arrived from the pool. -/
def asReceived : Event → Option Bytes
  | .received bytes => some bytes
  | _ => none

/-- Bytes that were written to the client. -/
def asWroteClient : Event → Option Bytes
  | .wroteClient bytes => some bytes
  | _ => none

/-- Bytes that were written to some upstream socket. -/
def asWroteUpstream : Event → Option Bytes
  | .wroteUpstream _ bytes => some bytes
  | _ => none

/-- The bytes of the events of one kind, in the order in which they happened. -/
def gather (pick : Event → Option Bytes) : List Event → Bytes
  | [] => []
  | event :: log =>
      match pick event with
      | some bytes => gather pick log ++ bytes
      | none => gather pick log

/-- The latest event comes last. -/
theorem gather_cons (pick : Event → Option Bytes) (event : Event) (log : List Event) :
    gather pick (event :: log) = gather pick log ++ (pick event).getD [] := by
  rw [gather]
  cases pick event with
  | none => exact (List.append_nil _).symm
  | some bytes => rfl

/-- What the older part of a log gathers comes first. -/
theorem gather_suffix {older log : List Event} (h : older <:+ log) (pick : Event → Option Bytes) :
    gather pick older <+: gather pick log := by
  induction log with
  | nil =>
      have hempty := List.suffix_nil.mp h
      subst hempty
      exact List.prefix_rfl
  | cons event log ih =>
      rcases List.suffix_cons_iff.mp h with heq | hsuffix
      · subst heq
        exact List.prefix_rfl
      · rw [gather_cons]
        exact (ih hsuffix).trans (List.prefix_append _ _)

end Event

/-- The state of affairs around one worker. -/
structure Outside where
  clock : Nat := 0
  held : Nat := 0
  slots : Nat := 0
  workerActive : Nat := 0
  accepted : Nat := 0
  closed : Nat := 0
  leases : List Nat := []
  entered : List (Nat × Nat) := []
  sessions : Table Nat Session := ∅
  nextId : Nat := 1
  wheel : TimerWheel := TimerWheel.new 0
  log : List Event := []

namespace Outside

/-- What a call leaves in the log. -/
def observe : (c : ReactorCall) → c.Answer → List Event
  | .recvClient _, .data chunk => [.heard chunk.bytes]
  | .sslRead _, .data chunk => [.heard chunk.bytes]
  | .reserveQueuedBytes (.line bytes), true => [.framed bytes]
  | .recvUpstream _, .data chunk => [.received chunk.bytes]
  | .sendClient _ data, .sent count => [.wroteClient (data.take count)]
  | .sslWrite _ data, .wrote count => [.wroteClient (data.take count)]
  | .sendUpstream (some socket) data, .sent count => [.wroteUpstream socket (data.take count)]
  | .nextRouteSequence, _ => [.routed]
  | .viewBackends, _ => [.selected]
  | .backendAttempt backend, _ => [.attempted backend]
  | .startConnect _ _, some started => [.opened started.socket]
  | .backendEnter backend _ socket, _ => [.relayed backend socket]
  | .recordProtocolError site _, _ => [.protocolError site]
  | .count .rejectedTrafficRate _, _ => [.overTraffic]
  | .sslPending _, pending => if pending = 0 then [] else [.strandedPlaintext]
  | _, _ => []

/-- How a call changes the books and the data structures of the worker. -/
def update (w : Outside) : (c : ReactorCall) → c.Answer → Outside
  | .now, time => { w with clock := time }
  | .reserveQueuedBytes use, true => { w with held := w.held + use.bytes.length }
  | .releaseQueuedBytes count, _ => { w with held := w.held - count }
  | .activeIncrement, _ => { w with slots := w.slots + 1 }
  | .activeDecrement, _ => { w with slots := w.slots - 1 }
  | .workerActiveIncrement, _ => { w with workerActive := w.workerActive + 1 }
  | .workerActiveDecrement, _ => { w with workerActive := w.workerActive - 1 }
  | .acceptedIncrement, _ => { w with accepted := w.accepted + 1 }
  | .closedIncrement, _ => { w with closed := w.closed + 1 }
  | .backendEnter backend session _, _ => { w with entered := (backend, session) :: w.entered }
  | .backendLeave backend session, _ => { w with entered := w.entered.erase (backend, session) }
  | .acquireLease _ _, ⟨_, some lease⟩ => { w with leases := lease :: w.leases }
  | .releaseLease (some lease), _ => { w with leases := w.leases.erase lease }
  | .nextSessionId, _ => { w with nextId := w.nextId + 1 }
  | .scheduleTimer session generation deadline, _ =>
      { w with wheel := w.wheel.schedule session generation deadline }
  | .cancelTimer session, _ => { w with wheel := w.wheel.cancel session }
  | .advanceTimers now, _ => { w with wheel := (w.wheel.advance now).1 }
  | .storeSession s, _ => { w with sessions := w.sessions.insert s.id s }
  | .emplaceSession s, true => { w with sessions := w.sessions.insert s.id s }
  | .eraseSession id, _ => { w with sessions := w.sessions.erase id }
  | _, _ => w

/-- The state of affairs after a call. -/
def after (w : Outside) (c : ReactorCall) (r : c.Answer) : Outside :=
  let w' := w.update c r
  { w' with log := observe c r ++ w'.log }

/-- A counter that nothing reads back leaves no trace, but for the refused
traffic. -/
theorem after_count {counter : WorkerCounter} (h : counter ≠ .rejectedTrafficRate) (w : Outside)
    (amount : Nat) (r : (ReactorCall.count counter amount).Answer) :
    w.after (.count counter amount) r = w := by
  cases counter with
  | rejectedTrafficRate => exact absurd rfl h
  | _ => rfl

/-- The answers a call may get. -/
def allows (w : Outside) : (c : ReactorCall) → c.Answer → Prop
  | .now, time => w.clock ≤ time
  | .sendClient _ data, .sent count => 0 < count ∧ count ≤ data.length
  | .sslWrite _ data, .wrote count => 0 < count ∧ count ≤ data.length
  | .sendUpstream socket data, .sent count => socket.isSome ∧ 0 < count ∧ count ≤ data.length
  | .sendUpstream socket _, .retry => socket.isSome
  | .recvUpstream socket, .data _ => socket.isSome
  | .recvUpstream socket, .closed => socket.isSome
  | .recvUpstream socket, .retry => socket.isSome
  | .socketError socket, error => socket = none → error = true
  | .acquireLease _ _, admission =>
      (admission.result = .accepted ↔ admission.lease.isSome) ∧
        ∀ lease, admission.lease = some lease → lease ∉ w.leases
  | .nextSessionId, id => id = w.nextId
  | .advanceTimers now, expired => expired = (w.wheel.advance now).2
  | .findSession id, found => found = w.sessions.lookup id
  | .emplaceSession s, inserted => inserted = (w.sessions.lookup s.id).isNone
  | .anySession, none => w.sessions = ∅
  | .anySession, some id => (w.sessions.lookup id).isSome
  | _, _ => True

/-- What a call demands of the books. -/
def requires (w : Outside) : ReactorCall → Prop
  | .releaseQueuedBytes count => count ≤ w.held
  | .activeDecrement => 0 < w.slots
  | .workerActiveDecrement => 0 < w.workerActive
  | .writeRelayStage _ _ counted => counted = false
  | .backendLeave backend session => (backend, session) ∈ w.entered
  | .eraseSession id => ∀ backend, (backend, id) ∉ w.entered
  | .releaseLease lease => ∃ number, lease = some number ∧ number ∈ w.leases
  | _ => True

end Outside

/-- The world of one worker. -/
def outside : World reactorCalls Outside where
  requires := Outside.requires
  allows := Outside.allows
  after := Outside.after

end PoolLb
