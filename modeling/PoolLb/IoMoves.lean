import PoolLb.SessionMoves

/-!
# The code of a session makes moves, and no others

`Does` relates a piece of session code to the moves: from a sane configuration
every call of the code meets its demand, and wherever the code ends, normally
or early, moves lead there.  Its rules follow the code line by line.  This
module has the rules and the functions that read and write sockets; the modules
after it go through the rest of the code.
-/

namespace PoolLb

open Interaction Handler

variable {json : Glaze} {α β : Type} {c c' : Config} {m : SessionM α}
  {Q Q' : α → Config → Prop} {R : β → Config → Prop} {E E' : Exit → Config → Prop}

/-- Moves lead from `c` to a session and surroundings where `Q` holds. -/
def Arrives (json : Glaze) (c : Config) (Q : α → Config → Prop) (a : α) (s : Session)
    (w : Outside) : Prop :=
  ∃ c', Follows json c c' ∧ c'.session = s ∧ c'.outside = w ∧ Q a c'

/-- The code `m`, begun in `c`, makes moves only; `Q` holds where it ends and
`E` where it stops early. -/
def Does (json : Glaze) (c : Config) (m : SessionM α) (Q : α → Config → Prop)
    (E : Exit → Config → Prop) : Prop :=
  ∀ others, c.Sane others →
    Holds outside c.session c.outside m (Arrives json c Q) (Arrives json c E)

/-! ## Rules -/

/-- Code that comes after some moves. -/
theorem Does.after {others : Nat} (h : Does json c' m Q E) (hmoves : Follows json c c')
    (hc : c.Sane others) :
    Holds outside c'.session c'.outside m (Arrives json c Q) (Arrives json c E) := by
  apply (h others (hmoves.sane hc)).mono
  · intro a s w hend
    obtain ⟨d, hd, hs, hw, hQ⟩ := hend
    exact ⟨d, hmoves.trans hd, hs, hw, hQ⟩
  · intro e s w hend
    obtain ⟨d, hd, hs, hw, hE⟩ := hend
    exact ⟨d, hmoves.trans hd, hs, hw, hE⟩

theorem does_pure {a : α} (h : Q a c) : Does json c (pure a) Q E :=
  fun _ _ => ⟨c, .refl c, rfl, rfl, h⟩

theorem does_stop {e : Exit} (h : E e c) : Does json c (stop e) Q E :=
  fun _ _ => ⟨c, .refl c, rfl, rfl, h⟩

/-- **Consequence.** -/
theorem Does.mono (h : Does json c m Q E) (hQ : ∀ a c', Q a c' → Q' a c')
    (hE : ∀ e c', E e c' → E' e c') : Does json c m Q' E' := by
  intro others hc
  apply (h others hc).mono
  · intro a s w hend
    obtain ⟨d, hd, hs, hw, hd'⟩ := hend
    exact ⟨d, hd, hs, hw, hQ a d hd'⟩
  · intro e s w hend
    obtain ⟨d, hd, hs, hw, hd'⟩ := hend
    exact ⟨d, hd, hs, hw, hE e d hd'⟩

/-- **Sequencing.** -/
theorem Does.bind {f : α → SessionM β} (h : Does json c m Q E)
    (hf : ∀ a c', Follows json c c' → Q a c' → Does json c' (f a) R E) :
    Does json c (m >>= f) R E := by
  intro others hc
  apply (h others hc).bind
  intro a s w hend
  obtain ⟨d, hd, hs, hw, hQ⟩ := hend
  subst hs
  subst hw
  exact (hf a d hd hQ).after hd hc

/-- A stop that is caught becomes a value. -/
theorem does_attempt {Q : Except Exit α → Config → Prop}
    (h : Does json c m (fun a => Q (.ok a)) (fun e => Q (.error e))) :
    Does json c (attempt m) Q E :=
  fun others hc => holds_attempt (h others hc)

theorem does_current {f : Session → SessionM β} (h : Does json c (f c.session) R E) :
    Does json c (current >>= f) R E := h

/-- Begin with some moves that are not code. -/
theorem Does.of_follows (hmoves : Follows json c c') (hs : c'.session = c.session)
    (hw : c'.outside = c.outside) (h : Does json c' m Q E) : Does json c m Q E := by
  intro others hc
  have hend := h.after hmoves hc
  rw [hs, hw] at hend
  exact hend

/-- A change of the session that moves account for, wherever they lead. -/
theorem does_modify_to {g : Session → Session} {f : Unit → SessionM β}
    (hmoves : Follows json c c') (hs : c'.session = g c.session) (hw : c'.outside = c.outside)
    (h : Does json c' (f ()) R E) : Does json c (modify g >>= f) R E := by
  intro others hc
  have hend := h.after hmoves hc
  rw [hs, hw] at hend
  exact hend

theorem does_modify {g : Session → Session} {f : Unit → SessionM β}
    (hmoves : Follows json c (c.setSession (g c.session)))
    (h : Does json (c.setSession (g c.session)) (f ()) R E) :
    Does json c (modify g >>= f) R E :=
  does_modify_to hmoves rfl rfl h

/-- A write at the end of a piece of code. -/
theorem does_modify_last {g : Session → Session} {Q : Unit → Config → Prop}
    (hmoves : Follows json c (c.setSession (g c.session)))
    (h : Q () (c.setSession (g c.session))) : Does json c (modify g) Q E :=
  fun _ _ => ⟨_, hmoves, rfl, rfl, h⟩

/-- A call that moves account for. -/
theorem does_call {call : ReactorCall} {f : call.Answer → SessionM β}
    (hrequires : c.outside.requires call)
    (h : ∀ r, c.outside.allows call r → ∃ c', Follows json c c' ∧ c'.session = c.session ∧
      c'.outside = c.outside.after call r ∧ Does json c' (f r) R E) :
    Does json c (query call >>= f) R E := by
  intro others hc
  refine ⟨hrequires, fun r hr => ?_⟩
  obtain ⟨d, hd, hs, hw, hf⟩ := h r hr
  have hend := hf.after hd hc
  rw [hs, hw] at hend
  exact hend

/-- A call that changes nothing here. -/
theorem does_quiet {call : ReactorCall} {f : call.Answer → SessionM β}
    (hrequires : c.outside.requires call)
    (h : ∀ r, c.outside.allows call r → c.outside.after call r = c.outside ∧
      Does json c (f r) R E) :
    Does json c (query call >>= f) R E :=
  does_call hrequires fun r hr => ⟨c, .refl c, rfl, (h r hr).1.symm, (h r hr).2⟩

/-- A call at the end that leaves the outside as it is. -/
theorem does_quiet_last {call : ReactorCall} {Q : call.Answer → Config → Prop}
    (hrequires : c.outside.requires call)
    (h : ∀ r, c.outside.allows call r → c.outside.after call r = c.outside ∧ Q r c) :
    Does json c (query call) Q E :=
  fun _ _ => ⟨hrequires, fun r hr => ⟨c, .refl c, rfl, (h r hr).1.symm, (h r hr).2⟩⟩

def Config.at (c : Config) (time : Nat) : Config :=
  c.setOutside { c.outside with clock := time }

/-- A clock reading. -/
theorem does_now {f : Nat → SessionM β}
    (h : ∀ time, c.outside.clock ≤ time → Does json (c.at time) (f time) R E) :
    Does json c (query .now >>= f) R E :=
  does_call trivial fun time htime =>
    ⟨c.at time, (Move.tick c time htime).follows, rfl, rfl, h time htime⟩

/-! ## Where the code stops early -/

/-- The exits that only the handler of the upstream socket takes. -/
def Exit.FromPool (e : Exit) : Prop := e = .upstreamReadFailed ∨ e = .upstreamError

/-- What an exit says about the session it is taken with, unless it is one of
`FromPool`. -/
def Exit.Cause (c : Config) : Exit → Prop
  | .drained => c.session.toClient.isEmpty = true
  | .upstreamWriteFailed => c.session.toUpstream.isEmpty = false
  | .noFirstMessage => c.session.stage = .firstMessage
  | .tlsFailed => c.session.stage = .tlsHandshake
  | .noBackend => c.session.stage ≠ .relay
  | .connectFailed => c.session.stage ≠ .relay
  | .queueLimit =>
      c.phase = .closing .queueLimit ∨ c.session.limits.maxBufferBytes < c.session.toClient.size
  | .oversizedLine => c.phase = .closing .oversizedLine
  | .refusedLine => c.phase = .closing .refusedLine
  | .oversizedTail => c.phase = .closing .oversizedTail
  | .upstreamReadFailed => False
  | .upstreamError => False
  | _ => True

/-- The accepted lines are committed, unless a commit was refused. -/
def Config.Settled (c : Config) : Prop :=
  c.consumed = 0 ∨ Event.protocolError .commitRefused ∈ c.outside.log

/-- How a handler of a session stops early. -/
structure Exit.Explained (e : Exit) (c : Config) : Prop where
  cause : e.Cause c
  settled : c.Settled
  phase : c.phase = .idle ∨ (c.phase = .reading ∧ (c.unframed = [] ∨ e = .queueBudget)) ∨
    c.phase = .closing e

/-- Nothing is under way. -/
def Config.Resting (c : Config) : Prop := c.phase = .idle ∧ c.consumed = 0

/-- The same where the upstream socket may have reported the end: `fromPool` says
whether this was possible. -/
def Exit.Reported (fromPool : Bool) (e : Exit) (c : Config) : Prop :=
  e.Explained c ∨ fromPool = true ∧ e.FromPool ∧ c.Resting

/-- Wherever a handler stops, the accepted lines are committed or refused. -/
theorem Exit.Reported.settled {e : Exit} {fromPool : Bool} (h : e.Reported fromPool c) :
    c.Settled := by
  rcases h with h | ⟨_, _, h⟩
  · exact h.settled
  · exact .inl h.2

/-- It stops at rest, while it reads, or while it closes for that reason. -/
theorem Exit.Reported.phase {e : Exit} {fromPool : Bool} (h : e.Reported fromPool c) :
    c.phase = .idle ∨ (c.phase = .reading ∧ (c.unframed = [] ∨ e = .queueBudget)) ∨
      c.phase = .closing e := by
  rcases h with h | ⟨_, _, h⟩
  · exact h.phase
  · exact .inl h.1

/-- An exit that is not about the pool has its cause in the session. -/
theorem Exit.Reported.cause {e : Exit} {fromPool : Bool} (h : e.Reported fromPool c)
    (he : ¬ e.FromPool) : e.Cause c := by
  rcases h with h | ⟨_, h, _⟩
  · exact h.cause
  · exact absurd h he

/-- At rest an exit needs nothing but its cause. -/
theorem Config.Resting.explained {e : Exit} (h : c.Resting) (hcause : e.Cause c) : e.Explained c :=
  ⟨hcause, .inl h.2, .inl h.1⟩

/-- The point of the handler and the stage are the same. -/
structure Config.Kept (c c' : Config) : Prop where
  phase : c'.phase = c.phase
  consumed : c'.consumed = c.consumed
  stage : c'.session.stage = c.session.stage
  upstreamFresh : c'.upstreamFresh = c.upstreamFresh

theorem Config.Kept.refl (c : Config) : c.Kept c := ⟨rfl, rfl, rfl, rfl⟩

theorem Config.Kept.trans {d : Config} (h : c.Kept c') (h' : c'.Kept d) : c.Kept d :=
  ⟨h'.phase.trans h.phase, h'.consumed.trans h.consumed, h'.stage.trans h.stage,
    h'.upstreamFresh.trans h.upstreamFresh⟩

theorem Config.Kept.resting (h : c.Kept c') (hc : c.Resting) : c'.Resting :=
  ⟨h.phase.trans hc.1, h.consumed.trans hc.2⟩

/-! ## Writing -/

/-- How many bytes an attempt to write has moved. -/
def IoResult.written : IoResult Nat → Nat
  | .data count => count
  | _ => 0

/-- Moves lead to the session and its surroundings, but for `count` bytes that
have left a queue and are still on the ledger. -/
def Owes (json : Glaze) (c : Config) (count : Nat) (s : Session) (w : Outside) : Prop :=
  ∃ c', Follows json c c' ∧ c.Kept c' ∧ c'.session = s ∧ c'.outside.hold count = w

/-- Bytes that were taken off the ledger can be put back. -/
theorem Outside.hold_unhold {w : Outside} {count : Nat} (h : count ≤ w.held) :
    (w.unhold count).hold count = w := by
  unfold Outside.hold Outside.unhold
  rw [Nat.sub_add_cancel h]

/-- Bytes that were put on the ledger can be taken off. -/
theorem Outside.unhold_hold (w : Outside) (count : Nat) : (w.hold count).unhold count = w := by
  unfold Outside.hold Outside.unhold
  rw [Nat.add_sub_cancel]

/-- The bytes of a queue that an offer of `size` bytes has moved. -/
theorem take_of_take {data : Bytes} {size count : Nat} (h : count ≤ (data.take size).length) :
    (data.take size).take count = data.take count ∧ count ≤ data.length := by
  rw [List.length_take] at h
  rw [List.take_take, Nat.min_eq_left (by omega)]
  exact ⟨rfl, by omega⟩

theorem Owes.nothing (hmoves : Follows json c c') (hkept : c.Kept c') :
    Owes json c 0 c'.session c'.outside :=
  ⟨c', hmoves, hkept, rfl, rfl⟩

/-- Bytes left the queue for the client. -/
theorem Owes.wrote {others size count : Nat} (hc : c.Sane others) (hmoves : Follows json c c')
    (hkept : c.Kept c') (hcount : count ≤ (c'.session.toClient.bytes.take size).length) :
    Owes json c count { c'.session with toClient := c'.session.toClient.consume count }
      (c'.outside.note (.wroteClient ((c'.session.toClient.bytes.take size).take count))) := by
  obtain ⟨htake, hle⟩ := take_of_take hcount
  rw [PendingBuffer.length_bytes] at hle
  have hheld := (hmoves.sane hc).balanced
  unfold Session.queuedBytes at hheld
  rw [htake]
  refine ⟨_, hmoves.trans (Move.wrote c' count hle).follows,
    ⟨hkept.phase, hkept.consumed, hkept.stage, hkept.upstreamFresh⟩, rfl, ?_⟩
  apply Outside.hold_unhold
  simp only [Outside.note]
  omega

/-- Bytes left the queue for the pool. -/
theorem Owes.pushed {others size count socket : Nat} (hc : c.Sane others)
    (hstage : c.session.stage = .relay) (hsocket : c.session.upstream = some socket)
    (hcount : count ≤ (c.session.toUpstream.bytes.take size).length) :
    Owes json c count { c.session with toUpstream := c.session.toUpstream.consume count }
      (c.outside.note
        (.wroteUpstream socket ((c.session.toUpstream.bytes.take size).take count))) := by
  obtain ⟨htake, hle⟩ := take_of_take hcount
  rw [PendingBuffer.length_bytes] at hle
  have hheld := hc.balanced
  unfold Session.queuedBytes at hheld
  rw [htake]
  refine ⟨_, (Move.push c socket count hstage hsocket hle).follows, ⟨rfl, rfl, rfl, rfl⟩, rfl, ?_⟩
  apply Outside.hold_unhold
  simp only [Outside.note]
  omega

/-- The details of a TLS retry change, and nothing else. -/
theorem follows_retry (json : Glaze) (c : Config) (operation : TlsOperation)
    (direction : IoDirection) (size : Nat)
    (h : operation = .read → c.phase = .reading ∧ c.session.ssl = true) :
    Follows json c (c.setSession { c.session with
      tlsOperation := operation, tlsDirection := direction, clientWriteRetryBytes := size }) :=
  (Move.tls c operation h).follows.trans
    (Move.inert (c.setSession { c.session with tlsOperation := operation })
      { c.session with
        tlsOperation := operation, tlsDirection := direction, clientWriteRetryBytes := size }
      rfl).follows

/-- An interrupted write is a move, whether it was pending or not. -/
theorem follows_interruptedWrite (json : Glaze) (c : Config) (size : Nat) :
    Follows json c (c.setSession (c.session.interruptedWrite size)) := by
  unfold Session.interruptedWrite
  split
  · exact follows_retry json c .write .write size (by simp)
  · exact (Move.inert c { c.session with clientWriteRetryBytes := size } rfl).follows

/-- It does not touch the stage. -/
theorem interruptedWrite_stage (s : Session) (size : Nat) :
    (s.interruptedWrite size).stage = s.stage := by
  unfold Session.interruptedWrite
  split
  · rfl
  · rfl

/-- A retry brings no data. -/
theorem retryIn_ne_data {α : Type} (direction : IoDirection) (value : α) :
    retryIn direction ≠ .data value := by
  cases direction <;> simp [retryIn]

@[simp] theorem written_retryIn (direction : IoDirection) :
    (retryIn direction : IoResult Nat).written = 0 := by
  cases direction <;> rfl

/-- **A TLS write** owes what it has written. -/
theorem writeClientTls_holds {others : Nat} (hc : c.Sane others) :
    Holds outside c.session c.outside writeClientTls
      (fun result => Owes json c result.written) (fun _ _ _ => False) := by
  refine ⟨trivial, fun r hr => ?_⟩
  cases r with
  | wrote count =>
      have hclear := follows_retry json c .none c.session.tlsDirection 0 (by simp)
      exact Owes.wrote hc hclear ⟨rfl, rfl, rfl, rfl⟩ hr.2
  | wantRead =>
      have hretry := follows_retry json c .write .read c.session.sslWriteSize (by simp)
      exact Owes.nothing hretry ⟨rfl, rfl, rfl, rfl⟩
  | wantWrite =>
      have hretry := follows_retry json c .write .write c.session.sslWriteSize (by simp)
      exact Owes.nothing hretry ⟨rfl, rfl, rfl, rfl⟩
  | interrupted =>
      show Owes json c (retryIn _ : IoResult Nat).written _ _
      rw [written_retryIn]
      exact Owes.nothing (follows_interruptedWrite json c c.session.sslWriteSize)
        ⟨rfl, rfl, interruptedWrite_stage _ _, rfl⟩
  | failed => exact Owes.nothing (.refl c) (.refl c)

/-- **A plain write** owes what it has written. -/
theorem writeClientPlain_holds {others : Nat} (hc : c.Sane others) :
    Holds outside c.session c.outside writeClientPlain
      (fun result => Owes json c result.written) (fun _ _ _ => False) := by
  refine ⟨trivial, fun r hr => ?_⟩
  cases r with
  | sent count => exact Owes.wrote hc (.refl c) (.refl c) hr.2
  | retry => exact Owes.nothing (.refl c) (.refl c)
  | failed => exact Owes.nothing (.refl c) (.refl c)

theorem writeClient_holds {others : Nat} (hc : c.Sane others) :
    Holds outside c.session c.outside writeClient
      (fun result => Owes json c result.written) (fun _ _ _ => False) := by
  apply holds_current_bind
  split
  · exact Owes.nothing (.refl c) (.refl c)
  · split
    · exact writeClientTls_holds hc
    · exact writeClientPlain_holds hc

/-- A `send` that takes nothing changes nothing. -/
theorem after_sendUpstream (w : Outside) (socket : Option Nat) (data : Bytes) :
    w.after (.sendUpstream socket data) .retry = w ∧
      w.after (.sendUpstream socket data) .failed = w := by
  cases socket with
  | none => exact ⟨rfl, rfl⟩
  | some socket => exact ⟨rfl, rfl⟩

/-- `write_upstream` fails with something to write; and it only writes to a
socket that is there. -/
theorem writeUpstream_holds {others : Nat} (hc : c.Sane others)
    (hstage : c.session.stage ≠ .upstreamConnect) :
    Holds outside c.session c.outside writeUpstream
      (fun result s w => Owes json c result.written s w ∧
        (result = .closed ∨ result = .error → c.session.toUpstream.isEmpty = false ∧
          s = c.session ∧ w = c.outside)) (fun _ _ _ => False) := by
  apply holds_current_bind
  by_cases hempty : c.session.toUpstream.isEmpty = true
  · rw [if_pos hempty]
    exact ⟨Owes.nothing (.refl c) (.refl c), by simp⟩
  · rw [if_neg hempty]
    obtain ⟨hretry, hfailed⟩ := after_sendUpstream c.outside c.session.upstream
      (c.session.toUpstream.bytes.take kMaximumBytesPerReadyEvent)
    refine ⟨trivial, fun r hr => ?_⟩
    cases r with
    | sent count =>
        obtain ⟨hsome, _, hcount⟩ := hr
        obtain ⟨socket, hsocket⟩ := Option.isSome_iff_exists.mp hsome
        have hrelay : c.session.stage = .relay :=
          (hc.socket_backed hsome).resolve_left hstage
        refine ⟨?_, by simp⟩
        rw [hsocket]
        exact Owes.pushed hc hrelay hsocket hcount
    | retry =>
        refine ⟨?_, by simp⟩
        have hnothing : Owes json c 0 c.session c.outside := Owes.nothing (.refl c) (.refl c)
        rw [← hretry] at hnothing
        exact hnothing
    | failed =>
        have hnothing : Owes json c 0 c.session c.outside := Owes.nothing (.refl c) (.refl c)
        refine ⟨?_, fun _ => ⟨by simpa using hempty, rfl, hfailed⟩⟩
        rw [← hfailed] at hnothing
        exact hnothing

/-- The bytes that have left a queue go off the ledger. -/
theorem releaseWritten_holds {others count : Nat} {s : Session} {w : Outside}
    (hc : c.Sane others) (h : Owes json c count s w) :
    Holds outside s w (releaseWritten count) (Arrives json c fun _ => c.Kept)
      (Arrives json c E) := by
  obtain ⟨d, hd, hkept, rfl, rfl⟩ := h
  unfold releaseWritten
  split
  · refine ⟨Nat.le_add_left _ _, fun _ _ => ?_⟩
    have hrest : Does json d (query .now >>= fun now => modify (Session.touch · now))
        (fun _ => c.Kept) E :=
      does_now fun time _ => does_modify_last (Move.touch _).follows
        ⟨hkept.phase, hkept.consumed, hkept.stage, hkept.upstreamFresh⟩
    have hreleased : (d.outside.hold count).after (.releaseQueuedBytes count) () = d.outside :=
      Outside.unhold_hold d.outside count
    have hend := hrest.after hd hc
    rw [← hreleased] at hend
    exact hend
  · rename_i hzero
    have hcount : count = 0 := by omega
    subst hcount
    exact ⟨d, hd, rfl, rfl, hkept⟩

/-- **`flush_client`.** -/
theorem flushClient_does (hc : c.Resting) :
    Does json c flushClient (fun _ => c.Kept) Exit.Explained := by
  intro others hsane
  apply ((writeClient_holds hsane).mono (fun _ _ _ h => h) (fun _ _ _ h => h.elim)).bind
  intro result s w howes
  cases result with
  | data size => exact releaseWritten_holds hsane howes
  | retryRead =>
      obtain ⟨d, hd, hkept, rfl, rfl⟩ := howes
      exact ⟨d, hd, rfl, rfl, hkept⟩
  | retryWrite =>
      obtain ⟨d, hd, hkept, rfl, rfl⟩ := howes
      exact ⟨d, hd, rfl, rfl, hkept⟩
  | closed =>
      obtain ⟨d, hd, hkept, rfl, rfl⟩ := howes
      exact ⟨d, hd, rfl, rfl, (hkept.resting hc).explained trivial⟩
  | error =>
      obtain ⟨d, hd, hkept, rfl, rfl⟩ := howes
      exact ⟨d, hd, rfl, rfl, (hkept.resting hc).explained trivial⟩

/-- **One write to the upstream.**  Where it fails there was something to write. -/
theorem pushUpstream_does (hc : c.Resting) (hstage : c.session.stage ≠ .upstreamConnect) :
    Does json c pushUpstream (fun _ => c.Kept) Exit.Explained := by
  intro others hsane
  apply ((writeUpstream_holds hsane hstage).mono (fun _ _ _ h => h) (fun _ _ _ h => h.elim)).bind
  intro result s w hresult
  obtain ⟨howes, hfailed⟩ := hresult
  cases result with
  | data size => exact releaseWritten_holds hsane howes
  | retryRead =>
      obtain ⟨d, hd, hkept, rfl, rfl⟩ := howes
      exact ⟨d, hd, rfl, rfl, hkept⟩
  | retryWrite =>
      obtain ⟨d, hd, hkept, rfl, rfl⟩ := howes
      exact ⟨d, hd, rfl, rfl, hkept⟩
  | closed =>
      obtain ⟨hfull, hs, hw⟩ := hfailed (.inl rfl)
      exact ⟨c, .refl c, hs.symm, hw.symm, hc.explained hfull⟩
  | error =>
      obtain ⟨hfull, hs, hw⟩ := hfailed (.inr rfl)
      exact ⟨c, .refl c, hs.symm, hw.symm, hc.explained hfull⟩

/-- By induction on the rounds; each pays for what it has written. -/
theorem flushRounds_does (rounds : Nat) (hstage : c.session.stage ≠ .upstreamConnect) :
    Does json c (flushRounds rounds) (fun _ => c.Kept) E := by
  induction rounds generalizing c with
  | zero => exact does_pure (.refl c)
  | succ rounds ih =>
      apply does_current
      split
      · intro others hsane
        apply ((writeUpstream_holds hsane hstage).mono (fun _ _ _ h => h)
          (fun _ _ _ h => h.elim)).bind
        intro result s w hresult
        obtain ⟨howes, -⟩ := hresult
        obtain ⟨d, hd, hkept, rfl, rfl⟩ := howes
        cases result with
        | data size =>
            show Holds _ _ _ (if size = 0 then pure () else _) _ _
            by_cases hzero : size = 0
            · subst hzero
              exact ⟨d, hd, rfl, rfl, hkept⟩
            · rw [if_neg hzero]
              refine ⟨Nat.le_add_left _ _, fun _ _ => ?_⟩
              have hreleased : (d.outside.hold size).after (.releaseQueuedBytes size) () =
                  d.outside := Outside.unhold_hold d.outside size
              have hrest : Does json d (flushRounds rounds) (fun _ => c.Kept) E := by
                have hstage' : d.session.stage ≠ .upstreamConnect := by
                  rw [hkept.stage]
                  exact hstage
                exact (ih hstage').mono (fun _ _ h => hkept.trans h) (fun _ _ h => h)
              have hend := hrest.after hd hsane
              rw [← hreleased] at hend
              exact hend
        | retryRead => exact ⟨d, hd, rfl, rfl, hkept⟩
        | retryWrite => exact ⟨d, hd, rfl, rfl, hkept⟩
        | closed => exact ⟨d, hd, rfl, rfl, hkept⟩
        | error => exact ⟨d, hd, rfl, rfl, hkept⟩
      · exact does_pure (.refl c)

/-- **`flush_upstream_queue`**, which cannot fail. -/
theorem flushUpstreamQueue_does (hstage : c.session.stage ≠ .upstreamConnect) :
    Does json c flushUpstreamQueue (fun _ => c.Kept) E :=
  does_current (flushRounds_does _ hstage)

/-! ## Reading and the handshake -/

/-- Noting a pending TLS operation is a move. -/
theorem follows_setTls (json : Glaze) (c : Config) (operation : TlsOperation)
    (direction : IoDirection)
    (h : operation = .read → c.phase = .reading ∧ c.session.ssl = true) :
    Follows json c (c.setSession (c.session.setTls operation direction)) :=
  follows_retry json c operation direction c.session.clientWriteRetryBytes h

/-- So is noting that none is pending. -/
theorem follows_clearTls (json : Glaze) (c : Config) :
    Follows json c (c.setSession c.session.clearTls) :=
  (Move.tls c .none (by simp)).follows

/-- The bytes in hand after a read, where there were `before`. -/
def IoResult.inHand (before : Bytes) : IoResult Chunk → Bytes
  | .data chunk => chunk.bytes
  | _ => before

/-- Where `read_client` leaves the session.  With data no read is pending, and the bytes are the
ones in hand. -/
structure Config.Read (c : Config) (result : IoResult Chunk) (c' : Config) : Prop where
  kept : c.Kept c'
  pending : ∀ chunk, result = .data chunk → c'.session.tlsOperation ≠ .read
  unframed : c'.unframed = result.inHand c.unframed

/-- The configuration in which a read has brought bytes. -/
def Config.heard (c : Config) (chunk : Chunk) : Config :=
  { c with outside := c.outside.note (.heard chunk.bytes), unframed := chunk.bytes }

/-- A read that brings no bytes. -/
theorem Config.Read.nothing {result : IoResult Chunk} (h : c.Kept c')
    (hnothing : ∀ chunk, result ≠ .data chunk) (hunframed : c'.unframed = c.unframed) :
    c.Read result c' := by
  refine ⟨h, fun chunk hdata => absurd hdata (hnothing chunk), ?_⟩
  cases result with
  | data chunk => exact absurd rfl (hnothing chunk)
  | _ => exact hunframed

/-- **A TLS read**: what it brings is in hand, and nothing else has changed. -/
theorem readClientTls_does (hc : c.phase = .reading) (hnothing : c.unframed = [])
    (hssl : c.session.ssl = true) : Does json c readClientTls c.Read E := by
  apply does_current
  refine does_call trivial fun r _ => ?_
  cases r with
  | data chunk =>
      refine ⟨c.heard chunk, (Move.hear c chunk hc hnothing).follows, rfl, rfl, ?_⟩
      exact does_modify (follows_clearTls json _)
        (does_pure ⟨⟨rfl, rfl, rfl, rfl⟩, fun _ _ => TlsOperation.noConfusion, rfl⟩)
  | wantRead =>
      refine ⟨c, .refl c, rfl, rfl, ?_⟩
      exact does_modify (follows_clearTls json c)
        (does_pure (.nothing ⟨rfl, rfl, rfl, rfl⟩ (by simp) rfl))
  | wantWrite =>
      refine ⟨c, .refl c, rfl, rfl, ?_⟩
      exact does_modify (follows_setTls json c .read .write fun _ => ⟨hc, hssl⟩)
        (does_pure (.nothing ⟨rfl, rfl, rfl, rfl⟩ (by simp) rfl))
  | zeroReturn => exact ⟨c, .refl c, rfl, rfl, does_pure (.nothing (.refl c) (by simp) rfl)⟩
  | interrupted =>
      refine ⟨c, .refl c, rfl, rfl, ?_⟩
      have hmoves : Follows json c (c.setSession c.session.interruptedRead) := by
        unfold Session.interruptedRead
        split
        · exact follows_setTls json c .read .read fun _ => ⟨hc, hssl⟩
        · exact .refl c
      have hstage : c.session.interruptedRead.stage = c.session.stage := by
        unfold Session.interruptedRead
        split
        · rfl
        · rfl
      exact does_modify hmoves (does_current (does_pure
        (.nothing ⟨rfl, rfl, hstage, rfl⟩ (retryIn_ne_data _) rfl)))
  | failed => exact ⟨c, .refl c, rfl, rfl, does_pure (.nothing (.refl c) (by simp) rfl)⟩

/-- **`read_client`.** -/
theorem readClient_does (hc : c.phase = .reading) (hnothing : c.unframed = []) :
    Does json c readClient c.Read E := by
  apply does_current
  split
  · rename_i hssl
    exact readClientTls_does hc hnothing hssl
  · rename_i hplain
    intro others hsane
    have hread := hsane.plain_reads (Bool.eq_false_of_not_eq_true hplain)
    have hdone : Does json c readClientPlain c.Read E := by
      apply does_current
      refine does_call trivial fun r _ => ?_
      cases r with
      | data chunk =>
          exact ⟨c.heard chunk, (Move.hear c chunk hc hnothing).follows, rfl, rfl,
            does_pure ⟨⟨rfl, rfl, rfl, rfl⟩, fun _ _ => hread, rfl⟩⟩
      | closed => exact ⟨c, .refl c, rfl, rfl, does_pure (.nothing (.refl c) (by simp) rfl)⟩
      | retry => exact ⟨c, .refl c, rfl, rfl, does_pure (.nothing (.refl c) (by simp) rfl)⟩
      | failed => exact ⟨c, .refl c, rfl, rfl, does_pure (.nothing (.refl c) (by simp) rfl)⟩
    exact hdone others hsane

/-- **`drive_tls_handshake`.** -/
theorem driveTlsHandshake_does (hc : c.Resting) (hstage : c.session.stage = .tlsHandshake) :
    Does json c driveTlsHandshake (fun _ => Config.Resting) Exit.Explained := by
  apply does_current
  refine does_quiet trivial fun r _ => ⟨rfl, ?_⟩
  cases r with
  | done =>
      refine does_now fun time _ => ?_
      -- what follows is one move: the session, its generation and the timer
      intro others hsane
      refine ⟨trivial, fun _ _ => ⟨trivial, fun _ _ => ⟨trivial, fun _ _ => ?_⟩⟩⟩
      exact ⟨_, (Move.greet (c.at time) hstage).follows, rfl, rfl, hc⟩
  | wantRead =>
      exact does_modify_last (follows_setTls json c .handshake .read (by simp)) hc
  | wantWrite =>
      exact does_modify_last (follows_setTls json c .handshake .write (by simp)) hc
  | interrupted =>
      refine does_modify_last ?_ hc
      show Follows json c (c.setSession (if c.session.tlsOperation ≠ .handshake then _ else _))
      split
      · exact follows_setTls json c .handshake .read (by simp)
      · exact .refl c
  | failed => exact does_quiet trivial fun _ _ => ⟨rfl, does_stop (hc.explained hstage)⟩

end PoolLb
