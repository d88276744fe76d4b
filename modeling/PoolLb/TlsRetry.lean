import PoolLb.ClientFrames
import PoolLb.Scenario

/-!
# Repeating an interrupted TLS operation

OpenSSL demands that an operation that could not be completed is repeated before any other,
and an `SSL_write` with the same bytes.  In between the reactor serves other events: bytes
from the pool are appended to the queue for the client, and the queue may be compacted.

The world of this file answers the calls on the TLS stream of one session in any way and
records them.  What the record leaves unfinished is what the fields `tlsOperation` and
`clientWriteRetryBytes` say, and the next call takes it up.
-/

namespace PoolLb.TlsRetry

open Interaction Handler

/-- A call on the TLS stream, with its answer. -/
inductive StreamCall where
  | accept (answer : SslAcceptAnswer)
  | read (answer : SslReadAnswer)
  | write (data : Bytes) (answer : SslWriteAnswer)

/-- What a call leaves to be repeated. -/
inductive Unfinished where
  | nothing
  | reading
  | writing (data : Bytes)

def StreamCall.leaves : StreamCall → Unfinished
  | .read .wantWrite | .read .interrupted => .reading
  | .write data .wantRead | .write data .wantWrite | .write data .interrupted => .writing data
  | _ => .nothing

/-- The call may come next: it takes up what was left. -/
def StreamCall.Resumes (call : StreamCall) : Unfinished → Prop
  | .nothing => True
  | .reading => ∃ answer, call = .read answer
  | .writing data => ∃ answer, call = .write data answer

/-- What a record leaves to be repeated, the latest call first. -/
def leftBy : List StreamCall → Unfinished
  | [] => .nothing
  | call :: _ => call.leaves

/-- What OpenSSL has asked for in the operation that is unfinished; an interruption asks for
nothing. -/
def asked : List StreamCall → Option IoDirection
  | .read .wantWrite :: _ | .write _ .wantWrite :: _ => some .write
  | .write _ .wantRead :: _ => some .read
  | .read .interrupted :: earlier | .write _ .interrupted :: earlier => asked earlier
  | _ => none

/-- Every call takes up what the one before it has left. -/
def Disciplined : List StreamCall → Prop
  | [] => True
  | call :: earlier => call.Resumes (leftBy earlier) ∧ Disciplined earlier

/-- The record after a call. -/
def record (calls : List StreamCall) : (c : ReactorCall) → c.Answer → List StreamCall
  | .sslAccept _, answer => .accept answer :: calls
  | .sslRead _, answer => .read answer :: calls
  | .sslWrite _ data, answer => .write data answer :: calls
  | _, _ => calls

/-- An `SSL_write` takes some of what it was offered. -/
def answers : (c : ReactorCall) → c.Answer → Prop
  | .sslWrite _ data, .wrote count => 0 < count ∧ count ≤ data.length
  | _, _ => True

/-- A world that records the calls on a TLS stream. -/
def streaming : World reactorCalls (List StreamCall) where
  requires _ _ := True
  allows _ := answers
  after := record

variable {json : Glaze} {s s' : Session} {calls calls' : List StreamCall}

/-- What the session knows of an unfinished operation. -/
def Matches (s : Session) : Unfinished → Prop
  | .nothing => s.tlsOperation ≠ .read ∧ s.tlsOperation ≠ .write ∧ s.clientWriteRetryBytes = 0
  | .reading => s.tlsOperation = .read ∧ s.clientWriteRetryBytes = 0
  | .writing data => s.tlsOperation = .write ∧ 0 < s.clientWriteRetryBytes ∧
      s.clientWriteRetryBytes ≤ s.toClient.size ∧
      data = s.toClient.bytes.take s.clientWriteRetryBytes

/-- The length of a repeated write is set exactly while a write is pending. -/
structure Coupled (s : Session) : Prop where
  pending : 0 < s.clientWriteRetryBytes ↔ s.tlsOperation = .write
  covered : s.tlsOperation = .write → s.clientWriteRetryBytes ≤ s.toClient.size

/-- With no write pending there is no length to repeat. -/
theorem coupled_of_zero (hwrite : s.tlsOperation ≠ .write) (hzero : s.clientWriteRetryBytes = 0) :
    Coupled s := by
  refine ⟨⟨fun hpos => ?_, fun h => absurd h hwrite⟩, fun h => absurd h hwrite⟩
  omega

/-- A session that knows what is unfinished has the length that goes with it. -/
theorem Matches.coupled {left : Unfinished} (h : Matches s left) : Coupled s := by
  cases left with
  | nothing => exact coupled_of_zero h.2.1 h.2.2
  | reading =>
      refine coupled_of_zero ?_ h.2
      rw [h.1]
      decide
  | writing data =>
      obtain ⟨hwrite, hpos, hle, _⟩ := h
      exact ⟨⟨fun _ => hwrite, fun _ => hpos⟩, fun _ => hle⟩

/-- An operation waits for what OpenSSL has asked for, or else for its own direction, and only
an open stream is read. -/
def Awaits (s : Session) (calls : List StreamCall) : Prop :=
  (s.tlsOperation = .read →
    s.clientReadClosed = false ∧ s.tlsDirection = (asked calls).getD .read) ∧
  (s.tlsOperation = .write → s.tlsDirection = (asked calls).getD .write)

/-- A TLS session, with the record of its stream. -/
structure Agrees (s : Session) (calls : List StreamCall) : Prop where
  disciplined : Disciplined calls
  tls : s.ssl = true
  greeting : s.tlsOperation = .handshake ↔ s.stage = .tlsHandshake
  left : Matches s (leftBy calls)
  awaits : Awaits s calls

/-- Where a reaction ends the session. -/
def Ends (_ : Exit) (s : Session) (calls : List StreamCall) : Prop :=
  Disciplined calls ∧ Coupled s

/-- A session that agrees may end there, for whatever reason. -/
theorem Agrees.ends (h : Agrees s calls) (e : Exit) : Ends e s calls :=
  ⟨h.disciplined, h.left.coupled⟩

/-- Where no write is pending nothing has to be written again. -/
theorem Agrees.retry_zero (h : Agrees s calls) (hwrite : s.tlsOperation ≠ .write) :
    s.clientWriteRetryBytes = 0 := by
  have hpending := h.left.coupled.pending
  by_contra hne
  exact hwrite (hpending.mp (Nat.pos_of_ne_zero hne))

/-- Where nothing is left, nothing was asked for. -/
theorem asked_of_nothing (h : leftBy calls = .nothing) : asked calls = none := by
  cases calls with
  | nil => rfl
  | cons call earlier =>
      cases call with
      | accept answer => rfl
      | read answer => cases answer <;> first | rfl | exact Unfinished.noConfusion h
      | write data answer => cases answer <;> first | rfl | exact Unfinished.noConfusion h

/-- Where nothing is pending, nothing was left. -/
theorem Agrees.leftBy_nothing (h : Agrees s calls) (hread : s.tlsOperation ≠ .read)
    (hwrite : s.tlsOperation ≠ .write) : leftBy calls = .nothing := by
  have hleft := h.left
  cases hcalls : leftBy calls with
  | nothing => rfl
  | reading =>
      rw [hcalls] at hleft
      exact absurd hleft.1 hread
  | writing data =>
      rw [hcalls] at hleft
      exact absurd hleft.1 hwrite

/-- Where no write is pending, a read may come next. -/
theorem Agrees.may_read (h : Agrees s calls) (hwrite : s.tlsOperation ≠ .write)
    (answer : SslReadAnswer) : Disciplined (.read answer :: calls) := by
  refine ⟨?_, h.disciplined⟩
  have hleft := h.left
  cases hcalls : leftBy calls with
  | nothing => trivial
  | reading => exact ⟨answer, rfl⟩
  | writing data =>
      rw [hcalls] at hleft
      exact absurd hleft.1 hwrite

/-- Where no read is pending, the write that `write_client` makes may come next. -/
theorem Agrees.may_write (h : Agrees s calls) (hread : s.tlsOperation ≠ .read)
    (answer : SslWriteAnswer) :
    Disciplined (.write (s.toClient.bytes.take s.sslWriteSize) answer :: calls) := by
  refine ⟨?_, h.disciplined⟩
  have hleft := h.left
  cases hcalls : leftBy calls with
  | nothing => trivial
  | reading =>
      rw [hcalls] at hleft
      exact absurd hleft.1 hread
  | writing data =>
      rw [hcalls] at hleft
      obtain ⟨_, hpos, _, rfl⟩ := hleft
      have hsize : s.sslWriteSize = s.clientWriteRetryBytes := if_pos hpos
      rw [hsize]
      exact ⟨answer, rfl⟩

/-- Only the client side counts. -/
theorem Matches.congr {left : Unfinished} (h : Matches s left) (hside : s'.clientSide = s.clientSide) :
    Matches s' left := by
  have hoperation : s'.tlsOperation = s.tlsOperation := congrArg ClientSide.tlsOperation hside
  have hretry : s'.clientWriteRetryBytes = s.clientWriteRetryBytes :=
    congrArg ClientSide.clientWriteRetryBytes hside
  have hqueue : s'.toClient = s.toClient := congrArg ClientSide.toClient hside
  cases left with
  | nothing =>
      unfold Matches
      rw [hoperation, hretry]
      exact h
  | reading =>
      unfold Matches
      rw [hoperation, hretry]
      exact h
  | writing data =>
      unfold Matches
      rw [hoperation, hretry, hqueue]
      exact h

theorem Agrees.congr (h : Agrees s calls) (hside : s'.clientSide = s.clientSide) :
    Agrees s' calls := by
  have hoperation : s'.tlsOperation = s.tlsOperation := congrArg ClientSide.tlsOperation hside
  have hdirection : s'.tlsDirection = s.tlsDirection := congrArg ClientSide.tlsDirection hside
  have hclosed : s'.clientReadClosed = s.clientReadClosed :=
    congrArg ClientSide.clientReadClosed hside
  have hawaits : Awaits s' calls := by
    unfold Awaits
    rw [hoperation, hdirection, hclosed]
    exact h.awaits
  refine ⟨h.disciplined, (congrArg ClientSide.ssl hside).trans h.tls, ?_, h.left.congr hside,
    hawaits⟩
  have hstage : s'.stage = .tlsHandshake ↔ s.stage = .tlsHandshake := by
    rw [← not_iff_not]
    show s'.stage ≠ .tlsHandshake ↔ s.stage ≠ .tlsHandshake
    rw [← Session.past_clientSide, hside, Session.past_clientSide]
  rw [hoperation, hstage]
  exact h.greeting

/-- The calls of other work are not on the record. -/
theorem record_same (calls : List StreamCall) (c : ReactorCall) (hc : c.LeavesTls) :
    streaming.requires calls c ∧ ∀ r, streaming.allows calls c r →
      calls = streaming.after calls c r := by
  refine ⟨trivial, ?_⟩
  cases c with
  | sslAccept session => exact hc.elim
  | sslRead session => exact hc.elim
  | sslWrite session data => exact hc.elim
  | _ => exact fun _ _ => rfl

/-- A session that agrees and has a given client side. -/
def AgreesAs (side : ClientSide) (s : Session) (calls : List StreamCall) : Prop :=
  Agrees s calls ∧ s.clientSide = side

/-- **Other work keeps the agreement**, and what is pending. -/
theorem Agrees.spared {α : Type} {m : SessionM α} {G : ClientSide → Prop} (h : Agrees s calls)
    (hG : G s.clientSide) (hm : Spares G m) :
    Holds streaming s calls m (fun _ => AgreesAs s.clientSide) Ends := by
  apply (hm.holds (M := streaming) (s := s) (w := calls) hG
    (fun _ => rfl) (fun _ _ _ => Eq.trans) record_same).mono
  · intro _ s' calls' hend
    obtain ⟨hside, hcalls⟩ := hend
    subst hcalls
    exact ⟨h.congr hside, hside⟩
  · intro e s' calls' hend
    obtain ⟨_, hside, hcalls⟩ := hend
    subst hcalls
    exact (h.congr hside).ends e

/-! ## Reading -/

/-- A session that is past its handshake, has no write pending and may still hear more. -/
structure MayRead (s : Session) (calls : List StreamCall) : Prop extends Agrees s calls where
  past : s.stage ≠ .tlsHandshake
  idle : s.tlsOperation ≠ .write
  hears : s.clientReadClosed = false

/-- After a read. -/
def AfterRead : IoResult Chunk → Session → List StreamCall → Prop
  | .data _, s, calls => MayRead s calls
  | .closed, s, calls => Agrees s.clearTls calls
  | .error, s, calls => Disciplined calls ∧ Coupled s
  | _, s, calls => Agrees s calls

/-- A read that leaves nothing, and a session that notes nothing. -/
theorem MayRead.agrees_clear (h : MayRead s calls) (answer : SslReadAnswer)
    (hleaves : (StreamCall.read answer).leaves = .nothing) :
    Agrees s.clearTls (.read answer :: calls) := by
  refine ⟨h.may_read h.idle answer, h.tls, iff_of_false nofun h.past, ?_, nofun, nofun⟩
  show Matches s.clearTls (StreamCall.read answer).leaves
  rw [hleaves]
  exact ⟨nofun, nofun, h.retry_zero h.idle⟩

/-- A read that has to be repeated, and a session that notes it. -/
theorem MayRead.agrees_read (h : MayRead s calls) (answer : SslReadAnswer) (direction : IoDirection)
    (hleaves : (StreamCall.read answer).leaves = .reading)
    (hdirection : direction = (asked (.read answer :: calls)).getD .read) :
    Agrees (s.setTls .read direction) (.read answer :: calls) := by
  refine ⟨h.may_read h.idle answer, h.tls, iff_of_false nofun h.past, ?_,
    fun _ => ⟨h.hears, hdirection⟩, nofun⟩
  show Matches (s.setTls .read direction) (StreamCall.read answer).leaves
  rw [hleaves]
  exact ⟨rfl, h.retry_zero h.idle⟩

/-- A read that a signal interrupted, whether one was pending or not. -/
theorem MayRead.interrupted (h : MayRead s calls) :
    Agrees s.interruptedRead (.read .interrupted :: calls) := by
  unfold Session.interruptedRead
  split
  · rename_i hread
    refine h.agrees_read .interrupted .read rfl ?_
    show IoDirection.read = (asked calls).getD .read
    rw [asked_of_nothing (h.leftBy_nothing hread h.idle)]
    rfl
  · rename_i hread
    rw [not_not] at hread
    exact ⟨h.may_read h.idle .interrupted, h.tls, h.greeting, ⟨hread, h.retry_zero h.idle⟩,
      h.awaits.1, fun hwrite => absurd hwrite h.idle⟩

/-- **One TLS read**, by its answers. -/
theorem readClientTls_agrees (h : MayRead s calls) :
    Holds streaming s calls readClientTls AfterRead Ends := by
  refine holds_current_bind (holds_ask_bind trivial fun answer _ => ?_)
  cases answer with
  | data chunk => exact ⟨h.agrees_clear (.data chunk) rfl, h.past, nofun, h.hears⟩
  | wantRead => exact h.agrees_clear .wantRead rfl
  | wantWrite => exact h.agrees_read .wantWrite .write rfl rfl
  | zeroReturn => exact h.agrees_clear .zeroReturn rfl
  | failed => exact ⟨h.may_read h.idle .failed, h.left.coupled⟩
  | interrupted =>
      refine holds_modify_bind (holds_current_bind ?_)
      rw [holds_pure]
      have hagrees := h.interrupted
      cases s.interruptedRead.tlsDirection with
      | read => exact hagrees
      | write => exact hagrees

/-- The client has closed its side. -/
theorem closeClientRead_agrees (h : Agrees s.clearTls calls) :
    Holds streaming s calls closeClientRead (fun _ => Agrees) Ends := by
  have hclosed : Agrees { s.clearTls with clientReadClosed := true } calls :=
    ⟨h.disciplined, h.tls, h.greeting, h.left, nofun, nofun⟩
  refine holds_modify_bind (holds_current_bind ?_)
  split
  · exact holds_ask_bind trivial fun _ _ => hclosed.ends .truncatedLine
  · exact hclosed

theorem MayRead.congr (h : MayRead s calls) (hagrees : Agrees s' calls')
    (hside : s'.clientSide = s.clientSide) : MayRead s' calls' := by
  have hoperation : s'.tlsOperation = s.tlsOperation := congrArg ClientSide.tlsOperation hside
  have hclosed : s'.clientReadClosed = s.clientReadClosed :=
    congrArg ClientSide.clientReadClosed hside
  refine ⟨hagrees, ?_, hoperation ▸ h.idle, hclosed.trans h.hears⟩
  rw [← Session.past_clientSide, hside, Session.past_clientSide]
  exact h.past

/-- By induction on the rounds; a round that goes on has left nothing unfinished. -/
theorem readRounds_agrees (rounds bytesThisEvent messagesThisEvent : Nat) (h : MayRead s calls) :
    Holds streaming s calls (readRounds json rounds bytesThisEvent messagesThisEvent)
      (fun _ => Agrees) Ends := by
  induction rounds generalizing s calls bytesThisEvent messagesThisEvent with
  | zero => exact h.toAgrees
  | succ rounds ih =>
      have hread : Holds streaming s calls readClient AfterRead Ends := by
        refine holds_current_bind ?_
        rw [if_pos h.tls]
        exact readClientTls_agrees h
      refine hread.bind fun result s₁ calls₁ h₁ => ?_
      cases result with
      | retryRead => exact h₁
      | retryWrite => exact h₁
      | closed => exact closeClientRead_agrees h₁
      | error => exact h₁
      | data chunk =>
          have h₁ : MayRead s₁ calls₁ := h₁
          refine (h₁.spared (Session.past_clientSide.mpr h₁.past)
            (takeChunk_spares json chunk messagesThisEvent)).bind
            fun _ s₂ calls₂ h₂ => holds_current_bind ?_
          split
          · exact h₂.1
          · split
            · exact h₂.1
            · exact ih _ _ (h₁.congr h₂.1 h₂.2)

/-! ## Writing -/

/-- What is offered to `SSL_write` is there, and is not nothing. -/
theorem Agrees.sslWriteSize_bounds (h : Agrees s calls) (hsome : ¬ s.toClient.isEmpty) :
    0 < s.sslWriteSize ∧ s.sslWriteSize ≤ s.toClient.size := by
  have hcoupled := h.left.coupled
  unfold Session.sslWriteSize
  split
  · rename_i hpos
    exact ⟨hpos, hcoupled.covered (hcoupled.pending.mp hpos)⟩
  · have hsize : 0 < s.toClient.size := by
      rw [← PendingBuffer.length_bytes]
      rw [Bool.not_eq_true, PendingBuffer.isEmpty_eq_false_iff] at hsome
      exact List.length_pos_iff.mpr hsome
    have hmaximum : 0 < kMaximumBytesPerReadyEvent := by decide
    omega

/-- A session that is past its handshake and has no read pending. -/
structure MayWrite (s : Session) (calls : List StreamCall) : Prop extends Agrees s calls where
  past : s.stage ≠ .tlsHandshake
  idle : s.tlsOperation ≠ .read

/-- With no handshake pending the session has greeted. -/
theorem Agrees.past (h : Agrees s calls) (hidle : s.tlsOperation ≠ .handshake) :
    s.stage ≠ .tlsHandshake := fun hstage => hidle (h.greeting.mpr hstage)

/-- With nothing pending a write may begin. -/
theorem Agrees.mayWrite (h : Agrees s calls) (hidle : s.tlsOperation = .none) : MayWrite s calls := by
  refine ⟨h, h.past ?_, ?_⟩
  · rw [hidle]
    decide
  · rw [hidle]
    decide

/-- A write that has to be repeated. -/
theorem MayWrite.agrees_retry (h : MayWrite s calls) (hsome : ¬ s.toClient.isEmpty)
    (direction : IoDirection) (answer : SslWriteAnswer)
    (hleaves : ∀ data, (StreamCall.write data answer).leaves = .writing data)
    (hdirection : ∀ data, direction = (asked (.write data answer :: calls)).getD .write) :
    Agrees (s.retryWrite direction s.sslWriteSize)
      (.write (s.toClient.bytes.take s.sslWriteSize) answer :: calls) := by
  obtain ⟨hpos, hle⟩ := h.sslWriteSize_bounds hsome
  refine ⟨h.may_write h.idle answer, h.tls, iff_of_false nofun h.past, ?_, nofun,
    fun _ => hdirection _⟩
  show Matches _ (StreamCall.write _ answer).leaves
  rw [hleaves]
  exact ⟨rfl, hpos, hle, rfl⟩

/-- A write that a signal interrupted, whether one was pending or not. -/
theorem MayWrite.interrupted (h : MayWrite s calls) (hsome : ¬ s.toClient.isEmpty) :
    Agrees (s.interruptedWrite s.sslWriteSize)
      (.write (s.toClient.bytes.take s.sslWriteSize) .interrupted :: calls) := by
  unfold Session.interruptedWrite
  split
  · rename_i hwrite
    refine h.agrees_retry hsome .write .interrupted (fun _ => rfl) fun _ => ?_
    show IoDirection.write = (asked calls).getD .write
    rw [asked_of_nothing (h.leftBy_nothing h.idle hwrite)]
    rfl
  · rename_i hwrite
    rw [not_not] at hwrite
    obtain ⟨hpos, hle⟩ := h.sslWriteSize_bounds hsome
    exact ⟨h.may_write h.idle .interrupted, h.tls, h.greeting, ⟨hwrite, hpos, hle, rfl⟩,
      fun hread => absurd hread h.idle, h.awaits.2⟩

/-- What was written leaves the queue, and nothing is to be repeated. -/
theorem MayWrite.wrote (h : MayWrite s calls) (count : Nat) :
    Agrees { s.clearTls with toClient := s.toClient.consume count, clientWriteRetryBytes := 0 }
      (.write (s.toClient.bytes.take s.sslWriteSize) (.wrote count) :: calls) :=
  ⟨h.may_write h.idle (.wrote count), h.tls, iff_of_false nofun h.past, ⟨nofun, nofun, rfl⟩, nofun,
    nofun⟩

/-- After a write. -/
def AfterWrite : IoResult Nat → Session → List StreamCall → Prop
  | .error, s, calls => Disciplined calls ∧ Coupled s
  | _, s, calls => Agrees s calls

/-- **One TLS write**: a repeated one offers the bytes of the one before. -/
theorem writeClientTls_agrees (h : MayWrite s calls) (hsome : ¬ s.toClient.isEmpty) :
    Holds streaming s calls writeClientTls AfterWrite Ends := by
  refine holds_current_bind (holds_ask_bind trivial fun answer _ => ?_)
  cases answer with
  | wrote count => exact h.wrote count
  | wantRead => exact h.agrees_retry hsome .read .wantRead (fun _ => rfl) fun _ => rfl
  | wantWrite => exact h.agrees_retry hsome .write .wantWrite (fun _ => rfl) fun _ => rfl
  | failed => exact ⟨h.may_write h.idle .failed, h.left.coupled⟩
  | interrupted =>
      refine holds_modify_bind (holds_current_bind ?_)
      rw [holds_pure]
      have hagrees := h.interrupted hsome
      cases (s.interruptedWrite s.sslWriteSize).tlsDirection with
      | read => exact hagrees
      | write => exact hagrees

/-- A flush is a write at most. -/
theorem flushClient_agrees (h : MayWrite s calls) :
    Holds streaming s calls flushClient (fun _ => Agrees) Ends := by
  have hwrite : Holds streaming s calls writeClient AfterWrite Ends := by
    refine holds_current_bind ?_
    split
    · exact h.toAgrees
    · rename_i hsome
      rw [if_pos h.tls]
      exact writeClientTls_agrees h hsome
  refine hwrite.bind fun result s₁ calls₁ h₁ => ?_
  cases result with
  | retryRead => exact h₁
  | retryWrite => exact h₁
  | closed => exact Agrees.ends h₁ .clientWriteFailed
  | error => exact h₁
  | data size =>
      have h₁ : Agrees s₁ calls₁ := h₁
      exact (h₁.spared (G := fun _ => True) trivial (releaseWritten_forwards size).spares).mono
        (fun _ _ _ h₂ => h₂.1) fun _ _ _ h₂ => h₂

/-! ## The handlers -/

/-- Bytes from the pool go behind those that have to be written again. -/
theorem Agrees.append (h : Agrees s calls) (bytes : Bytes) :
    Agrees { s with toClient := s.toClient.append bytes } calls := by
  refine ⟨h.disciplined, h.tls, h.greeting, ?_, h.awaits⟩
  have hleft := h.left
  cases hcalls : leftBy calls with
  | nothing =>
      rw [hcalls] at hleft
      exact hleft
  | reading =>
      rw [hcalls] at hleft
      exact hleft
  | writing data =>
      rw [hcalls] at hleft
      obtain ⟨hwrite, hpos, hle, hdata⟩ := hleft
      have hlength : s.clientWriteRetryBytes ≤ s.toClient.bytes.length := by
        rw [PendingBuffer.length_bytes]
        exact hle
      refine ⟨hwrite, hpos, ?_, ?_⟩
      · show s.clientWriteRetryBytes ≤ (s.toClient.append bytes).size
        rw [← PendingBuffer.length_bytes, PendingBuffer.bytes_append, List.length_append]
        omega
      · show data = (s.toClient.append bytes).bytes.take s.clientWriteRetryBytes
        rw [PendingBuffer.bytes_append, List.take_append_of_le_length hlength]
        exact hdata

/-- By induction on the rounds; bytes are appended behind those of a pending write. -/
theorem recvRounds_agrees (rounds bytesThisEvent : Nat) (h : Agrees s calls) :
    Holds streaming s calls (recvRounds rounds bytesThisEvent) (fun _ => Agrees) Ends := by
  induction rounds generalizing s calls bytesThisEvent with
  | zero => exact h
  | succ rounds ih =>
      refine holds_current_bind (holds_ask_bind trivial fun answer _ => ?_)
      cases answer with
      | closed => exact ⟨h.disciplined, h.tls, h.greeting, h.left, h.awaits⟩
      | retry => exact h
      | failed => exact h.ends .upstreamReadFailed
      | data chunk =>
          have hqueue : Holds streaming s calls (queueForClient chunk) (fun _ => Agrees) Ends := by
            refine holds_ask_bind trivial fun _ _ => ?_
            refine (h.spared (G := fun _ => True) trivial (reserveQueuedBytes_forwards _).spares).bind
              fun reserved s₁ calls₁ h₁ => ?_
            cases reserved with
            | true => exact h₁.1.append chunk.bytes
            | false => exact h₁.1.ends .queueBudget
          refine hqueue.bind fun _ s₂ calls₂ h₂ => holds_current_bind ?_
          dsimp only
          split
          · exact Agrees.ends h₂ .queueLimit
          · split
            · exact h₂
            · split
              · exact h₂
              · exact ih _ h₂

/-- **The agreement through `upstream_ready`.** -/
theorem upstreamRelay_agrees (events : EventMask) (h : Agrees s calls) :
    Holds streaming s calls (upstreamRelay events) (fun _ => Agrees) Ends := by
  have hrecv : Holds streaming s calls (recvFromUpstream events) (fun _ => Agrees) Ends := by
    refine holds_current_bind ?_
    split
    · refine (recvRounds_agrees _ _ h).bind fun bytes s₁ calls₁ h₁ => ?_
      split
      · exact holds_ask_bind trivial fun _ _ =>
          ⟨h₁.disciplined, h₁.tls, h₁.greeting, h₁.left, h₁.awaits⟩
      · exact h₁
    · exact h
  refine hrecv.bind fun bytes s₁ calls₁ h₁ => ?_
  have hflush : Holds streaming s₁ calls₁ flushClientIfIdle (fun _ => Agrees) Ends := by
    refine holds_current_bind ?_
    split
    · rename_i hidle
      exact flushClient_agrees (h₁.mayWrite hidle.1)
    · exact h₁
  refine hflush.bind fun _ s₂ calls₂ h₂ => ?_
  refine (h₂.spared (G := fun _ => True) trivial (pushUpstreamIfWritable_forwards events).spares).bind
    fun _ s₃ calls₃ h₃ => ?_
  split
  · exact h₃.1.ends .upstreamError
  · refine holds_modify_bind (holds_current_bind ?_)
    have h₄ : ∀ closed, Agrees { s₃ with upstreamReadClosed := closed } calls₃ := fun _ =>
      ⟨h₃.1.disciplined, h₃.1.tls, h₃.1.greeting, h₃.1.left, h₃.1.awaits⟩
    split
    · exact ((h₄ _).spared (G := fun _ => True) trivial drainUpstream_spares).mono
        (fun _ _ _ h₅ => h₅.1) fun _ _ _ h₅ => h₅
    · exact h₄ _

/-- **An event of the pool socket** does not disturb a pending operation. -/
theorem upstreamReady_agrees (events : EventMask) (h : Agrees s calls) :
    Holds streaming s calls (upstreamReady events) (fun _ => Agrees) Ends := by
  refine holds_current_bind ?_
  split
  · rename_i hstage
    have hpast : s.clientSide.Past := by
      rw [Session.past_clientSide, hstage]
      decide
    refine (h.spared hpast finishUpstreamConnect_spares).bind fun connected s₁ calls₁ h₁ => ?_
    cases connected with
    | true => exact upstreamRelay_agrees events h₁.1
    | false =>
        have hpast₁ : s₁.clientSide.Past := h₁.2 ▸ hpast
        exact (h₁.1.spared hpast₁ retryUpstreamConnect_spares).mono (fun _ _ _ h₂ => h₂.1)
          fun _ _ _ h₂ => h₂
  · exact upstreamRelay_agrees events h

/-- **The handshake ends in agreement**, or goes on. -/
theorem driveTlsHandshake_agrees (hdisciplined : Disciplined calls) (htls : s.ssl = true)
    (hstage : s.stage = .tlsHandshake) (hleft : leftBy calls = .nothing)
    (hzero : s.clientWriteRetryBytes = 0) (hwrite : s.tlsOperation ≠ .write) :
    Holds streaming s calls driveTlsHandshake (fun _ => Agrees) Ends := by
  have hrecord : ∀ answer, Disciplined (.accept answer :: calls) := by
    intro answer
    refine ⟨?_, hdisciplined⟩
    rw [hleft]
    trivial
  have hgoing : ∀ answer direction, Agrees (s.setTls .handshake direction) (.accept answer :: calls) :=
    fun answer _ =>
      ⟨hrecord answer, htls, iff_of_true rfl hstage, ⟨nofun, nofun, hzero⟩, nofun, nofun⟩
  refine holds_current_bind (holds_ask_bind trivial fun answer _ => ?_)
  cases answer with
  | done =>
      refine holds_ask_bind trivial fun now _ => holds_modify_bind
        (holds_ask_bind trivial fun _ _ => holds_ask_bind trivial fun _ _ => ?_)
      have hdone : Agrees { s.clearTls with
          stage := .firstMessage
          deadline := afterSeconds now s.limits.firstMessageTimeoutSeconds }
          (.accept .done :: calls) :=
        ⟨hrecord .done, htls, iff_of_false nofun nofun, ⟨nofun, nofun, hzero⟩, nofun, nofun⟩
      exact (hdone.spared (G := fun _ => True) trivial scheduleTimeout_forwards.spares).mono
        (fun _ _ _ h => h.1) fun _ _ _ h => h
  | wantRead => exact hgoing .wantRead .read
  | wantWrite => exact hgoing .wantWrite .write
  | interrupted =>
      show Agrees (if s.tlsOperation ≠ .handshake then s.setTls .handshake .read else s)
        (.accept .interrupted :: calls)
      split
      · exact hgoing .interrupted .read
      · rename_i hop
        rw [not_not] at hop
        have hread : s.tlsOperation ≠ .read := by
          rw [hop]
          decide
        exact ⟨hrecord .interrupted, htls, iff_of_true hop hstage, ⟨hread, hwrite, hzero⟩,
          fun hpending => absurd hpending hread, fun hpending => absurd hpending hwrite⟩
  | failed =>
      exact holds_ask_bind trivial fun _ _ => ⟨hrecord .failed, coupled_of_zero hwrite hzero⟩

/-- A hangup may end the session at any time. -/
theorem stopIfGone_agrees (events : EventMask) (h : Agrees s calls) :
    Holds streaming s calls (stopIfGone events) (fun _ => Agrees) Ends := by
  unfold stopIfGone
  split
  · exact h.ends .clientGone
  · exact h

/-- The write of `client_ready`, and its tests. -/
theorem finishClientEvent_agrees (events : EventMask) (exhausted : Bool) (h : Agrees s calls) :
    Holds streaming s calls (finishClientEvent events exhausted) (fun _ => Agrees) Ends := by
  refine (h.spared (G := fun _ => True) trivial pushUpstreamIfRelay_forwards.spares).bind
    fun _ s₁ calls₁ h₁ => ?_
  have hflush : Holds streaming s₁ calls₁ (flushClientIfWritable events) (fun _ => Agrees) Ends := by
    refine holds_current_bind ?_
    split
    · rename_i hidle
      exact flushClient_agrees (h₁.1.mayWrite hidle.2.1)
    · exact h₁.1
  refine hflush.bind fun _ s₂ calls₂ h₂ => holds_current_bind ?_
  split
  · exact Agrees.ends h₂ .drained
  · split
    · exact Agrees.ends h₂ .clientGone
    · split
      · exact Agrees.ends h₂ .clientGone
      · split
        · exact Agrees.ends h₂ .noFirstMessage
        · exact h₂

/-- **The agreement through `client_ready`.** -/
theorem clientReady_agrees (events : EventMask) (h : Agrees s calls) :
    Holds streaming s calls (clientReady json events) (fun _ => Agrees) Ends := by
  refine holds_current_bind ?_
  split
  · rename_i hstage
    have hop : s.tlsOperation = .handshake := h.greeting.mpr hstage
    have hnothing : leftBy calls = .nothing := by
      apply h.leftBy_nothing <;>
      · rw [hop]
        decide
    have hleft := h.left
    rw [hnothing] at hleft
    exact driveTlsHandshake_agrees h.disciplined h.tls hstage hnothing hleft.2.2 hleft.2.1
  · rename_i hpast
    split
    · rename_i hwrite
      have hmay : MayWrite s calls := by
        refine ⟨h, hpast, ?_⟩
        rw [hwrite]
        decide
      refine holds_current_bind ?_
      split
      · exact stopIfGone_agrees events h
      · refine (flushClient_agrees hmay).bind fun _ s₁ calls₁ h₁ => holds_current_bind ?_
        split
        · exact Agrees.ends h₁ .drained
        · exact stopIfGone_agrees events h₁
    · rename_i hwrite
      split
      · rename_i hread
        split
        · exact stopIfGone_agrees events h
        · exact (readRounds_agrees _ _ _ ⟨h, hpast, hwrite, (h.awaits.1 hread).1⟩).bind
            fun exhausted _ _ h₁ =>
            finishClientEvent_agrees events exhausted h₁
      · have hread : Holds streaming s calls (readIfReady json events) (fun _ => Agrees) Ends := by
          refine holds_current_bind ?_
          split
          · rename_i hready
            exact readRounds_agrees _ _ _ ⟨h, hpast, hwrite, Bool.eq_false_of_not_eq_true hready.2.1⟩
          · exact h
        exact hread.bind fun exhausted _ _ h₁ => finishClientEvent_agrees events exhausted h₁

/-- Pauses and arming are not about the stream. -/
theorem updateInterests_agrees (h : Agrees s calls) :
    Holds streaming s calls updateInterests (fun _ => Agrees) Ends :=
  (h.spared (G := fun _ => True) trivial updateInterests_spares).mono (fun _ _ _ h₁ => h₁.1)
    fun _ _ _ h₁ => h₁

/-- Nor are the timers. -/
theorem expireSession_agrees (now : Nat) (h : Agrees s calls) :
    Holds streaming s calls (expireSession now) (fun _ => Agrees) Ends := by
  by_cases hstage : s.stage = .tlsHandshake
  · refine holds_current_bind ?_
    split
    · exact holds_ask_bind trivial fun _ _ => h
    · rw [hstage]
      exact holds_ask_bind trivial fun _ _ => h.ends .timedOut
  · exact (h.spared (Session.past_clientSide.mpr hstage) (expireSession_spares now)).mono
      (fun _ _ _ h₁ => h₁.1) fun _ _ _ h₁ => h₁

/-- **One reaction keeps the agreement.** -/
theorem handle_agrees (event : SessionEvent) (h : Agrees s calls) :
    Holds streaming s calls (Session.handle json event) (fun _ => Agrees) Ends := by
  cases event with
  | client events => exact (clientReady_agrees events h).bind fun _ _ _ h₁ => updateInterests_agrees h₁
  | upstream events =>
      exact (upstreamReady_agrees events h).bind fun _ _ _ h₁ => updateInterests_agrees h₁
  | timeout now => exact expireSession_agrees now h

/-! ## The life of a TLS session -/

/-- The states of a TLS session after each of its reactions, with the record of its stream. -/
inductive Life (json : Glaze) : Except Exit Unit → Session → List StreamCall → Prop where
  | accepted {id client now : Nat} {runtime : RuntimeSnapshot} {header : ProxyV2Header}
      {lease : Option Nat} {result : Except Exit Unit} {s : Session} {calls : List StreamCall}
      (hrun : Runs streaming []
        (firstHandshake (freshSession id client runtime header lease now).tls.bump) (result, s) calls) :
      Life json result s calls
  | handled {result : Except Exit Unit} {s s' : Session} {calls calls' : List StreamCall}
      (event : SessionEvent) (h : Life json (.ok ()) s calls)
      (hrun : Runs streaming calls (Session.handle json event s) (result, s') calls') :
      Life json result s' calls'

theorem Life.agrees {result : Except Exit Unit} (h : Life json result s calls) :
    Either (fun _ => Agrees) Ends (result, s) calls := by
  induction h with
  | @accepted id client now runtime header lease _ _ _ hrun =>
      have hgreet : Holds streaming (freshSession id client runtime header lease now).tls.bump []
          driveTlsHandshake (fun _ => Agrees) Ends :=
        driveTlsHandshake_agrees trivial rfl rfl rfl rfl nofun
      exact (hgreet.bind fun _ _ _ h₁ => updateInterests_agrees h₁).sound hrun
  | handled event _ hrun ih => exact (handle_agrees event ih).sound hrun

/-- **The discipline of TLS retries.**  However the peers behave, every call on the stream of
a session takes up what the one before it has left: after an unfinished `SSL_write` the same
bytes are written again, although the queue has grown or has been compacted meanwhile, and
after a read that wanted to write or was interrupted comes a read.  The length to write again
is set exactly while a write is pending, and the queue covers it. -/
theorem unfinished_operation_is_taken_up (json : Glaze) (result : Except Exit Unit) (s : Session)
    (calls : List StreamCall) (h : Life json result s calls) : Disciplined calls ∧ Coupled s := by
  have hend := h.agrees
  cases result with
  | ok _ =>
      have hagrees : Agrees s calls := hend
      exact ⟨hagrees.disciplined, hagrees.left.coupled⟩
  | error e => exact hend

/-- What the peers of a TLS miner answer: it sends its opening, and takes a record only when it
is offered for the second time; the pool connects at once and sends two bytes at a time. -/
def slowTaker (calls : List StreamCall) : (c : ReactorCall) → c.Answer
  | .sslRead _ => if calls.length = 1 then .data subscribeChunk else .wantRead
  | .sslWrite _ data =>
      match leftBy calls with
      | .writing _ => if data = [] then .failed else .wrote data.length
      | _ => .wantWrite
  | .recvUpstream _ => .data ⟨[1, 2], by decide, by decide⟩
  | c => Scenario.answer { connect := some ⟨9, true⟩ } {} c

/-- The answers are those of some client. -/
theorem slowTaker_allowed (calls : List StreamCall) (c : ReactorCall) :
    streaming.allows calls c (slowTaker calls c) := by
  cases c with
  | sslWrite session data =>
      show answers (.sslWrite session data) (slowTaker calls (.sslWrite session data))
      unfold slowTaker
      dsimp only
      split
      · split
        · trivial
        · rename_i hdata
          exact ⟨List.length_pos_iff.mpr hdata, le_rfl⟩
      · trivial
  | _ => trivial

/-- A TLS miner whose queues are paused at one byte. -/
def tlsMiner : Session :=
  (freshSession 1 7 { onePool false with limits := { maxLineBytes := 2048, maxBufferBytes := 18433 } }
    {} (some 1) 0).tls.bump

/-- What a call offers to the client. -/
def StreamCall.offered : StreamCall → Option Bytes
  | .write data _ => some data
  | _ => none

section Peers

variable {choose : List StreamCall → (c : ReactorCall) → c.Answer}

/-- A session that has survived a reaction, with its record. -/
def survivor (outcome : (Except Exit Unit × Session) × List StreamCall) :
    Option (Session × List StreamCall) :=
  match outcome.1.1 with
  | .ok _ => some (outcome.1.2, outcome.2)
  | .error _ => none

/-- The miner after some events, the latest first, with the answers of its peers. -/
def after (choose : List StreamCall → (c : ReactorCall) → c.Answer) :
    List SessionEvent → Option (Session × List StreamCall)
  | [] => survivor ((firstHandshake tlsMiner).play streaming choose [])
  | event :: earlier => (after choose earlier).bind fun before =>
      survivor ((Session.handle subscribeJson event before.1).play streaming choose before.2)

/-- A reaction that is survived is an execution. -/
theorem survivor_runs (hallowed : ∀ calls c, streaming.allows calls c (choose calls c))
    {p : Prog reactorCalls (Except Exit Unit × Session)}
    (h : survivor (p.play streaming choose calls) = some (s, calls')) :
    Runs streaming calls p (.ok (), s) calls' := by
  have hrun := runs_play hallowed calls p
  generalize p.play streaming choose calls = outcome at h hrun
  obtain ⟨⟨result, s'⟩, last⟩ := outcome
  cases result with
  | ok _ =>
      cases h
      exact hrun
  | error e => cases h

/-- The events are a life of the miner. -/
theorem after_life (hallowed : ∀ calls c, streaming.allows calls c (choose calls c))
    {events : List SessionEvent} (h : after choose events = some (s, calls)) :
    Life subscribeJson (.ok ()) s calls := by
  induction events generalizing s calls with
  | nil => exact .accepted (survivor_runs hallowed h)
  | cons event earlier ih =>
      obtain ⟨before, hbefore, hlast⟩ := Option.bind_eq_some_iff.mp h
      exact .handled event (ih hbefore) (survivor_runs hallowed hlast)

/-- What the miner is like after the events, if it lives. -/
theorem exists_life (hallowed : ∀ calls c, streaming.allows calls c (choose calls c))
    (events : List SessionEvent) {P : Session × List StreamCall → Bool}
    (h : (after choose events).any P = true) :
    ∃ s calls, Life subscribeJson (.ok ()) s calls ∧ P (s, calls) = true := by
  cases hafter : after choose events with
  | none =>
      rw [hafter] at h
      exact Bool.noConfusion h
  | some last =>
      rw [hafter] at h
      exact ⟨last.1, last.2, after_life hallowed hafter, h⟩

end Peers

/-- The two bytes that did not go out are offered again. -/
theorem two_bytes_are_taken_up : ∃ s calls, Life subscribeJson (.ok ()) s calls ∧
    calls.map StreamCall.offered = [some [1, 2], some [1, 2], none, none] ∧
    Disciplined calls ∧ Coupled s := by
  obtain ⟨s, calls, hlife, hoffered⟩ := exists_life slowTaker_allowed
    [.client { writable := true }, .upstream { readable := true }, .client { readable := true }]
    (P := fun last =>
      last.2.map StreamCall.offered = [some [1, 2], some [1, 2], none, none]) (by decide +kernel)
  exact ⟨s, calls, hlife, of_decide_eq_true hoffered,
    unfinished_operation_is_taken_up subscribeJson (.ok ()) s calls hlife⟩

end PoolLb.TlsRetry
