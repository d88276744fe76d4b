import PoolLb.TlsRetry

/-!
# What the client socket is armed for

Every reaction to a socket ends with `update_interests`, which arms the client socket for what
the session wants of it.  A timer only dials, and dialling leaves that side alone.  So whenever
the reactor waits, the client socket is armed as `wantedClientEvents` says.

For a TLS session this is one direction while an operation is pending.  A pending write waits for
the direction OpenSSL has asked for; a pending read does too, but a read that a signal has
interrupted waits for the client to send, and what is queued for the client waits with it.  And
once the client has closed its side, a pending write that OpenSSL wants to read for is armed for
writing.
-/

namespace PoolLb

open Interaction Handler

/-- The client socket is armed for what the session wants of it. -/
def Session.ClientArmed (s : Session) : Prop := s.clientEvents = s.wantedClientEvents

/-- **`update_interests` arms the client socket**, whatever the session was before. -/
theorem updateInterests_arms (s : Session) :
    Yields (fun _ => True) s updateInterests (fun _ s' => s'.ClientArmed) (fun _ _ => True) := by
  apply (yields_any s refreshReadPause).bind
  intro _ s₁ _
  have hclient : Yields (fun _ => True) s₁ armClient (fun _ s' => s'.ClientArmed)
      (fun _ _ => True) := by
    apply holds_current_bind
    split
    · rename_i hsame
      exact hsame.symm
    · refine yields_ask_bind trivial fun armed => ?_
      cases armed with
      | true => exact rfl
      | false => trivial
  apply hclient.bind
  intro _ s₂ h₂
  apply holds_current_bind
  split
  · exact h₂
  · split
    · exact h₂
    · refine yields_ask_bind trivial fun armed => ?_
      cases armed with
      | true => exact h₂
      | false => trivial

/-- Dialling leaves the client side of a session alone. -/
theorem Session.Dialled.clientArmed {s s' : Session} (h : s.Dialled s') (hs : s.ClientArmed) :
    s'.ClientArmed := by
  rw [h.frame]
  exact hs

/-- **A timer that fires** tries the next candidate at most. -/
theorem expireSession_arms (now : Nat) (s : Session) (hs : s.ClientArmed) :
    Yields (fun _ => True) s (expireSession now) (fun _ s' => s'.ClientArmed)
      (fun _ _ => True) := by
  apply holds_current_bind
  split
  · exact yields_ask_bind trivial fun _ => hs
  · split
    · apply (((recordUpstreamError_yields s).among fun _ _ => trivial).mono (fun _ _ h => h)
        fun _ _ _ => trivial).bind
      intro _ s₁ h₁
      subst h₁
      apply (((discardUpstream_yields s₁).among fun _ _ => trivial).mono (fun _ _ h => h)
        fun _ _ _ => trivial).bind
      intro _ s₂ h₂
      subst h₂
      split
      · trivial
      · exact ((startNextUpstreamConnect_dials s₁.dropUpstream).among fun _ _ => trivial).mono
          (fun _ _ h => h.1.clientArmed hs) fun _ _ _ => trivial
    · split
      · exact yields_ask_bind trivial fun _ => trivial
      · trivial

namespace TlsRetry

variable {json : Glaze} {s : Session} {calls : List StreamCall}

/-- **Whenever the reactor waits** the client socket of a TLS session is armed for what the
session wants. -/
theorem Life.clientArmed {result : Except Exit Unit} (h : Life json result s calls)
    (hok : result = .ok ()) : s.ClientArmed := by
  induction h with
  | accepted hrun =>
      subst hok
      exact ((yields_any _ driveTlsHandshake).bind fun _ s' _ => updateInterests_arms s').sound hrun
  | handled event _ hrun ih =>
      subst hok
      cases event with
      | client events =>
          exact ((yields_any _ _).bind fun _ s' _ => updateInterests_arms s').sound hrun
      | upstream events =>
          exact ((yields_any _ _).bind fun _ s' _ => updateInterests_arms s').sound hrun
      | timeout now => exact (expireSession_arms now _ (ih rfl)).sound hrun

/-- What is queued for the client can go out: its socket is armed for writing or, while a write
is pending, for the direction that `client_ready` waits for. -/
def LetsOut (s : Session) : Prop :=
  (s.tlsOperation ≠ .write → ¬ s.toClient.isEmpty → s.clientEvents.writable = true) ∧
    (s.tlsOperation = .write → ioDirectionReady s.tlsDirection s.clientEvents = true)

instance (s : Session) : Decidable (LetsOut s) := inferInstanceAs (Decidable (_ ∧ _))

/-- **What a pending read is armed for** is its direction alone. -/
theorem letsOut_reading (harmed : s.ClientArmed) (hread : s.tlsOperation = .read)
    (hopen : s.clientReadClosed = false) :
    LetsOut s ↔ ¬ (s.tlsDirection = .read ∧ ¬ s.toClient.isEmpty) := by
  have hwanted : s.clientEvents.writable = decide (s.tlsDirection = .write) := by
    rw [harmed]
    unfold Session.wantedClientEvents
    rw [if_pos ⟨by rw [hopen]; decide, by rw [hread]; decide⟩]
  unfold LetsOut
  rw [hwanted, hread]
  cases s.tlsDirection with
  | read => simp
  | write => simp

/-- **What a pending write is armed for** is its direction, unless the client has closed. -/
theorem letsOut_writing (harmed : s.ClientArmed) (hwrite : s.tlsOperation = .write)
    (hsome : s.toClient.isEmpty = false) :
    LetsOut s ↔ ¬ (s.tlsDirection = .read ∧ s.clientReadClosed = true) := by
  have hready : LetsOut s ↔ ioDirectionReady s.tlsDirection s.wantedClientEvents = true := by
    unfold LetsOut
    rw [harmed]
    exact ⟨fun h => h.2 hwrite, fun h => ⟨fun hne => absurd hwrite hne, fun _ => h⟩⟩
  rw [hready]
  unfold Session.wantedClientEvents ioDirectionReady
  cases hclosed : s.clientReadClosed with
  | true => cases s.tlsDirection <;> simp [hsome]
  | false => cases s.tlsDirection <;> simp [hwrite]

/-- A direction that is reading unless OpenSSL has asked to write. -/
theorem getD_read_eq_read (direction : Option IoDirection) :
    direction.getD .read = .read ↔ direction ≠ some .write := by
  rcases direction with _ | direction
  · decide
  · cases direction <;> decide

/-- A direction that is writing unless OpenSSL has asked to read. -/
theorem getD_write_eq_read (direction : Option IoDirection) :
    direction.getD .write = .read ↔ direction = some .read := by
  rcases direction with _ | direction
  · decide
  · cases direction <;> decide

/-- **What a pending TLS operation holds up.**  Whenever the reactor waits, the queue for the
client can go out but for two cases: a read is pending that OpenSSL has not asked to write for,
so a signal has interrupted it; or a write is pending that OpenSSL has asked to read for, and the
client has closed its side.  A pending write waits for the client only if OpenSSL has asked to
read. -/
theorem pending_operation_lets_out (json : Glaze) (s : Session) (calls : List StreamCall)
    (h : Life json (.ok ()) s calls) (hrelay : s.stage = .relay)
    (hpending : s.tlsOperation ≠ .none) :
    (LetsOut s ↔
      ¬ (s.tlsOperation = .read ∧ asked calls ≠ some .write ∧ ¬ s.toClient.isEmpty) ∧
      ¬ (s.tlsOperation = .write ∧ asked calls = some .read ∧ s.clientReadClosed = true)) ∧
    (s.tlsOperation = .write → (s.tlsDirection = .read ↔ asked calls = some .read)) := by
  have hagrees : Agrees s calls := h.agrees
  have harmed := h.clientArmed rfl
  cases hop : s.tlsOperation with
  | none => exact absurd hop hpending
  | handshake =>
      have hstage := hagrees.greeting.mp hop
      exact absurd (hrelay.symm.trans hstage) SessionStage.noConfusion
  | read =>
      obtain ⟨hopen, hdirection⟩ := hagrees.awaits.1 hop
      refine ⟨?_, nofun⟩
      rw [letsOut_reading harmed hop hopen, hdirection, getD_read_eq_read]
      exact ⟨fun hout => ⟨fun hin => hout hin.2, fun hin => TlsOperation.noConfusion hin.1⟩,
        fun hout hin => hout.1 ⟨rfl, hin⟩⟩
  | write =>
      have hdirection := hagrees.awaits.2 hop
      have hsome : s.toClient.isEmpty = false := by
        have hcoupled := hagrees.left.coupled
        have hsize := Nat.lt_of_lt_of_le (hcoupled.pending.mpr hop) (hcoupled.covered hop)
        rw [PendingBuffer.isEmpty_eq_false_iff, ← List.length_pos_iff, PendingBuffer.length_bytes]
        exact hsize
      rw [letsOut_writing harmed hop hsome, hdirection, getD_write_eq_read]
      exact ⟨⟨fun hout => ⟨fun hin => TlsOperation.noConfusion hin.1, fun hin => hout hin.2⟩,
        fun hout hin => hout.2 ⟨rfl, hin⟩⟩, fun _ => Iff.rfl⟩

/-- A call is a read. -/
def StreamCall.isRead : StreamCall → Bool
  | .read _ => true
  | _ => false

/-- The peers of a TLS miner whose stream answers the reads in turn and wants to read for every
write. -/
def peers (reads : List SslReadAnswer) (calls : List StreamCall) : (c : ReactorCall) → c.Answer
  | .sslRead _ => (reads[(calls.filter StreamCall.isRead).length]?).getD .wantRead
  | .sslWrite _ _ => .wantRead
  | c => slowTaker calls c

theorem peers_allowed (reads : List SslReadAnswer) (calls : List StreamCall) (c : ReactorCall) :
    streaming.allows calls c (peers reads calls c) := by
  cases c <;> trivial

/-- A read that OpenSSL wants to write for is interrupted when it is tried again; the pool's
bytes still go out. -/
theorem pending_operation_lets_out_interrupted : ∃ s calls, Life subscribeJson (.ok ()) s calls ∧
    (s.stage = .relay ∧ s.tlsOperation = .read ∧ asked calls = some .write ∧
      s.toClient.bytes = [1, 2]) ∧ LetsOut s := by
  obtain ⟨s, calls, hlife, hfacts⟩ := exists_life
    (peers_allowed [.data subscribeChunk, .wantWrite, .interrupted])
    [.upstream { readable := true }, .client { writable := true },
      .client { readable := true }, .client { readable := true }]
    (P := fun last => last.1.stage = .relay ∧ last.1.tlsOperation = .read ∧
      asked last.2 = some .write ∧ last.1.toClient.bytes = [1, 2]) (by decide +kernel)
  have hfacts := of_decide_eq_true hfacts
  have hpending : s.tlsOperation ≠ .none := by
    rw [hfacts.2.1]
    decide
  refine ⟨s, calls, hlife, hfacts, ?_⟩
  refine (pending_operation_lets_out subscribeJson s calls hlife hfacts.1 hpending).1.mpr ⟨?_, ?_⟩
  · exact fun hread => hread.2.1 hfacts.2.2.1
  · exact fun hwrite => TlsOperation.noConfusion (hfacts.2.1.symm.trans hwrite.1)

/-- **Two ways in which a pending operation holds up the queue.**  A signal interrupts an
`SSL_read`, and then the pool sends two bytes: the client socket is armed for reading only.  Or the
client closes its side, and OpenSSL wants to read for the `SSL_write` of the two bytes: the socket
is armed for writing only. -/
theorem pending_operation_holds_up :
    (∃ s calls, Life subscribeJson (.ok ()) s calls ∧ s.stage = .relay ∧ s.tlsOperation = .read ∧
      s.toClient.bytes = [1, 2] ∧ s.clientEvents = { readable := true, readHangup := true } ∧
      ¬ LetsOut s) ∧
    ∃ s calls, Life subscribeJson (.ok ()) s calls ∧ s.stage = .relay ∧ s.tlsOperation = .write ∧
      s.clientReadClosed = true ∧ s.tlsDirection = .read ∧ s.clientEvents = { writable := true } ∧
      ¬ LetsOut s := by
  constructor
  · obtain ⟨s, calls, hlife, hfacts⟩ := exists_life
      (peers_allowed [.data subscribeChunk, .interrupted])
      [.upstream { readable := true }, .client { readable := true }, .client { readable := true }]
      (P := fun last => last.1.stage = .relay ∧ last.1.tlsOperation = .read ∧
        last.1.toClient.bytes = [1, 2] ∧
        last.1.clientEvents = { readable := true, readHangup := true } ∧ ¬ LetsOut last.1)
      (by decide +kernel)
    exact ⟨s, calls, hlife, of_decide_eq_true hfacts⟩
  · obtain ⟨s, calls, hlife, hfacts⟩ := exists_life
      (peers_allowed [.data subscribeChunk, .zeroReturn])
      [.upstream { readable := true }, .client { readable := true }, .client { readable := true }]
      (P := fun last => last.1.stage = .relay ∧ last.1.tlsOperation = .write ∧
        last.1.clientReadClosed = true ∧ last.1.tlsDirection = .read ∧
        last.1.clientEvents = { writable := true } ∧ ¬ LetsOut last.1)
      (by decide +kernel)
    exact ⟨s, calls, hlife, of_decide_eq_true hfacts⟩

end TlsRetry

end PoolLb
