import PoolLb.SessionFrames

/-!
# The rule of reactions

To show that a property of a session survives `client_ready` and `upstream_ready` in some
world it is enough to look at the places where the standing of a session changes: the
handshake, the beginning of a connect, its end, and the loss of the upstream.  Everything
else is traffic, and the property has only to withstand what traffic does to the world.
-/

namespace PoolLb

open Interaction Handler

variable {W : Type}

/-- What a property `J` of a session needs in order to survive its reactions, with `E` where
one of them ends the session.  Traffic moves the world along `later`. -/
structure Law (M : World reactorCalls W) (later : W → W → Prop) (J : Session → W → Prop)
    (E : Exit → Session → W → Prop) : Prop where
  refl : ∀ w, later w w
  trans : ∀ u v w, later u v → later v w → later u w
  traffic : ∀ w c, c.Traffic → M.requires w c ∧ ∀ r, M.allows w c r → later w (M.after w c r)
  kept : ∀ s s' w w', J s w → s'.standing = s.standing → later w w' → J s' w'
  ended : ∀ e s s' w w', E e s w → s'.standing = s.standing → later w w' → E e s' w'
  leaves : ∀ (e : Exit) s w, e.OfTraffic → J s w → E e s w
  begins : ∀ s s' w, J s w → s.protocolState.receivedMessage = false → s.stage ≠ .tlsHandshake →
    s'.standing = { s.standing with receivedMessage := true } →
    Holds M s' w beginUpstreamConnect (fun _ s'' w' => J s'' w' ∧ s''.stage ≠ .tlsHandshake) E
  greets : ∀ s w, J s w → s.stage = .tlsHandshake → Holds M s w driveTlsHandshake (fun _ => J) E
  finishes : ∀ s w, J s w → s.stage = .upstreamConnect →
    Holds M s w finishUpstreamConnect
      (fun done s' w' => if done then J s' w' ∧ s'.stage ≠ .upstreamConnect
        else Holds M s' w' retryUpstreamConnect (fun _ => J) E) E
  discards : ∀ s w, J s w → s.stage ≠ .upstreamConnect →
    Holds M s w discardUpstream (fun _ => J) E

section

variable {M : World reactorCalls W} {later : W → W → Prop} {J : Session → W → Prop}
  {E : Exit → Session → W → Prop} {s : Session} {w : W}

/-- A property that traffic keeps, and what the standing of the session is. -/
def Amid (J : Session → W → Prop) (s₀ : Session) (s : Session) (w : W) : Prop :=
  J s w ∧ s.standing = s₀.standing

/-- Traffic keeps the stage. -/
theorem Amid.stage {s₀ : Session} (h : Amid J s₀ s w) : s.stage = s₀.stage :=
  congrArg Standing.stage h.2

/-- **Traffic keeps the law.** -/
theorem Law.carries {α : Type} {m : SessionM α} {s₀ : Session} (h : Law M later J E)
    (hm : Carries m) (hs : Amid J s₀ s w) : Holds M s w m (fun _ => Amid J s₀) E := by
  apply (hm.holds (s := s) (w := w) trivial h.refl h.trans h.traffic).mono
  · intro _ s' w' hend
    exact ⟨h.kept s s' w w' hs.1 hend.1 hend.2, hend.1.trans hs.2⟩
  · intro e s' w' hend
    exact h.leaves e s' w' hend.1 (h.kept s s' w w' hs.1 hend.2.1 hend.2.2)

/-- Traffic from a session with the property. -/
theorem Law.carries_self {α : Type} {m : SessionM α} (h : Law M later J E) (hm : Carries m)
    (hs : J s w) : Holds M s w m (fun _ => Amid J s) E := h.carries hm ⟨hs, rfl⟩

/-- A session that is given up still commits what it has accepted. -/
theorem Law.commitAndStop {Q : Nat → Session → W → Prop} {e : Exit} (h : Law M later J E)
    (consumed : Nat) (hs : E e s w) : Holds M s w (commitAndStop consumed e) Q E := by
  have hcommit := (commitConsumed_forwards consumed).carries.holds (s := s) (w := w)
    trivial h.refl h.trans h.traffic
  have hattempt : Holds M s w (attempt (commitConsumed consumed)) (fun _ => E e) E := by
    apply holds_attempt
    apply hcommit.mono
    · intro _ s' w' hend
      exact h.ended e s s' w w' hs hend.1 hend.2
    · intro _ s' w' hend
      exact h.ended e s s' w w' hs hend.2.1 hend.2.2
  apply hattempt.bind
  intro _ s' w' hend
  exact hend

/-- The session is past its handshake. -/
def Past (J : Session → W → Prop) (s : Session) (w : W) : Prop := J s w ∧ s.stage ≠ .tlsHandshake

/-- Amid traffic a session is past its handshake if it was before. -/
theorem Amid.past {s₀ : Session} (h : Amid J s₀ s w) (hs₀ : s₀.stage ≠ .tlsHandshake) :
    Past J s w := ⟨h.1, h.stage ▸ hs₀⟩

/-- Traffic past the handshake. -/
theorem Law.carries_past {α : Type} {m : SessionM α} (h : Law M later J E) (hm : Carries m)
    (hs : Past J s w) : Holds M s w m (fun _ => Past J) E :=
  (h.carries_self hm hs.1).mono (fun _ _ _ hend => hend.past hs.2) fun _ _ _ hend => hend

theorem Law.query_bind {α : Type} {c : ReactorCall} {f : c.Answer → SessionM α}
    {Q : α → Session → W → Prop} (h : Law M later J E) (hc : c.Traffic) (hs : Past J s w)
    (hf : ∀ r s' w', Past J s' w' → Holds M s' w' (f r) Q E) : Holds M s w (query c >>= f) Q E :=
  (h.carries_past (framed_ask hc) hs).bind hf

theorem Law.modify_bind {α : Type} {g : Session → Session} {f : Unit → SessionM α}
    {Q : α → Session → W → Prop} (h : Law M later J E) (hg : ∀ s, (g s).standing = s.standing)
    (hs : Past J s w) (hf : ∀ r s' w', Past J s' w' → Holds M s' w' (f r) Q E) :
    Holds M s w (modify g >>= f) Q E :=
  (h.carries_past (framed_modify hg) hs).bind hf

/-! ## Reading -/

variable {json : Glaze}

/-- The session after an accepted line. -/
theorem acceptLine_standing (s : Session) (method : RequestMethod) :
    (s.acceptLine method).standing = { s.standing with receivedMessage := true } := by
  unfold Session.acceptLine Session.standing
  simp

/-- A line after the first changes nothing of the standing. -/
theorem acceptLine_standing_later (method : RequestMethod)
    (hs : s.protocolState.receivedMessage = true) :
    (s.acceptLine method).standing = s.standing := by
  rw [acceptLine_standing, ← hs]
  rfl

/-- **The loop of `process_client_bytes`.** -/
theorem Law.scanLines (h : Law M later J E) (rounds consumed : Nat) (hs : Past J s w) :
    Holds M s w (scanLines json rounds consumed) (fun _ => Past J) E := by
  induction rounds generalizing s w consumed with
  | zero => exact hs
  | succ rounds ih =>
      apply holds_current_bind
      split
      · exact hs
      · rename_i newline _
        dsimp only
        split
        · refine h.query_bind trivial hs fun _ s' w' hend => ?_
          exact h.commitAndStop consumed (h.leaves _ s' w' trivial hend.1)
        · split
          · -- the line is refused
            refine h.query_bind trivial hs fun _ s' w' hend => ?_
            split
            · exact h.commitAndStop consumed (h.leaves _ s' w' trivial hend.1)
            · refine h.modify_bind (fun _ => rfl) hend fun _ s' w' hend => ?_
              split
              · exact h.commitAndStop consumed (h.leaves _ s' w' trivial hend.1)
              · apply (h.carries_past (commitConsumed_forwards consumed).carries hend).bind
                intro _ s' w' hend
                apply (h.carries_past (discardLineBytes_forwards _).carries hend).bind
                intro _ s' w' hend
                exact ih 0 hend
          · -- the line is accepted
            rename_i method _
            apply holds_modify_bind
            by_cases hreceived : s.protocolState.receivedMessage = true
            · rw [if_neg (not_not.mpr hreceived)]
              have hstanding := acceptLine_standing_later method hreceived
              have hstage : (s.acceptLine method).stage = s.stage := rfl
              exact ih (newline + 1)
                ⟨h.kept s _ w w hs.1 hstanding (h.refl w), hstage ▸ hs.2⟩
            · rw [if_pos hreceived]
              have hbegins := h.begins s (s.acceptLine method) w hs.1 (Bool.not_eq_true _ ▸ hreceived)
                hs.2 (acceptLine_standing s method)
              have hattempt : Holds M (s.acceptLine method) w (attempt beginUpstreamConnect)
                  (fun outcome s' w' => Either (fun _ => Past J) E (outcome, s') w') E :=
                holds_attempt hbegins
              apply hattempt.bind
              intro outcome s' w' hend
              cases outcome with
              | error e => exact h.commitAndStop (newline + 1) hend
              | ok _ => exact ih (newline + 1) hend

/-- Lines are cut, and the first of them may begin a connect. -/
theorem Law.processClientBytes (h : Law M later J E) (bytes : Bytes) (hs : Past J s w) :
    Holds M s w (processClientBytes json bytes) (fun _ => Past J) E := by
  apply (h.carries_past (appendLineBytes_forwards bytes).carries hs).bind
  intro _ s₁ w₁ h₁
  apply holds_current_bind
  apply (h.scanLines _ 0 h₁).bind
  intro consumed s₂ w₂ h₂
  apply (h.carries_past (commitConsumed_forwards consumed).carries h₂).bind
  intro _ s₃ w₃ h₃
  exact h.carries_past checkQueueSizes_forwards.carries h₃

/-- One chunk: its traffic, and then its lines. -/
theorem Law.takeChunk (h : Law M later J E) (chunk : Chunk) (messagesThisEvent : Nat)
    (hs : Past J s w) :
    Holds M s w (takeChunk json chunk messagesThisEvent) (fun _ => Past J) E := by
  refine h.query_bind trivial hs fun _ s₁ w₁ h₁ => ?_
  refine h.query_bind trivial h₁ fun now s₂ w₂ h₂ => ?_
  refine h.modify_bind (fun _ => rfl) h₂ fun _ s₃ w₃ h₃ => ?_
  apply (h.carries_past (allowTraffic_forwards _ _ _ now).carries h₃).bind
  intro allowed s₄ w₄ h₄
  split
  · exact h.processClientBytes chunk.bytes h₄
  · refine h.query_bind trivial h₄ fun _ s₅ w₅ h₅ => ?_
    exact h.leaves _ s₅ w₅ trivial h₅.1

/-- **The loop of `read_from_client`.** -/
theorem Law.readRounds (h : Law M later J E) (rounds bytesThisEvent messagesThisEvent : Nat)
    (hs : Past J s w) :
    Holds M s w (readRounds json rounds bytesThisEvent messagesThisEvent) (fun _ => Past J) E := by
  induction rounds generalizing s w bytesThisEvent messagesThisEvent with
  | zero => exact hs
  | succ rounds ih =>
      apply (h.carries_past readClient_carries hs).bind
      intro result s₁ w₁ h₁
      cases result with
      | retryRead => exact h₁
      | retryWrite => exact h₁
      | closed => exact h.carries_past closeClientRead_carries h₁
      | error => exact h.leaves _ s₁ w₁ trivial h₁.1
      | data chunk =>
          apply (h.takeChunk chunk messagesThisEvent h₁).bind
          intro _ s₂ w₂ h₂
          apply holds_current_bind
          split
          · exact h₂
          · split
            · exact h₂
            · exact ih _ _ h₂

/-! ## The handlers -/

/-- **`client_ready` keeps the law.** -/
theorem Law.clientReady (h : Law M later J E) (events : EventMask) (hs : J s w) :
    Holds M s w (clientReady json events) (fun _ => J) E := by
  have hdrop {α : Type} {m : SessionM α} {s : Session} {w : W}
      (hm : Holds M s w m (fun _ => Past J) E) :
      Holds M s w m (fun _ => J) E := hm.mono (fun _ _ _ hend => hend.1) fun _ _ _ hend => hend
  apply holds_current_bind
  split
  · rename_i hstage
    exact h.greets s w hs hstage
  · rename_i hstage
    have hpast : Past J s w := ⟨hs, hstage⟩
    have hread : Holds M s w (readFromClient json) (fun _ => Past J) E := h.readRounds _ 0 0 hpast
    split
    · exact hdrop (h.carries_past (retryPendingWrite_carries events) hpast)
    · split
      · split
        · exact hdrop (h.carries_past (stopIfGone_carries events) hpast)
        · apply hread.bind
          intro exhausted s₁ w₁ h₁
          exact hdrop (h.carries_past (finishClientEvent_carries events exhausted) h₁)
      · have hready : Holds M s w (readIfReady json events) (fun _ => Past J) E := by
          apply holds_current_bind
          split
          · exact hread
          · exact hpast
        apply hready.bind
        intro exhausted s₁ w₁ h₁
        exact hdrop (h.carries_past (finishClientEvent_carries events exhausted) h₁)

/-- The end of `upstream_ready`. -/
theorem Law.closeUpstreamRead (h : Law M later J E) (events : EventMask) (hs : J s w)
    (hstage : s.stage ≠ .upstreamConnect) : Holds M s w (closeUpstreamRead events) (fun _ => J) E := by
  have hmark : Carries (modify fun s : Session => { s with
      upstreamReadClosed := s.upstreamReadClosed || (s.upstreamReadPaused && events.hangup) }) :=
    framed_modify fun _ => rfl
  apply (h.carries_self hmark hs).bind
  intro _ s₁ w₁ h₁
  apply holds_current_bind
  split
  · apply (h.carries flushUpstreamQueue_forwards.carries h₁).bind
    intro _ s₂ w₂ h₂
    apply (h.discards s₂ w₂ h₂.1 (h₂.stage ▸ hstage)).bind
    intro _ s₃ w₃ h₃
    apply holds_current_bind
    split
    · exact h.leaves _ s₃ w₃ trivial h₃
    · exact h₃
  · exact h₁.1

/-- **An event of an established pool connection.** -/
theorem Law.upstreamRelay (h : Law M later J E) (events : EventMask) (hs : J s w)
    (hstage : s.stage ≠ .upstreamConnect) : Holds M s w (upstreamRelay events) (fun _ => J) E := by
  apply (h.carries_self (recvFromUpstream_carries events) hs).bind
  intro bytesThisEvent s₁ w₁ h₁
  apply (h.carries flushClientIfIdle_carries h₁).bind
  intro _ s₂ w₂ h₂
  apply (h.carries (pushUpstreamIfWritable_forwards events).carries h₂).bind
  intro _ s₃ w₃ h₃
  split
  · exact h.leaves _ s₃ w₃ trivial h₃.1
  · exact h.closeUpstreamRead events h₃.1 (h₃.stage ▸ hstage)

/-- **`upstream_ready` keeps the law.** -/
theorem Law.upstreamReady (h : Law M later J E) (events : EventMask) (hs : J s w) :
    Holds M s w (upstreamReady events) (fun _ => J) E := by
  apply holds_current_bind
  split
  · rename_i hconnect
    apply (h.finishes s w hs hconnect).bind
    intro done s₁ w₁ h₁
    cases done with
    | true => exact h.upstreamRelay events h₁.1 h₁.2
    | false => exact h₁
  · rename_i hnot
    exact h.upstreamRelay events hs hnot

end

end PoolLb
