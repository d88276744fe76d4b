import PoolLb.FramingMoves

/-!
# The handlers, move by move

The last functions of `src/net/reactor.cpp` that work on a session, up to
`Session.handle`: one reaction of the reactor is a sequence of moves that begins
and ends at rest, or stops early for a reason that `Exit.Explained` gives.
-/

namespace PoolLb

open Interaction Handler

variable {json : Glaze} {c c' : Config}

/-- An event begins or is over: nothing is under way, and the pause flags are not
behind. -/
structure Config.Beginning (c : Config) : Prop where
  resting : c.Resting
  clientFresh : c.clientFresh = true
  upstreamFresh : c.upstreamFresh = true

/-! ## The client side -/

/-- A hangup is a cause by itself. -/
theorem stopIfGone_does {events : EventMask} (hc : c.Resting) :
    Does json c (stopIfGone events) (fun _ => Config.Resting) Exit.Explained := by
  unfold stopIfGone
  split
  · exact does_stop (hc.explained trivial)
  · exact does_pure hc

/-- `client_ready` while an `SSL_write` is pending. -/
theorem retryPendingWrite_does {events : EventMask} (hc : c.Resting) :
    Does json c (retryPendingWrite events) (fun _ => Config.Resting) Exit.Explained := by
  apply does_current
  split
  · exact stopIfGone_does hc
  · apply (flushClient_does hc).bind
    intro _ d _ hkept
    have hd := hkept.resting hc
    apply does_current
    split
    · rename_i hdrained
      exact does_stop (hd.explained hdrained.2)
    · exact stopIfGone_does hd

/-- Each of the tests gives the cause of its exit. -/
theorem clientChecks_does {events : EventMask} {exhausted : Bool} (hc : c.Resting) :
    Does json c (clientChecks events exhausted) (fun _ => Config.Resting) Exit.Explained := by
  apply does_current
  split
  · rename_i hdrained
    exact does_stop (hc.explained hdrained.2)
  · split
    · exact does_stop (hc.explained trivial)
    · split
      · exact does_stop (hc.explained trivial)
      · split
        · rename_i hfirst
          exact does_stop (hc.explained hfirst.2)
        · exact does_pure hc

/-- The tail of `client_ready`. -/
theorem finishClientEvent_does {events : EventMask} {exhausted : Bool} (hc : c.Resting) :
    Does json c (finishClientEvent events exhausted) (fun _ => Config.Resting)
      Exit.Explained := by
  have hpush : Does json c pushUpstreamIfRelay (fun _ => Config.Resting) Exit.Explained := by
    apply does_current
    split
    · rename_i hrelay
      have hstage : c.session.stage ≠ .upstreamConnect := by
        rw [hrelay.1]
        decide
      exact (pushUpstream_does hc hstage).mono (fun _ _ h => h.resting hc) (fun _ _ h => h)
    · exact does_pure hc
  apply hpush.bind
  intro _ d _ hd
  have hflush : Does json d (flushClientIfWritable events) (fun _ => Config.Resting)
      Exit.Explained := by
    apply does_current
    split
    · exact (flushClient_does hd).mono (fun _ _ h => h.resting hd) (fun _ _ h => h)
    · exact does_pure hd
  apply hflush.bind
  intro _ d' _ hd'
  exact clientChecks_does hd'

/-- **`client_ready`.** -/
theorem clientReady_does {events : EventMask} (hc : c.Beginning) :
    Does json c (clientReady json events) (fun _ => Config.Resting) Exit.Explained := by
  apply does_current
  split
  · rename_i hstage
    exact driveTlsHandshake_does hc.resting hstage
  · split
    · exact retryPendingWrite_does hc.resting
    · split
      · rename_i hread
        split
        · exact stopIfGone_does hc.resting
        · apply (readFromClient_does hc.resting (.inl ⟨hc.clientFresh, .inr hread⟩)).bind
          intro exhausted d _ hd
          exact finishClientEvent_does hd
      · have hready : Does json c (readIfReady json events) (fun _ => Config.Resting)
            Exit.Explained := by
          apply does_current
          split
          · rename_i hopen
            have hpaused : c.session.clientReadPaused = false := by
              simpa using hopen.2.2.1
            exact readFromClient_does hc.resting (.inl ⟨hc.clientFresh, .inl hpaused⟩)
          · exact does_pure hc.resting
        apply hready.bind
        intro exhausted d _ hd
        exact finishClientEvent_does hd

/-! ## The upstream side -/

/-- An explained exit may be reported as well. -/
theorem Does.reported {α : Type} {m : SessionM α} {Q : α → Config → Prop} {fromPool : Bool}
    (h : Does json c m Q Exit.Explained) : Does json c m Q (Exit.Reported fromPool) :=
  h.mono (fun _ _ hQ => hQ) (fun _ _ he => .inl he)

/-- At rest, in the same stage as before. -/
def Config.RestingAs (c c' : Config) : Prop :=
  c'.Resting ∧ c'.session.stage = c.session.stage

theorem Config.Kept.restingAs (h : c.Kept c') (hc : c.Resting) : c.RestingAs c' :=
  ⟨h.resting hc, h.stage⟩

theorem Config.RestingAs.trans {d : Config} (h : c.RestingAs c') (h' : c'.RestingAs d) :
    c.RestingAs d :=
  ⟨h'.1, h'.2.trans h.2⟩

/-- `append_queued`: the bytes are reserved and queued, or the budget is spent. -/
theorem queueForClient_holds (s : Session) (w : Outside) (chunk : Chunk) :
    Holds outside s w (queueForClient chunk)
      (fun _ s' w' => s' = { s with toClient := s.toClient.append chunk.bytes } ∧
        w' = w.hold chunk.bytes.length)
      (fun e s' w' => e = .queueBudget ∧ s' = s ∧ w' = w) := by
  refine ⟨trivial, fun _ _ => ⟨trivial, fun fits _ => ?_⟩⟩
  cases fits with
  | true => exact ⟨rfl, rfl⟩
  | false => exact ⟨trivial, fun _ _ => ⟨rfl, rfl, rfl⟩⟩

/-- The configuration with more bytes for the client. -/
def Config.pooled (c : Config) (chunk : Chunk) : Config :=
  { c with
    session := { c.session with toClient := c.session.toClient.append chunk.bytes }
    outside := (c.outside.note (.received chunk.bytes)).hold chunk.bytes.length
    upstreamFresh := false }

/-- **The receive loop of `upstream_ready`.** -/
theorem recvRounds_does (rounds bytes : Nat) (hc : c.Resting)
    (hstage : c.session.stage ≠ .upstreamConnect) (hmay : c.MayRecv) :
    Does json c (recvRounds rounds bytes) (fun _ => c.RestingAs) (Exit.Reported true) := by
  induction rounds generalizing c bytes with
  | zero => exact does_pure ⟨hc, rfl⟩
  | succ rounds ih =>
      apply does_current
      intro others hsane
      refine holds_ask_bind trivial fun r hr => ?_
      cases r with
      | closed => exact ⟨_, (Move.poolClosed c).follows, rfl, rfl, hc, rfl⟩
      | retry => exact ⟨c, .refl c, rfl, rfl, hc, rfl⟩
      | failed => exact ⟨c, .refl c, rfl, rfl, .inr ⟨rfl, .inl rfl, hc⟩⟩
      | data chunk =>
          obtain ⟨socket, hsocket⟩ := Option.isSome_iff_exists.mp hr
          have hrelay : c.session.stage = .relay := (hsane.socket_backed hr).resolve_left hstage
          have hqueue := queueForClient_holds c.session (c.outside.note (.received chunk.bytes))
            chunk
          refine Holds.bind (hqueue.mono (fun _ _ _ h => h) ?_) ?_
          · intro e s w hend
            obtain ⟨rfl, rfl, rfl⟩ := hend
            exact ⟨_, (Move.poolLost c chunk.bytes hc.1).follows, rfl, rfl,
              .inl ⟨trivial, .inl hc.2, .inr (.inr rfl)⟩⟩
          · intro _ s w hend
            obtain ⟨rfl, rfl⟩ := hend
            have hmoves : Follows json c (c.pooled chunk) :=
              (Move.poolBytes c socket chunk hc.1 hrelay hsocket hmay).follows
            have hd : (c.pooled chunk).Resting := hc
            show Holds outside (c.pooled chunk).session (c.pooled chunk).outside _ _ _
            refine Does.after (does_current ?_) hmoves hsane
            dsimp only
            split
            · rename_i hfull
              exact does_stop (.inl (hd.explained (.inr hfull)))
            · split
              · exact does_pure ⟨hd, rfl⟩
              · rename_i hlow
                split
                · exact does_pure ⟨hd, rfl⟩
                · exact ih _ hd hstage (.inr (Nat.not_lt.mp hlow))

/-- The receiving part of `upstream_ready`. -/
theorem recvFromUpstream_does {events : EventMask} (hc : c.Resting)
    (hfresh : c.upstreamFresh = true) (hstage : c.session.stage ≠ .upstreamConnect) :
    Does json c (recvFromUpstream events) (fun _ => c.RestingAs) (Exit.Reported true) := by
  apply does_current
  split
  · rename_i hopen
    have hpaused : c.session.upstreamReadPaused = false := by
      simpa using hopen.1
    apply (recvRounds_does _ _ hc hstage (.inl ⟨hfresh, hpaused⟩)).bind
    intro bytes d _ hd
    split
    · refine does_now fun time _ => does_modify (Move.touch _).follows ?_
      exact does_pure ⟨hd.1, hd.2⟩
    · exact does_pure hd
  · exact does_pure ⟨hc, rfl⟩

/-- The first write of `upstream_ready`. -/
theorem flushClientIfIdle_does (hc : c.Resting) :
    Does json c flushClientIfIdle (fun _ => c.RestingAs) Exit.Explained := by
  apply does_current
  split
  · exact (flushClient_does hc).mono (fun _ _ h => h.restingAs hc) (fun _ _ h => h)
  · exact does_pure ⟨hc, rfl⟩

/-- The second write of `upstream_ready`. -/
theorem pushUpstreamIfWritable_does {events : EventMask} (hc : c.Resting)
    (hstage : c.session.stage ≠ .upstreamConnect) :
    Does json c (pushUpstreamIfWritable events) (fun _ => c.RestingAs) Exit.Explained := by
  apply does_current
  split
  · exact (pushUpstream_does hc hstage).mono (fun _ _ h => h.restingAs hc) (fun _ _ h => h)
  · exact does_pure ⟨hc, rfl⟩

/-- The end of a pool: its queue, its socket, and perhaps the session. -/
theorem drainUpstream_does (hc : c.Resting) (hstage : c.session.stage ≠ .upstreamConnect) :
    Does json c drainUpstream (fun _ => Config.Resting) Exit.Explained := by
  apply (flushUpstreamQueue_does hstage).bind
  intro _ d _ hkept
  have hd : d.Resting := hkept.resting hc
  apply discardUpstream_does.bind
  intro _ d' _ hd'
  subst hd'
  apply does_current
  split
  · rename_i hempty
    exact does_stop ⟨hempty, .inl hd.2, .inl hd.1⟩
  · exact does_pure hd

/-- The end of `upstream_ready`. -/
theorem closeUpstreamRead_does {events : EventMask} (hc : c.Resting)
    (hstage : c.session.stage ≠ .upstreamConnect) :
    Does json c (closeUpstreamRead events) (fun _ => Config.Resting) Exit.Explained := by
  let closed := c.session.upstreamReadClosed || (c.session.upstreamReadPaused && events.hangup)
  have hmoves : Follows json c
      (c.setSession { c.session with upstreamReadClosed := closed }) := by
    cases hclosed : closed with
    | true => exact (Move.poolClosed c).follows
    | false =>
        have hopen : c.session.upstreamReadClosed = false := (Bool.or_eq_false_iff.mp hclosed).1
        rw [← hopen]
        exact .refl c
  refine does_modify hmoves (does_current ?_)
  split
  · exact drainUpstream_does hc hstage
  · exact does_pure hc

/-- **`upstream_ready` on an established connection.** -/
theorem upstreamRelay_does {events : EventMask} (hc : c.Resting) (hfresh : c.upstreamFresh = true)
    (hstage : c.session.stage ≠ .upstreamConnect) :
    Does json c (upstreamRelay events) (fun _ => Config.Resting) (Exit.Reported true) := by
  apply (recvFromUpstream_does hc hfresh hstage).bind
  intro bytes d _ hd
  apply (flushClientIfIdle_does hd.1).reported.bind
  intro _ d₁ _ hd₁
  have hstage₁ : d₁.session.stage ≠ .upstreamConnect := by
    rw [hd₁.2, hd.2]
    exact hstage
  apply (pushUpstreamIfWritable_does hd₁.1 hstage₁).reported.bind
  intro _ d₂ _ hd₂
  split
  · exact does_stop (.inr ⟨rfl, .inr rfl, hd₂.1⟩)
  · apply Does.reported
    apply closeUpstreamRead_does hd₂.1
    rw [hd₂.2]
    exact hstage₁

/-- Giving up on connecting, from a socket event or the timer. -/
theorem Config.GaveUp.explained {e : Exit} {d : Config} (h : c.GaveUp e d) (hc : c.Resting) :
    e.Explained d := by
  have hnot : d.session.stage ≠ .relay := by
    rw [h.stage]
    decide
  refine ⟨?_, .inl (h.point.consumed.trans hc.2), .inl (h.point.phase.trans hc.1)⟩
  rcases h.exit with rfl | rfl
  · exact hnot
  · trivial

theorem Config.SamePoint.resting (h : c.SamePoint c') (hc : c.Resting) : c'.Resting :=
  ⟨h.phase.trans hc.1, h.consumed.trans hc.2⟩

/-- The next candidate, from a socket event or the timer. -/
theorem reconnect_does (hc : c.Resting) (hstage : c.session.stage = .upstreamConnect)
    (hsocket : c.session.upstream = none) :
    Does json c startNextUpstreamConnect (fun _ => c.SamePoint) Exit.Explained := by
  apply (startNextUpstreamConnect_does ⟨.inl hc.1, hstage, hsocket⟩).mono
  · exact fun _ _ h => h
  · exact fun _ _ h => h.explained hc

/-- **`upstream_ready`.** -/
theorem upstreamReady_does {events : EventMask} (hc : c.Beginning) :
    Does json c (upstreamReady events) (fun _ => Config.Resting) (Exit.Reported true) := by
  apply does_current
  split
  · rename_i hstage
    apply (finishUpstreamConnect_does (.inl hc.resting.1) hstage).bind
    intro done d _ hd
    have hresting : d.Resting := hd.point.resting hc.resting
    cases done with
    | true =>
        apply upstreamRelay_does hresting (hd.point.upstreamFresh.trans hc.upstreamFresh)
        rw [hd.stage]
        decide
    | false =>
        have hnot : d.session.stage ≠ .relay := by
          rw [hd.stage]
          decide
        apply Does.reported
        apply does_current
        split
        · exact does_stop (hresting.explained trivial)
        · apply recordUpstreamError_does.bind
          intro _ d' _ hd'
          subst hd'
          apply discardUpstream_does.bind
          intro _ d' _ hd'
          subst hd'
          refine does_now fun time _ => ?_
          split
          · let d : Config := (d'.setSession d'.session.dropUpstream).at time
            have hreconnect : Does json d startNextUpstreamConnect (fun _ => d.SamePoint)
                Exit.Explained :=
              reconnect_does hresting hd.stage rfl
            exact hreconnect.mono (fun _ _ h => h.resting hresting) (fun _ _ h => h)
          · exact does_stop ⟨hnot, .inl hresting.2, .inl hresting.1⟩
  · rename_i hstage
    exact upstreamRelay_does hc.resting hc.upstreamFresh hstage

/-! ## Pausing and arming -/

/-- The session is at rest as it was, and `reading` is what was found. -/
structure Config.FoundWith (c : Config) (reading : PressureReading) (c' : Config) : Prop where
  resting : c'.Resting
  knows : c'.Knows reading

/-- Plaintext that OpenSSL still holds is in the log. -/
theorem tlsBufferDrained_does {E : Exit → Config → Prop} (hc : c.Resting) :
    Does json c tlsBufferDrained (fun drained c' => c'.Resting ∧
      (drained = false → Event.strandedPlaintext ∈ c'.outside.log)) E := by
  apply does_current
  split
  · refine does_call trivial fun pending _ => ?_
    cases pending with
    | zero => exact ⟨c, .refl c, rfl, rfl, does_pure ⟨hc, by simp⟩⟩
    | succ pending =>
        exact ⟨c.noted .strandedPlaintext, (Move.note c _ (.inl rfl)).follows, rfl, rfl,
          does_pure ⟨hc, fun _ => List.mem_cons_self⟩⟩
  · exact does_pure ⟨hc, by simp⟩

/-- The readings, as the pause flags need them. -/
theorem readPressure_does {E : Exit → Config → Prop} (hc : c.Resting) :
    Does json c readPressure c.FoundWith E := by
  refine does_quiet trivial fun _ _ => ⟨rfl, does_quiet trivial fun _ _ => ⟨rfl, ?_⟩⟩
  apply (tlsBufferDrained_does hc).bind
  intro drained d _ hd
  exact does_pure ⟨hd.1, hd.2⟩

/-- A counter that is not that of refused traffic moves nothing. -/
theorem countWhen_does {E : Exit → Config → Prop} (condition : Bool) {counter : WorkerCounter}
    (h : counter ≠ .rejectedTrafficRate) :
    Does json c (countWhen condition counter) (fun _ d => d = c) E := by
  unfold countWhen
  split
  · exact does_quiet_last trivial fun r _ => ⟨Outside.after_count h _ _ r, rfl⟩
  · exact does_pure rfl

/-- The counters of the pauses move nothing. -/
theorem countPauses_does {E : Exit → Config → Prop} (reading : PressureReading) :
    Does json c (countPauses reading) (fun _ d => d = c) E := by
  apply does_current
  apply (countWhen_does _ (by decide)).bind
  intro _ d _ hd
  subst hd
  apply (countWhen_does _ (by decide)).bind
  intro _ d _ hd
  subst hd
  exact countWhen_does _ (by decide)

/-- A stall that begins gets a deadline, on a clock that has gone on. -/
theorem beginStall_holds (s : Session) (w : Outside) :
    Holds outside s w beginStall
      (fun _ s' w' => ∃ time, w.clock ≤ time ∧ s' = s.withStall time ∧
        w' = { w with clock := time }) (fun _ _ _ => False) := by
  apply holds_current_bind
  unfold Session.withStall
  split
  · exact ⟨trivial, fun time htime => ⟨time, htime, rfl, rfl⟩⟩
  · exact ⟨w.clock, le_rfl, rfl, rfl⟩

/-- **`refresh_read_pause`.** -/
theorem refreshReadPause_does (hc : c.Resting) :
    Does json c refreshReadPause (fun _ => Config.Beginning) Exit.Explained := by
  apply (readPressure_does hc).bind
  intro reading d _ hd
  apply (countPauses_does reading).bind
  intro _ d' _ hd'
  subst hd'
  apply does_current
  intro others hsane
  have hidle := hd.resting.1
  refine holds_modify_bind (holds_current_bind ?_)
  by_cases hsame : (d'.session.withPause reading).stalled = d'.session.stalled
  · rw [if_pos hsame]
    exact ⟨_, (Move.keepPause d' reading hidle hd.knows hsame).follows, rfl, rfl,
      hd.resting, rfl, rfl⟩
  · rw [if_neg hsame]
    apply ((beginStall_holds _ _).mono (fun _ _ _ h => h) (fun _ _ _ h => h.elim)).bind
    intro _ s w hend
    obtain ⟨time, htime, rfl, rfl⟩ := hend
    have htick : Follows json d' (d'.at time) := (Move.tick d' time htime).follows
    by_cases hrelay : (d'.session.withPause reading).stage = .relay
    · rw [if_pos hrelay]
      have hchange : Follows json (d'.at time) _ :=
        (Move.changeRelayStall (d'.at time) reading hidle hd.knows hrelay hsame).follows
      exact ⟨trivial, fun _ _ => ⟨_, htick.trans hchange, rfl, rfl, hd.resting, rfl, rfl⟩⟩
    · rw [if_neg hrelay]
      have hchange : Follows json (d'.at time) _ :=
        (Move.changeStall (d'.at time) reading hidle hd.knows hrelay hsame).follows
      exact ⟨_, htick.trans hchange, rfl, rfl, hd.resting, rfl, rfl⟩

/-- Arming the client socket, which may fail. -/
theorem armClient_does (hc : c.Beginning) :
    Does json c armClient (fun _ => Config.Beginning) Exit.Explained := by
  apply does_current
  split
  · exact does_pure hc
  · refine does_quiet trivial fun armed _ => ⟨rfl, ?_⟩
    have hinert : c.session.Inert
      { c.session with clientEvents := c.session.wantedClientEvents } := rfl
    cases armed with
    | true =>
        exact does_modify_last (Move.inert c _ hinert).follows
          ⟨hc.resting, hc.clientFresh, hc.upstreamFresh⟩
    | false => exact does_stop (hc.resting.explained trivial)

/-- Arming the pool socket, if there is one. -/
theorem armUpstream_does (hc : c.Beginning) :
    Does json c armUpstream (fun _ => Config.Beginning) Exit.Explained := by
  apply does_current
  split
  · exact does_pure hc
  · split
    · exact does_pure hc
    · refine does_quiet trivial fun armed _ => ⟨rfl, ?_⟩
      have hinert : c.session.Inert
        { c.session with upstreamEvents := c.session.wantedUpstreamEvents } := rfl
      cases armed with
      | true =>
          exact does_modify_last (Move.inert c _ hinert).follows
            ⟨hc.resting, hc.clientFresh, hc.upstreamFresh⟩
      | false => exact does_stop (hc.resting.explained trivial)

/-- **`update_interests`.** -/
theorem updateInterests_does (hc : c.Resting) :
    Does json c updateInterests (fun _ => Config.Beginning) Exit.Explained := by
  apply (refreshReadPause_does hc).bind
  intro _ d _ hd
  apply (armClient_does hd).bind
  intro _ d' _ hd'
  exact armUpstream_does hd'

/-! ## One reaction -/

/-- **`expire_timeouts`, for one session.** -/
theorem expireSession_does (now : Nat) (hc : c.Beginning) :
    Does json c (expireSession now) (fun _ => Config.Beginning) Exit.Explained := by
  have hresting := hc.resting
  apply does_current
  split
  · intro others _
    exact ⟨trivial, fun _ _ => ⟨_, (Move.reschedule c).follows, rfl, rfl,
      hresting, hc.clientFresh, hc.upstreamFresh⟩⟩
  · split
    · rename_i hstage
      apply recordUpstreamError_does.bind
      intro _ d _ hd
      subst hd
      apply discardUpstream_does.bind
      intro _ d _ hd
      subst hd
      split
      · exact does_stop ⟨trivial, .inl hresting.2, .inl hresting.1⟩
      · let d' : Config := d.setSession d.session.dropUpstream
        have hreconnect : Does json d' startNextUpstreamConnect (fun _ => d'.SamePoint)
            Exit.Explained :=
          reconnect_does hresting hstage rfl
        apply hreconnect.mono
        · exact fun _ _ h => ⟨h.resting hresting, h.clientFresh.trans hc.clientFresh,
            h.upstreamFresh.trans hc.upstreamFresh⟩
        · exact fun _ _ h => h
    · split
      · exact does_quiet trivial fun _ _ => ⟨rfl, does_stop (hresting.explained trivial)⟩
      · exact does_stop (hresting.explained trivial)

/-- The event comes from the upstream socket. -/
def SessionEvent.fromPool : SessionEvent → Bool
  | .upstream _ => true
  | _ => false

/-- **One reaction of the reactor on behalf of a session**: it is made of moves,
it ends at rest, and where it stops early there is a reason. -/
theorem handle_does (event : SessionEvent) (hc : c.Beginning) :
    Does json c (Session.handle json event) (fun _ => Config.Beginning)
      (Exit.Reported event.fromPool) := by
  cases event with
  | client events =>
      apply (clientReady_does hc).reported.bind
      intro _ d _ hd
      exact (updateInterests_does hd).reported
  | upstream events =>
      apply (upstreamReady_does hc).bind
      intro _ d _ hd
      exact (updateInterests_does hd).reported
  | timeout now => exact (expireSession_does now hc).reported

end PoolLb
