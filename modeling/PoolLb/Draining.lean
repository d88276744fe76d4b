import PoolLb.FramingRun

/-!
# Draining after the pool has closed

When the pool closes its side, `upstream_ready` drops the socket and keeps the
session for as long as something is left for the client.  What the client gets is
then what the pool has sent, if the session lives until the queue is empty.

It does not always live that long: `client_ready` writes to the upstream as soon
as its queue holds something, and on the closed descriptor the write fails.  So
the promise is kept exactly for miners whose accepted lines have all gone to the
pool before.
-/

namespace PoolLb

open Interaction Event

variable {json : Glaze} {c c' : Config}

/-- The pool has closed its side, and its socket is gone. -/
structure Session.Draining (s : Session) : Prop where
  stage : s.stage = .relay
  closed : s.upstreamReadClosed = true
  upstream : s.upstream = none

/-- Every line that was accepted has been written to the pool. -/
def Delivered (json : Glaze) (s : Session) (w : Outside) : Prop :=
  gather asWroteUpstream w.log =
    s.headerSent ++ (framing json s.runtime (gather asFramed w.log)).emitted

instance (json : Glaze) (s : Session) (w : Outside) : Decidable (Delivered json s w) :=
  inferInstanceAs (Decidable (_ = _))

/-- The reasons to end a session for which the client, a limit or epoll is to
blame. -/
def Exit.Blamed (e : Exit) : Prop :=
  e ∈ [.clientGone, .clientReadFailed, .clientWriteFailed, .truncatedLine, .oversizedLine,
    .oversizedTail, .refusedLine, .trafficLimit, .queueBudget, .queueLimit, .timedOut,
    .interestFailed]

/-! ## What the pool has sent -/

/-- What the pool has sent was written to the client or is queued for it, unless
the budget refused it. -/
def Config.Relays (c : Config) : Prop :=
  c.phase ≠ .closing .queueBudget →
    gather asWroteClient c.outside.log ++ c.session.toClient.bytes =
      gather asReceived c.outside.log

/-- What the pool sends is queued or written, move by move. -/
theorem Move.relays (hmove : Move json c c') (h : c.Relays) : c'.Relays := by
  have hback {phase : Phase} (hphase : c.phase = phase)
      (hother : phase ≠ .closing .queueBudget) :
      gather asWroteClient c.outside.log ++ c.session.toClient.bytes =
        gather asReceived c.outside.log :=
    h (hphase ▸ hother)
  cases hmove with
  | inert s hs =>
      rw [hs]
      exact h
  | note event hevent =>
      rcases hevent with rfl | rfl
      · exact h
      · exact h
  | startRead hphase | endRead hphase | receive _ hphase | refuseTraffic hphase
  | acceptInitial _ _ hphase | strike _ _ _ _ hphase | oversize _ hphase | endScan hphase
  | oversizedTail hphase | overfull hphase | route _ hphase | openConnect _ hphase =>
      exact fun _ => hback hphase Phase.noConfusion
  | overflow exit _ hphase =>
      intro hother
      rcases hphase with ⟨hphase, _⟩ | hphase
      · exact hback hphase Phase.noConfusion
      · exact hback hphase hother
  | giveUp exit hphase =>
      intro _
      rcases hphase with hphase | hphase
      · exact hback hphase Phase.noConfusion
      · exact hback hphase Phase.noConfusion
  | poolBytes socket chunk hphase =>
      intro _
      have hsame := hback hphase Phase.noConfusion
      show gather asWroteClient c.outside.log ++ (c.session.toClient.append chunk.bytes).bytes =
        gather asReceived c.outside.log ++ chunk.bytes
      rw [PendingBuffer.bytes_append, ← List.append_assoc, hsame]
  | poolLost => exact fun hother => absurd rfl hother
  | wrote count =>
      intro hphase
      have hsame := h hphase
      show (gather asWroteClient c.outside.log ++ c.session.toClient.bytes.take count) ++
        (c.session.toClient.consume count).bytes = gather asReceived c.outside.log
      rw [PendingBuffer.bytes_consume, List.append_assoc, List.take_append_drop]
      exact hsame
  | _ => exact h

theorem relays_lawful (json : Glaze) : Lawful json Config.Relays where
  fresh s w hs hlog := by
    intro _
    show gather asWroteClient w.log ++ s.toClient.bytes = gather asReceived w.log
    rw [hlog, hs.blank.toClient]
    rfl
  move _ _ _ hmove _ h := hmove.relays h
  restart c hresting _ h := by
    intro _
    exact h (hresting.resting.1 ▸ Phase.noConfusion)
  meanwhile s w w' hlog _ h := by
    intro hphase
    show gather asWroteClient w'.log ++ s.toClient.bytes = gather asReceived w'.log
    rw [hlog]
    exact h hphase

/-! ## A draining session -/

/-- A session that drains goes on draining. -/
theorem Move.draining {others : Nat} (hmove : Move json c c') (hsane : c.Sane others)
    (h : c.session.Draining) : c'.session.Draining := by
  cases hmove with
  | inert s hs =>
      rw [hs]
      exact ⟨h.stage, h.closed, h.upstream⟩
  | openConnect selection hphase =>
      exact absurd (.inr h.stage) (hsane.opening_unbacked (.inr hphase)).1
  | adopt socket hstage => exact absurd (h.stage.symm.trans hstage) SessionStage.noConfusion
  | finish socket backend _ hstage =>
      exact absurd (h.stage.symm.trans hstage) SessionStage.noConfusion
  | greet hstage => exact absurd (h.stage.symm.trans hstage) SessionStage.noConfusion
  | dropUpstream => exact ⟨h.stage, h.closed, rfl⟩
  | poolClosed => exact ⟨h.stage, rfl, h.upstream⟩
  | _ => exact ⟨h.stage, h.closed, h.upstream⟩

/-- A draining session stays one. -/
theorem Follows.draining {others : Nat} (h : Follows json c c') (hsane : c.Sane others)
    (hc : c.session.Draining) : c'.session.Draining := by
  have hboth : c'.Sane others ∧ c'.session.Draining :=
    h.invariant (P := fun d => d.Sane others ∧ d.session.Draining)
      (fun _ _ hmove hd => ⟨hmove.sane hd.1, hmove.draining hd.1 hd.2⟩) ⟨hsane, hc⟩
  exact hboth.2

/-- Where every accepted line was delivered, nothing is queued for the pool. -/
theorem Framed.nothing_queued {st : FramingState} (h : Framed json c st)
    (hsent : Delivered json c.session c.outside) : c.session.toUpstream.isEmpty = true := by
  have hfold := h.fold []
  rw [List.append_nil, List.append_nil] at hfold
  have hemitted : st.emitted.length ≤
      (framing json c.session.runtime (gather asFramed c.outside.log)).emitted.length := by
    rw [hfold]
    exact (framingFrom_emitted st _).length_le
  have haccount := congrArg List.length h.account
  have hdelivered := congrArg List.length hsent
  simp only [List.length_append] at haccount hdelivered
  have hsize : c.session.toUpstream.bytes.length = 0 := by omega
  exact (PendingBuffer.isEmpty_iff _).mpr (List.length_eq_zero_iff.mp hsize)

/-- A draining session whose lines were delivered ends for an outside reason, or
because the queue for the client is empty. -/
theorem Exit.Explained.of_draining {e : Exit} {st : FramingState} (h : e.Explained c)
    (hdraining : c.session.Draining) (hframed : Framed json c st)
    (hsent : Delivered json c.session c.outside) :
    e.Blamed ∨ e = .drained ∧ c.session.toClient.isEmpty = true := by
  have hstage := hdraining.stage
  have hcause := h.cause
  cases e with
  | drained => exact .inr ⟨rfl, hcause⟩
  | upstreamWriteFailed =>
      have hempty := hframed.nothing_queued hsent
      exact absurd (hempty.symm.trans hcause) (by decide)
  | tlsFailed => exact absurd (hstage.symm.trans hcause) SessionStage.noConfusion
  | noFirstMessage => exact absurd (hstage.symm.trans hcause) SessionStage.noConfusion
  | noBackend => exact absurd hstage hcause
  | connectFailed => exact absurd hstage hcause
  | upstreamReadFailed => exact hcause.elim
  | upstreamError => exact hcause.elim
  | _ => exact .inl (by simp [Exit.Blamed])

/-! ## The draining claim -/

/-- **Draining loses nothing once the miner's lines are delivered.**  Between two
reactions what the pool has sent is what was written to the client and what is
queued for it.  A session whose pool has closed reacts to its client and its timer
by going on in this way, and ends with every byte of the pool written, unless the
client, a limit or epoll is to blame; provided that no accepted line is left that
was not written to the pool. -/
theorem draining_loses_nothing (json : Glaze) (s : Session) (w : Outside)
    (h : Reached json s w) :
    gather asWroteClient w.log ++ s.toClient.bytes = gather asReceived w.log ∧
    (s.Draining → ∀ event, event.fromPool = false →
      (∀ s' w', Runs outside w (Session.handle json event s) (.ok (), s') w' → s'.Draining) ∧
      (∀ e s' w', Runs outside w (Session.handle json event s) (.error e, s') w' →
        Delivered json s' w' →
        e.Blamed ∨ s'.toClient.bytes = [] ∧
          gather asWroteClient w'.log = gather asReceived w'.log)) := by
  refine ⟨(relays_lawful json).reached h Phase.noConfusion, fun hdraining event hevent => ⟨?_, ?_⟩⟩
  · intro s' w' hrun
    obtain ⟨c, hmoves, rfl, rfl, _⟩ := h.ordered.handled hrun
    exact hmoves.draining h.ordered.sane hdraining
  · intro e s' w' hrun hsent
    have hlawful := (relays_lawful json).and (framed_lawful json)
    obtain ⟨c, hmoves, rfl, rfl, hreported⟩ := h.ordered.stopped hrun
    obtain ⟨hrelays, st, hframed⟩ :=
      hlawful.follows hmoves h.ordered.sane (hlawful.reached h)
    have hexplained : e.Explained c := by
      rcases hreported with hexplained | ⟨hpool, _⟩
      · exact hexplained
      · exact absurd (hevent.symm.trans hpool) (by decide)
    rcases hexplained.of_draining (hmoves.draining h.ordered.sane hdraining) hframed hsent with
      hblamed | ⟨rfl, hempty⟩
    · exact .inl hblamed
    · have hbytes := (PendingBuffer.isEmpty_iff _).mp hempty
      have hphase : c.phase ≠ .closing .queueBudget := by
        rcases hexplained.phase with hphase | hphase | hphase <;> simp [hphase]
      have hall := hrelays hphase
      rw [hbytes, List.append_nil] at hall
      exact .inr ⟨hbytes, hall⟩

/-- A miner that subscribes, and a pool that accepts the connection at once. -/
def oneLine : Scenario where
  client := Scenario.sends [subscribeChunk]
  connect := some ⟨9, true⟩

/-- The pool answers with a byte and closes, while the miner takes nothing. -/
def poolLeaves : Scenario where
  pool w := if gather asReceived w.log = [] then .data ⟨[120], by decide, by decide⟩ else .closed
  clientTakes := false

/-- The miner sends its line once more. -/
def oneMoreLine : Scenario where
  client := Scenario.sends [subscribeChunk, subscribeChunk]
  clientTakes := false

/-- The session of the miner, relayed. -/
def relaying : (Except Exit Unit × Session) × Outside :=
  oneLine.react subscribeJson (.client { readable := true }) (plainMiner (onePool false)) {}

/-- The session after the pool has closed. -/
def leftByPool : (Except Exit Unit × Session) × Outside :=
  poolLeaves.react subscribeJson (.upstream { readable := true }) relaying.1.2 relaying.2

/-- The session of the example is one that the reactor comes to. -/
theorem leftByPool_reached : Reached subscribeJson leftByPool.1.2 leftByPool.2 := by
  have hrelaying : Reached subscribeJson relaying.1.2 relaying.2 := by
    unfold relaying
    exact oneLine.react_reached _ (plainMiner_reached _) (by decide +kernel)
  unfold leftByPool
  exact poolLeaves.react_reached _ hrelaying (by decide +kernel)

/-- Its pool has left, and the client has not taken everything yet. -/
theorem leftByPool_draining : leftByPool.1.2.Draining := by
  have hfields : leftByPool.1.2.stage = .relay ∧ leftByPool.1.2.upstreamReadClosed = true ∧
      leftByPool.1.2.upstream = none := by
    decide +kernel
  exact ⟨hfields.1, hfields.2.1, hfields.2.2⟩

/-- **Draining can lose bytes.**  A session is draining with a byte for the miner
and nothing for the pool; the miner sends one more valid line, its socket reports
nothing but this, and the session ends with the byte lost. -/
theorem draining_loses_bytes :
    ∃ s w s' w', Reached subscribeJson s w ∧ s.Draining ∧ s.toUpstream.isEmpty = true ∧
      Runs outside w (Session.handle subscribeJson (.client { readable := true }) s)
        (.error .upstreamWriteFailed, s') w' ∧
      s'.toClient.isEmpty = false ∧
      gather asWroteClient w'.log = [] ∧ gather asReceived w'.log = [120] := by
  exact ⟨leftByPool.1.2, leftByPool.2, _, _, leftByPool_reached, leftByPool_draining,
    by decide +kernel, oneMoreLine.runs_react_of _ (by decide +kernel), by decide +kernel⟩

/-- The miner takes what is left. -/
theorem draining_loses_nothing_left :
    ∃ s w, Reached subscribeJson s w ∧ s.Draining ∧ ∃ s' w',
      Runs outside w (Session.handle subscribeJson (.client { writable := true }) s)
        (.error .drained, s') w' ∧ s'.toClient.bytes = [] ∧
      gather asWroteClient w'.log = gather asReceived w'.log ∧
      gather asReceived w'.log = [120] := by
  obtain ⟨_, hdrains⟩ := draining_loses_nothing subscribeJson _ _ leftByPool_reached
  obtain ⟨_, hends⟩ := hdrains leftByPool_draining (.client { writable := true }) rfl
  have hrun : Runs outside leftByPool.2
      (Session.handle subscribeJson (.client { writable := true }) leftByPool.1.2)
      (.error .drained, _) _ :=
    Scenario.runs_react_of {} _ (by decide +kernel)
  rcases hends _ _ _ hrun (by decide +kernel) with hblamed | ⟨hempty, hall⟩
  · simp [Exit.Blamed] at hblamed
  · exact ⟨_, _, leftByPool_reached, leftByPool_draining, _, _, hrun, hempty, hall,
      by decide +kernel⟩

end PoolLb
