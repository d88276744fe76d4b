import PoolLb.RelayMoves

/-!
# The life of a session

A session begins as `accept_ready` makes it, reacts to events, and between two
of its reactions the rest of the world goes on: the clock advances, and other
sessions of the worker change everything around it but its own log.  `Reached`
is every state between two reactions, `Stopped` every state in which a reaction
ends the session, and `Parted` the same after the final flush of
`close_session`.

`Lawful` is what a property needs to hold in all of them: that every move keeps
it is the only part that takes work.
-/

namespace PoolLb

open Interaction Handler

variable {json : Glaze} {s s' : Session} {w w' : Outside} {I : Config → Prop}

/-- The session at the beginning of an event. -/
def Config.start (s : Session) (w : Outside) : Config := { session := s, outside := w }

/-- A handler begins at rest. -/
theorem Config.start_beginning (s : Session) (w : Outside) : (Config.start s w).Beginning :=
  ⟨⟨rfl, rfl⟩, rfl, rfl⟩

/-- Between two events a configuration is nothing but its session. -/
theorem Config.Beginning.start_eq {c : Config} (h : c.Beginning) (hnothing : c.unframed = []) :
    Config.start c.session c.outside = c := by
  obtain ⟨session, outside, phase, consumed, clientFresh, upstreamFresh, unframed⟩ := c
  obtain ⟨⟨rfl, rfl⟩, rfl, rfl⟩ := h
  subst hnothing
  rfl

/-- A session as `accept_ready` leaves it, with its first timer set. -/
def Session.Fresh (s : Session) : Prop :=
  ∃ id client runtime header lease now,
    s = (freshSession id client runtime header lease now).plain.bump ∨
      s = (freshSession id client runtime header lease now).tls.bump

/-- The states of a session between two of its reactions. -/
inductive Reached (json : Glaze) : Session → Outside → Prop where
  | accepted {s : Session} {w : Outside} (hs : s.Fresh) (hlog : w.log = []) : Reached json s w
  | meanwhile {s : Session} {w w' : Outside} (h : Reached json s w) (hlog : w'.log = w.log)
      (hclock : w.clock ≤ w'.clock) (hheld : s.queuedBytes ≤ w'.held) : Reached json s w'
  | handled {s s' : Session} {w w' : Outside} (event : SessionEvent) (h : Reached json s w)
      (hrun : Runs outside w (Session.handle json event s) (.ok (), s') w') : Reached json s' w'

/-- A reaction has ended the session. -/
inductive Stopped (json : Glaze) : Exit → Session → Outside → Prop where
  | handled {s s' : Session} {w w' : Outside} {e : Exit} (event : SessionEvent)
      (h : Reached json s w)
      (hrun : Runs outside w (Session.handle json event s) (.error e, s') w') :
      Stopped json e s' w'

/-- The session after `flush_upstream_queue` in `close_session`. -/
inductive Parted (json : Glaze) : Exit → Session → Outside → Prop where
  | flushed {s s' : Session} {w w' : Outside} {e : Exit} (h : Stopped json e s w)
      (hstage : s.stage = .relay)
      (hrun : Runs outside w (flushUpstreamQueue s) (.ok (), s') w') : Parted json e s' w'
  | unflushed {s : Session} {w : Outside} {e : Exit} (h : Stopped json e s w)
      (hstage : s.stage ≠ .relay) : Parted json e s w

/-- Every state of a session: between two reactions, where a reaction has ended
it, and after the final flush. -/
def Lived (json : Glaze) (s : Session) (w : Outside) : Prop :=
  Reached json s w ∨ (∃ e, Stopped json e s w) ∨ ∃ e, Parted json e s w

/-- A fresh session has nothing queued and no upstream. -/
structure Session.Blank (s : Session) : Prop where
  lineBuffer : s.lineBuffer = []
  toUpstream : s.toUpstream = {}
  toClient : s.toClient = {}
  stage : s.stage = .firstMessage ∨ s.stage = .tlsHandshake
  upstream : s.upstream = none
  protocolState : s.protocolState = {}
  errors : s.consecutiveProtocolErrors = 0
  tlsOperation : s.tlsOperation = .none
  clientReadPaused : s.clientReadPaused = false
  backendCounted : s.backendCounted = false

/-- A new session is blank. -/
theorem Session.Fresh.blank (h : s.Fresh) : s.Blank := by
  obtain ⟨id, client, runtime, header, lease, now, rfl | rfl⟩ := h
  · exact ⟨rfl, rfl, rfl, .inl rfl, rfl, rfl, rfl, rfl, rfl, rfl⟩
  · exact ⟨rfl, rfl, rfl, .inr rfl, rfl, rfl, rfl, rfl, rfl, rfl⟩

/-- A blank session has no pool. -/
theorem Session.Blank.not_backed (h : s.Blank) : ¬ s.stage.Backed := by
  rcases h.stage with hstage | hstage
  · rw [hstage]
    exact not_backed_firstMessage
  · rw [hstage]
    exact not_backed_tlsHandshake

/-! ## Sanity over a whole life -/

/-- A session is sane between two reactions whatever is held for others. -/
structure Session.Ordered (s : Session) (w : Outside) : Prop where
  held : s.queuedBytes ≤ w.held
  sane : (Config.start s w).Sane (w.held - s.queuedBytes)

/-- What is sane inside a handler is in order outside. -/
theorem Config.Sane.ordered {others : Nat} {c : Config} (h : c.Sane others) :
    c.session.Ordered c.outside := by
  have hbalance := h.balanced
  refine ⟨by omega, ?_, h.socket_backed, h.backed_backend, h.silent_unbacked, ?_, h.plain_reads,
    fun hbytes => absurd rfl hbytes, h.counted⟩
  · show c.outside.held = _ + c.session.queuedBytes
    omega
  · intro hopening
    simp [Config.start] at hopening

/-- A reaction that ends at rest is a sequence of moves. -/
theorem Session.Ordered.handled {event : SessionEvent} (h : s.Ordered w)
    (hrun : Runs outside w (Session.handle json event s) (.ok (), s') w') :
    ∃ c, Follows json (.start s w) c ∧ c.session = s' ∧ c.outside = w' ∧ c.Beginning :=
  (handle_does event (Config.start_beginning s w) _ h.sane).sound hrun

/-- So is a reaction that stops early. -/
theorem Session.Ordered.stopped {event : SessionEvent} {e : Exit} (h : s.Ordered w)
    (hrun : Runs outside w (Session.handle json event s) (.error e, s') w') :
    ∃ c, Follows json (.start s w) c ∧ c.session = s' ∧ c.outside = w' ∧
      e.Reported event.fromPool c :=
  (handle_does event (Config.start_beginning s w) _ h.sane).sound hrun

theorem Reached.ordered (h : Reached json s w) : s.Ordered w := by
  induction h with
  | @accepted s w hs _ =>
      have hblank := hs.blank
      have hqueued : s.queuedBytes = 0 := by
        unfold Session.queuedBytes
        rw [hblank.lineBuffer, hblank.toUpstream, hblank.toClient]
        rfl
      refine ⟨by omega, ?_, ?_, ?_, ?_, ?_, ?_, fun hbytes => absurd rfl hbytes, ?_⟩
      · show w.held = _ + s.queuedBytes
        omega
      · intro hsome
        have hnone : s.upstream = none := hblank.upstream
        simp [Config.start, hnone] at hsome
      · exact fun hbacked => absurd hbacked hblank.not_backed
      · exact fun _ => hblank.not_backed
      · intro hopening
        simp [Config.start] at hopening
      · intro _
        show s.tlsOperation ≠ .read
        rw [hblank.tlsOperation]
        decide
      · exact fun hcounted => absurd (hblank.backendCounted.symm.trans hcounted) Bool.false_ne_true
  | meanwhile _ _ _ hheld ih =>
      refine ⟨hheld, ?_, ih.sane.socket_backed, ih.sane.backed_backend, ih.sane.silent_unbacked,
        ih.sane.opening_unbacked, ih.sane.plain_reads, ih.sane.unframed_reads,
        ih.sane.counted⟩
      exact (Nat.sub_add_cancel hheld).symm
  | handled event _ hrun ih =>
      obtain ⟨c, hmoves, rfl, rfl, _⟩ := ih.handled hrun
      exact (hmoves.sane ih.sane).ordered

/-! ## The rule of invariants -/

/-- What a property of a session needs in order to hold throughout its life. -/
structure Lawful (json : Glaze) (I : Config → Prop) : Prop where
  fresh : ∀ s w, s.Fresh → w.log = [] → I (.start s w)
  move : ∀ others c c', Move json c c' → c.Sane others → I c → I c'
  restart : ∀ c : Config, c.Beginning → c.unframed = [] → I c → I (.start c.session c.outside)
  meanwhile : ∀ s w w', w'.log = w.log → w.clock ≤ w'.clock → I (.start s w) → I (.start s w')

/-- Two lawful properties hold together. -/
theorem Lawful.and {J : Config → Prop} (hI : Lawful json I) (hJ : Lawful json J) :
    Lawful json fun c => I c ∧ J c where
  fresh s w hs hlog := ⟨hI.fresh s w hs hlog, hJ.fresh s w hs hlog⟩
  move others c c' hmove hsane h :=
    ⟨hI.move others c c' hmove hsane h.1, hJ.move others c c' hmove hsane h.2⟩
  restart c hresting hnothing h :=
    ⟨hI.restart c hresting hnothing h.1, hJ.restart c hresting hnothing h.2⟩
  meanwhile s w w' hlog hclock h :=
    ⟨hI.meanwhile s w w' hlog hclock h.1, hJ.meanwhile s w w' hlog hclock h.2⟩

/-- What every move keeps, moves keep. -/
theorem Lawful.follows {others : Nat} {c c' : Config} (hI : Lawful json I)
    (h : Follows json c c') (hsane : c.Sane others) (hc : I c) : I c' := by
  have hboth : c'.Sane others ∧ I c' :=
    h.invariant (P := fun d => d.Sane others ∧ I d)
      (fun d d' hmove hd => ⟨hmove.sane hd.1, hI.move others d d' hmove hd.1 hd.2⟩) ⟨hsane, hc⟩
  exact hboth.2

/-- **What is lawful holds between any two reactions.** -/
theorem Lawful.reached (hI : Lawful json I) (h : Reached json s w) : I (.start s w) := by
  induction h with
  | accepted hs hlog => exact hI.fresh _ _ hs hlog
  | meanwhile _ hlog hclock _ ih => exact hI.meanwhile _ _ _ hlog hclock ih
  | handled event hbefore hrun ih =>
      have hsane := hbefore.ordered.sane
      obtain ⟨c, hmoves, rfl, rfl, hresting⟩ := hbefore.ordered.handled hrun
      have hnothing := (hmoves.sane hsane).nothing_unframed hresting.resting.1
      exact hI.restart c hresting hnothing (hI.follows hmoves hsane ih)

/-- **What is lawful holds where a reaction ends the session**, at a point of
the handler that explains the exit. -/
theorem Lawful.stopped {e : Exit} (hI : Lawful json I) (h : Stopped json e s w) :
    ∃ c : Config, c.session = s ∧ c.outside = w ∧ (∃ fromPool, e.Reported fromPool c) ∧ I c ∧
      ∃ others, c.Sane others := by
  cases h with
  | handled event hbefore hrun =>
      have hsane := hbefore.ordered.sane
      obtain ⟨c, hmoves, rfl, rfl, hreported⟩ := hbefore.ordered.stopped hrun
      exact ⟨c, rfl, rfl, ⟨_, hreported⟩, hI.follows hmoves hsane (hI.reached hbefore),
        _, hmoves.sane hsane⟩

/-- **What is lawful holds after the final flush.** -/
theorem Lawful.parted {e : Exit} (hI : Lawful json I) (h : Parted json e s w) :
    ∃ c : Config, c.session = s ∧ c.outside = w ∧ I c := by
  cases h with
  | flushed hstopped hstage hrun =>
      obtain ⟨c, rfl, rfl, _, hc, others, hsane⟩ := hI.stopped hstopped
      have hnot : c.session.stage ≠ .upstreamConnect := by
        rw [hstage]
        decide
      have hdoes : Does json c flushUpstreamQueue (fun _ => c.Kept) (fun _ _ => False) :=
        flushUpstreamQueue_does hnot
      obtain ⟨d, hmoves, rfl, rfl, _⟩ := (hdoes others hsane).sound hrun
      exact ⟨d, rfl, rfl, hI.follows hmoves hsane hc⟩
  | unflushed hstopped _ =>
      obtain ⟨c, hs, hw, _, hc, _⟩ := hI.stopped hstopped
      exact ⟨c, hs, hw, hc⟩

/-- **What is lawful holds in every state of a session.** -/
theorem Lawful.lived (hI : Lawful json I) (h : Lived json s w) :
    ∃ c : Config, c.session = s ∧ c.outside = w ∧ I c := by
  rcases h with hreached | ⟨e, hstopped⟩ | ⟨e, hparted⟩
  · exact ⟨.start s w, rfl, rfl, hI.reached hreached⟩
  · obtain ⟨c, hs, hw, _, hc, _⟩ := hI.stopped hstopped
    exact ⟨c, hs, hw, hc⟩
  · exact hI.parted hparted

end PoolLb
