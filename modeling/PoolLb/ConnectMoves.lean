import PoolLb.IoMoves

/-!
# Connecting, move by move

The connect functions run at two points: inside `process_client_bytes`, with
accepted lines not yet committed, and from a socket event or the timer.  They
leave the point of the handler as it is, and give up only while the session is
not a relay.
-/

namespace PoolLb

open Interaction Handler

variable {json : Glaze} {c c' : Config} {E : Exit → Config → Prop}

/-- Nothing is kept of an error that is counted or of a socket that is given up. -/
theorem after_of_tidies (w : Outside) (c : ReactorCall) (h : c.Tidies) :
    outside.requires w c ∧ ∀ r, outside.allows w c r → outside.after w c r = w := by
  cases c with
  | backendError backend => exact ⟨trivial, fun _ _ => rfl⟩
  | count counter amount =>
      cases counter with
      | upstreamConnectErrors => exact ⟨trivial, fun _ _ => rfl⟩
      | _ => exact h.elim
  | epollDelete socket => exact ⟨trivial, fun _ _ => rfl⟩
  | closeSocket socket => exact ⟨trivial, fun _ _ => rfl⟩
  | _ => exact h.elim

/-- A function that only tidies up, seen from the outside. -/
theorem tidies_holds {α : Type} {s : Session} {w : Outside} {m : SessionM α}
    {Q : α → Session → Prop} {E : Exit → Session → Outside → Prop}
    (h : Completes ReactorCall.Tidies s m Q) :
    Holds outside s w m (fun a s' w' => Q a s' ∧ w' = w) E :=
  (h.holds (M := outside) (R := fun w w' => w' = w) (fun _ => rfl) (fun _ _ _ h h' => h'.trans h)
    after_of_tidies).mono (fun _ _ _ hend => hend) fun _ _ _ hend => hend.1.elim

/-- An error is recorded, and nothing has moved. -/
theorem recordUpstreamError_does :
    Does json c recordUpstreamError (fun _ c' => c' = c) E := by
  intro others _
  apply (tidies_holds (recordUpstreamError_yields c.session)).mono
  · intro _ s w hend
    exact ⟨c, .refl c, hend.1.symm, hend.2.symm, rfl⟩
  · exact fun _ _ _ h => h

/-- The pool socket is dropped in one move. -/
theorem discardUpstream_does :
    Does json c discardUpstream (fun _ c' => c' = c.setSession c.session.dropUpstream) E := by
  intro others _
  apply (tidies_holds (discardUpstream_yields c.session)).mono
  · intro _ s w hend
    exact ⟨_, (Move.dropUpstream c).follows, hend.1.symm, hend.2.symm, rfl⟩
  · exact fun _ _ _ h => h

/-! ## The established connection -/

/-- The header stands before the queue. -/
def Session.withHeader (s : Session) (backend : Backend) : Session :=
  { s with toUpstream := s.toUpstream.prepend (s.headerFor backend) }

/-- The header is reserved and put before the queue, or the budget is spent. -/
theorem prependHeader_holds {backend : Backend} (hbackend : c.session.backend = some backend) :
    Holds outside c.session c.outside prependHeader
      (fun fits s w => if fits then
          s = c.session.withHeader backend ∧
          w = c.outside.hold (c.session.headerFor backend).length
        else s = c.session ∧ w = c.outside) (fun _ _ _ => False) := by
  apply holds_current_bind
  rw [hbackend, Option.any_some]
  by_cases hsend : backend.sendProxyV2 = true
  · have hheader : c.session.headerFor backend = c.session.proxyHeader.view := if_pos hsend
    rw [if_pos hsend]
    unfold Session.withHeader
    rw [hheader]
    refine ⟨trivial, fun fits _ => ?_⟩
    cases fits with
    | true => exact ⟨rfl, rfl⟩
    | false => exact ⟨trivial, fun _ _ => ⟨rfl, rfl⟩⟩
  · have hheader : c.session.headerFor backend = [] := if_neg hsend
    rw [if_neg hsend]
    unfold Session.withHeader
    rw [hheader]
    exact ⟨rfl, rfl⟩

/-- The session becomes a relay on its socket. -/
theorem enterRelay_holds {s : Session} {w : Outside} {backend : Backend}
    (hbackend : s.backend = some backend) (hcounted : s.backendCounted = false) :
    Holds outside s w enterRelay
      (fun _ s' w' =>
        s' = { s with
          stage := .relay, timeoutGeneration := s.timeoutGeneration + 1, backendCounted := true } ∧
        w' = { (w.schedule s.id (s.timeoutGeneration + 1)
            ({ s with stage := .relay } : Session).timeoutDeadline).note
              (.relayed backend.ref s.upstream) with
          entered := (backend.ref, s.id) :: w.entered }) (fun _ _ _ => False) := by
  refine ⟨hcounted, fun _ _ => ⟨trivial, fun _ _ => ?_⟩⟩
  simp only [hbackend]
  exact ⟨trivial, fun _ _ => ⟨rfl, rfl⟩⟩

/-- The point of the handler is the same, and so is the line buffer. -/
structure Config.SamePoint (c c' : Config) : Prop where
  phase : c'.phase = c.phase
  consumed : c'.consumed = c.consumed
  lineBuffer : c'.session.lineBuffer = c.session.lineBuffer
  clientFresh : c'.clientFresh = c.clientFresh
  upstreamFresh : c'.upstreamFresh = c.upstreamFresh

theorem Config.SamePoint.refl (c : Config) : c.SamePoint c := ⟨rfl, rfl, rfl, rfl, rfl⟩

theorem Config.SamePoint.trans {d : Config} (h : c.SamePoint c') (h' : c'.SamePoint d) :
    c.SamePoint d :=
  ⟨h'.phase.trans h.phase, h'.consumed.trans h.consumed, h'.lineBuffer.trans h.lineBuffer,
    h'.clientFresh.trans h.clientFresh, h'.upstreamFresh.trans h.upstreamFresh⟩

/-- Where `finish_upstream_connect` leaves the session. -/
structure Config.Finished (c : Config) (done : Bool) (c' : Config) : Prop where
  point : c.SamePoint c'
  stage : c'.session.stage = if done then .relay else .upstreamConnect

/-- **`finish_upstream_connect`.** -/
theorem finishUpstreamConnect_does (hphase : c.phase = .idle ∨ c.phase = .scanning)
    (hstage : c.session.stage = .upstreamConnect) :
    Does json c finishUpstreamConnect c.Finished E := by
  apply does_current
  refine does_quiet trivial fun failed hfailed => ⟨rfl, ?_⟩
  cases failed with
  | true => exact does_pure ⟨.refl c, hstage⟩
  | false =>
      intro others hsane
      have hsome : c.session.upstream ≠ none := fun hnone => Bool.false_ne_true (hfailed hnone)
      obtain ⟨socket, hsocket⟩ := Option.ne_none_iff_exists'.mp hsome
      obtain ⟨backend, hbackend⟩ :=
        Option.isSome_iff_exists.mp (hsane.backed_backend (.inl hstage))
      apply ((prependHeader_holds hbackend).mono (fun _ _ _ h => h) (fun _ _ _ h => h.elim)).bind
      intro fits s w hfits
      cases fits with
      | true =>
          obtain ⟨rfl, rfl⟩ := hfits
          have hbackend' : (c.session.withHeader backend).backend = some backend := hbackend
          rw [if_pos rfl]
          apply ((enterRelay_holds hbackend' (hsane.uncounted hstage)).mono (fun _ _ _ h => h)
            (fun _ _ _ h => h.elim)).bind
          intro _ s w hend
          obtain ⟨rfl, rfl⟩ := hend
          refine ⟨_, (Move.finish c socket backend hphase hstage hsocket hbackend).follows, rfl, ?_,
            ⟨rfl, rfl, rfl, rfl, rfl⟩, rfl⟩
          rw [← hsocket]
          rfl
      | false =>
          obtain ⟨rfl, rfl⟩ := hfits
          exact ⟨_, (Move.inert c { c.session with queueLimitExceeded := true } rfl).follows,
            rfl, rfl, ⟨rfl, rfl, rfl, rfl, rfl⟩, hstage⟩

/-! ## Attempts -/

/-- An attempt may start: the session is connecting and has no socket. -/
structure Config.Connecting (c : Config) : Prop where
  phase : c.phase = .idle ∨ c.phase = .scanning
  stage : c.session.stage = .upstreamConnect
  socket : c.session.upstream = none

/-- A connecting session is not a relay. -/
theorem Config.Connecting.not_relay (h : c.Connecting) : c.session.stage ≠ .relay := by
  rw [h.stage]
  decide

/-- Where an attempt leaves the session: done with an answer, or about to make
the next one. -/
def Config.Attempted (c : Config) : Option Bool → Config → Prop
  | some true, c' => c.SamePoint c'
  | some false, c' => c.SamePoint c' ∧ c'.session.stage = .upstreamConnect
  | none, c' => c.SamePoint c' ∧ c'.Connecting

/-- A connect that succeeds at once makes the moves of one that does later. -/
theorem completeConnect_does {started : ConnectStart}
    (hphase : c.phase = .idle ∨ c.phase = .scanning)
    (hstage : c.session.stage = .upstreamConnect) :
    Does json c (completeConnect started) c.Attempted E := by
  unfold completeConnect
  split
  · exact does_pure (.refl c)
  · apply (finishUpstreamConnect_does hphase hstage).bind
    intro done d _ hd
    cases done with
    | true => exact does_pure hd.point
    | false =>
        apply does_current
        split
        · exact does_pure ⟨hd.point, hd.stage⟩
        · apply recordUpstreamError_does.bind
          intro _ d' _ hd'
          subst hd'
          apply discardUpstream_does.bind
          intro _ d' _ hd'
          subst hd'
          have hpoint := hd.point
          refine does_pure ⟨⟨hpoint.phase, hpoint.consumed, hpoint.lineBuffer, hpoint.clientFresh,
            hpoint.upstreamFresh⟩, ?_, hd.stage, rfl⟩
          rw [← hpoint.phase] at hphase
          exact hphase

/-- An attempt, seen from an earlier point. -/
theorem Config.Attempted.of_samePoint {d : Config} {r : Option Bool} (h : c.SamePoint d)
    (hend : d.Attempted r c') : c.Attempted r c' := by
  cases r with
  | none => exact ⟨h.trans hend.1, hend.2⟩
  | some answer =>
      cases answer with
      | true => exact h.trans hend
      | false => exact ⟨h.trans hend.1, hend.2⟩

/-- A socket that epoll does not take is closed again; nothing has changed. -/
theorem forget_socket {s : Session} (hsocket : s.upstream = none) (socket : Nat) :
    { { s with upstream := some socket } with upstream := none } = s := by
  cases s
  cases hsocket
  rfl

/-- The configuration with a connecting socket. -/
def Config.adopted (c : Config) (socket time : Nat) : Config :=
  (c.at time).next (c.session.adopt socket time)
    ((c.at time).outside.schedule c.session.id (c.session.timeoutGeneration + 1)
      (c.session.adopt socket time).timeoutDeadline)

/-- The moves of a socket that is adopted, or closed again. -/
theorem adoptSocket_does {started : ConnectStart} (hc : c.Connecting) :
    Does json c (adoptSocket started) c.Attempted E := by
  intro others hsane
  refine ⟨trivial, fun added _ => ?_⟩
  cases added with
  | true =>
      refine ⟨trivial, fun time htime => ⟨trivial, fun _ _ => ?_⟩⟩
      have hmoves : Follows json c (c.adopted started.socket time) :=
        (Move.tick c time htime).follows.trans
          (Move.adopt (c.at time) started.socket hc.stage hc.socket).follows
      have hsame : c.SamePoint (c.adopted started.socket time) := ⟨rfl, rfl, rfl, rfl, rfl⟩
      have hcomplete : Does json (c.adopted started.socket time) (completeConnect started)
          (c.adopted started.socket time).Attempted E :=
        completeConnect_does hc.phase hc.stage
      have hrest : Does json (c.adopted started.socket time) (completeConnect started)
          c.Attempted E :=
        hcomplete.mono (fun _ _ h => h.of_samePoint hsame) (fun _ _ h => h)
      exact hrest.after hmoves hsane
  | false =>
      have hforget := forget_socket hc.socket started.socket
      apply (tidies_holds (recordUpstreamError_yields _)).bind
      intro _ s w hend
      obtain ⟨rfl, rfl⟩ := hend
      refine ⟨trivial, fun _ _ => ⟨c, .refl c, hforget.symm, rfl, .refl c, hc⟩⟩

/-! ## The rounds of an attempt -/

theorem Session.Inert.trans {s s' s'' : Session} (h : s.Inert s') (h' : s'.Inert s'') :
    s.Inert s'' := by
  unfold Session.Inert at h h' ⊢
  rw [h', h]

/-- Going on to the next address is inert. -/
theorem seekAddress_inert (rounds : Nat) (s : Session) : s.Inert (s.seekAddress rounds) := by
  obtain ⟨_, _, _, _, hsought⟩ := s.seekAddress_frame rounds
  rw [hsought]
  rfl

/-- So is taking the next source. -/
theorem advanceSource_inert (s : Session) : s.Inert s.advanceSource := by
  obtain ⟨_, hadvanced⟩ := s.advanceSource_frame
  rw [hadvanced]
  rfl

/-- An inert change leaves an attempt where it is. -/
theorem Config.Connecting.inert {s : Session} (hc : c.Connecting) (h : c.session.Inert s) :
    (c.setSession s).Connecting := by
  refine ⟨hc.phase, ?_, ?_⟩
  · show s.stage = _
    rw [h]
    exact hc.stage
  · show s.upstream = _
    rw [h]
    exact hc.socket

/-- An inert change leaves the handler where it is. -/
theorem Config.SamePoint.inert {s : Session} (h : c.session.Inert s) :
    c.SamePoint (c.setSession s) := by
  refine ⟨rfl, rfl, ?_, rfl, rfl⟩
  show s.lineBuffer = _
  rw [h]

/-- An event in the log does not change that the session is connecting. -/
theorem Config.Connecting.noted (hc : c.Connecting) (event : Event) : (c.noted event).Connecting :=
  ⟨hc.phase, hc.stage, hc.socket⟩

/-- **One candidate, move by move.** -/
theorem tryCandidate_does {backend : Backend} {address : SocketAddress}
    {source : Option SocketAddress} (hc : c.Connecting)
    (hbackend : c.session.backend = some backend) :
    Does json c (tryCandidate backend address source) c.Attempted E := by
  have hspend : c.session.Inert c.session.spendCandidate := rfl
  have hspent := hc.inert hspend
  refine does_modify (Move.inert c _ hspend).follows ?_
  refine does_call trivial fun _ _ =>
    ⟨_, (Move.attempt _ backend hspent.stage hbackend).follows, rfl, rfl, ?_⟩
  have hattempt := hspent.noted (.attempted backend.ref)
  refine does_call trivial fun started _ => ?_
  cases started with
  | none =>
      refine ⟨_, .refl _, rfl, rfl, ?_⟩
      apply recordUpstreamError_does.bind
      intro _ d _ hd
      subst hd
      exact does_pure ⟨⟨rfl, rfl, rfl, rfl, rfl⟩, hattempt⟩
  | some started =>
      refine ⟨Config.noted _ (.opened started.socket),
        (Move.openSocket _ started.socket hattempt.stage hattempt.socket).follows, rfl, rfl, ?_⟩
      apply (adoptSocket_does (hattempt.noted (.opened started.socket))).mono
      · intro r d hd
        have hsame : c.SamePoint (((c.setSession c.session.spendCandidate).noted
            (.attempted backend.ref)).noted (.opened started.socket)) :=
          ⟨rfl, rfl, rfl, rfl, rfl⟩
        exact hd.of_samePoint hsame
      · exact fun _ _ h => h

/-- How connecting is given up: at the same point, and not as a relay. -/
structure Config.GaveUp (c : Config) (e : Exit) (c' : Config) : Prop where
  point : c.SamePoint c'
  stage : c'.session.stage = .upstreamConnect
  exit : e = .connectFailed ∨ e = .queueBudget

/-- Giving up, seen from an earlier point. -/
theorem Config.GaveUp.of_samePoint {d : Config} {e : Exit} (hend : d.GaveUp e c')
    (h : c.SamePoint d) : c.GaveUp e c' :=
  ⟨h.trans hend.point, hend.stage, hend.exit⟩

/-- By induction on the candidates; the handler stays where it is. -/
theorem connectRounds_does (rounds : Nat) (hc : c.Connecting) :
    Does json c (connectRounds rounds) (fun _ => c.SamePoint) c.GaveUp := by
  induction rounds generalizing c with
  | zero => exact does_stop ⟨.refl c, hc.stage, .inl rfl⟩
  | succ rounds ih =>
      have hagain {d : Config} (hd : d.Connecting) (h : c.SamePoint d) :
          Does json d (connectRounds rounds) (fun _ => c.SamePoint) c.GaveUp :=
        (ih hd).mono (fun _ _ hend => h.trans hend) (fun _ _ hend => hend.of_samePoint h)
      apply does_current
      refine does_now fun time _ => ?_
      have htime : c.SamePoint (c.at time) := ⟨rfl, rfl, rfl, rfl, rfl⟩
      split
      · exact does_stop ⟨htime, hc.stage, .inl rfl⟩
      · have hseek := seekAddress_inert c.session.backendAddressesRemaining c.session
        have hconnecting : (c.at time).Connecting := ⟨hc.phase, hc.stage, hc.socket⟩
        refine does_modify (Move.inert (c.at time) _ hseek).follows (does_current ?_)
        have hsought := hconnecting.inert hseek
        have hsame := htime.trans (.inert hseek)
        split
        · exact does_stop ⟨hsame, hsought.stage, .inl rfl⟩
        · have hadvance := advanceSource_inert (c.session.seekAddress
            c.session.backendAddressesRemaining)
          refine does_modify (Move.inert _ _ hadvance).follows ?_
          have hadvanced := hsought.inert hadvance
          have hpoint := hsame.trans (.inert hadvance)
          split
          · rename_i address source backend _ hbackend
            have hbackend' : (Session.advanceSource (c.session.seekAddress
                c.session.backendAddressesRemaining)).backend = some backend := by
              rw [hadvance]
              exact hbackend
            apply (tryCandidate_does hadvanced hbackend').bind
            intro r d _ hd
            have hend := Config.Attempted.of_samePoint hpoint hd
            cases r with
            | none => exact hagain hend.2 hend.1
            | some answer =>
                cases answer with
                | true => exact does_pure hend
                | false => exact does_stop ⟨hend.1, hend.2, .inr rfl⟩
          · exact does_stop ⟨hpoint, hadvanced.stage, .inl rfl⟩

/-- **`start_next_upstream_connect`.** -/
theorem startNextUpstreamConnect_does (hc : c.Connecting) :
    Does json c startNextUpstreamConnect (fun _ => c.SamePoint) c.GaveUp := by
  apply does_current
  split
  · exact does_stop ⟨.refl c, hc.stage, .inl rfl⟩
  · exact connectRounds_does _ hc

/-! ## The beginning -/

/-- How `begin_upstream_connect` fails: the lines stay accepted, and the
session is not a relay. -/
structure Config.Unopened (c : Config) (e : Exit) (c' : Config) : Prop where
  phase : c'.phase = .routed ∨ c'.phase = .scanning
  consumed : c'.consumed = c.consumed
  stage : c'.session.stage ≠ .relay
  exit : e = .noBackend ∨ e = .connectFailed ∨ e = .queueBudget

/-- Where `begin_upstream_connect` goes on cutting lines. -/
structure Config.Opened (c c' : Config) : Prop where
  phase : c'.phase = .scanning
  consumed : c'.consumed = c.consumed
  lineBuffer : c'.session.lineBuffer = c.session.lineBuffer

/-- Without a backend the session is refused, with its lines accepted. -/
theorem rejectNoBackend_does {d : Config} (h : c.Unopened .noBackend d) :
    Does json d rejectNoBackend (fun _ => c.Opened) c.Unopened :=
  does_quiet trivial fun _ _ => ⟨rfl, does_stop h⟩

/-- A source sequence number is drawn, which matters to no move. -/
theorem drawSourceSequence_does :
    Does json c drawSourceSequence
      (fun _ c' => ∃ s, c.session.Inert s ∧ c' = c.setSession s) E := by
  apply does_current
  split
  · exact does_pure ⟨c.session, rfl, rfl⟩
  · refine does_quiet trivial fun sequence _ => ⟨rfl, ?_⟩
    have hinert : c.session.Inert { c.session with upstreamSourceSequence := sequence } := rfl
    exact does_modify_last (Move.inert c _ hinert).follows ⟨_, hinert, rfl⟩

/-- The first attempts of a session that has its backend. -/
theorem connectBackend_does (selection : Nat) (hc : c.phase = .routed)
    (hunbacked : ¬ c.session.stage.Backed) (hsocket : c.session.upstream = none) :
    Does json c (connectBackend selection) (fun _ => c.Opened) c.Unopened := by
  have hnot : c.session.stage ≠ .relay := fun hrelay => hunbacked (.inr hrelay)
  apply does_current
  split
  · exact rejectNoBackend_does ⟨.inl hc, rfl, hnot, .inl rfl⟩
  · rename_i hsome
    refine does_now fun time _ => ?_
    have hbackend : c.session.backend.isSome := by
      rw [not_or, Option.isNone_iff_eq_none, ← Ne, Option.ne_none_iff_isSome] at hsome
      exact hsome.1
    refine does_modify_to (Move.openConnect (c.at time) selection hc hbackend).follows rfl rfl ?_
    have hconnecting : ((c.at time).beganConnect selection).Connecting := ⟨.inr rfl, rfl, hsocket⟩
    apply drawSourceSequence_does.bind
    intro _ d _ hd
    obtain ⟨s, hinert, rfl⟩ := hd
    have hdrawn := hconnecting.inert hinert
    apply does_current
    split
    · exact rejectNoBackend_does ⟨.inr rfl, rfl, hdrawn.not_relay, .inl rfl⟩
    · apply (startNextUpstreamConnect_does hdrawn).mono
      · intro _ d hd
        exact ⟨hd.phase, hd.consumed, hd.lineBuffer.trans (Config.SamePoint.inert hinert).lineBuffer⟩
      · intro e d hd
        refine ⟨.inr hd.point.phase, hd.point.consumed, ?_, .inr hd.exit⟩
        rw [hd.stage]
        decide

/-- **`begin_upstream_connect`**, which is called with the first line accepted
and no backend chosen. -/
theorem beginUpstreamConnect_does (hc : c.phase = .opening) :
    Does json c beginUpstreamConnect (fun _ => c.Opened) c.Unopened := by
  intro others hsane
  have hunbacked := (hsane.opening_unbacked (.inl hc)).1
  have hsocket : c.session.upstream = none := by
    by_contra hsome
    exact hunbacked (hsane.socket_backed (Option.isSome_iff_ne_none.mpr hsome))
  refine ⟨trivial, fun selection _ => ⟨trivial, fun view _ => ?_⟩⟩
  let d := c.chose (Router.selectBackend view c.session.runtime.routing selection)
  have hmoves : Follows json c d := (Move.route c _ hc).follows
  have hconnect : Does json d (connectBackend selection) (fun _ => c.Opened) c.Unopened := by
    apply (connectBackend_does (c := d) selection rfl hunbacked hsocket).mono
    · exact fun _ _ h => ⟨h.phase, h.consumed, h.lineBuffer⟩
    · exact fun _ _ h => ⟨h.phase, h.consumed, h.stage, h.exit⟩
  exact hconnect.after hmoves hsane

end PoolLb
