import PoolLb.UpstreamConnect

/-!
# What connecting makes of a session

One specification for each of the connect functions: which calls it makes, and which session it
leaves, whatever the answers are.  The later modules ask different things of these functions (what
they leave alone, how the time is shared out, which candidates are tried) in worlds that remember
different things; they all start from here.

The functions up to `adopt_socket` never stop early, and their ends are listed one by one.  The
loop and what stands around it may make many attempts; of these it is said which fields of the
session they write.
-/

namespace PoolLb

open Interaction Handler

namespace ReactorCall

/-- The calls that count an error and give up a socket. -/
def Tidies : ReactorCall → Prop
  | .backendError _ | .count .upstreamConnectErrors _ | .epollDelete _ | .closeSocket _ => True
  | _ => False

/-- The calls that find out how a connect has ended, and make a relay of it. -/
def Finishes : ReactorCall → Prop
  | .socketError _ | .reserveQueuedBytes _ | .count _ _ | .writeRelayStage _ _ _
  | .scheduleTimer _ _ _ | .backendEnter _ _ _ => True
  | c => c.Tidies

/-- The calls with which a new socket is watched and timed. -/
def Adopts : ReactorCall → Prop
  | .now | .epollAdd _ _ _ => True
  | c => c.Finishes

/-- All calls of connecting. -/
def Connects : ReactorCall → Prop
  | .nextRouteSequence | .viewBackends | .nextSourceSequence | .backendAttempt _
  | .startConnect _ _ => True
  | c => c.Adopts

/-- Tidying up is part of finishing. -/
theorem Tidies.finishes {c : ReactorCall} (h : c.Tidies) : c.Finishes := by
  cases c with
  | backendError backend => exact h
  | count counter amount => trivial
  | epollDelete socket => exact h
  | closeSocket socket => exact h
  | _ => exact h.elim

/-- Finishing is part of adopting a socket. -/
theorem Finishes.adopts {c : ReactorCall} (h : c.Finishes) : c.Adopts := by
  cases c with
  | now => trivial
  | epollAdd socket events token => trivial
  | _ => exact h

/-- Adopting a socket is part of connecting. -/
theorem Adopts.connects {c : ReactorCall} (h : c.Adopts) : c.Connects := by
  cases c with
  | nextRouteSequence => trivial
  | viewBackends => trivial
  | nextSourceSequence => trivial
  | backendAttempt backend => trivial
  | startConnect address source => trivial
  | _ => exact h

end ReactorCall

namespace Session

/-- The next timer generation. -/
def bump (s : Session) : Session := { s with timeoutGeneration := s.timeoutGeneration + 1 }

/-- A connecting socket with its share of the time. -/
def adopt (s : Session) (socket now : Nat) : Session :=
  { s with
    upstream := some socket
    upstreamEvents := connectEvents
    deadline := s.attemptDeadline now
    timeoutGeneration := s.timeoutGeneration + 1 }

/-- The header stands before the queue, if the backend asks for it. -/
def headed (s : Session) : Session :=
  { s with
    toUpstream :=
      if s.backend.any Backend.sendProxyV2 then s.toUpstream.prepend s.proxyHeader.view
      else s.toUpstream }

/-- The session is a relay, and counted where it has a backend. -/
def asRelay (s : Session) : Session :=
  { s with
    stage := .relay
    timeoutGeneration := s.timeoutGeneration + 1
    backendCounted := s.backend.isSome || s.backendCounted }

/-- The budget has no room for the header. -/
def crowded (s : Session) : Session := { s with queueLimitExceeded := true }

/-- The ends of `finish_upstream_connect`. -/
inductive Finish (s : Session) : Bool → Session → Prop where
  /-- The socket has an error. -/
  | refused : Finish s false s
  /-- There is no room for the header. -/
  | crowded : Finish s false s.crowded
  | relayed : Finish s true s.headed.asRelay

/-- The ends of `completeConnect`. -/
inductive Settle (s : Session) : Option Bool → Session → Prop where
  /-- The answer is still to come. -/
  | pending : Settle s (some true) s
  | relayed : Settle s (some true) s.headed.asRelay
  | crowded : Settle s (some false) s.crowded
  /-- The socket has an error. -/
  | failed : Settle s none s.dropUpstream

/-- The ends of `adoptSocket`. -/
inductive Adopt (s : Session) : Option Bool → Session → Prop where
  /-- The socket cannot be watched. -/
  | unwatched : Adopt s none { s with upstream := none }
  | settled {result : Option Bool} {s' : Session} (socket now : Nat)
      (h : (s.adopt socket now).Settle result s') : Adopt s result s'

end Session

/-- The function does not stop early. -/
abbrev Completes {α : Type} (P : ReactorCall → Prop) (s : Session) (m : SessionM α)
    (Q : α → Session → Prop) : Prop :=
  Yields P s m Q (fun _ _ => False)

/-! ## The small functions -/

/-- An error is recorded, and the session stays as it is. -/
theorem recordUpstreamError_yields (s : Session) :
    Completes ReactorCall.Tidies s recordUpstreamError (fun _ s' => s' = s) := by
  apply holds_current_bind
  split
  · exact ⟨trivial, fun _ _ => ⟨trivial, fun _ _ => rfl⟩⟩
  · exact ⟨trivial, fun _ _ => rfl⟩

/-- The pool socket is gone, whether there was one or not. -/
theorem discardUpstream_yields (s : Session) :
    Completes ReactorCall.Tidies s discardUpstream (fun _ s' => s' = s.dropUpstream) := by
  apply holds_current_bind
  split
  · exact ⟨trivial, fun _ _ => ⟨trivial, fun _ _ => rfl⟩⟩
  · exact rfl

/-- A timer is set under the next generation. -/
theorem scheduleTimeout_yields (s : Session) :
    Completes ReactorCall.Finishes s scheduleTimeout (fun _ s' => s' = s.bump) :=
  ⟨trivial, fun _ _ => rfl⟩

/-- The deadline of the attempt is a share of the time left, at some reading of the clock. -/
theorem scheduleConnectAttemptTimeout_yields (s : Session) :
    Completes ReactorCall.Adopts s scheduleConnectAttemptTimeout
      (fun _ s' => ∃ now, s' = { s with deadline := s.attemptDeadline now }.bump) :=
  ⟨trivial, fun now _ => ⟨trivial, fun _ _ => ⟨now, rfl⟩⟩⟩

/-- The header is put before the queue, or it does not fit. -/
theorem prependHeader_yields (s : Session) :
    Completes ReactorCall.Finishes s prependHeader
      (fun fits s' => s' = if fits then s.headed else s) := by
  apply holds_current_bind
  split
  · rename_i hsend
    refine ⟨trivial, fun fits _ => ?_⟩
    cases fits with
    | true =>
        show { s with toUpstream := s.toUpstream.prepend s.proxyHeader.view } = s.headed
        unfold Session.headed
        rw [if_pos hsend]
    | false => exact ⟨trivial, fun _ _ => rfl⟩
  · rename_i hplain
    show s = s.headed
    unfold Session.headed
    rw [if_neg hplain]

/-- **The session has become a relay**, and counts at its backend if it has one. -/
theorem enterRelay_yields (s : Session) :
    Completes ReactorCall.Finishes s enterRelay (fun _ s' => s' = s.asRelay) := by
  refine ⟨trivial, fun _ _ => ⟨trivial, fun _ _ => ?_⟩⟩
  unfold Session.asRelay
  cases hbackend : s.backend with
  | some backend =>
      simp only [hbackend]
      exact ⟨trivial, fun _ _ => rfl⟩
  | none =>
      simp only [hbackend]
      exact rfl

/-! ## One attempt -/

/-- **`finish_upstream_connect`.** -/
theorem finishUpstreamConnect_yields (s : Session) :
    Completes ReactorCall.Finishes s finishUpstreamConnect s.Finish := by
  apply holds_current_bind
  refine yields_ask_bind trivial fun failed => ?_
  split
  · exact .refused
  · apply (prependHeader_yields s).bind
    intro fits s₁ h₁
    subst h₁
    cases fits with
    | true =>
        apply (enterRelay_yields s.headed).bind
        intro _ s₂ h₂
        subst h₂
        exact .relayed
    | false => exact .crowded

/-- An attempt that has been answered is settled; a header that has once not fitted is not
tried again. -/
theorem completeConnect_yields (started : ConnectStart) (s : Session) :
    Completes ReactorCall.Finishes s (completeConnect started) s.Settle := by
  unfold completeConnect
  split
  · exact .pending
  · apply (finishUpstreamConnect_yields s).bind
    intro done s₁ h₁
    cases h₁ with
    | relayed => exact .relayed
    | crowded => exact .crowded
    | refused =>
        apply holds_current_bind
        split
        · rename_i hcrowded
          have hsame : s.crowded = s := by
            cases s
            cases hcrowded
            rfl
          have hsettle := Session.Settle.crowded (s := s)
          rw [hsame] at hsettle
          exact hsettle
        · apply ((recordUpstreamError_yields s).among fun _ => ReactorCall.Tidies.finishes).bind
          intro _ s₂ h₂
          subst h₂
          apply ((discardUpstream_yields s₂).among fun _ => ReactorCall.Tidies.finishes).bind
          intro _ s₃ h₃
          subst h₃
          exact .failed

/-- **A socket whose connect has started** is given up again, is waited for, or has become the
relay's. -/
theorem adoptSocket_yields (started : ConnectStart) (s : Session) :
    Completes ReactorCall.Adopts s (adoptSocket started) s.Adopt := by
  refine holds_modify_bind (holds_current_bind (yields_ask_bind trivial fun added => ?_))
  cases added with
  | true =>
      apply holds_modify_bind
      apply (scheduleConnectAttemptTimeout_yields _).bind
      intro _ s₁ h₁
      obtain ⟨now, rfl⟩ := h₁
      apply ((completeConnect_yields started _).among fun _ => ReactorCall.Finishes.adopts).mono
      · exact fun _ _ h => .settled started.socket now h
      · exact fun _ _ h => h
  | false =>
      apply ((recordUpstreamError_yields _).among fun _ h => h.finishes.adopts).bind
      intro _ s₁ h₁
      subst h₁
      exact yields_ask_bind trivial fun _ => .unwatched

/-- **One attempt**: the candidate is spent, and the socket is adopted if there is one. -/
theorem tryCandidate_yields (backend : Backend) (address : SocketAddress)
    (source : Option SocketAddress) (s : Session) :
    Completes ReactorCall.Connects s (tryCandidate backend address source)
      (fun result s' => result = none ∧ s' = s.spendCandidate ∨ s.spendCandidate.Adopt result s') := by
  refine holds_modify_bind (yields_ask_bind trivial fun _ => yields_ask_bind trivial fun started => ?_)
  cases started with
  | none =>
      apply ((recordUpstreamError_yields _).among fun _ h => h.finishes.adopts.connects).bind
      intro _ s₁ h₁
      exact .inl ⟨rfl, h₁⟩
  | some started =>
      apply ((adoptSocket_yields started _).among fun _ => ReactorCall.Adopts.connects).mono
      · exact fun _ _ h => .inr h
      · exact fun _ _ h => h

/-! ## Many attempts -/

namespace Session

/-- Looking for an address moves the cursor, and nothing else. -/
theorem seekAddress_frame (rounds : Nat) (s : Session) :
    ∃ current next remaining here, s.seekAddress rounds = { s with
      currentBackendAddress := current
      nextBackendAddress := next
      backendAddressesRemaining := remaining
      currentAddressSourcesRemaining := here } := by
  induction rounds generalizing s with
  | zero => exact ⟨_, _, _, _, rfl⟩
  | succ rounds ih =>
      unfold seekAddress
      split
      · obtain ⟨current, next, remaining, here, hsought⟩ := ih s.nextAddress
        exact ⟨current, next, remaining, here, hsought⟩
      · exact ⟨_, _, _, _, rfl⟩

/-- At most the source number changes. -/
theorem advanceSource_frame (s : Session) :
    ∃ sequence, s.advanceSource = { s with upstreamSourceSequence := sequence } := by
  unfold advanceSource
  split
  · exact ⟨_, rfl⟩
  · exact ⟨_, rfl⟩

/-- What does not see the cursor does not see the search for an address. -/
theorem seekAddress_view {V : Type} (view : Session → V)
    (hview : ∀ s : Session, ∀ current next remaining here, view { s with
      currentBackendAddress := current
      nextBackendAddress := next
      backendAddressesRemaining := remaining
      currentAddressSourcesRemaining := here } = view s) (rounds : Nat) (s : Session) :
    view (s.seekAddress rounds) = view s := by
  obtain ⟨_, _, _, _, hsought⟩ := seekAddress_frame rounds s
  rw [hsought]
  exact hview s _ _ _ _

/-- So whatever does not look at the source number keeps its value. -/
theorem advanceSource_view {V : Type} (view : Session → V)
    (hview : ∀ s : Session, ∀ sequence, view { s with upstreamSourceSequence := sequence } = view s)
    (s : Session) : view s.advanceSource = view s := by
  obtain ⟨_, hadvanced⟩ := advanceSource_frame s
  rw [hadvanced]
  exact hview s _

end Session

/-- What connecting can make of a session: it writes these fields, and goes to no other stage
than its own two. -/
structure Session.Dialled (s s' : Session) : Prop where
  frame : s' = { s with
    upstream := s'.upstream
    backend := s'.backend
    toUpstream := s'.toUpstream
    stage := s'.stage
    deadline := s'.deadline
    upstreamOverallDeadline := s'.upstreamOverallDeadline
    upstreamEvents := s'.upstreamEvents
    timeoutGeneration := s'.timeoutGeneration
    upstreamSourceSequence := s'.upstreamSourceSequence
    currentBackendAddress := s'.currentBackendAddress
    nextBackendAddress := s'.nextBackendAddress
    backendAddressesRemaining := s'.backendAddressesRemaining
    currentAddressSourcesRemaining := s'.currentAddressSourcesRemaining
    connectCandidatesRemaining := s'.connectCandidatesRemaining
    backendCounted := s'.backendCounted
    queueLimitExceeded := s'.queueLimitExceeded
    upstreamReadPaused := s'.upstreamReadPaused }
  stage : s'.stage = s.stage ∨ s'.stage = .upstreamConnect ∨ s'.stage = .relay

namespace Session

variable {s s' s'' : Session}

theorem Dialled.refl (s : Session) : s.Dialled s := ⟨rfl, .inl rfl⟩

theorem Dialled.trans (h : s.Dialled s') (h' : s'.Dialled s'') : s.Dialled s'' := by
  constructor
  · rw [h'.frame, h.frame]
  · rcases h'.stage with hsame | hown
    · rw [hsame]
      exact h.stage
    · exact .inr hown

/-- Going on to the next address writes the counters only. -/
theorem dialled_seekAddress (rounds : Nat) (s : Session) : s.Dialled (s.seekAddress rounds) := by
  obtain ⟨_, _, _, _, hsought⟩ := seekAddress_frame rounds s
  rw [hsought]
  exact ⟨rfl, .inl rfl⟩

/-- Taking the next source writes its number only. -/
theorem dialled_advanceSource (s : Session) : s.Dialled s.advanceSource := by
  obtain ⟨_, hadvanced⟩ := advanceSource_frame s
  rw [hadvanced]
  exact ⟨rfl, .inl rfl⟩

/-- The end of an attempt is dialling. -/
theorem Finish.dialled {done : Bool} (h : s.Finish done s') : s.Dialled s' := by
  cases h with
  | refused => exact .refl s
  | crowded => exact ⟨rfl, .inl rfl⟩
  | relayed => exact ⟨rfl, .inr (.inr rfl)⟩

/-- So is an attempt that ends at once. -/
theorem Settle.dialled {result : Option Bool} (h : s.Settle result s') : s.Dialled s' := by
  cases h with
  | pending => exact .refl s
  | relayed => exact ⟨rfl, .inr (.inr rfl)⟩
  | crowded => exact ⟨rfl, .inl rfl⟩
  | failed => exact ⟨rfl, .inl rfl⟩

/-- And so is the adoption of its socket. -/
theorem Adopt.dialled {result : Option Bool} (h : s.Adopt result s') : s.Dialled s' := by
  cases h with
  | unwatched => exact ⟨rfl, .inl rfl⟩
  | settled socket now hsettle =>
      have hadopt : s.Dialled (s.adopt socket now) := ⟨rfl, .inl rfl⟩
      exact hadopt.trans hsettle.dialled

/-- An attempt that is under way has its socket. -/
theorem Adopt.isSome_upstream (h : s.Adopt (some true) s') : s'.upstream.isSome := by
  cases h with
  | settled socket now hsettle =>
      cases hsettle with
      | pending => rfl
      | relayed => rfl

end Session

/-- Connecting goes on with a socket, or stops. -/
abbrev Dials (s : Session) (m : SessionM Unit) : Prop :=
  Yields ReactorCall.Connects s m (fun _ s' => s.Dialled s' ∧ s'.upstream.isSome)
    (fun _ s' => s.Dialled s')

/-- Connecting from where connecting has led. -/
theorem Dials.after {s s' : Session} {m : SessionM Unit} (hm : Dials s' m) (h : s.Dialled s') :
    Yields ReactorCall.Connects s' m (fun _ s'' => s.Dialled s'' ∧ s''.upstream.isSome)
      (fun _ s'' => s.Dialled s'') :=
  hm.mono (fun _ _ hend => ⟨h.trans hend.1, hend.2⟩) fun _ _ hend => h.trans hend

/-- **The loop of `start_next_upstream_connect`.** -/
theorem connectRounds_dials (rounds : Nat) (s : Session) : Dials s (connectRounds rounds) := by
  induction rounds generalizing s with
  | zero => exact Session.Dialled.refl s
  | succ rounds ih =>
      refine holds_current_bind (yields_ask_bind trivial fun now => ?_)
      split
      · exact Session.Dialled.refl s
      · refine holds_modify_bind (holds_current_bind ?_)
        have hsought := Session.dialled_seekAddress s.backendAddressesRemaining s
        split
        · exact hsought
        · apply holds_modify_bind
          have hdue := hsought.trans (Session.dialled_advanceSource _)
          generalize (s.seekAddress s.backendAddressesRemaining).advanceSource = due at hdue
          split
          · rename_i address source backend _ _
            apply ((tryCandidate_yields backend address source due).mono (fun _ _ h => h)
              fun _ _ h => h.elim).bind
            intro result s₁ h₁
            have hspent : s.Dialled due.spendCandidate := hdue.trans ⟨rfl, .inl rfl⟩
            rcases h₁ with ⟨hnone, hs₁⟩ | hadopt
            · subst hnone hs₁
              exact (ih _).after hspent
            · have hdone := hspent.trans hadopt.dialled
              cases result with
              | none => exact (ih s₁).after hdone
              | some done =>
                  cases done with
                  | true => exact ⟨hdone, hadopt.isSome_upstream⟩
                  | false => exact hdone
          · exact hdue

/-- `start_next_upstream_connect`, over all candidates. -/
theorem startNextUpstreamConnect_dials (s : Session) : Dials s startNextUpstreamConnect := by
  apply holds_current_bind
  split
  · exact Session.Dialled.refl s
  · exact connectRounds_dials _ s

/-- A source number is drawn, if sources are configured. -/
theorem drawSourceSequence_yields (s : Session) :
    Completes (fun c => c = .nextSourceSequence) s drawSourceSequence
      (fun _ s' => ∃ sequence, s' = { s with upstreamSourceSequence := sequence }) := by
  apply holds_current_bind
  split
  · exact ⟨s.upstreamSourceSequence, rfl⟩
  · exact ⟨rfl, fun sequence _ => ⟨sequence, rfl⟩⟩

/-- Once the backend is chosen: the stage is opened and its candidates are dialled. -/
theorem connectBackend_dials (selection : Nat) (s : Session) : Dials s (connectBackend selection) := by
  have hreject : ∀ s' : Session, s.Dialled s' → Yields ReactorCall.Connects s' rejectNoBackend
      (fun _ s'' => s.Dialled s'' ∧ s''.upstream.isSome) (fun _ s'' => s.Dialled s'') :=
    fun s' h => ⟨trivial, fun _ _ => h⟩
  apply holds_current_bind
  split
  · exact hreject s (.refl s)
  · refine yields_ask_bind trivial fun now => holds_modify_bind ?_
    have hcalls : ∀ c : ReactorCall, c = .nextSourceSequence → c.Connects := by
      intro c hc
      subst hc
      trivial
    apply (((drawSourceSequence_yields _).among hcalls).mono (fun _ _ h => h)
      fun _ _ h => h.elim).bind
    intro _ s₁ h₁
    obtain ⟨sequence, rfl⟩ := h₁
    have hopened : s.Dialled
        { s.openConnect selection now with upstreamSourceSequence := sequence } :=
      ⟨rfl, .inr (.inl rfl)⟩
    apply holds_current_bind
    split
    · exact hreject _ hopened
    · exact (startNextUpstreamConnect_dials _).after hopened

/-- **`begin_upstream_connect`.** -/
theorem beginUpstreamConnect_dials (s : Session) : Dials s beginUpstreamConnect := by
  refine yields_ask_bind trivial fun selection => yields_ask_bind trivial fun view => ?_
  apply holds_modify_bind
  have hchosen : s.Dialled
      { s with backend := Router.selectBackend view s.runtime.routing selection } :=
    ⟨rfl, .inl rfl⟩
  exact (connectBackend_dials selection _).after hchosen

end PoolLb
