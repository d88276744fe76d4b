import PoolLb.BackendChoice
import PoolLb.CarriedOver
import PoolLb.ConnectRun
import PoolLb.Scenario

/-!
# Every candidate once

A session takes its route number with its first line and makes its attempts from then on,
in the reaction to that line and in later ones to the failure or the expiry of an attempt.
The counters it keeps in between never lose or repeat a candidate.
-/

namespace PoolLb.Dial

open Interaction Handler

variable {s s₀ : Session} {w w₀ : Record} {route : Nat}

/-- No route number was taken yet. -/
structure Unrouted (s : Session) (w : Record) : Prop where
  route : w.route = none
  attempts : w.attempts = []
  blank : s.currentAddressSourcesRemaining = 0 ∧ s.backendAddressesRemaining = 0 ∧
    s.connectCandidatesRemaining = 0
  stage : s.stage = .firstMessage ∨ s.stage = .tlsHandshake
  received : s.protocolState.receivedMessage = false

/-- The attempts so far and those that are left are the plan of the route. -/
structure OnRoute (route : Nat) (s : Session) (w : Record) : Prop where
  sound : Sound s
  taken : w.route = some route
  whole : w.attempts ++ left s = plan s.sources s.backendAddresses route w.source
  sequence : s.sources ≠ [] → s.backendAddresses ≠ [] →
    s.upstreamSourceSequence = w.source + w.attempts.length
  received : s.protocolState.receivedMessage = true
  chosen : ∀ backend, s.backend = some backend → backend ∈ s.runtime.routing.backends

/-- Attempts that were made in between are on the plan. -/
theorem Progress.onRoute (h : Progress s₀ w₀ s w) (h₀ : OnRoute route s₀ w₀) : OnRoute route s w := by
  have hsources := h.fixed.sources
  have haddresses := h.fixed.backendAddresses
  refine ⟨h.sound, h.numbers.1.trans h₀.taken, ?_, fun hsome hbackend => ?_,
    h.received.trans h₀.received, ?_⟩
  · rw [hsources, haddresses, h.numbers.2, h.whole]
    exact h₀.whole
  · rw [hsources] at hsome
    have hstart := h₀.sequence hsome (haddresses ▸ hbackend)
    have hstep := h.sequence hsome
    rw [h.numbers.2]
    omega
  · rw [h.fixed.backend, h.fixed.runtime]
    exact h₀.chosen

/-- What a session is like between any two of its steps. -/
def Dialling (s : Session) (w : Record) : Prop :=
  Unrouted s w ∨ ∃ route, OnRoute route s w ∧ Going s

/-- Why a session is given up. -/
structure Reason (e : Exit) (s : Session) (w : Record) : Prop where
  exhausted : e = .connectFailed →
    s.connectCandidatesRemaining = 0 ∨ s.upstreamOverallDeadline ≤ w.clock
  barren : e = .noBackend → pairs s.sources s.backendAddresses = []
  expired : e = .timedOut → s.stage = .upstreamConnect → s.upstreamOverallDeadline ≤ w.clock

/-- What a session is like where a reaction has ended it. -/
def Ended (e : Exit) (s : Session) (w : Record) : Prop :=
  Unrouted s w ∨ ∃ route, OnRoute route s w ∧ Reason e s w

/-- An exit of another kind says nothing about the candidates. -/
theorem reason_of_other {e : Exit} (h : e.OfTraffic ∨ e = .tlsFailed ∨ e = .interestFailed) :
    Reason e s w := by
  constructor
  · intro he
    subst he
    simp [Exit.OfTraffic] at h
  · intro he
    subst he
    simp [Exit.OfTraffic] at h
  · intro he
    subst he
    simp [Exit.OfTraffic] at h

theorem Dialling.ended {e : Exit} (h : Dialling s w)
    (he : e.OfTraffic ∨ e = .tlsFailed ∨ e = .interestFailed) : Ended e s w := by
  rcases h with hunrouted | ⟨route, honroute, _⟩
  · exact .inl hunrouted
  · exact .inr ⟨route, honroute, reason_of_other he⟩

/-! ## What keeps the course -/

theorem Unrouted.kept (h : Unrouted s₀ w₀) (hkept : Kept s₀ w₀ s w) (hstage : s.stage = s₀.stage) :
    Unrouted s w := by
  obtain ⟨_, hw⟩ := hkept.later
  have hcursor := hkept.cursor
  refine ⟨?_, ?_, ⟨?_, ?_, ?_⟩, hstage ▸ h.stage, hkept.received.trans h.received⟩
  · rw [hw]
    exact h.route
  · rw [hw]
    exact h.attempts
  · exact (congrArg Cursor.currentAddressSourcesRemaining hcursor).trans h.blank.1
  · exact (congrArg Cursor.backendAddressesRemaining hcursor).trans h.blank.2.1
  · exact (congrArg Cursor.connectCandidatesRemaining hcursor).trans h.blank.2.2

theorem Unrouted.still (h : Unrouted s₀ w₀) (hstill : Still s₀ w₀ s w) : Unrouted s w :=
  h.kept hstill.kept hstill.stage

theorem OnRoute.kept (h : OnRoute route s₀ w₀) (hkept : Kept s₀ w₀ s w) : OnRoute route s w :=
  (hkept.progress h.sound).onRoute h

theorem Going.still (h : Going s₀) (hstill : Still s₀ w₀ s w) : Going s := by
  unfold Going
  rw [hstill.stage, hstill.upstream]
  exact h

theorem Dialling.still (h : Dialling s₀ w₀) (hstill : Still s₀ w₀ s w) : Dialling s w := by
  rcases h with hunrouted | ⟨route, honroute, hgoing⟩
  · exact .inl (hunrouted.still hstill)
  · exact .inr ⟨route, honroute.kept hstill.kept, hgoing.still hstill⟩

theorem Reason.still {e : Exit} (h : Reason e s₀ w₀) (hstill : Still s₀ w₀ s w) : Reason e s w := by
  have hcursor := hstill.kept.cursor
  have hcandidates : s.connectCandidatesRemaining = s₀.connectCandidatesRemaining :=
    congrArg Cursor.connectCandidatesRemaining hcursor
  have hdeadline : s.upstreamOverallDeadline = s₀.upstreamOverallDeadline :=
    congrArg Cursor.upstreamOverallDeadline hcursor
  obtain ⟨haddresses, hsources⟩ := addresses_congr hcursor
  have hclock := hstill.2.1
  constructor
  · intro he
    rw [hcandidates, hdeadline]
    exact (h.exhausted he).imp_right fun hpassed => hpassed.trans hclock
  · intro he
    rw [haddresses, hsources]
    exact h.barren he
  · intro he hstage
    rw [hdeadline]
    exact (h.expired he (hstill.stage ▸ hstage)).trans hclock

theorem Ended.still {e : Exit} (h : Ended e s₀ w₀) (hstill : Still s₀ w₀ s w) : Ended e s w := by
  rcases h with hunrouted | ⟨route, honroute, hreason⟩
  · exact .inl (hunrouted.still hstill)
  · exact .inr ⟨route, honroute.kept hstill.kept, hreason.still hstill⟩

/-- The course is a part of the standing. -/
theorem course_of_standing (h : s.standing = s₀.standing) : course s = course s₀ := by
  have hcourse : ∀ s : Session, course s =
      { cursor :=
          { backend := s.standing.backend
            runtime := s.standing.runtime
            upstreamOverallDeadline := s.standing.upstreamOverallDeadline
            upstreamSourceSequence := s.standing.upstreamSourceSequence
            currentBackendAddress := s.standing.currentBackendAddress
            nextBackendAddress := s.standing.nextBackendAddress
            backendAddressesRemaining := s.standing.backendAddressesRemaining
            currentAddressSourcesRemaining := s.standing.currentAddressSourcesRemaining
            connectCandidatesRemaining := s.standing.connectCandidatesRemaining }
        receivedMessage := s.standing.receivedMessage
        stage := s.standing.stage
        upstream := s.standing.upstream } := fun _ => rfl
  rw [hcourse s, hcourse s₀, h]

/-! ## Connecting -/

/-- **`start_next_upstream_connect`.** -/
theorem startNextUpstreamConnect_holds (h : OnRoute route s w) (hstage : s.stage = .upstreamConnect) :
    Holds dialling s w startNextUpstreamConnect
      (fun _ s' w' => OnRoute route s' w' ∧ Going s') Ended := by
  apply holds_current_bind
  split
  · rename_i hnone
    refine .inr ⟨route, h, fun _ => .inl ?_, fun he => (nomatch he), fun he => (nomatch he)⟩
    have hwhole := congrArg List.length h.whole
    rw [hnone, List.length_append, ← h.sound.remaining] at hwhole
    have hplan : (plan s.sources [] route w.source).length = 0 := by
      rw [(plan_perm _ _ _ _).length_eq]
      rfl
    omega
  · rename_i hsome
    have hbackend : s.backend.isSome := by
      by_contra hno
      rw [Option.not_isSome_iff_eq_none] at hno
      apply hsome
      unfold Session.backendAddresses
      rw [hno]
    apply (connectRounds_holds h.sound (le_refl _) hstage hbackend).mono
    · exact fun _ _ _ hend => ⟨hend.1.onRoute h, hend.2⟩
    · intro e s' w' hend
      refine .inr ⟨route, hend.progress.onRoute h, ?_⟩
      rcases hend.exit with ⟨he, hover⟩ | he
      · subst he
        exact ⟨fun _ => hover, fun he => (nomatch he), fun he => (nomatch he)⟩
      · subst he
        exact reason_of_other (.inl trivial)

/-- The session has its counters for the route. -/
theorem onRoute_of_opened (hreceived : s.protocolState.receivedMessage = true)
    (hchosen : ∀ backend, s.backend = some backend → backend ∈ s.runtime.routing.backends)
    (hnone : s.currentAddressSourcesRemaining = 0)
    (hnext : s.nextBackendAddress = route % s.backendAddresses.length)
    (hcount : s.backendAddressesRemaining = s.backendAddresses.length)
    (hall : s.connectCandidatesRemaining = s.allCandidates)
    (hroute : w.route = some route) (hattempts : w.attempts = [])
    (hsource : s.sources ≠ [] → s.upstreamSourceSequence = w.source) : OnRoute route s w := by
  obtain ⟨hleft, hsound⟩ := left_of_opened hnone hnext hcount hall
  refine ⟨hsound, hroute, ?_, fun hsome _ => ?_, hreceived, hchosen⟩
  · rw [hattempts, hleft, List.nil_append]
    by_cases hplain : s.sources = []
    · unfold plan
      rw [hplain]
      exact planFrom_plain _ _ _
    · rw [hsource hplain]
  · rw [hattempts, hsource hsome]
    rfl

/-- A session without an address to try has nothing to do. -/
theorem onRoute_of_blank (hreceived : s.protocolState.receivedMessage = true)
    (hchosen : ∀ backend, s.backend = some backend → backend ∈ s.runtime.routing.backends)
    (hblank : s.currentAddressSourcesRemaining = 0 ∧ s.backendAddressesRemaining = 0 ∧
      s.connectCandidatesRemaining = 0)
    (hroute : w.route = some route) (hattempts : w.attempts = [])
    (hempty : s.backendAddresses = []) : OnRoute route s w := by
  obtain ⟨hleft, hsound⟩ := sound_of_blank hblank.1 hblank.2.1 hblank.2.2
  refine ⟨hsound, hroute, ?_, fun _ hsome => absurd hempty hsome, hreceived, hchosen⟩
  have hplan := plan_perm s.sources s.backendAddresses route w.source
  rw [hempty] at hplan ⊢
  rw [hattempts, hleft, hplan.eq_nil]
  rfl

/-- A session that finds nothing to try. -/
theorem rejectNoBackend_holds {Q : Unit → Session → Record → Prop} (h : OnRoute route s w)
    (hbarren : pairs s.sources s.backendAddresses = []) :
    Holds dialling s w rejectNoBackend Q Ended := by
  have hstill : Still s w s w := ⟨rfl, .refl w⟩
  refine still_query_bind trivial hstill fun _ s₁ w₁ h₁ => ?_
  refine .inr ⟨route, h.kept h₁.kept, fun he => (nomatch he), fun _ => ?_, fun he => (nomatch he)⟩
  obtain ⟨haddresses, hsources⟩ := addresses_congr h₁.kept.cursor
  rw [haddresses, hsources]
  exact hbarren

/-- A source number is drawn where there are sources. -/
theorem drawSourceSequence_holds {E : Exit → Session → Record → Prop} :
    Holds dialling s w drawSourceSequence
      (fun _ s' w' => ∃ number, s' = { s with upstreamSourceSequence := number } ∧
        w'.route = w.route ∧ w'.attempts = w.attempts ∧ (s.sources ≠ [] → number = w'.source)) E := by
  apply holds_current_bind
  split
  · rename_i hnone
    exact ⟨s.upstreamSourceSequence, rfl, rfl, rfl, fun hsome => absurd hnone hsome⟩
  · refine holds_ask_bind trivial fun (number : Nat) _ => ?_
    exact ⟨number, rfl, rfl, rfl, fun _ => rfl⟩

/-- `begin_upstream_connect` once the backend is selected. -/
theorem connectBackend_holds (hroute : w.route = some route) (hattempts : w.attempts = [])
    (hreceived : s.protocolState.receivedMessage = true)
    (hchosen : ∀ backend, s.backend = some backend → backend ∈ s.runtime.routing.backends)
    (hblank : s.currentAddressSourcesRemaining = 0 ∧ s.backendAddressesRemaining = 0 ∧
      s.connectCandidatesRemaining = 0) :
    Holds dialling s w (connectBackend route)
      (fun _ s' w' => OnRoute route s' w' ∧ Going s') Ended := by
  apply holds_current_bind
  split
  · rename_i hnone
    have hempty : s.backendAddresses = [] := by
      rcases hnone with hno | hno
      · unfold Session.backendAddresses
        rw [Option.isNone_iff_eq_none.mp hno]
      · exact hno
    refine rejectNoBackend_holds (onRoute_of_blank hreceived hchosen hblank hroute hattempts hempty) ?_
    rw [hempty]
    rfl
  · refine holds_ask_bind trivial fun (time : Nat) _ => ?_
    apply holds_modify_bind
    apply drawSourceSequence_holds.bind
    intro _ s₁ w₁ h₁
    obtain ⟨number, hs₁, hroute₁, hattempts₁, hnumber⟩ := h₁
    have honroute : OnRoute route s₁ w₁ := by
      subst hs₁
      exact onRoute_of_opened hreceived hchosen rfl rfl rfl rfl (hroute₁.trans hroute)
        (hattempts₁.trans hattempts) hnumber
    apply holds_current_bind
    split
    · rename_i hzero
      refine rejectNoBackend_holds honroute (List.length_eq_zero_iff.mp ?_)
      subst hs₁
      rw [← allCandidates_eq]
      exact hzero
    · apply startNextUpstreamConnect_holds honroute
      subst hs₁
      rfl

/-- **`begin_upstream_connect`.** -/
theorem beginUpstreamConnect_holds (hattempts : w.attempts = [])
    (hreceived : s.protocolState.receivedMessage = true)
    (hblank : s.currentAddressSourcesRemaining = 0 ∧ s.backendAddressesRemaining = 0 ∧
      s.connectCandidatesRemaining = 0) :
    Holds dialling s w beginUpstreamConnect
      (fun _ s' w' => ∃ route, OnRoute route s' w' ∧ Going s') Ended := by
  refine holds_ask_bind trivial fun (route : Nat) _ => ?_
  refine holds_ask_bind trivial fun view _ => ?_
  apply holds_modify_bind
  have hconnect : Holds dialling
      { s with backend := Router.selectBackend view s.runtime.routing route }
      { w with route := some route } (connectBackend route)
      (fun _ s' w' => OnRoute route s' w' ∧ Going s') Ended :=
    connectBackend_holds rfl hattempts hreceived (fun _ => Router.mem_of_selectBackend) hblank
  exact hconnect.mono (fun _ _ _ hend => ⟨route, hend⟩) fun _ _ _ hend => hend

/-! ## The reactions -/

/-- The handshake comes before the route. -/
theorem driveTlsHandshake_holds (h : Unrouted s w) :
    Holds dialling s w driveTlsHandshake (fun _ => Dialling) Ended := by
  have hstill : Still s w s w := ⟨rfl, .refl w⟩
  apply holds_current_bind
  refine still_query_bind trivial hstill fun answer s₁ w₁ h₁ => ?_
  have hunrouted := h.still h₁
  cases answer with
  | done =>
      refine still_query_bind trivial h₁ fun now s₂ w₂ h₂ => ?_
      apply holds_modify_bind
      have hgreeted : Unrouted { s₂.clearTls with
          stage := .firstMessage
          deadline := afterSeconds now s₂.limits.firstMessageTimeoutSeconds } w₂ := by
        have hnext := h.still h₂
        exact ⟨hnext.route, hnext.attempts, hnext.blank, .inl rfl, hnext.received⟩
      refine still_query_bind trivial ⟨rfl, .refl w₂⟩ fun _ s₃ w₃ h₃ => ?_
      refine still_query_bind trivial h₃ fun _ s₄ w₄ h₄ => ?_
      exact scheduleTimeout_holds.mono
        (fun _ _ _ hend => .inl ((hgreeted.still h₄).still hend)) fun _ _ _ hend => hend
  | wantRead => exact .inl (hunrouted.still ⟨rfl, .refl _⟩)
  | wantWrite => exact .inl (hunrouted.still ⟨rfl, .refl _⟩)
  | interrupted =>
      apply holds_modify.mpr
      refine .inl (hunrouted.still ⟨?_, .refl _⟩)
      split
      · rfl
      · rfl
  | failed =>
      refine still_query_bind trivial h₁ fun _ s₂ w₂ h₂ => ?_
      exact .inl (h.still h₂)

/-- A failed attempt is followed by the next, or by none. -/
theorem next_after_failure (h : OnRoute route s₀ w₀) (hstage : s₀.stage = .upstreamConnect)
    (hkept : Kept s₀ w₀ s w) (hsame : s.stage = s₀.stage) :
    Holds dialling s w startNextUpstreamConnect (fun _ => Dialling) Ended :=
  (startNextUpstreamConnect_holds (h.kept hkept) (hsame.trans hstage)).mono
    (fun _ _ _ hend => .inr ⟨route, hend⟩) fun _ _ _ hend => hend

/-- **An attempt that failed**: the next one, or a good reason for none. -/
theorem retryUpstreamConnect_holds (h : OnRoute route s w) (hstage : s.stage = .upstreamConnect) :
    Holds dialling s w retryUpstreamConnect (fun _ => Dialling) Ended := by
  apply holds_current_bind
  split
  · exact .inr ⟨route, h, reason_of_other (.inl trivial)⟩
  · refine give_up_bind fun _ s₁ w₁ h₁ hsame _ => ?_
    refine holds_ask_bind trivial fun (time : Nat) (htime : w₁.clock ≤ time) => ?_
    have haged : Kept s w s₁ (w₁.aged time) :=
      ⟨h₁.cursor, h₁.received, h₁.later.trans ⟨htime, rfl⟩⟩
    split
    · exact next_after_failure h hstage haged hsame
    · rename_i hlate
      have hdeadline : s₁.upstreamOverallDeadline = s.upstreamOverallDeadline :=
        congrArg Cursor.upstreamOverallDeadline h₁.cursor
      have hover : s₁.upstreamOverallDeadline ≤ time := hdeadline ▸ Nat.not_lt.mp hlate
      exact .inr ⟨route, h.kept haged, fun _ => .inr hover, fun he => (nomatch he),
        fun he => (nomatch he)⟩

/-- **The reactions to sockets keep the course of a session.** -/
theorem dialling_law : Law dialling Later Dialling Ended where
  refl := Later.refl
  trans _ _ _ := Later.trans
  traffic w c hc := later_of_besides w c (besides_of_traffic hc)
  kept _ _ _ _ h hstanding hlater := h.still ⟨course_of_standing hstanding, hlater⟩
  ended _ _ _ _ _ h hstanding hlater := h.still ⟨course_of_standing hstanding, hlater⟩
  leaves _ _ _ he h := h.ended (.inl he)
  begins s s' w h hsilent _ hstanding := by
    rcases h with hunrouted | ⟨route, honroute, _⟩
    · have hblank : s'.currentAddressSourcesRemaining = 0 ∧ s'.backendAddressesRemaining = 0 ∧
          s'.connectCandidatesRemaining = 0 :=
        ⟨(congrArg Standing.currentAddressSourcesRemaining hstanding).trans hunrouted.blank.1,
          (congrArg Standing.backendAddressesRemaining hstanding).trans hunrouted.blank.2.1,
          (congrArg Standing.connectCandidatesRemaining hstanding).trans hunrouted.blank.2.2⟩
      have hreceived : s'.protocolState.receivedMessage = true :=
        congrArg Standing.receivedMessage hstanding
      apply (beginUpstreamConnect_holds hunrouted.attempts hreceived hblank).mono
      · intro _ s'' w' hend
        obtain ⟨route, honroute, hgoing⟩ := hend
        refine ⟨.inr ⟨route, honroute, hgoing⟩, fun hstage => ?_⟩
        rcases hgoing with hrelay | ⟨hconnect, _⟩
        · rw [hstage] at hrelay
          cases hrelay
        · rw [hstage] at hconnect
          cases hconnect
      · exact fun _ _ _ hend => hend
    · rw [honroute.received] at hsilent
      cases hsilent
  greets s w h hstage := by
    rcases h with hunrouted | ⟨route, _, hgoing⟩
    · exact driveTlsHandshake_holds hunrouted
    · rcases hgoing with hrelay | ⟨hconnect, _⟩
      · rw [hstage] at hrelay
        cases hrelay
      · rw [hstage] at hconnect
        cases hconnect
  finishes s w h hstage := by
    rcases h with hunrouted | ⟨route, honroute, _⟩
    · rcases hunrouted.stage with hfirst | hfirst
      · rw [hstage] at hfirst
        cases hfirst
      · rw [hstage] at hfirst
        cases hfirst
    · apply finishUpstreamConnect_holds.mono
      · intro done s' w' hend
        cases done with
        | true =>
            refine ⟨.inr ⟨route, honroute.kept hend.1, .inl hend.2⟩, ?_⟩
            rw [hend.2]
            decide
        | false =>
            have hend : Still s w s' w' := hend
            exact retryUpstreamConnect_holds (honroute.kept hend.kept) (hend.stage.trans hstage)
      · exact fun _ _ _ hend => hend
  discards s w h hstage := by
    apply discardUpstream_holds.mono
    · intro _ s' w' hend
      obtain ⟨hkept, hsame, _⟩ := hend
      rcases h with hunrouted | ⟨route, honroute, hgoing⟩
      · exact .inl (hunrouted.kept hkept hsame)
      · rcases hgoing with hrelay | ⟨hconnect, _⟩
        · exact .inr ⟨route, honroute.kept hkept, .inl (hsame.trans hrelay)⟩
        · exact absurd hconnect hstage
    · exact fun _ _ _ hend => hend

/-- **The expiry of a timer** keeps the course of a session. -/
theorem expireSession_holds {now : Nat} (h : Dialling s w) (hnow : now ≤ w.clock) :
    Holds dialling s w (expireSession now) (fun _ => Dialling) Ended := by
  have hstill : Still s w s w := ⟨rfl, .refl w⟩
  apply holds_current_bind
  split
  · exact holds_ask.mpr ⟨trivial, fun _ _ => h⟩
  · split
    · rename_i hstage
      rcases h with hunrouted | ⟨route, honroute, _⟩
      · rcases hunrouted.stage with hfirst | hfirst
        · rw [hstage] at hfirst
          cases hfirst
        · rw [hstage] at hfirst
          cases hfirst
      · refine give_up_bind fun _ s₁ w₁ h₁ hsame _ => ?_
        split
        · rename_i hover
          have hdeadline : s₁.upstreamOverallDeadline = s.upstreamOverallDeadline :=
            congrArg Cursor.upstreamOverallDeadline h₁.cursor
          refine .inr ⟨route, honroute.kept h₁, fun he => (nomatch he), fun he => (nomatch he),
            fun _ _ => ?_⟩
          rw [hdeadline]
          exact hover.trans (hnow.trans h₁.later.1)
        · exact next_after_failure honroute hstage h₁ hsame
    · rename_i hstage
      have hends : ∀ s' w', Still s w s' w' → Ended .timedOut s' w' := by
        intro s' w' hend
        rcases h.still hend with hunrouted | ⟨route, honroute, _⟩
        · exact .inl hunrouted
        · refine .inr ⟨route, honroute, fun he => (nomatch he), fun he => (nomatch he), fun _ hat => ?_⟩
          exact absurd (hend.stage ▸ hat) hstage
      split
      · exact still_query_bind trivial hstill fun _ s' w' hend => hends s' w' hend
      · exact hends s w hstill

/-- `update_interests`. -/
theorem updateInterests_holds (h : Dialling s w) :
    Holds dialling s w updateInterests (fun _ => Dialling) Ended := by
  apply (dialling_law.carries_self refreshReadPause_forwards.carries h).bind
  intro _ s₁ w₁ h₁
  have hkeeps : Framed besides course (fun _ => True) (fun e => e = Exit.interestFailed)
      (armClient >>= fun _ => armUpstream) :=
    armSockets_rearms.keeps (fun _ _ _ => trivial) (fun _ => rfl) rfl
  apply (hkeeps.holds trivial Later.refl (fun _ _ _ => Later.trans) later_of_besides).mono
  · exact fun _ _ _ hend => h₁.1.still hend
  · intro _ s₂ w₂ hend
    exact (h₁.1.still hend.2).ended (.inr (.inr hend.1))

/-- The time at which an event is looked at was read before. -/
def Timely (event : SessionEvent) (w : Record) : Prop :=
  match event with
  | .timeout now => now ≤ w.clock
  | _ => True

/-- **Every reaction keeps the course of a session.** -/
theorem handle_holds {json : Glaze} {event : SessionEvent} (h : Dialling s w)
    (htimely : Timely event w) :
    Holds dialling s w (Session.handle json event) (fun _ => Dialling) Ended := by
  cases event with
  | client events =>
      exact (dialling_law.clientReady events h).bind fun _ _ _ hend => updateInterests_holds hend
  | upstream events =>
      exact (dialling_law.upstreamReady events h).bind fun _ _ _ hend => updateInterests_holds hend
  | timeout now => exact expireSession_holds h htimely

/-! ## The whole life -/

/-- The states of a session and the record: between two reactions, or where one of them has
ended it. -/
inductive Life (json : Glaze) : Option Exit → Session → Record → Prop where
  | accepted {s : Session} {w : Record} (hs : s.Fresh) (hroute : w.route = none)
      (hattempts : w.attempts = []) : Life json none s w
  | meanwhile {s : Session} {w : Record} {time : Nat} (h : Life json none s w)
      (htime : w.clock ≤ time) : Life json none s (w.aged time)
  | handled {s s' : Session} {w w' : Record} (event : SessionEvent) (h : Life json none s w)
      (htimely : Timely event w)
      (hrun : Runs dialling w (Session.handle json event s) (.ok (), s') w') : Life json none s' w'
  | ended {s s' : Session} {w w' : Record} {e : Exit} (event : SessionEvent)
      (h : Life json none s w) (htimely : Timely event w)
      (hrun : Runs dialling w (Session.handle json event s) (.error e, s') w') :
      Life json (some e) s' w'

theorem Life.dialling {json : Glaze} {result : Option Exit} (h : Life json result s w) :
    (result = none → Dialling s w) ∧ ∀ e, result = some e → Ended e s w := by
  induction h with
  | accepted hs hroute hattempts =>
      refine ⟨fun _ => .inl ⟨hroute, hattempts, ?_, hs.blank.stage, ?_⟩, fun _ he => nomatch he⟩
      · obtain ⟨id, client, runtime, header, lease, now, rfl | rfl⟩ := hs
        · exact ⟨rfl, rfl, rfl⟩
        · exact ⟨rfl, rfl, rfl⟩
      · rw [hs.blank.protocolState]
  | meanwhile _ htime ih =>
      exact ⟨fun _ => (ih.1 rfl).still ⟨rfl, htime, rfl⟩, fun _ he => nomatch he⟩
  | handled event _ htimely hrun ih =>
      exact ⟨fun _ => (handle_holds (ih.1 rfl) htimely).sound hrun, fun _ he => nomatch he⟩
  | ended event _ htimely hrun ih =>
      refine ⟨fun he => (nomatch he), fun e he => ?_⟩
      cases he
      exact (handle_holds (ih.1 rfl) htimely).sound hrun

/-- Once the route number is taken, a session is on its route for good. -/
theorem Life.onRoute {json : Glaze} {result : Option Exit} (h : Life json result s w)
    (hroute : w.route = some route) :
    OnRoute route s w ∧ (result = none → Going s) ∧ ∀ e, result = some e → Reason e s w := by
  obtain ⟨halive, hended⟩ := h.dialling
  cases result with
  | none =>
      rcases halive rfl with hunrouted | ⟨other, honroute, hgoing⟩
      · rw [hunrouted.route] at hroute
        cases hroute
      · have hsame : other = route := Option.some.inj (honroute.taken.symm.trans hroute)
        subst hsame
        exact ⟨honroute, fun _ => hgoing, fun _ he => nomatch he⟩
  | some e =>
      rcases hended e rfl with hunrouted | ⟨other, honroute, hreason⟩
      · rw [hunrouted.route] at hroute
        cases hroute
      · have hsame : other = route := Option.some.inj (honroute.taken.symm.trans hroute)
        subst hsame
        refine ⟨honroute, fun he => (nomatch he), fun e' he => ?_⟩
        cases he
        exact hreason

/-- A backend of a table that was built has a candidate if it has an address. -/
theorem addresses_of_barren {numericKey : String → Option Bytes} {heap : BackendHeap}
    (htable : Router.Built numericKey s.runtime.routing heap)
    (hchosen : ∀ backend, s.backend = some backend → backend ∈ s.runtime.routing.backends)
    (hbarren : pairs s.sources s.backendAddresses = []) : s.backendAddresses = [] := by
  cases hbackend : s.backend with
  | none =>
      unfold Session.backendAddresses
      rw [hbackend]
  | some backend =>
      have haddresses : s.backendAddresses = backend.socketAddresses := by
        unfold Session.backendAddresses
        rw [hbackend]
      have hnone : ∀ address ∈ s.backendAddresses, choices s.sources address.family = [] := by
        intro address hmem
        exact List.map_eq_nil_iff.mp (List.flatMap_eq_nil_iff.mp hbarren address hmem)
      by_cases hplain : s.sources = []
      · refine List.eq_nil_iff_forall_not_mem.mpr fun address hmem => ?_
        have hchoices := hnone address hmem
        rw [hplain] at hchoices
        cases hchoices
      · -- the table has a source of the family of one of the addresses
        have hcompatible := htable.compatible backend (hchosen backend hbackend) hplain
        obtain ⟨destination, hdestination, hsource⟩ := List.any_eq_true.mp hcompatible
        obtain ⟨source, hmem, hfamily⟩ := List.any_eq_true.mp hsource
        have hchoices := hnone destination (haddresses ▸ hdestination)
        unfold choices at hchoices
        rw [if_neg hplain, List.map_eq_nil_iff, List.filter_eq_nil_iff] at hchoices
        exact absurd hfamily (hchoices source hmem)

/-- **Connect candidates are enumerated exactly once.**  Over the whole life of a session the
attempts that were made, and then those that its counters describe, are the plan of its
route: every pair of an address and a source of its family once, address by address from
that of the route number on.  The counters add up.  While the session lives an attempt is
under way or has succeeded; it is given up by itself only with nothing left to try or too
late, and it finds nothing to try at all only if there is no address. -/
theorem connect_candidates_enumerated {numericKey : String → Option Bytes} {heap : BackendHeap}
    {json : Glaze} {result : Option Exit} (h : Life json result s w) (hroute : w.route = some route)
    (htable : Router.Built numericKey s.runtime.routing heap) :
    ∃ rest, w.attempts ++ rest = plan s.sources s.backendAddresses route w.source ∧
      (plan s.sources s.backendAddresses route w.source).Perm (pairs s.sources s.backendAddresses) ∧
      (∀ address source, (address, some source) ∈ w.attempts ++ rest →
        source ∈ s.sources ∧ source.family = address.family) ∧
      s.connectCandidatesRemaining = rest.length ∧
      s.connectCandidatesRemaining =
        s.currentAddressSourcesRemaining + (pairs s.sources (upcoming s)).length ∧
      (s.sources ≠ [] → s.backendAddresses ≠ [] →
        s.upstreamSourceSequence = w.source + w.attempts.length) ∧
      (result = none → s.stage = .relay ∨ s.stage = .upstreamConnect ∧ s.upstream.isSome) ∧
      (result = some .connectFailed → rest = [] ∨ s.upstreamOverallDeadline ≤ w.clock) ∧
      (result = some .timedOut → s.stage = .upstreamConnect → s.upstreamOverallDeadline ≤ w.clock) ∧
      (result = some .noBackend → s.backendAddresses = []) := by
  obtain ⟨honroute, hgoing, hreason⟩ := h.onRoute hroute
  have hperm := plan_perm s.sources s.backendAddresses route w.source
  refine ⟨left s, honroute.whole, hperm, fun address source hmem => ?_, honroute.sound.remaining,
    length_left honroute.sound, honroute.sequence, hgoing, fun hfailed => ?_, fun hlate => ?_,
    fun hbarren => ?_⟩
  · rw [honroute.whole] at hmem
    exact family_of_mem_pairs (hperm.mem_iff.mp hmem)
  · refine ((hreason _ hfailed).exhausted rfl).imp_left fun hzero => ?_
    rw [honroute.sound.remaining] at hzero
    exact List.length_eq_zero_iff.mp hzero
  · exact (hreason _ hlate).expired rfl
  · exact addresses_of_barren htable honroute.chosen ((hreason _ hbarren).barren rfl)

/-! ## Three refusals, computed -/

/-- An IPv6 address that ends in a byte. -/
def sampleInfo6 (last : UInt8) : AddrInfo :=
  ⟨.inet6, [10, 0, 13, 5, 0, 0, 0, 0, 253] ++ List.replicate 14 0 ++ [last, 0, 0, 0, 0]⟩

/-- An entry that was kept. -/
def kept (entry : AddrInfo) : SocketAddress := ⟨entry.address, entry.family⟩

/-- The attempts of the session below. -/
def refusedAttempts : List Attempt :=
  [(kept (sampleInfo6 2), some (kept (sampleInfo6 8))),
    (kept (Router.sampleInfo 1), some (kept (Router.sampleInfo 8))),
    (kept (Router.sampleInfo 1), some (kept (Router.sampleInfo 9)))]

/-- Two IPv4 sources and one IPv6 source between them. -/
def sourcedConfig : ServiceConfig :=
  { Router.sampleConfig with upstreamSourceAddresses := ["10.0.0.8", "fd00::8", "10.0.0.9"] }

/-- `numeric_address_key` of the three. -/
def sourceKey (host : String) : Option Bytes :=
  if host = "10.0.0.8" then some [10, 0, 0, 8]
  else if host = "fd00::8" then some (253 :: List.replicate 14 0 ++ [8])
  else if host = "10.0.0.9" then some [10, 0, 0, 9]
  else none

/-- Three sources, each once, are accepted. -/
theorem sourcedConfig_accepted : sourcedConfig.Accepted sourceKey where
  validated := by decide +kernel

/-- The backend has an address of each family. -/
def sourcedAround : Surroundings where
  resolver
    | .mining _ _ _ => .ok [Router.sampleInfo 1, sampleInfo6 2]
    | .health _ _ _ => .ok [Router.sampleInfo 1]
    | .source host =>
        if host = "fd00::8" then .ok [sampleInfo6 8]
        else if host = "10.0.0.8" then .ok [Router.sampleInfo 8]
        else .ok [Router.sampleInfo 9]
    | _ => .error "no such host"
  config := .ok sourcedConfig
  stamps _ := none

def sourcedPlay : (Except String RoutingTable × Unit) × Ambient :=
  ((Router.makeRoutingTable sourcedConfig none : Setup Unit _) ()).play (ambient sourcedAround)
    sourcedAround.answer {}

/-- The table of the example is one that the service builds. -/
theorem sourcedPlay_built :
    Router.Built sourceKey (Router.playedTable sourcedPlay) sourcedPlay.2.heap := by
  have hok : sourcedPlay.1 = (.ok (Router.playedTable sourcedPlay), ()) := by decide +kernel
  have hrun : Runs (ambient sourcedAround) {}
      ((Router.makeRoutingTable sourcedConfig none : Setup Unit _) ())
      (.ok (Router.playedTable sourcedPlay), ()) sourcedPlay.2 := by
    rw [← hok]
    exact runs_play (S := serviceCalls) (M := ambient sourcedAround) sourcedAround.answer_allowed {} _
  exact .build sourcedConfig_accepted (fun _ hnone => by cases hnone) hrun

/-- Every address refuses, and the session has the route number and the source number 1. -/
def refusing (w : Record) : (c : ReactorCall) → c.Answer
  | .now => w.clock
  | .nextRouteSequence => (1 : Nat)
  | .nextSourceSequence => (1 : Nat)
  | c => Scenario.answer { client := Scenario.sends [subscribeChunk] } {} c

/-- The answers are those of some outside. -/
theorem refusing_allowed (w : Record) (c : ReactorCall) : dialling.allows w c (refusing w c) := by
  cases c with
  | now => exact le_refl w.clock
  | _ => trivial

/-- A miner of that table. -/
def refusedMiner : Session := plainMiner { routing := Router.playedTable sourcedPlay }

def refusedPlay : (Except Exit Unit × Session) × Record :=
  (Session.handle subscribeJson (.client { readable := true }) refusedMiner).play dialling refusing {}

/-- The IPv6 address comes first, with the only source of its family; then the IPv4 address
with each of its two; and then there is none left. -/
theorem connect_candidates_enumerated_refused :
    ∃ s w, Life subscribeJson (some .connectFailed) s w ∧
      w.attempts = refusedAttempts ∧ s.upstreamSourceSequence = 4 ∧
      ∃ rest, w.attempts ++ rest = plan s.sources s.backendAddresses 1 w.source ∧
        (rest = [] ∨ s.upstreamOverallDeadline ≤ w.clock) := by
  have hfailed : refusedPlay.1.1 = .error .connectFailed := by decide +kernel
  have hattempts : refusedPlay.2.attempts = refusedAttempts := by decide +kernel
  have hnumber : refusedPlay.1.2.upstreamSourceSequence = 4 := by decide +kernel
  have hroute : refusedPlay.2.route = some 1 := by decide +kernel
  have htable : Router.Built sourceKey refusedPlay.1.2.runtime.routing sourcedPlay.2.heap := by
    have hsame : refusedPlay.1.2.runtime.routing = Router.playedTable sourcedPlay := by
      decide +kernel
    rw [hsame]
    exact sourcedPlay_built
  have hfresh : Life subscribeJson none refusedMiner {} :=
    .accepted ⟨1, 7, _, {}, some 1, 0, .inl rfl⟩ rfl rfl
  have hrun : Runs dialling {} (Session.handle subscribeJson (.client { readable := true })
      refusedMiner) (.error .connectFailed, refusedPlay.1.2) refusedPlay.2 := by
    rw [← hfailed]
    exact runs_play (S := reactorCalls) (M := dialling) refusing_allowed {} _
  have hlife := Life.ended (.client { readable := true }) hfresh trivial hrun
  obtain ⟨rest, hwhole, _, _, _, _, _, _, hexhausted, _⟩ :=
    connect_candidates_enumerated hlife hroute htable
  exact ⟨_, _, hlife, hattempts, hnumber, rest, hwhole, hexhausted rfl⟩

end PoolLb.Dial
