import PoolLb.Scenario
import PoolLb.TimeSlices

/-!
# A session whose attempts all hang

`Hung` is a session of which every attempt to connect hangs, while `expire_timeouts` is run
at every instant and other sessions use the timer wheel as they like.  If there is one
candidate, or the time is enough for a second each, every candidate gets its turn before the
session is closed.  If it is not, there is a moment to begin at which the wheel fires too late
for the last of them.
-/

namespace PoolLb.TimeSlice

open Interaction Handler TimerWheel Dial

variable {s s' : Session} {w w' : Clockwork} {E : Exit → Session → Clockwork → Prop}

/-! ## The course of a session that hangs -/

/-- An operation on the wheel on behalf of another session. -/
def Other (id : Nat) (op : TimerOp) : Prop := op.target.isSome ∧ op.target ≠ some id

/-- A session with validated limits that has tried nothing yet, and a wheel that was used in
any way and is not ahead of the clock. -/
structure Starting (s : Session) (w : Clockwork) : Prop where
  limits : validateLimits s.limits = .ok ()
  wheel : ∃ start ops, w.wheel = ((TimerWheel.new start).run ops).1
  tick : w.wheel.currentTick ≤ tickFloor w.clock
  attempts : w.attempts = []

/-- A session whose attempts all hang, from `begin_upstream_connect` on, while
`expire_timeouts` is run at every instant: live, or closed for a reason.  Other sessions use
the wheel at any moment. -/
inductive Hung : Option Exit → Session → Clockwork → Prop where
  | began {s s' : Session} {w w' : Clockwork} (h : Starting s w)
      (hrun : Runs hanging w (beginUpstreamConnect s) (.ok (), s') w') : Hung none s' w'
  | refused {s s' : Session} {w w' : Clockwork} {e : Exit} (h : Starting s w)
      (hrun : Runs hanging w (beginUpstreamConnect s) (.error e, s') w') : Hung (some e) s' w'
  | others {s : Session} {w : Clockwork} (h : Hung none s w) {ops : List TimerOp}
      (hops : ∀ op ∈ ops, Other s.id op) : Hung none s (w.used ops)
  | waited {s : Session} {w : Clockwork} (h : Hung none s w)
      (hexpired : ⟨s.id, s.timeoutGeneration⟩ ∉ w.expired) : Hung none s w.instant
  | retried {s s' : Session} {w w' : Clockwork} (h : Hung none s w)
      (hexpired : ⟨s.id, s.timeoutGeneration⟩ ∈ w.expired) {ops : List TimerOp}
      (hops : ∀ op ∈ ops, Other s.id op)
      (hrun : Runs hanging (w.instant.used ops) (expireSession w.instant.clock s) (.ok (), s') w') :
      Hung none s' w'
  | closed {s s' : Session} {w w' : Clockwork} {e : Exit} (h : Hung none s w)
      (hexpired : ⟨s.id, s.timeoutGeneration⟩ ∈ w.expired) {ops : List TimerOp}
      (hops : ∀ op ∈ ops, Other s.id op)
      (hrun : Runs hanging (w.instant.used ops) (expireSession w.instant.clock s) (.error e, s') w') :
      Hung (some e) s' w'

/-- Operations of other sessions on the map. -/
theorem run_others {id : Nat} {ops : List TimerOp} (hops : ∀ op ∈ ops, Other id op)
    (map : DeadlineMap) :
    (map.run ops).1.entry id = map.entry id ∧ (map.run ops).1.currentTick = map.currentTick := by
  induction ops generalizing map with
  | nil => exact ⟨rfl, rfl⟩
  | cons op ops ih =>
      obtain ⟨hentry, htick⟩ := ih (fun op' hop' => hops op' (List.mem_cons_of_mem _ hop'))
        (map.perform op).1
      obtain ⟨htarget, hother⟩ := hops op List.mem_cons_self
      have hstep : (map.perform op).1.entry id = map.entry id ∧
          (map.perform op).1.currentTick = map.currentTick := by
        cases op with
        | schedule session generation deadline =>
            have hne : id ≠ session := fun h => hother (congrArg some h.symm)
            exact ⟨Function.update_of_ne hne _ _, rfl⟩
        | cancel session =>
            have hne : id ≠ session := fun h => hother (congrArg some h.symm)
            exact ⟨Function.update_of_ne hne _ _, rfl⟩
        | advance now => cases htarget
      exact ⟨hentry.trans hstep.1, htick.trans hstep.2⟩

/-- The wheel holds the timer of the session, which fires at `due`. -/
structure Timed (s : Session) (w : Clockwork) (due : Nat) : Prop where
  entry : ∃ map, Represents w.wheel map ∧ map.entry s.id = some (s.timeoutGeneration, due)
  tick : w.wheel.currentTick ≤ tickFloor w.clock

/-- What others do on the wheel leaves the timer of the session. -/
theorem Timed.used {due : Nat} (h : Timed s w due) {ops : List TimerOp}
    (hops : ∀ op ∈ ops, Other s.id op) : Timed s (w.used ops) due := by
  obtain ⟨map, hrep, hentry⟩ := h.entry
  obtain ⟨hsame, htick⟩ := run_others hops map
  have hrun := (hrep.run ops).1
  refine ⟨⟨_, hrun, hsame.trans hentry⟩, ?_⟩
  show (w.wheel.run ops).1.currentTick ≤ tickFloor w.clock
  rw [hrun.tick, htick, ← hrep.tick]
  exact h.tick

/-- The timer fires at an instant exactly if its tick has come. -/
theorem Timed.expired_iff {due : Nat} (h : Timed s w due) :
    ⟨s.id, s.timeoutGeneration⟩ ∈ w.expired ↔ due ≤ tickFloor (w.clock + 1) := by
  obtain ⟨map, hrep, hentry⟩ := h.entry
  unfold Clockwork.expired
  rw [(hrep.advance (w.clock + 1)).2.2, tickFloor_eq_secondsDown]
  constructor
  · intro hdue
    obtain ⟨tick, hfound, hle⟩ := hdue
    rw [hentry] at hfound
    cases hfound
    exact hle
  · exact fun hle => ⟨due, hentry, hle⟩

/-- After an instant the wheel stands at the tick of the clock. -/
theorem Timed.instant_tick {due : Nat} (h : Timed s w due) :
    w.instant.wheel.currentTick = tickFloor w.instant.clock := by
  obtain ⟨map, hrep, _⟩ := h.entry
  have htick := (hrep.advance (w.clock + 1)).1.tick
  have hmap : (map.advance (w.clock + 1)).currentTick =
      max map.currentTick (DeadlineMap.secondsDown (w.clock + 1)) := rfl
  have hbefore := h.tick
  have hmono : tickFloor w.clock ≤ tickFloor (w.clock + 1) :=
    Nat.div_le_div_right (Nat.le_succ w.clock)
  show (w.wheel.advance (w.clock + 1)).1.currentTick = tickFloor (w.clock + 1)
  rw [htick, hmap, ← tickFloor_eq_secondsDown, ← hrep.tick]
  omega

/-- So does an instant at which it is not due. -/
theorem Timed.waited {due : Nat} (h : Timed s w due) (hearly : tickFloor (w.clock + 1) < due) :
    Timed s w.instant due := by
  refine ⟨?_, h.instant_tick.le⟩
  obtain ⟨map, hrep, hentry⟩ := h.entry
  refine ⟨_, (hrep.advance (w.clock + 1)).1, ?_⟩
  refine Option.filter_eq_some_iff.mpr ⟨hentry, ?_⟩
  rw [← tickFloor_eq_secondsDown]
  exact decide_eq_true hearly

/-- There is one candidate, or the share of each is a second at least. -/
def Shares (s : Session) : Prop :=
  (pairs s.sources s.backendAddresses).length = 1 ∨
    ((pairs s.sources s.backendAddresses).length * 1000 : Int) ≤
      s.limits.upstreamConnectTimeoutMilliseconds

theorem shares_congr (h : Fixed s s') : Shares s' ↔ Shares s := by
  unfold Shares Session.limits
  rw [h.sources, h.backendAddresses, h.runtime]

/-- A session that waits for its timer, which fires at `due`.  If the shares are large
enough, there is time for the candidates that are left. -/
structure Pending (s : Session) (w : Clockwork) (due : Nat) : Prop where
  sound : Sound s
  backend : s.backend.isSome
  stage : s.stage = .upstreamConnect
  timed : Timed s w due
  passed : s.deadline ≤ due * kNanosecondsPerSecond
  whole : (w.attempts ++ left s).Perm (pairs s.sources s.backendAddresses)
  inTime : Shares s → w.clock < due * kNanosecondsPerSecond ∧
    InTime s.upstreamOverallDeadline due s.connectCandidatesRemaining

/-- A connecting session times out at the deadline of its attempt. -/
theorem timeoutDeadline_connecting (h : s.stage = .upstreamConnect) :
    s.timeoutDeadline = s.deadline := by
  unfold Session.timeoutDeadline
  rw [if_pos (by rw [h]; decide)]

/-- The timer of an attempt that has begun. -/
theorem Began.timed {map : DeadlineMap} (h : Began s w s' w') (hstage : s.stage = .upstreamConnect)
    (hrep : Represents w.wheel map) (htick : w.wheel.currentTick ≤ tickFloor w.clock) :
    Timed s' w' (dueTick s.upstreamOverallDeadline w.clock w.wheel.currentTick
      s'.connectCandidatesRemaining) := by
  have hdeadline := (timeoutDeadline_connecting (h.stage.trans hstage)).trans h.deadline
  refine ⟨⟨_, h.wheel ▸ hrep.schedule s'.id s'.timeoutGeneration s'.timeoutDeadline, ?_⟩, ?_⟩
  · show Function.update map.entry s'.id _ s'.id = _
    rw [Function.update_self, ← tickAtOrAfter_eq_secondsUp, ← hrep.tick, hdeadline,
      ← h.fixed.deadline]
    rfl
  · rw [h.wheel, schedule_currentTick, h.clock]
    exact htick

/-- A session that waits for the timer of an attempt that has begun. -/
theorem Began.pending {map : DeadlineMap} {due : Nat} (h : Began s w s' w')
    (hbackend : s.backend.isSome)
    (hstage : s.stage = .upstreamConnect) (hrep : Represents w.wheel map)
    (htick : w.wheel.currentTick ≤ tickFloor w.clock)
    (hwhole : (w.attempts ++ left s).Perm (pairs s.sources s.backendAddresses))
    (hdue : due = dueTick s.upstreamOverallDeadline w.clock w.wheel.currentTick
      s'.connectCandidatesRemaining)
    (htime : Shares s → w.clock < due * kNanosecondsPerSecond ∧
      InTime s.upstreamOverallDeadline due s'.connectCandidatesRemaining) : Pending s' w' due := by
  refine ⟨h.sound, h.fixed.backend ▸ hbackend, h.stage.trans hstage,
    hdue ▸ h.timed hstage hrep htick, ?_, ?_, fun hshares => ?_⟩
  · rw [h.deadline, hdue]
    apply (tickAtOrAfter_bounds (s'.attemptDeadline w.clock)).1.trans
    apply Nat.mul_le_mul_right
    unfold dueTick
    rw [← h.fixed.deadline]
    exact Nat.le_max_left _ _
  · rw [h.whole, h.fixed.sources, h.fixed.backendAddresses]
    exact hwhole
  · rw [h.fixed.deadline, h.clock]
    exact htime ((shares_congr h.fixed).mp hshares)

/-- What others do on the wheel leaves the attempt. -/
theorem Pending.used {due : Nat} (h : Pending s w due) {ops : List TimerOp}
    (hops : ∀ op ∈ ops, Other s.id op) : Pending s (w.used ops) due :=
  { h with timed := h.timed.used hops }

/-- So does an instant at which its timer does not fire. -/
theorem Pending.waited {due : Nat} (h : Pending s w due)
    (hexpired : ⟨s.id, s.timeoutGeneration⟩ ∉ w.expired) : Pending s w.instant due := by
  rw [h.timed.expired_iff] at hexpired
  have hearly : tickFloor (w.clock + 1) < due := Nat.lt_of_not_le hexpired
  refine { h with timed := h.timed.waited hearly, inTime := fun hshares => ?_ }
  exact ⟨(Nat.div_lt_iff_lt_mul (by decide)).mp hearly, (h.inTime hshares).2⟩

/-- The timer does not fire before the deadline, and where the shares are large enough it
fires at the very instant at which its tick begins. -/
theorem Pending.fires {due : Nat} (h : Pending s w due)
    (hexpired : ⟨s.id, s.timeoutGeneration⟩ ∈ w.expired) :
    due * kNanosecondsPerSecond ≤ w.instant.clock ∧
      (Shares s → w.instant.clock = due * kNanosecondsPerSecond) := by
  rw [h.timed.expired_iff] at hexpired
  have hlate : due * kNanosecondsPerSecond ≤ w.clock + 1 :=
    (Nat.le_div_iff_mul_le (by decide)).mp hexpired
  exact ⟨hlate, fun hshares => Nat.le_antisymm (h.inTime hshares).1 hlate⟩

/-- A session that is closed has tried every candidate if the shares were large enough. -/
structure TimedOut (e : Exit) (s : Session) (w : Clockwork) : Prop where
  exit : e = .timedOut ∨ e = .connectFailed ∧ s.connectCandidatesRemaining = 0
  late : Shares s → s.upstreamOverallDeadline ≤ w.clock
  whole : Shares s → w.attempts.Perm (pairs s.sources s.backendAddresses)

/-- With no candidate left they have all been tried. -/
theorem Pending.whole_of_none {due : Nat} (h : Pending s w due)
    (hnone : s.connectCandidatesRemaining = 0) :
    w.attempts.Perm (pairs s.sources s.backendAddresses) := by
  have hwhole := h.whole
  rw [h.sound.remaining, List.length_eq_zero_iff] at hnone
  rw [hnone, List.append_nil] at hwhole
  exact hwhole

/-- With large enough shares, the overall deadline comes after the last attempt only. -/
theorem Pending.none_of_late {due : Nat} (h : Pending s w due) (hshares : Shares s)
    (hlate : s.upstreamOverallDeadline ≤ due * kNanosecondsPerSecond) :
    s.connectCandidatesRemaining = 0 := by
  by_contra hmore
  have htime := (h.inTime hshares).2.2 (Nat.pos_of_ne_zero hmore)
  have hfirst : due * kNanosecondsPerSecond ≤
      (due + s.connectCandidatesRemaining - 1) * kNanosecondsPerSecond :=
    Nat.mul_le_mul_right _ (by omega)
  omega

/-- The wheel at the instant at which a timer fires. -/
theorem Pending.tick_at {due : Nat} (h : Pending s w due)
    (hclock : w.instant.clock = due * kNanosecondsPerSecond) {ops : List TimerOp}
    (hops : ∀ op ∈ ops, Other s.id op) : (w.instant.used ops).wheel.currentTick = due := by
  obtain ⟨map, hrep, _⟩ := h.timed.entry
  have hadvanced := (hrep.advance (w.clock + 1)).1
  have hused := (hadvanced.run ops).1
  have htick : (w.instant.used ops).wheel.currentTick = tickFloor w.instant.clock := by
    rw [← h.timed.instant_tick]
    exact hused.tick.trans ((run_others hops _).2.trans hadvanced.tick.symm)
  rw [htick, hclock, tickFloor_mul]

/-- The next attempt starts when a timer fires. -/
theorem Pending.next {due : Nat} (h : Pending s w due)
    (hexpired : ⟨s.id, s.timeoutGeneration⟩ ∈ w.expired) {ops : List TimerOp}
    (hops : ∀ op ∈ ops, Other s.id op)
    (hbegan : Began s.dropUpstream (w.instant.used ops) s' w') :
    Pending s' w' (dueTick s.upstreamOverallDeadline w.instant.clock
      (w.instant.used ops).wheel.currentTick s'.connectCandidatesRemaining) := by
  obtain ⟨map, hrep, _⟩ := h.timed.entry
  have hadvanced := (hrep.advance (w.clock + 1)).1
  have hused := (hadvanced.run ops).1
  have htick : (w.instant.used ops).wheel.currentTick ≤ tickFloor w.instant.clock := by
    rw [← h.timed.instant_tick]
    exact (hused.tick.trans ((run_others hops _).2.trans hadvanced.tick.symm)).le
  refine hbegan.pending h.backend h.stage hused htick h.whole rfl fun hshares => ?_
  have hclock : w.instant.clock = due * kNanosecondsPerSecond := (h.fires hexpired).2 hshares
  have hcurrent := h.tick_at hclock hops
  show w.instant.clock < _ ∧ _
  rw [hclock, hcurrent]
  constructor
  · exact Nat.mul_lt_mul_of_pos_right (Nat.le_max_right _ _) (by decide)
  · apply dueTick_next
    have hrest : s'.connectCandidatesRemaining + 1 = s.connectCandidatesRemaining := hbegan.rest
    have htime := (h.inTime hshares).2.2 (by omega)
    have hsame : due + s.connectCandidatesRemaining - 1 = due + s'.connectCandidatesRemaining := by
      omega
    rw [hsame] at htime
    exact htime

/-- A timer that fires drops the socket, and what comes next starts from there. -/
theorem expireSession_hangs {now : Nat} {Q : Unit → Session → Clockwork → Prop}
    (hstage : s.stage = .upstreamConnect) (hpassed : s.deadline ≤ now)
    (h : Holds hanging s.dropUpstream w
      (if s.upstreamOverallDeadline ≤ now then stop .timedOut else startNextUpstreamConnect) Q E) :
    Holds hanging s w (expireSession now) Q E := by
  apply holds_current_bind
  rw [timeoutDeadline_connecting hstage, if_neg (by omega), if_pos hstage]
  apply (hangs_of_completes (recordUpstreamError_yields _) fun _ => idle_of_tidies).bind
  intro _ s₁ w₁ h₁
  obtain ⟨rfl, rfl⟩ := h₁
  apply (hangs_of_completes (discardUpstream_yields _) fun _ => idle_of_tidies).bind
  intro _ s₂ w₂ h₂
  obtain ⟨rfl, rfl⟩ := h₂
  exact h

/-- A timer that fires when the time is up closes the session. -/
theorem expireSession_late {now : Nat} (hstage : s.stage = .upstreamConnect)
    (hpassed : s.deadline ≤ now) (hlate : s.upstreamOverallDeadline ≤ now) :
    Holds hanging s w (expireSession now) (fun _ _ _ => False)
      (fun e s' w' => e = .timedOut ∧ s' = s.dropUpstream ∧ w' = w) := by
  apply expireSession_hangs hstage hpassed
  rw [if_pos hlate]
  exact ⟨rfl, rfl, rfl⟩

/-- A timer that fires before goes on to the next candidate, if there is one. -/
theorem expireSession_early {now : Nat} (hsound : Sound s) (hbackend : s.backend.isSome)
    (hstage : s.stage = .upstreamConnect) (hpassed : s.deadline ≤ now)
    (hclock : now = w.clock) (hearly : now < s.upstreamOverallDeadline) :
    Holds hanging s w (expireSession now) (fun _ => Began s.dropUpstream w)
      (fun e s' w' => (e = .connectFailed ∧ s.connectCandidatesRemaining = 0) ∧
        s' = s.dropUpstream ∧ w' = w) := by
  apply expireSession_hangs hstage hpassed
  rw [if_neg (by omega)]
  by_cases hmore : s.connectCandidatesRemaining = 0
  · apply holds_current_bind
    split
    · exact ⟨⟨rfl, hmore⟩, rfl, rfl⟩
    · rw [show s.dropUpstream.connectCandidatesRemaining = 0 from hmore]
      exact ⟨⟨rfl, hmore⟩, rfl, rfl⟩
  · exact startNextUpstreamConnect_hangs
      ⟨hsound.congr rfl, hbackend, Nat.pos_of_ne_zero hmore, hclock ▸ hearly⟩

/-- **The timer of an attempt has fired**: the next attempt starts, or the session ends. -/
theorem Pending.expireSession_hangs {due : Nat} (h : Pending s w due)
    (hexpired : ⟨s.id, s.timeoutGeneration⟩ ∈ w.expired) {ops : List TimerOp}
    (hops : ∀ op ∈ ops, Other s.id op) :
    Holds hanging s (w.instant.used ops) (expireSession w.instant.clock)
      (fun _ s' w' => ∃ due, Pending s' w' due) TimedOut := by
  obtain ⟨hlate, hexact⟩ := h.fires hexpired
  have hpassed : s.deadline ≤ w.instant.clock := h.passed.trans hlate
  by_cases hover : s.upstreamOverallDeadline ≤ w.instant.clock
  · apply (expireSession_late h.stage hpassed hover).mono
    · exact fun _ _ _ hno => hno.elim
    · intro e s' w' hend
      obtain ⟨he, hs', hw'⟩ := hend
      subst he hs' hw'
      refine ⟨.inl rfl, fun _ => hover, fun hshares => h.whole_of_none ?_⟩
      exact h.none_of_late hshares (hexact hshares ▸ hover)
  · have hclock : w.instant.clock = (w.instant.used ops).clock := rfl
    apply (expireSession_early h.sound h.backend h.stage hpassed hclock
      (Nat.lt_of_not_le hover)).mono
    · exact fun _ _ _ hbegan => ⟨_, h.next hexpired hops hbegan⟩
    · intro e s' w' hend
      obtain ⟨⟨he, hnone⟩, hs', hw'⟩ := hend
      subst he hs' hw'
      refine ⟨.inr ⟨rfl, hnone⟩, fun hshares => ?_, fun _ => h.whole_of_none hnone⟩
      have hlast := ((h.inTime hshares).2.1 hnone).1
      rw [← hexact hshares] at hlast
      exact absurd hlast hover

/-! ## The first attempt -/

/-- Validated limits leave some time to connect. -/
theorem connect_timeout_pos {limits : LimitsConfig} (h : validateLimits limits = .ok ()) :
    0 < limits.upstreamConnectTimeoutMilliseconds := by
  simp only [validateLimits, Checked.bind_ok, Checked.test_ok] at h
  have htimeout : requirePositiveInt limits.upstreamConnectTimeoutMilliseconds
      "limits.upstream_connect_timeout_milliseconds" = .ok () := by
    obtain ⟨_, _, _, _, _, _, _, _, _, _, _, _, _, _, _, _, _, _, _, _, _, _, _, h, _⟩ := h
    exact h
  unfold requirePositiveInt at htimeout
  split at htimeout
  · cases htimeout
  · omega

/-- The session found nothing to try. -/
def Barren (e : Exit) (s : Session) (_ : Clockwork) : Prop :=
  e = .noBackend ∧ pairs s.sources s.backendAddresses = []

/-- A source number is drawn at once. -/
theorem drawSourceSequence_hangs :
    Holds hanging s w drawSourceSequence
      (fun _ s' w' => (∃ number, s' = { s with upstreamSourceSequence := number }) ∧ w' = w) E := by
  refine hangs_of_completes (drawSourceSequence_yields s) fun c hc => ?_
  subst hc
  trivial

/-- The first attempt of a session has been started. -/
structure Opened (s : Session) (w : Clockwork) (s' : Session) (w' : Clockwork) : Prop where
  backend : s'.backend = s.backend
  runtime : s'.runtime = s.runtime
  overall : s'.upstreamOverallDeadline =
    w.clock + s.limits.upstreamConnectTimeoutMilliseconds.toNat * kNanosecondsPerMillisecond
  rest : s'.connectCandidatesRemaining + 1 = (pairs s'.sources s'.backendAddresses).length
  clock : w'.clock = w.clock
  pending : Pending s' w' (dueTick s'.upstreamOverallDeadline w.clock w.wheel.currentTick
    s'.connectCandidatesRemaining)

/-- The first attempt of a session that has just opened its connect. -/
theorem Began.first {map : DeadlineMap} (h : Began s w s' w') (hsound : Sound s)
    (hbackend : s.backend.isSome) (hstage : s.stage = .upstreamConnect)
    (hlimits : 0 < s.limits.upstreamConnectTimeoutMilliseconds)
    (hoverall : s.upstreamOverallDeadline = w.clock +
      s.limits.upstreamConnectTimeoutMilliseconds.toNat * kNanosecondsPerMillisecond)
    (hwhole : (left s).Perm (pairs s.sources s.backendAddresses)) (hrep : Represents w.wheel map)
    (htick : w.wheel.currentTick ≤ tickFloor w.clock) (hattempts : w.attempts = []) :
    Opened s w s' w' := by
  have hrest : s'.connectCandidatesRemaining + 1 = (pairs s.sources s.backendAddresses).length := by
    rw [h.rest, hsound.remaining, hwhole.length_eq]
  have hnow : w.clock < s.upstreamOverallDeadline := by
    rw [hoverall]
    unfold kNanosecondsPerMillisecond
    omega
  have hbefore : w.wheel.currentTick * kNanosecondsPerSecond ≤ w.clock :=
    (Nat.le_div_iff_mul_le (by decide)).mp htick
  refine ⟨h.fixed.backend, h.fixed.runtime, h.fixed.deadline.trans hoverall, ?_, h.clock, ?_⟩
  · rw [h.fixed.sources, h.fixed.backendAddresses]
    exact hrest
  · rw [h.fixed.deadline]
    refine h.pending hbackend hstage hrep htick (hattempts ▸ hwhole) rfl fun hshares => ?_
    rcases hshares with hone | hshares
    · have hlast : s'.connectCandidatesRemaining = 0 := by omega
      rw [hlast]
      exact ⟨lt_dueTick_last hnow, dueTick_last hnow hbefore⟩
    · rw [← hrest] at hshares
      have hall : (s'.connectCandidatesRemaining + 1) * kNanosecondsPerSecond ≤
          s.upstreamOverallDeadline - w.clock := by
        rw [hoverall]
        unfold kNanosecondsPerSecond kNanosecondsPerMillisecond
        omega
      exact ⟨lt_dueTick hall, dueTick_first hall hbefore⟩

/-- `begin_upstream_connect` once the backend is selected. -/
theorem connectBackend_hangs {map : DeadlineMap} {selection : Nat}
    (hlimits : 0 < s.limits.upstreamConnectTimeoutMilliseconds) (hrep : Represents w.wheel map)
    (htick : w.wheel.currentTick ≤ tickFloor w.clock) (hattempts : w.attempts = []) :
    Holds hanging s w (connectBackend selection) (fun _ => Opened s w)
      (fun e s' w' => Barren e s' w' ∧ s'.backend = s.backend ∧ s'.runtime = s.runtime) := by
  apply holds_current_bind
  split
  · rename_i hnone
    have hempty : s.backendAddresses = [] := by
      rcases hnone with hno | hno
      · unfold Session.backendAddresses
        rw [Option.isNone_iff_eq_none.mp hno]
      · exact hno
    refine ⟨trivial, fun _ _ => ⟨⟨rfl, ?_⟩, rfl, rfl⟩⟩
    rw [hempty]
    rfl
  · rename_i hsome
    have hbackend : s.backend.isSome := by
      by_contra hnone
      exact hsome (.inl (Option.isNone_iff_eq_none.mpr (Option.not_isSome_iff_eq_none.mp hnone)))
    refine holds_ask_bind trivial fun (time : Nat) (htime : time = w.clock) => ?_
    subst htime
    apply holds_modify_bind
    apply drawSourceSequence_hangs.bind
    intro _ s₁ w₁ h₁
    obtain ⟨⟨number, hs₁⟩, hw₁⟩ := h₁
    subst hw₁
    have hopened : left s₁ = plan s₁.sources s₁.backendAddresses selection
        s₁.upstreamSourceSequence ∧ Sound s₁ := by
      subst hs₁
      exact left_of_opened rfl rfl rfl rfl
    obtain ⟨hleft, hsound⟩ := hopened
    apply holds_current_bind
    split
    · rename_i hzero
      refine ⟨trivial, fun _ _ => ⟨⟨rfl, ?_⟩, hs₁ ▸ rfl, hs₁ ▸ rfl⟩⟩
      subst hs₁
      apply List.length_eq_zero_iff.mp
      rw [← allCandidates_eq]
      exact hzero
    · rename_i hmore
      have hready : Ready s₁ w₁ := by
        refine ⟨hsound, hs₁ ▸ hbackend, Nat.pos_of_ne_zero hmore, ?_⟩
        subst hs₁
        show w₁.clock < w₁.clock + s.limits.upstreamConnectTimeoutMilliseconds.toNat *
          kNanosecondsPerMillisecond
        unfold kNanosecondsPerMillisecond
        omega
      apply (startNextUpstreamConnect_hangs hready).mono
      · intro _ s₂ w₂ h₂
        have hfirst : Opened s₁ w₁ s₂ w₂ := by
          refine h₂.first hsound (hs₁ ▸ hbackend) (hs₁ ▸ rfl) (hs₁ ▸ hlimits) (hs₁ ▸ rfl) ?_ hrep
            htick hattempts
          rw [hleft]
          exact plan_perm _ _ _ _
        subst hs₁
        exact ⟨hfirst.backend, hfirst.runtime, hfirst.overall, hfirst.rest, hfirst.clock,
          hfirst.pending⟩
      · exact fun _ _ _ hend => hend

/-- **`begin_upstream_connect`.** -/
theorem Starting.beginUpstreamConnect_hangs (h : Starting s w) :
    Holds hanging s w beginUpstreamConnect (fun _ s' w' => ∃ due, Pending s' w' due) Barren := by
  obtain ⟨start, ops, hwheel⟩ := h.wheel
  have hrep : Represents w.wheel ((DeadlineMap.new start).run ops).1 := by
    rw [hwheel]
    exact ((represents_new start).run ops).1
  refine holds_ask_bind trivial fun (route : Nat) _ => ?_
  refine holds_ask_bind trivial fun view _ => ?_
  apply holds_modify_bind
  refine Holds.mono (connectBackend_hangs ?_ hrep h.tick h.attempts) ?_ ?_
  · exact connect_timeout_pos h.limits
  · exact fun _ _ _ hopened => ⟨_, hopened.pending⟩
  · exact fun _ _ _ hend => hend.1

/-! ## Every candidate gets a turn -/

/-- What a session that hangs comes to. -/
theorem Hung.outcome {result : Option Exit} (h : Hung result s w) :
    (result = none → ∃ due, Pending s w due) ∧
      ∀ e, result = some e → TimedOut e s w ∨ Barren e s w := by
  induction h with
  | began hstart hrun =>
      exact ⟨fun _ => hstart.beginUpstreamConnect_hangs.sound hrun, fun _ he => by cases he⟩
  | refused hstart hrun =>
      refine ⟨fun he => (by cases he), fun e he => ?_⟩
      cases he
      exact .inr (hstart.beginUpstreamConnect_hangs.sound hrun)
  | others _ hops ih =>
      obtain ⟨due, hpending⟩ := ih.1 rfl
      exact ⟨fun _ => ⟨due, hpending.used hops⟩, fun _ he => by cases he⟩
  | waited _ hexpired ih =>
      obtain ⟨due, hpending⟩ := ih.1 rfl
      exact ⟨fun _ => ⟨due, hpending.waited hexpired⟩, fun _ he => by cases he⟩
  | retried _ hexpired hops hrun ih =>
      obtain ⟨due, hpending⟩ := ih.1 rfl
      have hend := (hpending.expireSession_hangs hexpired hops).sound hrun
      exact ⟨fun _ => hend, fun _ he => by cases he⟩
  | closed _ hexpired hops hrun ih =>
      obtain ⟨due, hpending⟩ := ih.1 rfl
      refine ⟨fun he => (by cases he), fun e he => ?_⟩
      cases he
      exact .inl ((hpending.expireSession_hangs hexpired hops).sound hrun)

/-- All candidates are tried: a session whose attempts all hang is closed when its overall
deadline has passed, less than a second later, and it has tried every candidate once before
that. -/
def AllTried (result : Option Exit) (s : Session) (w : Clockwork) : Prop :=
  (∀ e, result = some e → s.upstreamOverallDeadline ≤ w.clock ∧
    w.attempts.Perm (pairs s.sources s.backendAddresses)) ∧
  (result = none → w.clock < s.upstreamOverallDeadline + kNanosecondsPerSecond ∧
    (s.upstreamOverallDeadline ≤ w.clock →
      w.attempts.Perm (pairs s.sources s.backendAddresses)))

/-- With large enough shares every candidate is tried. -/
theorem Hung.allTried {result : Option Exit} (h : Hung result s w)
    (hsome : pairs s.sources s.backendAddresses ≠ []) (hshares : Shares s) :
    AllTried result s w := by
  obtain ⟨hlive, hclosed⟩ := h.outcome
  refine ⟨fun e he => ?_, fun hnone => ?_⟩
  · rcases hclosed e he with htimedOut | hbarren
    · exact ⟨htimedOut.late hshares, htimedOut.whole hshares⟩
    · exact absurd hbarren.2 hsome
  · obtain ⟨due, hpending⟩ := hlive hnone
    obtain ⟨hahead, hlast, hmore⟩ := hpending.inTime hshares
    refine ⟨?_, fun hlate => hpending.whole_of_none ?_⟩
    · by_cases hrest : s.connectCandidatesRemaining = 0
      · exact hahead.trans (hlast hrest).2
      · have hfirst : due * kNanosecondsPerSecond ≤
            (due + s.connectCandidatesRemaining - 1) * kNanosecondsPerSecond :=
          Nat.mul_le_mul_right _ (by omega)
        have hend := hmore (Nat.pos_of_ne_zero hrest)
        omega
    · exact hpending.none_of_late hshares (hlate.trans hahead.le)

/-! ## Runs -/

/-- An answer that the world may give. -/
def silence (w : Clockwork) : (c : ReactorCall) → c.Answer
  | .now => w.clock
  | c => Scenario.answer { connect := some ⟨9, false⟩ } {} c

/-- The answers are those of an outside in which everything hangs. -/
theorem silence_allowed (w : Clockwork) (c : ReactorCall) : hanging.allows w c (silence w c) := by
  cases c with
  | now => rfl
  | startConnect address source => exact ⟨9, rfl⟩
  | epollAdd socket events token => rfl
  | _ => trivial

/-- A timer can be waited for. -/
theorem Hung.waits {due : Nat} (h : Hung none s w) (hpending : Pending s w due)
    (hahead : w.clock < due * kNanosecondsPerSecond) :
    ∃ w', Hung none s w' ∧ Pending s w' due ∧ w'.instant.clock = due * kNanosecondsPerSecond ∧
      ⟨s.id, s.timeoutGeneration⟩ ∈ w'.expired ∧ w'.attempts = w.attempts := by
  obtain ⟨instants, hinstants⟩ : ∃ instants, w.clock + 1 + instants = due * kNanosecondsPerSecond :=
    ⟨due * kNanosecondsPerSecond - (w.clock + 1), by omega⟩
  induction instants generalizing w with
  | zero =>
      refine ⟨w, h, hpending, hinstants, hpending.timed.expired_iff.mpr ?_, rfl⟩
      rw [show w.clock + 1 = due * kNanosecondsPerSecond from hinstants, tickFloor_mul]
  | succ instants ih =>
      have hearly : tickFloor (w.clock + 1) < due :=
        (Nat.div_lt_iff_lt_mul (by decide)).mpr (by omega)
      have hquiet : ⟨s.id, s.timeoutGeneration⟩ ∉ w.expired := by
        rw [hpending.timed.expired_iff]
        omega
      have hnext : w.instant.clock + 1 + instants = due * kNanosecondsPerSecond := by
        show w.clock + 1 + 1 + instants = _
        omega
      exact ih (w := w.instant) (h.waited hquiet) (hpending.waited hquiet) (by omega) hnext

/-- Nobody else uses the wheel. -/
theorem no_others (id : Nat) : ∀ op ∈ ([] : List TimerOp), Other id op :=
  fun _ hop => (List.not_mem_nil hop).elim

/-- A session whose time is up when its timer fires is closed. -/
theorem Hung.closes_late {due : Nat} (h : Hung none s w) (hpending : Pending s w due)
    (hahead : w.clock < due * kNanosecondsPerSecond)
    (hlate : s.upstreamOverallDeadline ≤ due * kNanosecondsPerSecond) :
    ∃ w', Hung (some .timedOut) s.dropUpstream w' ∧ w'.attempts = w.attempts := by
  obtain ⟨w₁, h₁, hpending₁, hclock, hexpired, hattempts⟩ := h.waits hpending hahead
  have hrun := runs_play silence_allowed (w₁.instant.used []) (expireSession w₁.instant.clock s)
  have hend := (expireSession_late hpending.stage (hclock ▸ hpending.passed)
    (hclock ▸ hlate)).sound hrun
  generalize (expireSession w₁.instant.clock s).play hanging silence (w₁.instant.used []) = played
    at hrun hend
  obtain ⟨⟨result, s'⟩, w'⟩ := played
  cases result with
  | ok _ => exact hend.elim
  | error e =>
      obtain ⟨he, hs', hw'⟩ := hend
      subst he hs' hw'
      exact ⟨_, h₁.closed hexpired (no_others s.id) hrun, hattempts⟩

/-- The next candidate is tried when the timer fires, if the time is not up. -/
theorem Hung.retries {due : Nat} (h : Hung none s w) (hpending : Pending s w due)
    (hahead : w.clock < due * kNanosecondsPerSecond)
    (hearly : due * kNanosecondsPerSecond < s.upstreamOverallDeadline)
    (hmore : 0 < s.connectCandidatesRemaining) :
    ∃ s' w' due', Hung none s' w' ∧ Pending s' w' due' ∧ Fixed s s' ∧
      s'.connectCandidatesRemaining + 1 = s.connectCandidatesRemaining ∧ due < due' ∧
      w'.clock < due' * kNanosecondsPerSecond := by
  obtain ⟨w₁, h₁, hpending₁, hclock, hexpired, _⟩ := h.waits hpending hahead
  have hrun := runs_play silence_allowed (w₁.instant.used []) (expireSession w₁.instant.clock s)
  have hend := (expireSession_early hpending.sound hpending.backend hpending.stage
    (hclock ▸ hpending.passed) rfl (hclock ▸ hearly)).sound hrun
  generalize (expireSession w₁.instant.clock s).play hanging silence (w₁.instant.used []) = played
    at hrun hend
  obtain ⟨⟨result, s'⟩, w'⟩ := played
  cases result with
  | ok _ =>
      have hbegan : Began s.dropUpstream (w₁.instant.used []) s' w' := hend
      have hnext := hpending₁.next hexpired (no_others s.id) hbegan
      have hlater : due < dueTick s.upstreamOverallDeadline w₁.instant.clock
          (w₁.instant.used []).wheel.currentTick s'.connectCandidatesRemaining := by
        rw [hpending₁.tick_at hclock (no_others s.id)]
        exact Nat.le_max_right _ _
      have hsame : w'.clock = due * kNanosecondsPerSecond := hbegan.clock.trans hclock
      refine ⟨s', w', _, h₁.retried hexpired (no_others s.id) hrun, hnext,
        ⟨hbegan.fixed.backend, hbegan.fixed.runtime, hbegan.fixed.deadline⟩, hbegan.rest, hlater, ?_⟩
      rw [hsame]
      exact Nat.mul_lt_mul_of_pos_right hlater (by decide)
  | error e =>
      obtain ⟨⟨_, hnone⟩, _⟩ := hend
      omega

/-- A session whose time is up with candidates left leaves them out. -/
theorem Hung.leaves_out_late {due : Nat} (h : Hung none s w) (hpending : Pending s w due)
    (hahead : w.clock < due * kNanosecondsPerSecond) (hmore : 0 < s.connectCandidatesRemaining)
    (hlate : s.upstreamOverallDeadline ≤ due * kNanosecondsPerSecond) :
    ∃ s' w', Hung (some .timedOut) s' w' ∧ Fixed s s' ∧
      w'.attempts.length < (pairs s'.sources s'.backendAddresses).length := by
  obtain ⟨w', hclosed, hattempts⟩ := h.closes_late hpending hahead hlate
  refine ⟨_, w', hclosed, ⟨rfl, rfl, rfl⟩, ?_⟩
  have hlength := hpending.whole.length_eq
  rw [List.length_append, ← hpending.sound.remaining] at hlength
  show w'.attempts.length < (pairs s.sources s.backendAddresses).length
  rw [hattempts]
  omega

/-- **A candidate is left out** if a tick for each of the others takes all the time. -/
theorem Hung.leaves_out {due rest : Nat} (h : Hung none s w) (hpending : Pending s w due)
    (hahead : w.clock < due * kNanosecondsPerSecond) (hrest : s.connectCandidatesRemaining = rest + 1)
    (hlate : s.upstreamOverallDeadline ≤ (due + rest) * kNanosecondsPerSecond) :
    ∃ s' w', Hung (some .timedOut) s' w' ∧ Fixed s s' ∧
      w'.attempts.length < (pairs s'.sources s'.backendAddresses).length := by
  induction rest generalizing s w due with
  | zero => exact h.leaves_out_late hpending hahead (by omega) hlate
  | succ rest ih =>
      by_cases hover : s.upstreamOverallDeadline ≤ due * kNanosecondsPerSecond
      · exact h.leaves_out_late hpending hahead (by omega) hover
      · obtain ⟨s₁, w₁, due₁, h₁, hpending₁, hfixed, hrest₁, hlater, hahead₁⟩ :=
          h.retries hpending hahead (Nat.lt_of_not_le hover) (by omega)
        have hlate₁ : s₁.upstreamOverallDeadline ≤ (due₁ + rest) * kNanosecondsPerSecond := by
          rw [hfixed.deadline]
          exact hlate.trans (Nat.mul_le_mul_right _ (by omega))
        obtain ⟨s', w', hclosed, hfixed', hfewer⟩ := ih h₁ hpending₁ hahead₁ (by omega) hlate₁
        exact ⟨s', w', hclosed, hfixed.trans hfixed', hfewer⟩

/-- A moment to begin at which the time is not enough for all candidates. -/
theorem exists_phase (rest time : Nat)
    (hshort : time + 1000000 ≤ (rest + 2) * kNanosecondsPerSecond) :
    ∃ phase due, due = dueTick (phase + time) phase 0 (rest + 1) ∧
      phase < due * kNanosecondsPerSecond ∧ phase + time ≤ (due + rest) * kNanosecondsPerSecond := by
  by_cases hmany : 1 + time ≤ (rest + 1) * kNanosecondsPerSecond
  · -- even a tick for each attempt but the last takes all the time
    have hdue : 1 ≤ dueTick (1 + time) 1 0 (rest + 1) := Nat.le_max_right _ _
    refine ⟨1, _, rfl, ?_, hmany.trans (Nat.mul_le_mul_right _ (by omega))⟩
    unfold kNanosecondsPerSecond
    omega
  · -- the first attempt runs over the next tick
    unfold kNanosecondsPerSecond at hmany hshort
    obtain ⟨spare, hspare⟩ : ∃ spare, time + (spare + 2) = (rest + 2) * 1000000000 :=
      ⟨(rest + 2) * 1000000000 - time - 2, by omega⟩
    obtain ⟨slack, hslack⟩ : ∃ slack, 1000000000 = slack + 2 + spare :=
      ⟨1000000000 - spare - 2, by omega⟩
    have hshare : slack + 2 ≤ time / (rest + 1 + 1) := by
      have hpieces : 0 < rest + 1 + 1 := by omega
      rw [Nat.le_div_iff_mul_le hpieces]
      have hmore : 2 * spare ≤ (rest + 2) * spare := Nat.mul_le_mul_right _ (by omega)
      have hsplit : (slack + 2) * (rest + 1 + 1) + (rest + 2) * spare = (rest + 2) * 1000000000 := by
        rw [hslack]
        ring
      omega
    have hdue : 2 ≤ dueTick (spare + 1 + time) (spare + 1) 0 (rest + 1) := by
      unfold dueTick
      rw [Nat.add_sub_cancel_left]
      have hbounds := (tickAtOrAfter_bounds
        (min (spare + 1 + time / (rest + 1 + 1)) (spare + 1 + time))).1
      generalize time / (rest + 1 + 1) = share at *
      unfold kNanosecondsPerSecond at hbounds
      omega
    refine ⟨spare + 1, _, rfl, ?_, ?_⟩
    · unfold kNanosecondsPerSecond
      omega
    · refine le_trans ?_ (Nat.mul_le_mul_right _ (Nat.add_le_add_right hdue rest))
      unfold kNanosecondsPerSecond
      omega

/-- An IPv4 address by its number. -/
def numbered (number : Nat) : SocketAddress :=
  ⟨[UInt8.ofNat (number / 2 ^ 24), UInt8.ofNat (number / 2 ^ 16), UInt8.ofNat (number / 2 ^ 8),
    UInt8.ofNat number], .inet⟩

/-- A backend with so many addresses. -/
def manyAddresses (count : Nat) : Backend :=
  { ref := 1, socketAddresses := (List.range count).map numbered, sendProxyV2 := false }

/-- A configuration with that backend and a timeout. -/
def manyCandidates (count : Nat) (timeout : Int) : RuntimeSnapshot where
  routing := { pools := [{ backends := [manyAddresses count] }] }
  limits := { upstreamConnectTimeoutMilliseconds := timeout }

/-- Any positive timeout is accepted, for however many candidates. -/
theorem manyCandidates_valid {timeout : Int} (count : Nat) (h : 0 < timeout) :
    validateLimits (manyCandidates count timeout).limits = .ok () := by
  have hpositive : requirePositiveInt timeout "limits.upstream_connect_timeout_milliseconds" = .ok () :=
    if_neg (by omega)
  have hdefault := default_limits_accepted.validated
  simp only [validateLimits, Checked.bind_ok, Checked.test_ok] at hdefault ⊢
  obtain ⟨h1, h2, h3, h4, h5, h6, h7, h8, h9, h10, h11, h12, h13, h14, h15, h16, h17, h18, h19, h20,
    h21, h22, h23, _, h25⟩ := hdefault
  exact ⟨h1, h2, h3, h4, h5, h6, h7, h8, h9, h10, h11, h12, h13, h14, h15, h16, h17, h18, h19, h20,
    h21, h22, h23, hpositive, h25⟩

/-- A miner whose backend has two addresses. -/
def hungMiner (limits : LimitsConfig) : Session :=
  plainMiner { routing := Router.playedTable Router.playThen, limits := limits }

/-- `begin_upstream_connect`, six tenths of a second after a whole second. -/
def hungPlay (limits : LimitsConfig) : (Except Exit Unit × Session) × Clockwork :=
  (beginUpstreamConnect (hungMiner limits)).play hanging silence
    { clock := 600000000, wheel := TimerWheel.new 0 }

/-- The miner of the example has tried nothing yet. -/
theorem hungMiner_starting {limits : LimitsConfig} (h : validateLimits limits = .ok ()) :
    Starting (hungMiner limits) { clock := 600000000, wheel := TimerWheel.new 0 } where
  limits := h
  wheel := ⟨0, [], rfl⟩
  tick := by decide
  attempts := rfl

/-- What is played is a session that hangs. -/
theorem hungPlay_hung {limits : LimitsConfig} (h : validateLimits limits = .ok ())
    (hok : (hungPlay limits).1.1 = .ok ()) :
    Hung none (hungPlay limits).1.2 (hungPlay limits).2 := by
  have hrun := runs_play silence_allowed { clock := 600000000, wheel := TimerWheel.new 0 }
    (beginUpstreamConnect (hungMiner limits))
  unfold hungPlay at hok ⊢
  generalize (beginUpstreamConnect (hungMiner limits)).play hanging silence
    { clock := 600000000, wheel := TimerWheel.new 0 } = played at hok hrun ⊢
  obtain ⟨⟨result, s⟩, w⟩ := played
  have hok : result = .ok () := hok
  subst hok
  exact .began (hungMiner_starting h) hrun

/-- One second for connecting. -/
def hastyLimits : LimitsConfig := { upstreamConnectTimeoutMilliseconds := 1000 }

/-- **One of two candidates is never tried**: with a second for both, the timer of the first
fires at 2 s, and the time is up at 1.6 s. -/
theorem second_candidate_never_tried :
    ∃ s w, Hung (some .timedOut) s w ∧ validateLimits s.limits = .ok () ∧
      (pairs s.sources s.backendAddresses).length = 2 ∧ w.attempts.length = 1 := by
  have hvalid : validateLimits hastyLimits = .ok () := by rfl
  have hok : (hungPlay hastyLimits).1.1 = .ok () := by decide +kernel
  have hung := hungPlay_hung hvalid hok
  obtain ⟨due, hpending⟩ := hung.outcome.1 rfl
  have hdue : due = 2 := by
    obtain ⟨map, hrep, hentry⟩ := hpending.timed.entry
    have hfound : ((hungPlay hastyLimits).2.wheel.find (hungPlay hastyLimits).1.2.id).map Prod.snd =
        some 2 := by decide +kernel
    rw [hrep.find, hentry] at hfound
    exact Option.some.inj hfound
  subst hdue
  have hclock : (hungPlay hastyLimits).2.clock = 600000000 := by decide +kernel
  have hoverall : (hungPlay hastyLimits).1.2.upstreamOverallDeadline = 1600000000 := by
    decide +kernel
  have hcandidates : (pairs (hungPlay hastyLimits).1.2.sources
      (hungPlay hastyLimits).1.2.backendAddresses).length = 2 := by decide +kernel
  have hlimits : (hungPlay hastyLimits).1.2.limits = hastyLimits := by decide +kernel
  have htried : (hungPlay hastyLimits).2.attempts.length = 1 := by decide +kernel
  obtain ⟨w, hclosed, hattempts⟩ := hung.closes_late hpending (by rw [hclock]; decide)
    (by rw [hoverall]; decide)
  refine ⟨_, w, hclosed, ?_, hcandidates, ?_⟩
  · show validateLimits (hungPlay hastyLimits).1.2.limits = .ok ()
    rw [hlimits]
    exact hvalid
  · rw [hattempts]
    exact htried

/-- A session with so many candidates and that much time leaves one out, if the share of each
is less than a second. -/
theorem candidate_left_out {candidates : Nat} {timeout : Int} (hmany : 2 ≤ candidates)
    (hpos : 0 < timeout) (hshort : timeout < candidates * 1000) :
    ∃ s w, Hung (some .timedOut) s w ∧
      (pairs s.sources s.backendAddresses).length = candidates ∧
      s.limits.upstreamConnectTimeoutMilliseconds = timeout ∧ w.attempts.length < candidates := by
  obtain ⟨rest, rfl⟩ : ∃ rest, candidates = rest + 2 := ⟨candidates - 2, by omega⟩
  obtain ⟨milliseconds, rfl⟩ := Int.eq_ofNat_of_zero_le hpos.le
  obtain ⟨phase, due, hdue, hahead, hlate⟩ :=
    exists_phase rest (milliseconds * kNanosecondsPerMillisecond)
      (by unfold kNanosecondsPerMillisecond kNanosecondsPerSecond; push_cast at hshort; omega)
  let s : Session := plainMiner (manyCandidates (rest + 2) milliseconds)
  let s₁ : Session := { s with backend := some (manyAddresses (rest + 2)) }
  let w : Clockwork := { clock := phase, wheel := TimerWheel.new 0 }
  have hstart : Starting s w :=
    ⟨manyCandidates_valid (rest + 2) hpos, ⟨0, [], rfl⟩, Nat.zero_le _, rfl⟩
  have hpairs : (pairs s₁.sources s₁.backendAddresses).length = rest + 2 := by
    show ((List.map numbered (List.range (rest + 2))).flatMap fun address =>
      [(address, (none : Option SocketAddress))]).length = rest + 2
    simp [Function.comp_def]
  have hplay := runs_play silence_allowed w (connectBackend 0 s₁)
  have hholds : Holds hanging s₁ w (connectBackend 0) (fun _ => Opened s₁ w) _ :=
    connectBackend_hangs hpos (represents_new 0) (Nat.zero_le _) rfl
  have hopens := hholds.sound hplay
  generalize (connectBackend 0 s₁).play hanging silence w = played at hplay hopens
  obtain ⟨⟨result, s'⟩, w'⟩ := played
  have hrun : Runs hanging w (beginUpstreamConnect s) (result, s') w' :=
    .ask (0 : Nat) trivial (.ask (fun _ => ⟨true, 0⟩ : BackendView) trivial hplay)
  cases result with
  | error e =>
      obtain ⟨⟨_, hnone⟩, hbackend, hruntime⟩ := hopens
      have hsame : pairs s'.sources s'.backendAddresses = pairs s₁.sources s₁.backendAddresses := by
        unfold Session.sources Session.backendAddresses
        rw [hbackend, hruntime]
      rw [hnone] at hsame
      rw [← hsame] at hpairs
      cases hpairs
  | ok _ =>
      have hopens : Opened s₁ w s' w' := hopens
      have hfixed : s'.sources = s₁.sources ∧ s'.backendAddresses = s₁.backendAddresses ∧
          s'.limits = s₁.limits := by
        unfold Session.sources Session.backendAddresses Session.limits
        rw [hopens.backend, hopens.runtime]
        exact ⟨rfl, rfl, rfl⟩
      have hrest : s'.connectCandidatesRemaining = rest + 1 := by
        have hcount := hopens.rest
        rw [hfixed.1, hfixed.2.1, hpairs] at hcount
        omega
      have hoverall : s'.upstreamOverallDeadline =
          phase + milliseconds * kNanosecondsPerMillisecond := hopens.overall
      have hpending : Pending s' w' due := by
        have hpending := hopens.pending
        rw [hoverall, hrest] at hpending
        rw [hdue]
        exact hpending
      obtain ⟨s₂, w₂, hclosed, hfixed₂, hfewer⟩ := (Hung.began hstart hrun).leaves_out hpending
        (hopens.clock.symm ▸ hahead) hrest (hoverall ▸ hlate)
      have hlength : (pairs s₂.sources s₂.backendAddresses).length = rest + 2 := by
        rw [hfixed₂.sources, hfixed₂.backendAddresses, hfixed.1, hfixed.2.1]
        exact hpairs
      refine ⟨s₂, w₂, hclosed, hlength, ?_, hlength ▸ hfewer⟩
      show s₂.runtime.limits.upstreamConnectTimeoutMilliseconds = _
      rw [hfixed₂.runtime]
      exact congrArg LimitsConfig.upstreamConnectTimeoutMilliseconds hfixed.2.2

/-- **When every candidate gets a turn.**  For every number of candidates and every timeout that
`validate` accepts: all of them are tried before a session whose attempts all hang is closed,
whenever it begins, exactly if there is one candidate or the time is enough for a second each. -/
theorem every_candidate_gets_a_turn {candidates : Nat} {timeout : Int} (hsome : 0 < candidates)
    (hpos : 0 < timeout) :
    (∀ result s w, Hung result s w → (pairs s.sources s.backendAddresses).length = candidates →
      s.limits.upstreamConnectTimeoutMilliseconds = timeout → AllTried result s w) ↔
    candidates = 1 ∨ (candidates * 1000 : Int) ≤ timeout := by
  constructor
  · intro hall
    by_contra hshort
    obtain ⟨hone, hshort⟩ := not_or.mp hshort
    have hmany : 2 ≤ candidates := by omega
    obtain ⟨s, w, hclosed, hlength, htimeout, hfewer⟩ :=
      candidate_left_out hmany hpos (Int.lt_of_not_ge hshort)
    have htried := ((hall _ s w hclosed hlength htimeout).1 _ rfl).2.length_eq
    omega
  · intro hshares result s w hung hlength htimeout
    refine hung.allTried ?_ ?_
    · intro hnone
      rw [hnone] at hlength
      exact absurd hlength hsome.ne
    · unfold Shares
      rw [hlength, htimeout]
      exact hshares

/-- Fifteen seconds are enough for two candidates. -/
theorem every_candidate_gets_a_turn_of_two :
    ∃ s w, Hung (some .timedOut) s w ∧ (pairs s.sources s.backendAddresses).length = 2 ∧
      w.attempts.Perm (pairs s.sources s.backendAddresses) := by
  have hvalid : validateLimits {} = .ok () := default_limits_accepted.validated
  have hok : (hungPlay {}).1.1 = .ok () := by decide +kernel
  have hung := hungPlay_hung hvalid hok
  obtain ⟨due, hpending⟩ := hung.outcome.1 rfl
  have hcandidates : (pairs (hungPlay {}).1.2.sources
      (hungPlay {}).1.2.backendAddresses).length = 2 := by
    decide +kernel
  have hlimits : (hungPlay {}).1.2.limits = {} := by decide +kernel
  have hrest : (hungPlay {}).1.2.connectCandidatesRemaining = 1 := by decide +kernel
  have hshares : Shares (hungPlay {}).1.2 := by
    unfold Shares
    rw [hcandidates, hlimits]
    decide
  obtain ⟨hahead, _, htime⟩ := hpending.inTime hshares
  have hearly := htime (by omega)
  rw [hrest, Nat.add_sub_cancel] at hearly
  obtain ⟨s₁, w₁, due₁, h₁, hpending₁, hfixed, hrest₁, _, hahead₁⟩ :=
    hung.retries hpending hahead hearly (by omega)
  obtain ⟨_, hlast, _⟩ := hpending₁.inTime ((shares_congr hfixed).mpr hshares)
  obtain ⟨w₂, hclosed, _⟩ := h₁.closes_late hpending₁ hahead₁ (hlast (by omega)).1
  have hlength : (pairs s₁.dropUpstream.sources s₁.dropUpstream.backendAddresses).length = 2 := by
    show (pairs s₁.sources s₁.backendAddresses).length = 2
    rw [hfixed.sources, hfixed.backendAddresses]
    exact hcandidates
  have htimeout : s₁.dropUpstream.limits.upstreamConnectTimeoutMilliseconds = 15000 := by
    show s₁.runtime.limits.upstreamConnectTimeoutMilliseconds = 15000
    rw [hfixed.runtime]
    exact congrArg LimitsConfig.upstreamConnectTimeoutMilliseconds hlimits
  have hturns := (every_candidate_gets_a_turn (by decide) (by decide)).mpr (.inr (by decide))
    _ _ _ hclosed hlength htimeout
  exact ⟨_, w₂, hclosed, hlength, (hturns.1 _ rfl).2⟩

end PoolLb.TimeSlice
