import PoolLb.SessionCalls
import PoolLb.SetupDeadlines
import PoolLb.TimeSlices

/-!
# Setup ends in time

A worker whose timers are looked at in every second, and whose clock stands still while it
works, does not let a client stretch the stages of its setup.  A session that is not a relay is
at most two seconds late when it acts: one because its timer is rounded up to a whole tick, and
one because that tick is looked at some time within its second.  So each stage begins at most
two seconds after the deadline of the one before, and the sum of the three timeouts and six
seconds is more than any session has.

`TimelyRun` are the runs of such a worker, with the time of the last look at the timers and the
time at which each session was accepted.
-/

namespace PoolLb.Setup

open Interaction Handler TimerWheel

variable {json : Glaze} {s s' : Session} {w w' : Outside} {d d' : Desk}

/-! ## Bounds -/

/-- The time for the TLS handshake, on a TLS listener. -/
def tlsTime (s : Session) : Nat :=
  if s.ssl then s.limits.tlsHandshakeTimeoutSeconds.toNat * kNanosecondsPerSecond else 0

/-- The time for the first line. -/
def firstTime (s : Session) : Nat :=
  s.limits.firstMessageTimeoutSeconds.toNat * kNanosecondsPerSecond

/-- The latest deadline of each stage. -/
def stageLimit (birth : Nat) (s : Session) : SessionStage → Nat
  | .tlsHandshake => birth + tlsTime s
  | .firstMessage => birth + tlsTime s + firstTime s + 2 * kNanosecondsPerSecond
  | .upstreamConnect | .relay =>
      birth + tlsTime s + firstTime s + connectTime s + 4 * kNanosecondsPerSecond

/-- The deadlines of a session that was accepted at `birth`. -/
structure Bounded (birth : Nat) (s : Session) : Prop where
  deadline : s.stage ≠ .relay → s.deadline ≤ stageLimit birth s s.stage
  overall : s.stage = .upstreamConnect →
    s.upstreamOverallDeadline ≤ stageLimit birth s .upstreamConnect

/-- The wheel has not passed the deadline of the session. -/
def Ahead (tick : Nat) (s : Session) : Prop := s.stage ≠ .relay → tick ≤ tickFloor s.deadline

theorem stageLimit_congr (birth : Nat) (stage : SessionStage) (hruntime : s'.runtime = s.runtime)
    (hssl : s'.ssl = s.ssl) : stageLimit birth s' stage = stageLimit birth s stage := by
  have htls : tlsTime s' = tlsTime s := by
    unfold tlsTime Session.limits
    rw [hruntime, hssl]
  have hfirst : firstTime s' = firstTime s := by
    unfold firstTime Session.limits
    rw [hruntime]
  have hconnect : connectTime s' = connectTime s := by
    unfold connectTime Session.limits
    rw [hruntime]
  unfold stageLimit
  rw [htls, hfirst, hconnect]

/-- Each stage begins at most two seconds after the limit of the one before. -/
theorem stageLimit_first (birth : Nat) (s : Session) : stageLimit birth s .firstMessage =
    stageLimit birth s .tlsHandshake + 2 * kNanosecondsPerSecond + firstTime s := by
  show birth + tlsTime s + firstTime s + 2 * kNanosecondsPerSecond = birth + tlsTime s + _ + _
  omega

/-- Connecting has its own time after the latest end of the first line. -/
theorem stageLimit_connect (birth : Nat) (s : Session) : stageLimit birth s .upstreamConnect =
    stageLimit birth s .firstMessage + 2 * kNanosecondsPerSecond + connectTime s := by
  show birth + tlsTime s + firstTime s + connectTime s + 4 * kNanosecondsPerSecond =
    birth + tlsTime s + firstTime s + 2 * kNanosecondsPerSecond + _ + _
  omega

/-- The stage of connecting ends last. -/
theorem stageLimit_le (birth : Nat) (s : Session) (stage : SessionStage) :
    stageLimit birth s stage ≤ stageLimit birth s .upstreamConnect := by
  have hfirst := stageLimit_first birth s
  have hconnect := stageLimit_connect birth s
  cases stage with
  | tlsHandshake => omega
  | firstMessage => omega
  | upstreamConnect => exact le_rfl
  | relay => exact le_rfl

/-- Who acts in a second that follows one the wheel has seen is not two seconds late. -/
theorem Ahead.near {tick clock : Nat} (h : Ahead tick s) (hstage : s.stage ≠ .relay)
    (hclock : tickFloor clock ≤ tick + 1) : clock < s.deadline + 2 * kNanosecondsPerSecond := by
  have hle := h hstage
  unfold tickFloor at hle hclock
  unfold kNanosecondsPerSecond at *
  omega

theorem tickFloor_mono {time time' : Nat} (h : time ≤ time') : tickFloor time ≤ tickFloor time' :=
  Nat.div_le_div_right h

section Reaction

variable {birth tick : Nat} {now d₁ : Diary}

/-- **A reaction keeps the bounds.** -/
theorem Bounded.advanced (h : Bounded birth s) (hadvances : Advances s now s' d₁)
    (hclock : d₁.clock = now.clock)
    (hnear : s.stage ≠ .relay → now.clock < s.deadline + 2 * kNanosecondsPerSecond) :
    Bounded birth s' := by
  have hlimit : ∀ stage, stageLimit birth s' stage = stageLimit birth s stage := fun stage =>
    stageLimit_congr birth stage hadvances.runtime hadvances.ssl
  cases hadvances.headway with
  | waits hstage hdeadline hoverall =>
      refine ⟨fun hrelay => ?_, fun hconnect => ?_⟩
      · rw [hdeadline, hlimit, hstage]
        exact h.deadline (hstage ▸ hrelay)
      · rw [hoverall, hlimit]
        exact h.overall (hstage ▸ hconnect)
  | greeted hbefore hstage hoverall hdeadline =>
      refine ⟨fun _ => ?_, fun hconnect => nomatch hstage.symm.trans hconnect⟩
      have hrelay : s.stage ≠ .relay := by rw [hbefore]; decide
      have hold := h.deadline hrelay
      have hnear := hnear hrelay
      have hnew : s'.deadline = now.clock + firstTime s := hdeadline hclock
      rw [hbefore] at hold
      rw [hnew, hlimit, hstage, stageLimit_first]
      omega
  | connects hstage _ hslice _ hoverall =>
      have hbound : s'.upstreamOverallDeadline ≤ stageLimit birth s .upstreamConnect := by
        rcases hoverall with ⟨hbefore, hsame⟩ | ⟨hearly, hnew⟩
        · rw [hsame]
          exact h.overall hbefore
        · have hrelay : s.stage ≠ .relay := by
            rcases hearly with htls | hfirst
            · rw [htls]; decide
            · rw [hfirst]; decide
          have hold := h.deadline hrelay
          have hnear := hnear hrelay
          have hstart : stageLimit birth s s.stage ≤ stageLimit birth s .firstMessage := by
            rcases hearly with htls | hfirst
            · rw [htls, stageLimit_first]
              omega
            · rw [hfirst]
          rw [hnew hclock, stageLimit_connect]
          omega
      refine ⟨fun _ => ?_, fun _ => hlimit _ ▸ hbound⟩
      rw [hlimit, hstage]
      exact hslice.trans hbound
  | relays hstage =>
      exact ⟨fun hrelay => absurd hstage hrelay, fun hconnect => nomatch hstage.symm.trans hconnect⟩

/-- A reaction sets no deadline that has passed. -/
theorem Ahead.advanced (h : Ahead tick s) (hadvances : Advances s now s' d₁)
    (hclock : d₁.clock = now.clock) (htick : tick ≤ tickFloor now.clock) : Ahead tick s' := by
  intro hrelay
  cases hadvances.headway with
  | waits hstage hdeadline _ =>
      rw [hdeadline]
      exact h (hstage ▸ hrelay)
  | greeted _ _ _ hdeadline =>
      rw [hdeadline hclock]
      exact htick.trans (tickFloor_mono (Nat.le_add_right _ _))
  | connects _ _ _ hahead _ => exact htick.trans (tickFloor_mono (hahead hclock))
  | relays hstage => exact absurd hstage hrelay

end Reaction

/-! ## Desks -/

/-- The clock, the wheel and the ids of a worker go forward. -/
structure Grows (w w' : Outside) : Prop where
  clock : w.clock ≤ w'.clock
  tick : w.wheel.currentTick ≤ w'.wheel.currentTick
  nextId : w.nextId ≤ w'.nextId

theorem Grows.trans {w'' : Outside} (h : Grows w w') (h' : Grows w' w'') : Grows w w'' :=
  ⟨h.clock.trans h'.clock, h.tick.trans h'.tick, h.nextId.trans h'.nextId⟩

/-- Time, ticks and ids go forward while the code of a session runs. -/
theorem grows_follows {c c' : Config} (h : Follows json c c') (hticking : c.Ticking) :
    Grows c.outside c'.outside :=
  ⟨h.clock_le, (h.ticking hticking).2.tick.symm.le, h.sameRoll.nextId.symm.le⟩

/-- Writing a session back moves no clock. -/
theorem grows_stored (w : Outside) (s : Session) : Grows w (w.stored s) := ⟨le_rfl, le_rfl, le_rfl⟩

/-- Nor does closing one. -/
theorem grows_parted (w : Outside) (s : Session) : Grows w (w.parted s) :=
  ⟨le_rfl, (cancel_currentTick w.wheel s.id).symm.le, le_rfl⟩

/-- The last words of a session and its end. -/
theorem grows_farewell {c e : Config} (hticking : e.Ticking)
    (hlast : Follows json (.start e.session (e.outside.stored e.session)) c) :
    Grows e.outside (c.outside.parted c.session) :=
  (grows_stored e.outside e.session).trans
    ((grows_follows hlast ⟨hticking.consistent, hticking.active⟩).trans (grows_parted _ _))

/-- **One deed of a worker**: its clock, its wheel and its ids go forward. -/
theorem grows_deed (hdeed : Deed json d d') (hbooked : d.outside.Booked) (hclocked : d.Clocked) :
    Grows d.outside d'.outside := by
  cases hdeed with
  | react event hs _ hrun =>
      obtain ⟨c, hmoves, rfl, rfl⟩ := hbooked.moves hs hrun
      exact (grows_follows hmoves (hclocked.ticking hs)).trans (grows_stored _ _)
  | fail hs hmoves hlast =>
      exact (grows_follows hmoves (hclocked.ticking hs)).trans
        (grows_farewell (hmoves.ticking (hclocked.ticking hs)).1 hlast)
  | close hs hlast =>
      exact (grows_follows hlast (hclocked.ticking hs)).trans (grows_parted _ _)
  | advance now =>
      refine ⟨le_rfl, ?_, le_rfl⟩
      show _ ≤ (TimerWheel.advance _ now).1.currentTick
      rw [(hclocked.consistent.advance now).2]
      exact Nat.le_max_left _ _
  | skip _ => exact ⟨le_rfl, le_rfl, le_rfl⟩
  | expire hs _ _ hrun =>
      obtain ⟨c, hmoves, rfl, rfl⟩ := hbooked.expiry_moves json hs hrun
      exact (grows_follows hmoves (hclocked.ticking hs)).trans (grows_stored _ _)
  | lapse hs _ _ hmoves hlast =>
      exact (grows_follows hmoves (hclocked.ticking hs)).trans
        (grows_farewell (hmoves.ticking (hclocked.ticking hs)).1 hlast)
  | opens hs _ _ _ => exact ⟨le_rfl, (schedule_currentTick _ _ _ _).symm.le, Nat.le_succ _⟩
  | idle hidle => exact ⟨hidle.clock, hidle.wheel ▸ le_rfl, hidle.nextId⟩

/-- Every session is within its bounds, and the wheel has not passed the deadline of any whose
timer is not in hand. -/
structure InTime (births : Nat → Nat) (d : Desk) : Prop where
  bounded : ∀ id s, d.outside.sessions.lookup id = some s → Bounded (births id) s
  ahead : ∀ id s, d.outside.sessions.lookup id = some s →
    ⟨id, s.timeoutGeneration⟩ ∈ d.due ∨ Ahead d.outside.wheel.currentTick s

variable {births : Nat → Nat} {due due' : List TimerExpiry} {time time' : Nat}

/-- One session has been at work. -/
theorem InTime.worked {id : Nat} (h : InTime births ⟨w, due, time⟩) (hspares : w.SparesOthers id w')
    (hdue : ∀ x ∈ due, x.sessionId ≠ id → x ∈ due')
    (hown : ∀ t, w'.sessions.lookup id = some t →
      Bounded (births id) t ∧ Ahead w'.wheel.currentTick t) :
    InTime births ⟨w', due', time'⟩ := by
  refine ⟨fun other t ht => ?_, fun other t ht => ?_⟩
  · by_cases hother : other = id
    · subst hother
      exact (hown t ht).1
    · exact h.bounded other t (hspares.table other hother ▸ ht)
  · by_cases hother : other = id
    · subst hother
      exact .inr (hown t ht).2
    · rcases h.ahead other t (hspares.table other hother ▸ ht) with hin | hahead
      · exact .inl (hdue _ hin hother)
      · refine .inr ?_
        show Ahead w'.wheel.currentTick t
        rw [hspares.tick]
        exact hahead

/-- A session that has been at work is put back. -/
theorem InTime.reacted {c : Config} (h : InTime births ⟨w, due, time⟩)
    (hclocked : Desk.Clocked ⟨w, due, time⟩) (hs : w.Holds s)
    (hmoves : Follows json (.start s w) c) (hdue : ∀ x ∈ due, x.sessionId ≠ s.id → x ∈ due')
    (hbounded : Bounded (births s.id) c.session) (hahead : Ahead w.wheel.currentTick c.session) :
    InTime births ⟨c.outside.stored c.session, due', time'⟩ := by
  have hspares := (hmoves.ticking (hclocked.ticking hs)).2
  have hid : c.session.id = s.id := hmoves.frame.2.2
  have hstored := Outside.sparesOthers_stored c.outside c.session
  rw [hid] at hstored
  refine h.worked (hspares.trans hstored) hdue fun t ht => ?_
  have ht : (c.outside.sessions.insert c.session.id c.session).lookup s.id = some t := ht
  rw [hid, AList.lookup_insert] at ht
  rw [← Option.some.inj ht]
  refine ⟨hbounded, ?_⟩
  show Ahead c.outside.wheel.currentTick c.session
  rw [hspares.tick]
  exact hahead

/-- A session that is gone has no deadlines. -/
theorem InTime.farewell {c : Config} (h : InTime births ⟨w, due, time⟩)
    (hspares : w.SparesOthers s.id c.outside) (hcons : c.outside.wheel.Consistent)
    (hid : c.session.id = s.id) (hdue : ∀ x ∈ due, x.sessionId ≠ s.id → x ∈ due') :
    InTime births ⟨c.outside.parted c.session, due', time'⟩ := by
  have hparted := Outside.sparesOthers_parted hcons c.session
  rw [hid] at hparted
  refine h.worked (hspares.trans hparted) hdue fun t ht => ?_
  have hgone : (c.outside.parted c.session).sessions.lookup s.id = none :=
    hid ▸ AList.lookup_erase c.session.id c.outside.sessions
  exact absurd (hgone.symm.trans ht) (by simp)

/-- A session whose reaction ends it. -/
theorem InTime.lapsed {c e : Config} (h : InTime births ⟨w, due, time⟩)
    (hclocked : Desk.Clocked ⟨w, due, time⟩) (hs : w.Holds s)
    (hmoves : Follows json (.start s w) e)
    (hlast : Follows json (.start e.session (e.outside.stored e.session)) c)
    (hdue : ∀ x ∈ due, x.sessionId ≠ s.id → x ∈ due') :
    InTime births ⟨c.outside.parted c.session, due', time'⟩ := by
  obtain ⟨hticking, hspares⟩ := hmoves.ticking (hclocked.ticking hs)
  obtain ⟨hend, hlater, hid⟩ := hticking.last_words hlast
  have hsame : e.session.id = s.id := hmoves.frame.2.2
  exact h.farewell (hspares.trans (hsame ▸ hlater)) hend.consistent (hid.trans hsame) hdue

/-- A session that has sent no line is in one of the first two stages. -/
theorem early_of_proper (h : s.Proper) : s.protocolState.receivedMessage = false → Early s := by
  intro hsilent
  have hunbacked := h.silent_unbacked hsilent
  unfold SessionStage.Backed at hunbacked
  unfold Early
  cases hstage : s.stage with
  | tlsHandshake => exact .inl rfl
  | firstMessage => exact .inr rfl
  | upstreamConnect => exact absurd (.inl hstage) hunbacked
  | relay => exact absurd (.inr hstage) hunbacked

/-- A session that waits for its first line from the start. -/
theorem bounded_first {birth : Nat} (hstage : s.stage = .firstMessage)
    (hdeadline : s.deadline = birth + firstTime s) : Bounded birth s := by
  refine ⟨fun _ => ?_, fun hconnect => nomatch hstage.symm.trans hconnect⟩
  have hbirth : birth ≤ stageLimit birth s .tlsHandshake := Nat.le_add_right _ _
  rw [hstage, stageLimit_first, hdeadline]
  omega

/-- A session that starts with a handshake. -/
theorem bounded_tls {birth : Nat} (hstage : s.stage = .tlsHandshake)
    (hdeadline : s.deadline = birth + tlsTime s) : Bounded birth s := by
  refine ⟨fun _ => ?_, fun hconnect => nomatch hstage.symm.trans hconnect⟩
  rw [hstage, hdeadline]
  exact le_rfl

-- The deadline is a variable in the next two lemmas: where it is a sum of nanoseconds, the
-- kernel counts it down when it compares a session with itself.

/-- What a plain session is made of, as far as its deadlines go. -/
theorem plain_parts (s : Session) (deadline : Nat) :
    ({ s with deadline := deadline } : Session).bump.deadline = deadline ∧
    ({ s with deadline := deadline } : Session).bump.lastActivity = s.lastActivity ∧
    ({ s with deadline := deadline } : Session).bump.limits = s.limits ∧
    ({ s with deadline := deadline } : Session).bump.stage = s.stage := ⟨rfl, rfl, rfl, rfl⟩

/-- What a TLS session is made of, as far as its deadlines go. -/
theorem tls_parts (s : Session) (start deadline : Nat) (t : Session)
    (ht : t = { s with
      ssl := true, stage := .tlsHandshake, tlsHandshakeStartedAt := start, deadline := deadline }) :
    t.bump.deadline = deadline ∧ t.bump.lastActivity = s.lastActivity ∧ t.bump.limits = s.limits ∧
      t.bump.stage = .tlsHandshake ∧ t.bump.ssl = true := by
  subst ht
  exact ⟨rfl, rfl, rfl, rfl, rfl⟩

/-- A plain session is within its bounds when it is accepted. -/
theorem fresh_plain {birth : Nat} (s : Session) (hstage : s.stage = .firstMessage)
    (hborn : s.plain.bump.lastActivity = birth) :
    Bounded birth s.plain.bump ∧ birth ≤ s.plain.bump.deadline := by
  obtain ⟨hdeadline, hactivity, hlimits, hsame⟩ :=
    plain_parts s (afterSeconds s.lastActivity s.limits.firstMessageTimeoutSeconds)
  have hplain : s.plain =
      { s with deadline := afterSeconds s.lastActivity s.limits.firstMessageTimeoutSeconds } := rfl
  rw [← hplain] at hdeadline hactivity hlimits hsame
  rw [hactivity] at hborn
  rw [hborn, ← hlimits] at hdeadline
  refine ⟨bounded_first (hsame.trans hstage) hdeadline, ?_⟩
  rw [hdeadline]
  exact Nat.le_add_right _ _

/-- A TLS session is within its bounds when it is accepted. -/
theorem fresh_tls {birth : Nat} (s : Session) (hborn : s.tls.bump.lastActivity = birth) :
    Bounded birth s.tls.bump ∧ birth ≤ s.tls.bump.deadline := by
  obtain ⟨hdeadline, hactivity, hlimits, hstage, hssl⟩ := tls_parts s s.lastActivity
    (afterSeconds s.lastActivity s.limits.tlsHandshakeTimeoutSeconds) s.tls rfl
  have htime : tlsTime s.tls.bump =
      s.tls.bump.limits.tlsHandshakeTimeoutSeconds.toNat * kNanosecondsPerSecond := if_pos hssl
  rw [hactivity] at hborn
  rw [hborn, ← hlimits, afterSeconds, ← htime] at hdeadline
  refine ⟨bounded_tls hstage hdeadline, ?_⟩
  rw [hdeadline]
  exact Nat.le_add_right _ _

/-- **A new session is within its bounds**, whichever listener it came by. -/
theorem fresh_bounded {birth : Nat} (hs : s.Fresh) (hborn : s.lastActivity = birth) :
    Bounded birth s ∧ birth ≤ s.deadline := by
  obtain ⟨id, client, runtime, header, lease, now, rfl | rfl⟩ := hs
  · exact fresh_plain _ rfl hborn
  · exact fresh_tls _ hborn

/-- The worker acts in the second that its wheel has seen, or the one after. -/
structure Prompt (w : Outside) : Prop where
  floor : w.wheel.currentTick ≤ tickFloor w.clock
  near : tickFloor w.clock ≤ w.wheel.currentTick + 1

/-- **A deed of a worker with no expired timers in hand** keeps its sessions in time, if neither
its clock nor its wheel moves. -/
theorem InTime.deed (hdeed : Deed json d d') (hbooked : d.outside.Booked) (hclocked : d.Clocked)
    (h : InTime births d) (hdue : d.due = []) (hprompt : Prompt d.outside)
    (hclock : d'.outside.clock = d.outside.clock)
    (htick : d'.outside.wheel.currentTick = d.outside.wheel.currentTick)
    (hbirths : ∀ id, d.outside.nextId ≤ id → births id = d.outside.clock) :
    d'.due = [] ∧ InTime births d' := by
  have hnothing : ∀ id : Nat, ∀ x ∈ ([] : List TimerExpiry), x.sessionId ≠ id →
      x ∈ ([] : List TimerExpiry) := fun _ _ hx _ => hx
  cases hdeed with
  | @react w w' s s' time event hs _ hrun =>
      have hadvances : Advances s (diaryOf w) s' (diaryOf w') :=
        (handle_advances event (early_of_proper (hbooked.proper _ _ hs))).sound (runs_diary hrun)
      obtain ⟨c, hmoves, rfl, rfl⟩ := hbooked.moves hs hrun
      have hahead := (h.ahead _ _ hs).resolve_left List.not_mem_nil
      exact ⟨rfl, h.reacted hclocked hs hmoves (hnothing _)
        ((h.bounded _ _ hs).advanced hadvances hclock fun hstage => hahead.near hstage hprompt.near)
        (hahead.advanced hadvances hclock hprompt.floor)⟩
  | fail hs hmoves hlast => exact ⟨rfl, h.lapsed hclocked hs hmoves hlast (hnothing _)⟩
  | close hs hlast =>
      obtain ⟨hticking, hspares⟩ := hlast.ticking (hclocked.ticking hs)
      exact ⟨rfl, h.farewell hspares hticking.consistent hlast.frame.2.2 (hnothing _)⟩
  | @advance w time now =>
      have hcollected := (hclocked.consistent.advance now).1
      have hnone : (w.wheel.advance now).2 = [] := by
        rw [List.eq_nil_iff_forall_not_mem]
        intro x hx
        obtain ⟨e, hstored, _, hpast⟩ := (hcollected.expired x).mp hx
        have hupcoming := hclocked.consistent.upcoming e hstored
        have hsame : (w.wheel.advance now).1.currentTick = w.wheel.currentTick := htick
        exact absurd hupcoming (by rw [hsame] at hpast; exact Nat.not_lt.mpr hpast)
      refine ⟨hnone, h.bounded, fun id s hs => .inr ?_⟩
      rw [htick]
      exact (h.ahead id s hs).resolve_left List.not_mem_nil
  | skip _ => exact nomatch hdue
  | expire _ _ _ _ => exact nomatch hdue
  | lapse _ _ _ _ _ => exact nomatch hdue
  | @opens w s lease time hs hborn hid _ =>
      have hspares : w.SparesOthers s.id (w.opened s lease) :=
        ⟨fun e he => hclocked.consistent.schedule_others e he, schedule_currentTick _ _ _ _,
          fun other hother => AList.lookup_insert_ne hother, le_rfl⟩
      refine ⟨rfl, h.worked hspares (hnothing _) fun t ht => ?_⟩
      have hfound : (w.opened s lease).sessions.lookup s.id = some s := AList.lookup_insert w.sessions
      rw [← Option.some.inj (hfound.symm.trans ht), hbirths s.id hid.symm.le]
      obtain ⟨hbounded, hlate⟩ := fresh_bounded hs hborn
      refine ⟨hbounded, fun _ => ?_⟩
      rw [hspares.tick]
      exact hprompt.floor.trans (tickFloor_mono hlate)
  | idle hidle =>
      refine ⟨rfl, fun id s hs => h.bounded id s (hidle.sessions ▸ hs), fun id s hs => ?_⟩
      rw [hidle.wheel]
      exact h.ahead id s (hidle.sessions ▸ hs)

/-- A session that its expired timer has not ended has time, of its own or for another attempt. -/
theorem expired_in_time {birth : Nat} (h : Bounded birth s)
    (hrun : Runs outside w (expireSession w.clock s) (.ok (), s') w')
    (hclock : w'.clock = w.clock) :
    Bounded birth s' ∧ Ahead (tickFloor w.clock) s' := by
  have hend := (expireSession_notes w.clock s (diaryOf w)).sound (runs_diary hrun)
  rcases hend with ⟨hearly, rfl, _⟩ | ⟨hstage, hend⟩
  · refine ⟨h, fun hrelay => tickFloor_mono ?_⟩
    rw [Session.timeoutDeadline_of_not_relay hrelay] at hearly
    exact hearly.le
  · rcases hend with hstarted | hrelays
    · obtain ⟨deadline, hcourse⟩ := hstarted.same
      have hsame : s'.stage = .upstreamConnect := (congrArg Course.stage hcourse).trans hstage
      have hlimit : stageLimit birth s' .upstreamConnect = stageLimit birth s .upstreamConnect :=
        stageLimit_congr birth _ (congrArg Course.runtime hcourse) (congrArg Course.ssl hcourse)
      -- the session was connecting before, so its overall deadline is an old one
      have hoverall : s'.upstreamOverallDeadline ≤ stageLimit birth s .upstreamConnect := by
        have hold : s'.upstreamOverallDeadline = s.upstreamOverallDeadline :=
          congrArg Course.overall hcourse
        rw [hold]
        exact h.overall hstage
      refine ⟨⟨fun _ => ?_, fun _ => hlimit ▸ hoverall⟩,
        fun _ => tickFloor_mono (hstarted.ahead hclock)⟩
      rw [hsame, hlimit]
      exact hstarted.slice.trans hoverall
    · obtain ⟨deadline, hcourse⟩ := hrelays.same
      have hrelay : s'.stage = .relay := congrArg Course.stage hcourse
      exact ⟨⟨fun hnot => absurd hrelay hnot, fun hconnect => nomatch hrelay.symm.trans hconnect⟩,
        fun hnot => absurd hrelay hnot⟩

/-- **An expired timer is handled** at the time the wheel has come to. -/
theorem InTime.expiry {expiry : TimerExpiry}
    (hdeed : Deed json ⟨w, expiry :: due, time⟩ ⟨w', due', time'⟩) (hbooked : w.Booked)
    (hclocked : Desk.Clocked ⟨w, expiry :: due, time⟩) (h : InTime births ⟨w, expiry :: due, time⟩)
    (hnow : w.clock = time) (hclock : w'.clock = w.clock)
    (htick : w.wheel.currentTick = tickFloor time) : InTime births ⟨w', due', time'⟩ := by
  cases hdeed with
  | skip hstale =>
      refine ⟨h.bounded, fun id s hs => ?_⟩
      rcases h.ahead id s hs with hin | hahead
      · rcases List.mem_cons.mp hin with heq | hin
        · subst heq
          exact absurd rfl (hstale s hs)
        · exact .inl hin
      · exact .inr hahead
  | expire hs hid _ hrun =>
      subst hnow
      obtain ⟨hbounded, hahead⟩ := expired_in_time (h.bounded _ _ hs) hrun hclock
      obtain ⟨c, hmoves, rfl, rfl⟩ := hbooked.expiry_moves json hs hrun
      refine h.reacted hclocked hs hmoves (fun x hx hother => ?_) hbounded (htick ▸ hahead)
      rcases List.mem_cons.mp hx with heq | hin
      · exact absurd (heq ▸ hid) hother
      · exact hin
  | lapse hs hid _ hmoves hlast =>
      refine h.lapsed hclocked hs hmoves hlast fun x hx hother => ?_
      rcases List.mem_cons.mp hx with heq | hin
      · exact absurd (heq ▸ hid) hother
      · exact hin

/-! ## Turns that leave the wheel alone -/

/-- The call is not one that advances the timers. -/
def Untimed : ReactorCall → Prop
  | .advanceTimers _ => False
  | _ => True

/-- The program never advances the timers. -/
abbrev LeavesTick {α : Type} (p : Prog reactorCalls α) : Prop := Stays Untimed (fun _ => True) p

/-- Only advancing the timers turns the wheel. -/
theorem tick_after {c : ReactorCall} (hc : Untimed c) (w : Outside) (r : c.Answer) :
    (outside.after w c r).wheel.currentTick = w.wheel.currentTick := by
  show (w.update c r).wheel.currentTick = w.wheel.currentTick
  cases c with
  | advanceTimers now => exact hc.elim
  | scheduleTimer session generation deadline => exact schedule_currentTick _ _ _ _
  | cancelTimer session => exact cancel_currentTick _ _
  | reserveQueuedBytes use => cases r <;> rfl
  | acquireLease key limits => obtain ⟨result, _ | lease⟩ := r <;> rfl
  | releaseLease lease => cases lease <;> rfl
  | emplaceSession s => cases r <;> rfl
  | _ => rfl

/-- A program that never advances the timers leaves the wheel at its tick. -/
theorem leavesTick_runs {α : Type} {p : Prog reactorCalls α} {a : α} (h : LeavesTick p)
    (hrun : Runs outside w p a w') : w'.wheel.currentTick = w.wheel.currentTick :=
  (Stays.runs (M := outside) (R := fun w w' : Outside => w'.wheel.currentTick = w.wheel.currentTick)
    (fun _ => rfl) (fun _ _ _ hfirst hsecond => hsecond.trans hfirst)
    (fun w _ r hc _ => tick_after hc w r) h hrun).2

section LeavesTick

variable {α β : Type}

theorem leavesTick_bind {p : Prog reactorCalls α} {f : α → Prog reactorCalls β} (h : LeavesTick p)
    (hf : ∀ a, LeavesTick (f a)) : LeavesTick (p >>= f) := h.bind fun a _ => hf a

theorem leavesTick_ask {c : ReactorCall} {f : c.Answer → Prog reactorCalls β} (hc : Untimed c)
    (hf : ∀ r, LeavesTick (f r)) : LeavesTick (request c >>= f) := ⟨hc, hf⟩

/-- The code of a session never advances the timers. -/
theorem leavesTick_local {m : SessionM α} (h : Local m) (s : Session) : LeavesTick (m s) := by
  apply (h.stays s).mono (fun _ _ => trivial) |>.imp
  intro c hc
  cases c with
  | advanceTimers now => exact hc.elim id id
  | _ => trivial

/-- A single call. -/
theorem leavesTick_request {c : ReactorCall} (hc : Untimed c) : LeavesTick (request c) :=
  ⟨hc, fun _ => trivial⟩

theorem leavesTick_ite {P : Prop} [Decidable P] {p q : Prog reactorCalls α} (hp : LeavesTick p)
    (hq : LeavesTick q) : LeavesTick (if P then p else q) := by
  split
  · exact hp
  · exact hq

/-- Work on one session, with what it writes back. -/
theorem onSession_leavesTick {m : SessionM Unit} (h : Local m) (s : Session) :
    LeavesTick (onSession s m) := by
  refine leavesTick_bind (leavesTick_local h s) fun outcome => leavesTick_ask trivial fun _ => ?_
  cases outcome.1 with
  | ok _ => trivial
  | error _ => trivial

/-- A lease that is given back. -/
theorem releaseAdmission_leavesTick (s : Session) : LeavesTick (releaseAdmission s) :=
  leavesTick_ask trivial fun _ => leavesTick_ask trivial fun _ => leavesTick_request trivial

/-- Closing cancels one timer and turns no wheel. -/
theorem closeSession_leavesTick (id : Nat) : LeavesTick (closeSession id) := by
  have hflush : ∀ s, LeavesTick (finalFlush s) := fun s =>
    leavesTick_ite (leavesTick_bind
      (leavesTick_local flushUpstreamQueue_forwards.carries.isLocal s) fun _ =>
      leavesTick_ask trivial fun _ => trivial) trivial
  have hforget : ∀ socket, LeavesTick (forgetSocket socket) := by
    intro socket
    cases socket with
    | none => trivial
    | some socket => exact leavesTick_request trivial
  have hclose : ∀ socket, LeavesTick (closeUpstreamSocket socket) := by
    intro socket
    cases socket with
    | none => trivial
    | some socket => exact leavesTick_request trivial
  have hleave : ∀ s, LeavesTick (leaveBackend s) := by
    intro s
    unfold leaveBackend
    split
    · exact leavesTick_request trivial
    · trivial
  refine leavesTick_ask trivial fun found => ?_
  cases found with
  | none => trivial
  | some s =>
      exact leavesTick_bind (hflush s) fun s => leavesTick_ask trivial fun _ =>
        leavesTick_bind (hforget _) fun _ => leavesTick_bind (hleave s) fun _ =>
        leavesTick_ask trivial fun _ => leavesTick_ask trivial fun _ =>
        leavesTick_bind (releaseAdmission_leavesTick s) fun _ => leavesTick_ask trivial fun _ =>
        leavesTick_ask trivial fun _ => leavesTick_ask trivial fun _ => hclose _

/-- Closing, if the work says so. -/
theorem closeUnless_leavesTick (keep : Bool) (id : Nat) : LeavesTick (closeUnless keep id) :=
  leavesTick_ite trivial (closeSession_leavesTick id)

/-- A session that is entered in the table. -/
theorem registerSession_leavesTick (s : Session) : LeavesTick (registerSession s) := by
  have hfirst : Local firstHandshake := driveTlsHandshake_local.bind fun _ => updateInterests_local
  refine leavesTick_ask trivial fun _ => leavesTick_ite ?_
    (leavesTick_bind (releaseAdmission_leavesTick s) fun _ => leavesTick_request trivial)
  refine leavesTick_ask trivial fun _ =>
    leavesTick_bind (onSession_leavesTick scheduleTimeout_forwards.carries.isLocal s)
    fun _ => leavesTick_ask trivial fun _ => leavesTick_ask trivial fun found => ?_
  cases found with
  | none => trivial
  | some stored =>
      exact leavesTick_ite (leavesTick_bind (onSession_leavesTick hfirst stored) fun keep =>
        closeUnless_leavesTick keep s.id) trivial

/-- A session that is opened on an accepted socket. -/
theorem openSession_leavesTick (listener : Nat) (tlsEnabled : Bool) (s : Session) :
    LeavesTick (openSession listener tlsEnabled s) := by
  have hstream : LeavesTick (createStream listener s.client) :=
    leavesTick_ask trivial fun _ => leavesTick_ite (leavesTick_request trivial) trivial
  exact leavesTick_ite
    (leavesTick_ask trivial fun _ => leavesTick_bind hstream fun _ => leavesTick_ite
      (registerSession_leavesTick s.tls)
      (leavesTick_ask trivial fun _ => leavesTick_bind (releaseAdmission_leavesTick s) fun _ =>
        leavesTick_request trivial))
    (registerSession_leavesTick s.plain)

/-- One connection, from the limiter to the table. -/
theorem acceptConnection_leavesTick (listener : Nat) (tlsEnabled : Bool) (runtime : RuntimeSnapshot)
    (client : Nat) (peer : SockAddr) :
    LeavesTick (acceptConnection listener tlsEnabled runtime client peer) := by
  have hrelease : LeavesTick releaseActiveSlot :=
    leavesTick_ask trivial fun _ => leavesTick_request trivial
  have hadmit : LeavesTick (admitConnection listener tlsEnabled runtime client peer) := by
    refine leavesTick_ask trivial fun address => ?_
    cases address with
    | none => exact leavesTick_bind hrelease fun _ => leavesTick_request trivial
    | some localAddress =>
        refine leavesTick_ask trivial fun admission => leavesTick_ask trivial fun _ => ?_
        exact leavesTick_ite
          (leavesTick_ask trivial fun _ => leavesTick_bind hrelease fun _ => leavesTick_request trivial)
          (leavesTick_ask trivial fun _ => leavesTick_ask trivial fun _ =>
            openSession_leavesTick listener tlsEnabled _)
  exact leavesTick_ask trivial fun _ => leavesTick_ite
    (leavesTick_ask trivial fun _ => leavesTick_ask trivial fun _ => leavesTick_request trivial)
    (leavesTick_ask trivial fun _ => hadmit)

/-- A whole event of a listener. -/
theorem acceptReady_leavesTick (listener : Nat) (tlsEnabled : Bool) :
    LeavesTick (acceptReady listener tlsEnabled) := by
  refine leavesTick_ask trivial fun runtime => ?_
  generalize kMaximumAcceptsPerReadyEvent = attempts
  induction attempts with
  | zero => trivial
  | succ attempts ih =>
      refine leavesTick_ask trivial fun answer => ?_
      cases answer with
      | interrupted => exact ih
      | noResources => trivial
      | nothing => trivial
      | accepted client peer =>
          exact leavesTick_bind (acceptConnection_leavesTick listener tlsEnabled runtime client peer)
            fun _ => ih

theorem closeAll_leavesTick (rounds : Nat) : LeavesTick (closeAll rounds) := by
  induction rounds with
  | zero => trivial
  | succ rounds ih =>
      refine leavesTick_ask trivial fun any => ?_
      cases any with
      | none => trivial
      | some id => exact leavesTick_bind (closeSession_leavesTick id) fun _ => ih

/-- **Only `expire_timeouts` advances the timers.** -/
theorem turn_leavesTick (turn : Turn) (hturn : ∀ now, turn ≠ .expire now) :
    LeavesTick (turn.prog json) := by
  cases turn with
  | socket id event hsocket =>
      refine leavesTick_ask trivial fun found => ?_
      cases found with
      | none => trivial
      | some s =>
          exact leavesTick_bind (onSession_leavesTick (handle_local json event) s) fun keep =>
            closeUnless_leavesTick keep id
  | accept listener tlsEnabled => exact acceptReady_leavesTick listener tlsEnabled
  | expire now => exact absurd rfl (hturn now)
  | shutdown rounds => exact closeAll_leavesTick rounds

end LeavesTick

/-! ## Turns -/

/-- The times at which sessions were accepted, after a turn at `w.clock`. -/
def birthsAfter (w : Outside) (births : Nat → Nat) (id : Nat) : Nat :=
  if (w.sessions.lookup id).isSome then births id else w.clock

/-- The time of the desk plays no part. -/
theorem InTime.retimed (h : InTime births ⟨w, due, time⟩) (time' : Nat) :
    InTime births ⟨w, due, time'⟩ :=
  ⟨h.bounded, h.ahead⟩

/-- Sessions that are in the table keep the times at which they were accepted. -/
theorem InTime.born (h : InTime births ⟨w, [], time⟩) :
    InTime (birthsAfter w births) ⟨w, [], time⟩ := by
  refine ⟨fun id s hs => ?_, h.ahead⟩
  have hsame : birthsAfter w births id = births id :=
    if_pos (Option.isSome_iff_exists.mpr ⟨s, hs⟩)
  rw [hsame]
  exact h.bounded id s hs

/-- A session that is accepted in a turn is born at its time. -/
theorem birthsAfter_new (hbooked : w.Booked) {id : Nat} (hid : w.nextId ≤ id) :
    birthsAfter w births id = w.clock := by
  refine if_neg fun hsome => ?_
  obtain ⟨s, hs⟩ := Option.isSome_iff_exists.mp hsome
  exact absurd (hbooked.known id s hs) (Nat.not_lt.mpr hid)

/-- **A turn at a standing clock**, other than a look at the timers. -/
theorem InTime.turn (hbooked : w.Booked) (hclocked : Desk.Clocked ⟨w, [], 0⟩)
    (h : InTime births ⟨w, [], 0⟩) (hprompt : Prompt w) (turn : Turn)
    (hturn : ∀ now, turn ≠ .expire now) (hrun : Runs outside w (turn.prog json) () w')
    (hclock : w'.clock = w.clock) : InTime (birthsAfter w births) ⟨w', [], 0⟩ := by
  have hdeeds : Deeds json ⟨w, [], 0⟩ ⟨w', [], turn.moment 0⟩ := (turn.does hbooked).sound hrun
  have hend := hdeeds.invariant (I := fun d => d.Clocked ∧ Grows w d.outside ∧
    (d.outside.clock = w.clock → d.outside.wheel.currentTick = w.wheel.currentTick →
      d.due = [] ∧ InTime (birthsAfter w births) d)) hbooked
    ⟨hclocked, ⟨le_rfl, le_rfl, le_rfl⟩, fun _ _ => ⟨rfl, h.born⟩⟩ fun d d' hdeed hbooked' hd => ?_
  · exact (hend.2.2 hclock (leavesTick_runs (turn_leavesTick turn hturn) hrun)).2.retimed 0
  · obtain ⟨hclocked', hgrows, hintime⟩ := hd
    have hgrows' := grows_deed hdeed hbooked' hclocked'
    refine ⟨hdeed.clocked hbooked' hclocked', hgrows.trans hgrows', fun hclock' htick' => ?_⟩
    -- the clock and the wheel stand at the end, so they stood all the time
    have hclockd : d.outside.clock = w.clock :=
      Nat.le_antisymm (hgrows'.clock.trans hclock'.le) hgrows.clock
    have htickd : d.outside.wheel.currentTick = w.wheel.currentTick :=
      Nat.le_antisymm (hgrows'.tick.trans htick'.le) hgrows.tick
    obtain ⟨hdue, hd⟩ := hintime hclockd htickd
    refine hd.deed hdeed hbooked' hclocked' hdue ⟨?_, ?_⟩ (hclock'.trans hclockd.symm)
      (htick'.trans htickd.symm) fun id hid => ?_
    · rw [hclockd, htickd]
      exact hprompt.floor
    · rw [hclockd, htickd]
      exact hprompt.near
    · rw [hclockd]
      exact birthsAfter_new hbooked (hgrows.nextId.trans hid)

/-- A timer is rounded up by less than a tick. -/
theorem tickAtOrAfter_le (deadline : Nat) : tickAtOrAfter deadline ≤ tickFloor deadline + 1 := by
  unfold tickAtOrAfter tickFloor
  dsimp only
  split
  · exact le_rfl
  · exact Nat.le_succ _

/-- **The wheel moves on**, and has the sessions in hand whose deadline it has passed. -/
theorem InTime.advanced (hbooked : w.Booked) (hclocked : Desk.Clocked ⟨w, [], 0⟩)
    (h : InTime births ⟨w, [], 0⟩) (now : Nat) :
    InTime births
      ⟨{ w with wheel := (w.wheel.advance now).1 }, (w.wheel.advance now).2, now⟩ := by
  have hcollected := (hclocked.consistent.advance now).1
  refine ⟨h.bounded, fun id s hs => ?_⟩
  obtain ⟨entry, hstored, hexpiry, hdue⟩ := (hclocked.timed id s hs).resolve_right List.not_mem_nil
  by_cases hfired : entry.dueTick ≤ (w.wheel.advance now).1.currentTick
  · refine .inl ((hcollected.expired _).mpr ⟨entry, hstored, ?_, hfired⟩)
    rw [hexpiry, hbooked.keyed id s hs]
  · refine .inr fun hstage => ?_
    have hahead := (h.ahead id s hs).resolve_left List.not_mem_nil hstage
    have hahead : w.wheel.currentTick ≤ tickFloor s.deadline := hahead
    have hceil := tickAtOrAfter_le s.deadline
    rw [Session.timeoutDeadline_of_not_relay hstage] at hdue
    have hdue : entry.dueTick ≤ max (tickAtOrAfter s.deadline) (w.wheel.currentTick + 1) := hdue
    show (w.wheel.advance now).1.currentTick ≤ tickFloor s.deadline
    omega

/-- The timers were advanced before the sessions are looked at. -/
theorem expireOne_leavesTick (now : Nat) (expiry : TimerExpiry) :
    LeavesTick (expireOne now expiry) := by
  refine leavesTick_ask trivial fun found => ?_
  cases found with
  | none => trivial
  | some s =>
      exact leavesTick_ite trivial (leavesTick_bind (onSession_leavesTick (expireSession_local now) s)
        fun keep => closeUnless_leavesTick keep expiry.sessionId)

/-- The expired timers are handled one after the other, with the clock where the wheel is. -/
theorem expireEach_inTime (json : Glaze) {now : Nat} (hbooked : w.Booked)
    (hclocked : Desk.Clocked ⟨w, due, now⟩) (hnow : now ≤ w.clock)
    (htick : w.wheel.currentTick = tickFloor now)
    (h : w.clock = now → InTime births ⟨w, due, now⟩) :
    Ensures outside w (expireEach now due) (fun _ w' =>
      w'.wheel.currentTick = tickFloor now ∧ (w'.clock = now → InTime births ⟨w', [], now⟩)) := by
  induction due generalizing w with
  | nil => exact ⟨htick, h⟩
  | cons expiry due ih =>
      apply Ensures.bind (expireOne_does json now hbooked).and_runs
      intro _ w₁ hend
      have hdeed : Deed json ⟨w, expiry :: due, now⟩ ⟨w₁, due, now⟩ := hend.1
      have hgrows : Grows w w₁ := grows_deed hdeed hbooked hclocked
      refine ih (hdeed.booked hbooked) (hdeed.clocked hbooked hclocked) (hnow.trans hgrows.clock)
        ((leavesTick_runs (expireOne_leavesTick now expiry) hend.2).trans htick) fun hclock => ?_
      have hstood : w.clock = now := Nat.le_antisymm (hgrows.clock.trans hclock.le) hnow
      exact InTime.expiry hdeed hbooked hclocked (h hstood) hstood (hclock.trans hstood.symm) htick

/-- **A look at the timers at a standing clock.** -/
theorem InTime.sweep (json : Glaze) (hbooked : w.Booked) (hclocked : Desk.Clocked ⟨w, [], 0⟩)
    (h : InTime births ⟨w, [], 0⟩) (hfloor : w.wheel.currentTick ≤ tickFloor w.clock)
    (hrun : Runs outside w (expireTimeouts w.clock) () w') (hclock : w'.clock = w.clock) :
    w'.wheel.currentTick = tickFloor w.clock ∧ InTime births ⟨w', [], 0⟩ := by
  have hdeed : Deed json ⟨w, [], 0⟩ ⟨{ w with wheel := (w.wheel.advance w.clock).1 },
      (w.wheel.advance w.clock).2, w.clock⟩ := .advance w.clock
  have htick : (w.wheel.advance w.clock).1.currentTick = tickFloor w.clock := by
    rw [(hclocked.consistent.advance w.clock).2]
    exact Nat.max_eq_right hfloor
  have hensures : Ensures outside w (expireTimeouts w.clock) (fun _ w' =>
      w'.wheel.currentTick = tickFloor w.clock ∧
        (w'.clock = w.clock → InTime births ⟨w', [], w.clock⟩)) := by
    refine ensures_call_bind trivial fun expired hexpired => ?_
    have hexpired : expired = (w.wheel.advance w.clock).2 := hexpired
    subst hexpired
    exact expireEach_inTime json (w := { w with wheel := (w.wheel.advance w.clock).1 })
      (hdeed.booked hbooked) (hdeed.clocked hbooked hclocked) le_rfl htick
      fun _ => InTime.advanced hbooked hclocked h w.clock
  obtain ⟨htick', hend⟩ := hensures.sound hrun
  exact ⟨htick', (hend hclock).retimed 0⟩

/-! ## Runs -/

/-- The runs of a worker that looks at its timers in every second and whose clock stands while
it works: its state between two turns, the time of the last look, and the time at which each
session was accepted.  Before the first look, the time at which the wheel was made counts. -/
inductive TimelyRun (json : Glaze) : Outside → Nat → (Nat → Nat) → Prop where
  | start (now : Nat) : TimelyRun json (.empty now) now fun _ => now
  | wait {w : Outside} {last : Nat} {births : Nat → Nat} (h : TimelyRun json w last births)
      (now : Nat) (hnow : w.clock ≤ now) (hsecond : tickFloor now ≤ tickFloor last + 1) :
      TimelyRun json { w with clock := now } last births
  | turn {w w' : Outside} {last : Nat} {births : Nat → Nat} (h : TimelyRun json w last births)
      (turn : Turn) (hturn : ∀ now, turn ≠ .expire now)
      (hrun : Runs outside w (turn.prog json) () w') (hclock : w'.clock = w.clock) :
      TimelyRun json w' last (birthsAfter w births)
  | sweep {w w' : Outside} {last : Nat} {births : Nat → Nat} (h : TimelyRun json w last births)
      (hrun : Runs outside w (expireTimeouts w.clock) () w') (hclock : w'.clock = w.clock) :
      TimelyRun json w' w.clock births

/-- A timely run is a run of a worker. -/
theorem TimelyRun.workerRun {last : Nat} (h : TimelyRun json w last births) : WorkerRun json w := by
  induction h with
  | start now => exact .start now
  | wait _ now hnow _ ih => exact .wait ih now hnow
  | turn _ turn _ hrun _ ih => exact .turn ih turn hrun
  | @sweep w w' _ _ _ hrun _ ih => exact .turn ih (.expire w.clock) hrun

/-- What a timely worker is like between two turns. -/
structure Punctual (w : Outside) (last : Nat) (births : Nat → Nat) : Prop where
  tick : w.wheel.currentTick = tickFloor last
  past : last ≤ w.clock
  second : tickFloor w.clock ≤ tickFloor last + 1
  inTime : InTime births ⟨w, [], 0⟩

/-- Between two looks there is at most a second. -/
theorem Punctual.prompt {last : Nat} (h : Punctual w last births) : Prompt w :=
  ⟨h.tick ▸ tickFloor_mono h.past, h.tick ▸ h.second⟩

/-- **By induction on the run**: every session is within its bounds, and the wheel has not
passed a deadline. -/
theorem TimelyRun.punctual {last : Nat} (h : TimelyRun json w last births) :
    Punctual w last births := by
  induction h with
  | start now =>
      refine ⟨rfl, le_rfl, Nat.le_succ _, fun id s hs => absurd hs (Outside.lookup_empty now id s),
        fun id s hs => absurd hs (Outside.lookup_empty now id s)⟩
  | wait _ now hnow hsecond ih =>
      exact ⟨ih.tick, ih.past.trans hnow, hsecond, ih.inTime.bounded, ih.inTime.ahead⟩
  | turn h turn hturn hrun hclock ih =>
      have hworker := h.workerRun
      refine ⟨(leavesTick_runs (turn_leavesTick turn hturn) hrun).trans ih.tick, hclock ▸ ih.past,
        hclock ▸ ih.second,
        InTime.turn hworker.booked hworker.clocked ih.inTime ih.prompt turn hturn hrun hclock⟩
  | sweep h hrun hclock ih =>
      have hworker := h.workerRun
      obtain ⟨htick, hintime⟩ := InTime.sweep json hworker.booked hworker.clocked ih.inTime
        ih.prompt.floor hrun hclock
      exact ⟨htick, hclock.symm.le, hclock ▸ Nat.le_succ _, hintime⟩

/-- A new session has neither greeted nor sent a line. -/
theorem fresh_early (hs : s.Fresh) : Early s := by
  obtain ⟨id, client, runtime, header, lease, now, rfl | rfl⟩ := hs
  · exact .inr (plain_parts _ _).2.2.2
  · exact .inl (tls_parts _ _ _ _ rfl).2.2.2.1

/-- A reaction in the outside is one in the diary. -/
theorem reaction_advances {event : SessionEvent} (hs : s.Proper)
    (hrun : Runs outside w (Session.handle json event s) (.ok (), s') w') :
    Advances s (diaryOf w) s' (diaryOf w') :=
  (handle_advances event (early_of_proper hs)).sound (runs_diary hrun)

/-- Every attempt of a worker's sessions ends within the time for all of them. -/
theorem attempts_within_overall (h : WorkerRun json w) :
    w.Each fun s => s.stage = .upstreamConnect → s.deadline ≤ s.upstreamOverallDeadline := by
  refine h.sessions (fun s hs hconnect => ?_) fun event s s' w w' hproper hs hrun hconnect => ?_
  · rcases fresh_early hs with htls | hfirst
    · exact nomatch htls.symm.trans hconnect
    · exact nomatch hfirst.symm.trans hconnect
  · cases (reaction_advances hproper hrun).headway with
    | waits hstage hdeadline hoverall =>
        rw [hdeadline, hoverall]
        exact hs (hstage ▸ hconnect)
    | greeted _ hstage => exact nomatch hstage.symm.trans hconnect
    | connects _ _ hslice => exact hslice
    | relays hstage => exact nomatch hstage.symm.trans hconnect

/-- **A client cannot postpone its setup.**  Outside the relay the deadline of a session changes
only with the end of its TLS handshake and with a new attempt to connect; the overall deadline
only where connecting begins, and that is once.  No attempt has more time than all of them.  So
a worker that looks at its timers in every second has, after such a look, no session outside
the relay that is older than its three timeouts and six seconds. -/
theorem clients_cannot_postpone_setup (json : Glaze) :
    (∀ w id s event s' w', WorkerRun json w → w.sessions.lookup id = some s →
      Runs outside w (Session.handle json event s) (.ok (), s') w' →
      (s'.stage ≠ .relay → s'.timeoutDeadline ≠ s.timeoutDeadline →
        s.stage = .tlsHandshake ∧ s'.stage = .firstMessage ∨
          s'.stage = .upstreamConnect ∧ (diaryOf w).attempts < (diaryOf w').attempts) ∧
      (s'.stage ≠ .relay → s'.upstreamOverallDeadline ≠ s.upstreamOverallDeadline →
        Early s ∧ s'.stage = .upstreamConnect) ∧
      (s'.stage = .tlsHandshake → s.stage = .tlsHandshake) ∧ (Early s' → Early s)) ∧
    (∀ w id s, WorkerRun json w → w.sessions.lookup id = some s → s.stage = .upstreamConnect →
      s.timeoutDeadline ≤ s.upstreamOverallDeadline) ∧
    ∀ w last births w' id s, TimelyRun json w last births →
      Runs outside w (expireTimeouts w.clock) () w' → w'.clock = w.clock →
      w'.sessions.lookup id = some s → s.stage ≠ .relay →
      w.clock < births id + tlsTime s + firstTime s + connectTime s + 6 * kNanosecondsPerSecond := by
  refine ⟨?_, ?_, ?_⟩
  · intro w id s event s' w' hworker hs hrun
    have hadvances := reaction_advances (hworker.booked.proper id s hs) hrun
    cases hadvances.headway with
    | waits hstage hdeadline hoverall =>
        refine ⟨fun hrelay hchanged => ?_, fun _ hchanged => absurd hoverall hchanged,
          fun htls => hstage.symm.trans htls, fun hearly => ?_⟩
        · rw [Session.timeoutDeadline_of_not_relay hrelay,
            Session.timeoutDeadline_of_not_relay (hstage ▸ hrelay)] at hchanged
          exact absurd hdeadline hchanged
        · unfold Early at hearly ⊢
          rw [← hstage]
          exact hearly
    | greeted hbefore hstage hoverall _ =>
        exact ⟨fun _ _ => .inl ⟨hbefore, hstage⟩, fun _ hchanged => absurd hoverall hchanged,
          fun _ => hbefore, fun _ => .inl hbefore⟩
    | connects hstage hattempted _ _ hoverall =>
        refine ⟨fun _ _ => .inr ⟨hstage, hattempted⟩, fun _ hchanged => ?_,
          fun htls => (nomatch hstage.symm.trans htls), fun hearly => ?_⟩
        · rcases hoverall with ⟨_, hsame⟩ | ⟨hearly, _⟩
          · exact absurd hsame hchanged
          · exact ⟨hearly, hstage⟩
        · rcases hearly with htls | hfirst
          · exact nomatch hstage.symm.trans htls
          · exact nomatch hstage.symm.trans hfirst
    | relays hstage =>
        refine ⟨fun hrelay => absurd hstage hrelay, fun hrelay => absurd hstage hrelay,
          fun htls => (nomatch hstage.symm.trans htls), fun hearly => ?_⟩
        rcases hearly with htls | hfirst
        · exact nomatch hstage.symm.trans htls
        · exact nomatch hstage.symm.trans hfirst
  · intro w id s hworker hs hstage
    have hrelay : s.stage ≠ .relay := by
      rw [hstage]
      decide
    rw [Session.timeoutDeadline_of_not_relay hrelay]
    exact attempts_within_overall hworker id s hs hstage
  · intro w last births w' id s htimely hrun hclock hs hstage
    have hpunctual := (htimely.sweep hrun hclock).punctual
    have hahead := (hpunctual.inTime.ahead id s hs).resolve_left List.not_mem_nil hstage
    have hahead : w'.wheel.currentTick ≤ tickFloor s.deadline := hahead
    have hbound := ((hpunctual.inTime.bounded id s hs).deadline hstage).trans (stageLimit_le _ _ _)
    have hlimit : stageLimit (births id) s .upstreamConnect =
        births id + tlsTime s + firstTime s + connectTime s + 4 * kNanosecondsPerSecond := rfl
    rw [hpunctual.tick] at hahead
    rw [hlimit] at hbound
    unfold tickFloor kNanosecondsPerSecond at *
    omega

open Scenario in
/-- The line of a client starts an attempt to connect and with it a deadline. -/
theorem caller_cannot_postpone_setup :
    (∃ s' w', Runs outside called
        (Session.handle subscribeJson (.client { readable := true }) calling) (.ok (), s') w' ∧
      s'.stage = .upstreamConnect ∧ (diaryOf called).attempts < (diaryOf w').attempts) ∧
    (∃ w s, WorkerRun subscribeJson w ∧ w.sessions.lookup 1 = some s ∧
      s.timeoutDeadline ≤ s.upstreamOverallDeadline) ∧
    ∃ w s births, TimelyRun subscribeJson w 0 births ∧ w.sessions.lookup 1 = some s ∧
      w.clock < births 1 + tlsTime s + firstTime s + connectTime s + 6 * kNanosecondsPerSecond := by
  obtain ⟨hreaction, hattempt, htime⟩ := clients_cannot_postpone_setup subscribeJson
  have htimely : TimelyRun subscribeJson called 0 (birthsAfter (.empty 0) fun _ => 0) :=
    .turn (.start 0) (.accept 0 false) (fun _ h => nomatch h) (caller.runs_turn subscribeJson _ _)
      (by decide +kernel)
  refine ⟨?_, ?_, ?_⟩
  · have hok : (caller.react subscribeJson (.client { readable := true }) calling
        called).1.1 = .ok () := by
      decide +kernel
    have hrun := runs_react_of caller (.client { readable := true }) hok
    have hchanged : (caller.react subscribeJson (.client { readable := true }) calling
        called).1.2.timeoutDeadline ≠ calling.timeoutDeadline := by decide +kernel
    have hstage : (caller.react subscribeJson (.client { readable := true }) calling
        called).1.2.stage = .upstreamConnect := by decide +kernel
    generalize caller.react subscribeJson (.client { readable := true }) calling called = played
      at hrun hchanged hstage
    have hrelay : played.1.2.stage ≠ .relay := by
      rw [hstage]
      decide
    have hend := (hreaction called 1 calling _ _ _ called_run called_calling hrun).1 hrelay hchanged
    rcases hend with ⟨_, hfirst⟩ | hend
    · exact nomatch hstage.symm.trans hfirst
    · exact ⟨_, _, hrun, hend⟩
  · have hrun : WorkerRun subscribeJson (caller.turn subscribeJson
        (.socket 1 (.client { readable := true }) fun _ h => nomatch h) called) :=
      .turn called_run _ (caller.runs_turn subscribeJson _ _)
    have hstage : ((caller.turn subscribeJson (.socket 1 (.client { readable := true })
        fun _ h => nomatch h) called).sessions.lookup 1).map Session.stage = some .upstreamConnect := by
      decide +kernel
    obtain ⟨s, hs, hconnect⟩ := Option.map_eq_some_iff.mp hstage
    exact ⟨_, s, hrun, hs, hattempt _ 1 s hrun hs hconnect⟩
  · have hswept := caller.runs_turn subscribeJson (.expire 0) called
    have hclock : (caller.turn subscribeJson (.expire 0) called).clock = called.clock := by
      decide +kernel
    have hstage : ((caller.turn subscribeJson (.expire 0) called).sessions.lookup 1).map Session.stage =
        some .firstMessage := by decide +kernel
    have hnow : called.clock = 0 := by decide +kernel
    obtain ⟨s, hs, hfirst⟩ := Option.map_eq_some_iff.mp hstage
    have hrelay : s.stage ≠ .relay := by
      rw [hfirst]
      decide
    have hrun : Runs outside called (expireTimeouts called.clock) ()
        (caller.turn subscribeJson (.expire 0) called) := by
      rw [hnow]
      exact hswept
    have hend := htime _ _ _ _ 1 s htimely hrun hclock hs hrelay
    have hlast := htimely.sweep hrun hclock
    rw [hnow] at hlast
    refine ⟨_, s, _, hlast, hs, ?_⟩
    rw [hclock]
    exact hend

end PoolLb.Setup
