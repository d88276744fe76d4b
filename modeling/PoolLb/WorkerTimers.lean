import PoolLb.TimerWheelDrain
import PoolLb.WorkerRun

/-!
# No live session is without its timer

`timeout_deadline` is computed from the stage, the stall flags, the stall deadline and the last
activity of a session, and these change in many handlers that do not touch the timer wheel.
What keeps the wheel useful is that a deadline which moves closer is always followed by
`schedule_timeout` in the same move, while one that moves away is caught when the timer fires.

`Session.Timed` says that the wheel has the timer of a session and that it fires no later than
the next tick at or after its deadline.  Every move keeps it for its own session and leaves the
timers of the others alone; between `advance` and the handling of what it has handed out, the
sessions without a timer are those in hand.
-/

namespace PoolLb

open Interaction Handler Tally TimerWheel

variable {json : Glaze} {c c' : Config} {s s' : Session} {w w' w'' : Outside}
  {wheel wheel' : TimerWheel}

/-- The wheel has the timer of the session. -/
def Session.Timed (s : Session) (wheel : TimerWheel) : Prop :=
  ∃ entry, wheel.Stored entry ∧ entry.expiry = ⟨s.id, s.timeoutGeneration⟩ ∧
    entry.dueTick ≤ dueTickOf wheel.currentTick s.timeoutDeadline

/-! ## What others see of a session at work -/

/-- Sessions other than `id` and their timers have not been touched. -/
structure Outside.SparesOthers (id : Nat) (w w' : Outside) : Prop where
  timers : ∀ e : Entry, e.expiry.sessionId ≠ id → (w'.wheel.Stored e ↔ w.wheel.Stored e)
  tick : w'.wheel.currentTick = w.wheel.currentTick
  table : ∀ other, other ≠ id → w'.sessions.lookup other = w.sessions.lookup other
  clock : w.clock ≤ w'.clock

theorem Outside.SparesOthers.refl (id : Nat) (w : Outside) : w.SparesOthers id w :=
  ⟨fun _ _ => Iff.rfl, rfl, fun _ _ => rfl, le_rfl⟩

theorem Outside.SparesOthers.trans {id : Nat} (h : w.SparesOthers id w')
    (h' : w'.SparesOthers id w'') : w.SparesOthers id w'' :=
  ⟨fun e he => (h'.timers e he).trans (h.timers e he), h'.tick.trans h.tick,
    fun other hother => (h'.table other hother).trans (h.table other hother),
    h.clock.trans h'.clock⟩

/-- Storing a session back touches no other. -/
theorem Outside.sparesOthers_stored (w : Outside) (s : Session) : w.SparesOthers s.id (w.stored s) :=
  ⟨fun _ _ => Iff.rfl, rfl, fun _ hother => AList.lookup_insert_ne hother, le_rfl⟩

/-- Nor does taking it off the books, with its timer. -/
theorem Outside.sparesOthers_parted (h : w.wheel.Consistent) (s : Session) :
    w.SparesOthers s.id (w.parted s) := by
  refine ⟨fun e he => ?_, cancel_currentTick w.wheel s.id, ?_, le_rfl⟩
  · have hstored := h.cancel_stored s.id e
    exact ⟨fun h => (hstored.mp h).1, fun h => hstored.mpr ⟨h, he⟩⟩
  · exact fun other hother => AList.lookup_erase_ne hother

/-- Another session keeps its timer. -/
theorem Session.Timed.spared {id : Nat} (h : s.Timed w.wheel) (hspares : w.SparesOthers id w')
    (hid : s.id ≠ id) : s.Timed w'.wheel := by
  obtain ⟨entry, hstored, hexpiry, hdue⟩ := h
  have hother : entry.expiry.sessionId ≠ id := by
    rw [hexpiry]
    exact hid
  refine ⟨entry, (hspares.timers entry hother).mpr hstored, hexpiry, ?_⟩
  rw [hspares.tick]
  exact hdue

/-! ## Moves -/

/-- A session at work on a wheel that is in order. -/
structure Config.Ticking (c : Config) : Prop where
  consistent : c.outside.wheel.Consistent
  active : c.session.lastActivity ≤ c.outside.clock

theorem dueTickOf_mono {tick deadline deadline' : Nat} (h : deadline ≤ deadline') :
    dueTickOf tick deadline ≤ dueTickOf tick deadline' := by
  have hticks : tickAtOrAfter deadline ≤ tickAtOrAfter deadline' := by
    have hfloor : deadline / kNanosecondsPerSecond ≤ deadline' / kNanosecondsPerSecond :=
      Nat.div_le_div_right h
    unfold tickAtOrAfter
    dsimp only
    split
    · rename_i hbefore
      split
      · omega
      · rename_i hexact
        have hle := Nat.not_lt.mp hexact
        have hlt : deadline / kNanosecondsPerSecond < deadline' / kNanosecondsPerSecond := by
          by_contra hnot
          have heq : deadline' / kNanosecondsPerSecond = deadline / kNanosecondsPerSecond := by omega
          rw [heq] at hle
          omega
        omega
    · split
      · omega
      · omega
  unfold dueTickOf
  omega

/-- A session whose deadline has not come closer keeps its timer. -/
theorem Session.Timed.later (h : s.Timed wheel) (hid : s'.id = s.id)
    (hturn : s'.timeoutGeneration = s.timeoutGeneration)
    (hdeadline : s.timeoutDeadline ≤ s'.timeoutDeadline) : s'.Timed wheel := by
  obtain ⟨entry, hstored, hexpiry, hdue⟩ := h
  refine ⟨entry, hstored, ?_, hdue.trans (dueTickOf_mono hdeadline)⟩
  rw [hid, hturn]
  exact hexpiry

/-- A session that has just been scheduled has its timer. -/
theorem TimerWheel.Consistent.timed (h : wheel.Consistent) {id generation deadline : Nat}
    (hid : s.id = id) (hturn : s.timeoutGeneration = generation)
    (hdeadline : s.timeoutDeadline = deadline) :
    s.Timed (wheel.schedule id generation deadline) := by
  subst hid hturn hdeadline
  refine ⟨_, (h.schedule_stored _ _ _ _).mpr (.inr rfl), rfl, ?_⟩
  rw [schedule_currentTick]

/-- Setting one timer leaves those of the others. -/
theorem TimerWheel.Consistent.schedule_others (h : wheel.Consistent) {id generation deadline : Nat}
    (e : Entry) (he : e.expiry.sessionId ≠ id) :
    (wheel.schedule id generation deadline).Stored e ↔ wheel.Stored e := by
  rw [h.schedule_stored]
  constructor
  · intro hstored
    rcases hstored with hold | rfl
    · exact hold.1
    · exact absurd rfl he
  · exact fun hstored => .inl ⟨hstored, he⟩

/-- **A move keeps the wheel in order and leaves the others alone.** -/
theorem Move.ticking (h : Move json c c') (hc : c.Ticking) :
    c'.Ticking ∧ c.outside.SparesOthers c.session.id c'.outside := by
  have hsame : ∀ {w : Outside}, w.wheel = c.outside.wheel → w.sessions = c.outside.sessions →
      c.outside.clock ≤ w.clock → c.outside.SparesOthers c.session.id w := by
    intro w hwheel hsessions hclock
    exact ⟨fun _ _ => by rw [hwheel], by rw [hwheel], fun _ _ => by rw [hsessions], hclock⟩
  have hset : ∀ {w : Outside} {generation deadline : Nat},
      w.wheel = c.outside.wheel.schedule c.session.id generation deadline →
      w.sessions = c.outside.sessions → c.outside.clock ≤ w.clock →
      c.outside.SparesOthers c.session.id w := by
    intro w generation deadline hwheel hsessions hclock
    refine ⟨fun e he => ?_, ?_, fun _ _ => by rw [hsessions], hclock⟩
    · rw [hwheel]
      exact hc.consistent.schedule_others e he
    · rw [hwheel]
      exact schedule_currentTick _ _ _ _
  cases h with
  | tick time hle => exact ⟨⟨hc.consistent, hc.active.trans hle⟩, hsame rfl rfl hle⟩
  | inert s h =>
      refine ⟨⟨hc.consistent, ?_⟩, hsame rfl rfl le_rfl⟩
      have hactive : s.lastActivity = c.session.lastActivity := by rw [h]
      exact hactive.trans_le hc.active
  | touch => exact ⟨⟨hc.consistent, le_rfl⟩, hsame rfl rfl le_rfl⟩
  | adopt => exact ⟨⟨hc.consistent.schedule _ _ _, hc.active⟩, hset rfl rfl le_rfl⟩
  | finish => exact ⟨⟨hc.consistent.schedule _ _ _, hc.active⟩, hset rfl rfl le_rfl⟩
  | changeRelayStall => exact ⟨⟨hc.consistent.schedule _ _ _, hc.active⟩, hset rfl rfl le_rfl⟩
  | greet => exact ⟨⟨hc.consistent.schedule _ _ _, hc.active⟩, hset rfl rfl le_rfl⟩
  | reschedule => exact ⟨⟨hc.consistent.schedule _ _ _, hc.active⟩, hset rfl rfl le_rfl⟩
  | _ => exact ⟨⟨hc.consistent, hc.active⟩, hsame rfl rfl le_rfl⟩

/-- Activity moves the deadline of a session away, if at all. -/
theorem Session.timeoutDeadline_touch {now : Nat} (h : s.lastActivity ≤ now) :
    s.timeoutDeadline ≤ (s.touch now).timeoutDeadline := by
  unfold Session.timeoutDeadline Session.touch
  dsimp only
  split
  · exact le_rfl
  · split
    · exact le_rfl
    · exact Nat.add_le_add_right h _

/-- Outside a relay the deadline is the one of the stage. -/
theorem Session.timeoutDeadline_of_not_relay (h : s.stage ≠ .relay) :
    s.timeoutDeadline = s.deadline := if_pos h

/-- The flags of a stall count only together. -/
theorem Session.timeoutDeadline_withPause {reading : PressureReading}
    (hsame : (s.withPause reading).stalled = s.stalled) :
    (s.withPause reading).timeoutDeadline = s.timeoutDeadline := by
  have hstalled : ((s.withPause reading).clientQueueStalled ∨
      (s.withPause reading).upstreamQueueStalled) ↔
      (s.clientQueueStalled ∨ s.upstreamQueueStalled) := by
    have hor : ∀ t : Session, (t.clientQueueStalled ∨ t.upstreamQueueStalled) ↔ t.stalled = true :=
      fun t => (Bool.or_eq_true _ _).symm ▸ Iff.rfl
    rw [hor, hor, hsame]
  unfold Session.timeoutDeadline
  rw [if_congr hstalled rfl rfl]
  rfl

/-- **A move keeps the timer of its session.** -/
theorem Move.timed {others : Nat} (h : Move json c c') (hsane : c.Sane others) (hc : c.Ticking)
    (htimed : c.session.Timed c.outside.wheel) : c'.session.Timed c'.outside.wheel := by
  cases h with
  | inert s h =>
      refine htimed.later ?_ ?_ ?_
      · rw [h]
        rfl
      · rw [h]
        rfl
      · rw [h]
        exact le_rfl
  | touch => exact htimed.later rfl rfl (Session.timeoutDeadline_touch hc.active)
  | openConnect selection hphase =>
      refine htimed.later rfl rfl ?_
      have hnot : c.session.stage ≠ .relay :=
        fun hrelay => (hsane.opening_unbacked (.inr hphase)).1 (.inr hrelay)
      rw [Session.timeoutDeadline_of_not_relay hnot]
      exact le_rfl
  | keepPause reading _ _ hstall =>
      exact htimed.later rfl rfl (Session.timeoutDeadline_withPause hstall).ge
  | changeStall reading _ _ hstage =>
      refine htimed.later rfl rfl ?_
      rw [Session.timeoutDeadline_of_not_relay hstage]
      exact (if_pos hstage).ge
  | adopt => exact hc.consistent.timed rfl rfl rfl
  | finish => exact hc.consistent.timed rfl rfl rfl
  | changeRelayStall => exact hc.consistent.timed rfl rfl rfl
  | greet => exact hc.consistent.timed rfl rfl rfl
  | reschedule => exact hc.consistent.timed rfl rfl rfl
  | _ => exact htimed

/-- Moves keep the wheel in order and touch no other session. -/
theorem Follows.ticking (h : Follows json c c') (hc : c.Ticking) :
    c'.Ticking ∧ c.outside.SparesOthers c.session.id c'.outside := by
  have hall : (c'.Ticking ∧ c.outside.SparesOthers c.session.id c'.outside) ∧
      c'.session.id = c.session.id := by
    refine h.invariant (P := fun d => (d.Ticking ∧ c.outside.SparesOthers c.session.id d.outside) ∧
      d.session.id = c.session.id) ?_ ⟨⟨hc, .refl _ _⟩, rfl⟩
    intro d d' hmove hd
    obtain ⟨⟨hticking, hspares⟩, hid⟩ := hd
    obtain ⟨hticking', hspares'⟩ := hmove.ticking hticking
    rw [hid] at hspares'
    exact ⟨⟨hticking', hspares.trans hspares'⟩, hmove.frame.2.2.trans hid⟩
  exact hall.1

/-- What moves keep of a ticking session, they keep along the way. -/
theorem Follows.ticking_invariant {others : Nat} {P : Config → Prop} (h : Follows json c c')
    (hsane : c.Sane others) (hc : c.Ticking)
    (hmove : ∀ d d', Move json d d' → d.Sane others → d.Ticking → P d → P d') (hP : P c) : P c' := by
  have hall : (c'.Sane others ∧ c'.Ticking) ∧ P c' := by
    refine h.invariant (P := fun d => (d.Sane others ∧ d.Ticking) ∧ P d) ?_ ⟨⟨hsane, hc⟩, hP⟩
    intro d d' hstep hd
    obtain ⟨⟨hdsane, hticking⟩, hd⟩ := hd
    exact ⟨⟨hstep.sane hdsane, (hstep.ticking hticking).1⟩, hmove d d' hstep hdsane hticking hd⟩
  exact hall.2

/-- **Moves keep the timer of their session.** -/
theorem Follows.timed {others : Nat} (h : Follows json c c') (hsane : c.Sane others)
    (hc : c.Ticking) (htimed : c.session.Timed c.outside.wheel) :
    c'.session.Timed c'.outside.wheel :=
  h.ticking_invariant (P := fun d => d.session.Timed d.outside.wheel) hsane hc
    (fun _ _ hmove hdsane hticking hd => hmove.timed hdsane hticking hd) htimed

/-! ## A session without a timer -/

/-- The session has a timer as soon as it has a socket or is a relay. -/
def Config.Rearmed (c : Config) : Prop :=
  c.session.upstream.isSome ∨ c.session.stage = .relay → c.session.Timed c.outside.wheel

/-- A session that gets a socket or becomes a relay sets its timer in the same move. -/
theorem Move.rearmed {others : Nat} (h : Move json c c') (hsane : c.Sane others) (hc : c.Ticking)
    (hrearmed : c.Rearmed) : c'.Rearmed := by
  have hkeep : (c'.session.upstream.isSome ∨ c'.session.stage = .relay →
      c.session.upstream.isSome ∨ c.session.stage = .relay) → c'.Rearmed :=
    fun hback hopen => h.timed hsane hc (hrearmed (hback hopen))
  cases h with
  | inert s h =>
      apply hkeep
      rw [h]
      exact fun hopen => hopen
  | openConnect =>
      apply hkeep
      intro hopen
      rcases hopen with hsome | hstage
      · exact .inl hsome
      · exact nomatch hstage
  | adopt => exact fun _ => hc.consistent.timed rfl rfl rfl
  | finish => exact fun _ => hc.consistent.timed rfl rfl rfl
  | greet => exact fun _ => hc.consistent.timed rfl rfl rfl
  | dropUpstream =>
      apply hkeep
      intro hopen
      rcases hopen with hsome | hstage
      · exact nomatch hsome
      · exact .inr hstage
  | _ => exact hkeep fun hopen => hopen

theorem Follows.rearmed {others : Nat} (h : Follows json c c') (hsane : c.Sane others)
    (hc : c.Ticking) (hrearmed : c.Rearmed) : c'.Rearmed :=
  h.ticking_invariant (P := Config.Rearmed) hsane hc
    (fun _ _ hmove hdsane hticking hd => hmove.rearmed hdsane hticking hd) hrearmed

/-- Any end of a piece of code, whatever the answers. -/
abbrev Concludes {α : Type} (s : Session) (m : SessionM α) (Q : α → Session → Prop) : Prop :=
  Holds (World.silent reactorCalls) s () m (fun a s' _ => Q a s') (fun _ _ _ => True)

/-- The calls do not matter here, nor where the code stops. -/
theorem concludes_of_yields {α : Type} {P : ReactorCall → Prop} {s : Session} {m : SessionM α}
    {Q : α → Session → Prop} {X : Exit → Session → Prop} (h : Yields P s m Q X) :
    Concludes s m Q :=
  (h.holds (M := World.silent reactorCalls) (R := fun _ _ => True) (fun _ => trivial)
    (fun _ _ _ _ _ => trivial) fun _ _ _ => ⟨trivial, fun _ _ => trivial⟩).mono
      (fun _ _ _ hend => hend.1) fun _ _ _ _ => trivial

/-- **Connecting ends with a socket**, or gives up. -/
theorem startNextUpstreamConnect_opens (s : Session) :
    Concludes s startNextUpstreamConnect (fun _ s' => s'.upstream.isSome) :=
  concludes_of_yields ((startNextUpstreamConnect_dials s).mono (fun _ _ hend => hend.2)
    fun _ _ hend => hend)

/-- What the timer of a session has done for it, where it lives on. -/
theorem expireSession_opens (now : Nat) (s : Session) :
    Concludes s (expireSession now)
      (fun _ s' => now < s.timeoutDeadline ∨ s'.upstream.isSome) := by
  refine holds_current_bind ?_
  split
  · rename_i hearly
    exact ⟨trivial, fun _ _ => .inl hearly⟩
  · split
    · refine (concludes_of_yields (recordUpstreamError_yields s)).bind fun _ s₁ _ _ =>
        (concludes_of_yields (discardUpstream_yields s₁)).bind fun _ s₂ _ _ => ?_
      split
      · exact trivial
      · exact (startNextUpstreamConnect_opens s₂).mono (fun _ _ _ h => .inr h) fun _ _ _ _ => trivial
    · split
      · exact ⟨trivial, fun _ _ => trivial⟩
      · exact trivial

/-- The moves of a piece of code, beside what it says of its end. -/
theorem Does.follows {α : Type} {m : SessionM α} {Q : α → Config → Prop} {E : Exit → Config → Prop}
    (h : Does json c m Q E) : Does json c m (fun a d => Follows json c d ∧ Q a d) E := by
  intro others hc
  apply (h others hc).mono
  · intro a s w hend
    obtain ⟨d, hd, hs, hw, hQ⟩ := hend
    exact ⟨d, hd, hs, hw, hd, hQ⟩
  · exact fun _ _ _ hend => hend

/-- The timer of a session is handled: not late, it is set again; late, the session connects to
the next address and has a timer with its next socket. -/
theorem expireSession_rearms {others : Nat} (now : Nat) (hc : c.Beginning) (hsane : c.Sane others)
    (hticking : c.Ticking) :
    Does json c (expireSession now)
      (fun _ d => now < c.session.timeoutDeadline ∨ d.session.upstream.isSome →
        d.session.Timed d.outside.wheel) (fun _ _ => True) := by
  have hresting := hc.resting
  apply does_current
  split
  · rename_i hearly
    exact fun _ _ => ⟨trivial, fun _ _ => ⟨_, (Move.reschedule c).follows, rfl, rfl,
      fun _ => hticking.consistent.timed rfl rfl rfl⟩⟩
  · rename_i hlate
    split
    · rename_i hstage
      apply recordUpstreamError_does.bind
      intro _ d _ hd
      subst hd
      apply discardUpstream_does.bind
      intro _ d hmoves hd
      subst hd
      split
      · exact does_stop trivial
      · let d' : Config := d.setSession d.session.dropUpstream
        have hreconnect : Does json d' startNextUpstreamConnect (fun _ => d'.SamePoint)
            Exit.Explained :=
          reconnect_does hresting hstage rfl
        have hunarmed : d'.Rearmed := by
          intro hopen
          rcases hopen with hsome | hrelay
          · exact nomatch hsome
          · exact nomatch hstage.symm.trans hrelay
        apply hreconnect.follows.mono
        · intro _ e he hopen
          have hrearmed := he.1.rearmed (hmoves.sane hsane) (hmoves.ticking hticking).1 hunarmed
          exact hrearmed (.inl (hopen.resolve_left hlate))
        · exact fun _ _ _ => trivial
    · split
      · exact does_quiet trivial fun _ _ => ⟨rfl, does_stop trivial⟩
      · exact does_stop trivial

/-- **A session that outlives its timer has a timer again.** -/
theorem expireSession_timed (json : Glaze) {now : Nat} (h : w.Booked) (hs : w.Holds s)
    (hticking : (Config.start s w).Ticking)
    (hrun : Runs outside w (expireSession now s) (.ok (), s') w') : s'.Timed w'.wheel := by
  have hsane := h.sane hs
  have hrearms : Does json (Config.start s w) (expireSession now) _ _ :=
    expireSession_rearms now (Config.start_beginning s w) hsane hticking
  have hend := (hrearms _ hsane).sound hrun
  obtain ⟨d, _, hsession, houtside, hd⟩ := hend
  have hopen := (expireSession_opens now s).sound hrun.silent
  have htimed := hd (hsession ▸ hopen)
  rw [hsession, houtside] at htimed
  exact htimed

/-! ## Deeds -/

/-- The wheel is in order and has the timer of every live session that is not in hand, and no
other. -/
structure Desk.Clocked (d : Desk) : Prop where
  consistent : d.outside.wheel.Consistent
  active : ∀ id s, d.outside.sessions.lookup id = some s → s.lastActivity ≤ d.outside.clock
  timed : ∀ id s, d.outside.sessions.lookup id = some s →
    s.Timed d.outside.wheel ∨ ⟨id, s.timeoutGeneration⟩ ∈ d.due
  owned : ∀ e, d.outside.wheel.Stored e →
    (d.outside.sessions.lookup e.expiry.sessionId).isSome

variable {due due' : List TimerExpiry} {time time' : Nat}

/-- One session has been at work, and the desk is in order if it is. -/
theorem Desk.Clocked.worked {id : Nat} (h : Desk.Clocked ⟨w, due, time⟩)
    (hkeyed : ∀ other t, w.sessions.lookup other = some t → t.id = other)
    (hspares : w.SparesOthers id w') (hcons : w'.wheel.Consistent)
    (hdue : ∀ x ∈ due, x.sessionId ≠ id → x ∈ due')
    (hown : ∀ t, w'.sessions.lookup id = some t →
      t.lastActivity ≤ w'.clock ∧ t.Timed w'.wheel)
    (hgone : w'.sessions.lookup id = none → ∀ e, w'.wheel.Stored e → e.expiry.sessionId ≠ id) :
    Desk.Clocked ⟨w', due', time'⟩ := by
  refine ⟨hcons, fun other t ht => ?_, fun other t ht => ?_, fun e he => ?_⟩
  · by_cases hother : other = id
    · subst hother
      exact (hown t ht).1
    · have ht := hspares.table other hother ▸ ht
      exact (h.active other t ht).trans hspares.clock
  · by_cases hother : other = id
    · subst hother
      exact .inl (hown t ht).2
    · have ht := hspares.table other hother ▸ ht
      rcases h.timed other t ht with htimed | hin
      · exact .inl (htimed.spared hspares (hkeyed other t ht ▸ hother))
      · exact .inr (hdue _ hin hother)
  · show (w'.sessions.lookup e.expiry.sessionId).isSome
    by_cases hother : e.expiry.sessionId = id
    · rw [Option.isSome_iff_ne_none]
      intro hnone
      exact hgone (hother ▸ hnone) e he hother
    · rw [hspares.table _ hother]
      exact h.owned e ((hspares.timers e hother).mp he)

/-- The session is at work with its own timer or without. -/
theorem Desk.Clocked.ticking (h : Desk.Clocked ⟨w, due, time⟩) (hs : w.Holds s) :
    (Config.start s w).Ticking :=
  ⟨h.consistent, h.active s.id s hs⟩

/-- A session that has been at work is put back. -/
theorem Desk.Clocked.reacted (h : Desk.Clocked ⟨w, due, time⟩) (hbooked : w.Booked)
    (hs : w.Holds s) (hmoves : Follows json (.start s w) c)
    (hdue : ∀ x ∈ due, x.sessionId ≠ s.id → x ∈ due')
    (htimed : c.session.Timed c.outside.wheel) :
    Desk.Clocked ⟨c.outside.stored c.session, due', time'⟩ := by
  obtain ⟨hticking, hspares⟩ := hmoves.ticking (h.ticking hs)
  have hid : c.session.id = s.id := hmoves.frame.2.2
  have hstored := Outside.sparesOthers_stored c.outside c.session
  rw [hid] at hstored
  refine h.worked hbooked.keyed (hspares.trans hstored) hticking.consistent hdue ?_ ?_
  · intro t ht
    have ht : (c.outside.sessions.insert c.session.id c.session).lookup s.id = some t := ht
    rw [hid, AList.lookup_insert] at ht
    rw [← Option.some.inj ht]
    exact ⟨hticking.active, htimed⟩
  · intro hnone
    have hnone : (c.outside.sessions.insert c.session.id c.session).lookup s.id = none := hnone
    rw [hid, AList.lookup_insert] at hnone
    exact nomatch hnone

/-- A session is taken off the table and its timer off the wheel. -/
theorem Desk.Clocked.farewell (h : Desk.Clocked ⟨w, due, time⟩) (hbooked : w.Booked)
    (hmoves : w.SparesOthers s.id c.outside) (hcons : c.outside.wheel.Consistent)
    (hid : c.session.id = s.id) (hdue : ∀ x ∈ due, x.sessionId ≠ s.id → x ∈ due') :
    Desk.Clocked ⟨c.outside.parted c.session, due', time'⟩ := by
  have hparted := Outside.sparesOthers_parted hcons c.session
  have hgone : (c.outside.parted c.session).sessions.lookup s.id = none :=
    hid ▸ AList.lookup_erase c.session.id c.outside.sessions
  rw [hid] at hparted
  refine h.worked hbooked.keyed (hmoves.trans hparted) (hcons.cancel _) hdue ?_ ?_
  · intro t ht
    exact absurd (hgone.symm.trans ht) (by simp)
  · intro _ e he
    rw [← hid]
    exact ((hcons.cancel_stored c.session.id e).mp he).2

/-- The last words of a session that has been put back leave the others alone. -/
theorem Config.Ticking.last_words {d : Config} (hticking : d.Ticking)
    (hlast : Follows json (.start d.session (d.outside.stored d.session)) c) :
    c.Ticking ∧ d.outside.SparesOthers d.session.id c.outside ∧ c.session.id = d.session.id := by
  obtain ⟨hend, hspares⟩ := hlast.ticking ⟨hticking.consistent, hticking.active⟩
  exact ⟨hend, (Outside.sparesOthers_stored d.outside d.session).trans hspares, hlast.frame.2.2⟩

/-- On a later wheel a deadline is due in no earlier tick. -/
theorem dueTickOf_mono_left {tick tick' : Nat} (h : tick ≤ tick') (deadline : Nat) :
    dueTickOf tick deadline ≤ dueTickOf tick' deadline := by
  unfold dueTickOf
  omega

/-- **`advance` hands out exactly the timers that it takes off the wheel.** -/
theorem Desk.Clocked.advanced (hbooked : w.Booked) (h : Desk.Clocked ⟨w, [], time⟩) (now : Nat) :
    Desk.Clocked
      ⟨{ w with wheel := (w.wheel.advance now).1 }, (w.wheel.advance now).2, now⟩ := by
  obtain ⟨hcollected, htick⟩ := h.consistent.advance now
  refine ⟨hcollected.consistent, h.active, fun id s hs => ?_, fun e he => ?_⟩
  · obtain ⟨entry, hstored, hexpiry, hdue⟩ := (h.timed id s hs).resolve_right List.not_mem_nil
    by_cases hfired : entry.dueTick ≤ (w.wheel.advance now).1.currentTick
    · refine .inr ((hcollected.expired _).mpr ⟨entry, hstored, ?_, hfired⟩)
      rw [hexpiry, hbooked.keyed id s hs]
    · refine .inl ⟨entry, (hcollected.stored entry).mpr ⟨hstored, Nat.lt_of_not_le hfired⟩, hexpiry, ?_⟩
      have hle : w.wheel.currentTick ≤ (w.wheel.advance now).1.currentTick := by
        rw [htick]
        exact Nat.le_max_left _ _
      exact hdue.trans (dueTickOf_mono_left hle s.timeoutDeadline)
  · exact h.owned e ((hcollected.stored e).mp he).1

/-- A new session comes with its timer. -/
theorem Desk.Clocked.opened {lease : Nat} (hbooked : w.Booked) (h : Desk.Clocked ⟨w, [], time⟩)
    (hborn : s.lastActivity = w.clock) : Desk.Clocked ⟨w.opened s lease, [], time⟩ := by
  have hspares : w.SparesOthers s.id (w.opened s lease) :=
    ⟨fun e he => h.consistent.schedule_others e he, schedule_currentTick _ _ _ _,
      fun other hother => AList.lookup_insert_ne hother, le_rfl⟩
  have hfound : (w.opened s lease).sessions.lookup s.id = some s :=
    AList.lookup_insert w.sessions
  refine h.worked hbooked.keyed hspares (h.consistent.schedule _ _ _) (fun x hx _ => hx) ?_ ?_
  · intro t ht
    rw [← Option.some.inj (hfound.symm.trans ht)]
    exact ⟨hborn.le, h.consistent.timed rfl rfl rfl⟩
  · intro hnone
    exact absurd (hfound.symm.trans hnone) (by simp)

/-- **Every deed keeps the timers.** -/
theorem Deed.clocked {d d' : Desk} (hdeed : Deed json d d') (hbooked : d.outside.Booked)
    (h : d.Clocked) : d'.Clocked := by
  have hnothing : ∀ id : Nat, ∀ x ∈ ([] : List TimerExpiry), x.sessionId ≠ id →
      x ∈ ([] : List TimerExpiry) := fun _ _ hx _ => hx
  cases hdeed with
  | react event hs _ hrun =>
      obtain ⟨c, hmoves, rfl, rfl⟩ := hbooked.moves hs hrun
      have htimed := (h.timed _ _ hs).resolve_right List.not_mem_nil
      exact h.reacted hbooked hs hmoves (hnothing _)
        (hmoves.timed (hbooked.sane hs) (h.ticking hs) htimed)
  | fail hs hmoves hlast =>
      obtain ⟨hticking, hspares⟩ := hmoves.ticking (h.ticking hs)
      obtain ⟨hend, hlater, hid⟩ := hticking.last_words hlast
      have hsame := hmoves.frame.2.2
      exact h.farewell hbooked (hspares.trans (hsame ▸ hlater)) hend.consistent (hid.trans hsame)
        (hnothing _)
  | close hs hlast =>
      obtain ⟨hticking, hspares⟩ := hlast.ticking (h.ticking hs)
      exact h.farewell hbooked hspares hticking.consistent hlast.frame.2.2 (hnothing _)
  | advance now => exact Desk.Clocked.advanced hbooked h now
  | skip hstale =>
      refine ⟨h.consistent, h.active, fun id s hs => ?_, h.owned⟩
      rcases h.timed id s hs with htimed | hin
      · exact .inl htimed
      · rcases List.mem_cons.mp hin with heq | hin
        · subst heq
          exact absurd rfl (hstale s hs)
        · exact .inr hin
  | expire hs hid hturn hrun =>
      obtain ⟨c, hmoves, rfl, rfl⟩ := hbooked.expiry_moves json hs hrun
      refine h.reacted hbooked hs hmoves (fun x hx hother => ?_)
        (expireSession_timed json hbooked hs (h.ticking hs) hrun)
      rcases List.mem_cons.mp hx with heq | hin
      · exact absurd (heq ▸ hid) hother
      · exact hin
  | lapse hs hid _ hmoves hlast =>
      obtain ⟨hticking, hspares⟩ := hmoves.ticking (h.ticking hs)
      obtain ⟨hend, hlater, hsame'⟩ := hticking.last_words hlast
      have hsame := hmoves.frame.2.2
      refine h.farewell hbooked (hspares.trans (hsame ▸ hlater)) hend.consistent
        (hsame'.trans hsame) fun x hx hother => ?_
      rcases List.mem_cons.mp hx with heq | hin
      · exact absurd (heq ▸ hid) hother
      · exact hin
  | opens hs hborn _ hlease => exact Desk.Clocked.opened hbooked h hborn
  | idle hidle =>
      refine ⟨hidle.wheel ▸ h.consistent, fun id s hs => ?_, fun id s hs => ?_, fun e he => ?_⟩
      · exact (h.active id s (hidle.sessions ▸ hs)).trans hidle.clock
      · rw [hidle.wheel]
        exact h.timed id s (hidle.sessions ▸ hs)
      · rw [hidle.wheel] at he
        rw [hidle.sessions]
        exact h.owned e he

/-- **Between two turns every live session has its timer.** -/
theorem WorkerRun.clocked (h : WorkerRun json w) : Desk.Clocked ⟨w, [], 0⟩ := by
  refine h.invariant (I := Desk.Clocked) 0 (fun now => ?_) (fun w now hnow h => ?_)
    (fun w time' h => ⟨h.consistent, h.active, h.timed, h.owned⟩) fun d d' hdeed hbooked h =>
      hdeed.clocked hbooked h
  · have hnone : ∀ e, ¬ (TimerWheel.new now).Stored e := by simp [TimerWheel.new, At, Stored]
    exact ⟨new_consistent now, fun id s hs => absurd hs (Outside.lookup_empty now id s),
      fun id s hs => absurd hs (Outside.lookup_empty now id s), fun e he => absurd he (hnone e)⟩
  · exact ⟨h.consistent, fun id s hs => (h.active id s hs).trans hnow, h.timed, h.owned⟩

/-! ## Patience -/

/-- A timer that fires before its deadline changes nothing of the session. -/
theorem expireSession_patient {now : Nat} (hearly : now < s.timeoutDeadline)
    (hrun : Runs outside w (expireSession now s) (.ok (), s') w') : s' = s := by
  have hkept : Concludes s (expireSession now) (fun _ s' => s' = s) := by
    refine holds_current_bind ?_
    rw [if_pos hearly]
    exact ⟨trivial, fun _ _ => rfl⟩
  exact hkept.sound hrun.silent

/-- The handling of an expired timer leaves a session alone that has time left. -/
theorem Deed.patient {expiry : TimerExpiry} {id : Nat}
    (hdeed : Deed json ⟨w, expiry :: due, time⟩ ⟨w', due', time'⟩) (hbooked : w.Booked)
    (hfound : w.sessions.lookup id = some s) (hearly : time < s.timeoutDeadline) :
    w'.sessions.lookup id = some s := by
  cases hdeed with
  | skip _ => exact hfound
  | @expire w w' t t' _ _ _ ht hid hturn hrun =>
      obtain ⟨c, hmoves, rfl, rfl⟩ := hbooked.expiry_moves json ht hrun
      have hsame : c.session.id = t.id := hmoves.frame.2.2
      show (c.outside.sessions.insert c.session.id c.session).lookup id = some s
      by_cases hown : id = t.id
      · subst hown
        have heq : t = s := Option.some.inj (ht.symm.trans hfound)
        subst heq
        rw [hsame, AList.lookup_insert, expireSession_patient hearly hrun]
      · rw [AList.lookup_insert_ne (hsame ▸ hown), hmoves.sameRoll.sessions]
        exact hfound
  | @lapse w t c d _ _ _ ht hid hlate hmoves hlast =>
      have hsame : d.session.id = t.id := hmoves.frame.2.2
      have hsame' : c.session.id = d.session.id := hlast.frame.2.2
      have hown : id ≠ t.id := by
        intro hown
        subst hown
        have heq : t = s := Option.some.inj (ht.symm.trans hfound)
        subst heq
        omega
      show (c.outside.sessions.erase c.session.id).lookup id = some s
      rw [AList.lookup_erase_ne (by rw [hsame', hsame]; exact hown), hlast.sameRoll.sessions]
      show (d.outside.sessions.insert d.session.id d.session).lookup id = some s
      rw [AList.lookup_insert_ne (by rw [hsame]; exact hown), hmoves.sameRoll.sessions]
      exact hfound

/-- By induction on the timers in hand: such a session stays as it is. -/
theorem expireEach_patient (json : Glaze) {id now : Nat} (hbooked : w.Booked)
    (hfound : w.sessions.lookup id = some s) (hearly : now < s.timeoutDeadline) :
    Ensures outside w (expireEach now due) (fun _ w' => w'.sessions.lookup id = some s) := by
  induction due generalizing w with
  | nil => exact hfound
  | cons expiry due ih =>
      apply Ensures.bind (expireOne_does json now hbooked)
      intro _ w₁ hdeed
      have hdeed : Deed json ⟨w, expiry :: due, now⟩ ⟨w₁, due, now⟩ := hdeed
      exact ih (hdeed.booked hbooked) (hdeed.patient hbooked hfound hearly)

/-- **A look at the timers before the deadline of a session leaves it alone.** -/
theorem expireTimeouts_patient (json : Glaze) {id now : Nat} (hbooked : w.Booked)
    (hfound : w.sessions.lookup id = some s) (hearly : now < s.timeoutDeadline) :
    Ensures outside w (expireTimeouts now) (fun _ w' => w'.sessions.lookup id = some s) := by
  refine ensures_call_bind trivial fun expired hexpired => ?_
  have hdeed : Deed json ⟨w, [], 0⟩
      ⟨{ w with wheel := (w.wheel.advance now).1 }, (w.wheel.advance now).2, now⟩ := .advance now
  exact expireEach_patient json (hdeed.booked hbooked) hfound hearly

/-! ## The timers of a worker -/

/-- **No live session is without its timer, and no timer without its session.**  Between any two
turns of a worker every session has one entry in the wheel, of its present turn, that is due no
later than the first tick at or after its deadline (or the next one).  A session that the handling
of expired timers closes, or whose connect attempt it abandons, is past its deadline. -/
theorem sessions_keep_their_timers (json : Glaze) (w : Outside) (h : WorkerRun json w) :
    (∀ id s, w.sessions.lookup id = some s → ∃ loc entry, w.wheel.At loc entry ∧
      entry.expiry = ⟨id, s.timeoutGeneration⟩ ∧
      entry.dueTick ≤ max (tickAtOrAfter s.timeoutDeadline) (w.wheel.currentTick + 1) ∧
      ∀ loc' entry', w.wheel.At loc' entry' → entry'.expiry.sessionId = id →
        loc' = loc ∧ entry' = entry) ∧
    (∀ loc entry, w.wheel.At loc entry → (w.sessions.lookup entry.expiry.sessionId).isSome) ∧
    ∀ now w' id s, Runs outside w (expireTimeouts now) () w' → w.sessions.lookup id = some s →
      w'.sessions.lookup id ≠ some s → s.timeoutDeadline ≤ now := by
  have hclocked := h.clocked
  refine ⟨fun id s hs => ?_, fun loc entry hat => hclocked.owned entry ⟨loc, hat⟩, ?_⟩
  · obtain ⟨entry, ⟨loc, hat⟩, hexpiry, hdue⟩ := (hclocked.timed id s hs).resolve_right
      List.not_mem_nil
    rw [h.booked.keyed id s hs] at hexpiry
    refine ⟨loc, entry, hat, hexpiry, hdue, fun loc' entry' hat' hid => ?_⟩
    have hwhere := hclocked.consistent.located loc entry hat
    rw [hexpiry] at hwhere
    have hwhere' := hclocked.consistent.located loc' entry' hat'
    rw [hid] at hwhere'
    have hloc : loc' = loc := Option.some.inj (hwhere'.symm.trans hwhere)
    subst hloc
    exact ⟨rfl, Option.some.inj (hat'.symm.trans hat)⟩
  · intro now w' id s hrun hs hchanged
    by_contra hearly
    exact hchanged ((expireTimeouts_patient json h.booked hs (Nat.lt_of_not_le hearly)).sound hrun)

open Scenario in
/-- The one session of a worker has its timer, and is closed when its first line is overdue. -/
theorem visitor_keeps_its_timer :
    (∃ s loc entry, visited.sessions.lookup 1 = some s ∧ visited.wheel.At loc entry ∧
      entry.expiry = ⟨1, s.timeoutGeneration⟩) ∧
    ∃ s, visited.sessions.lookup 1 = some s ∧ s.timeoutDeadline ≤ 20000000000 := by
  obtain ⟨htimers, _, hpatient⟩ := sessions_keep_their_timers subscribeJson visited visited_run
  have hfound : (visited.sessions.lookup 1).isSome := by decide +kernel
  obtain ⟨s, hs⟩ := Option.isSome_iff_exists.mp hfound
  obtain ⟨loc, entry, hat, hexpiry, _⟩ := htimers 1 s hs
  refine ⟨⟨s, loc, entry, hs, hat, hexpiry⟩, s, hs, ?_⟩
  have hrun := doorstep.runs_turn subscribeJson (.expire 20000000000) visited
  have hgone : (doorstep.turn subscribeJson (.expire 20000000000) visited).sessions.lookup 1 =
      none := by
    decide +kernel
  refine hpatient 20000000000 _ 1 s hrun hs ?_
  rw [hgone]
  exact nofun

end PoolLb
