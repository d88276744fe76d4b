import PoolLb.Hysteresis
import PoolLb.Scenario

/-!
# Stall detection

`refresh_read_pause` keeps two flags for each direction: one that pauses reading, and one
that says that the queue of the direction is over its own mark.  Only the second kind, the
stall flags, can end a session.  They are a hysteresis over the session's own queue, so
the load of the other sessions, which may pause it at any time, never counts against it.

* `Stall.History` is a session with the refreshes that it has been through.
* `stall_depends_on_own_queues` says what the flags and the deadline are after any of them.
* `Stall.history_lawful` ties this to the life of a session: no handler touches the flags
  other than by a refresh.
-/

namespace PoolLb.Stall

open Interaction Handler

/-! ## One refresh -/

/-- The outside of one call of `refresh_read_pause`: the clock is given, and everything
else may be anything. -/
def atClock (clock : Nat) : World reactorCalls Unit where
  requires _ _ := True
  allows _ c := match c with
    | .now => fun time => time = clock
    | _ => fun _ => True
  after _ _ _ := ()

/-- What the refresh depends on and leaves alone. -/
structure SameOwn (s s' : Session) : Prop where
  toUpstream : s'.toUpstream.size = s.toUpstream.size
  toClient : s'.toClient.size = s.toClient.size
  stage : s'.stage = s.stage
  deadline : s'.deadline = s.deadline
  lastActivity : s'.lastActivity = s.lastActivity
  limits : s'.limits = s.limits

/-- What a refresh does to the stall flags and to the stall deadline. -/
structure Refreshed (clock : Nat) (s s' : Session) : Prop where
  client : s'.clientQueueStalled = s.clientQueueHigh
  upstream : s'.upstreamQueueStalled = s.upstreamQueueHigh
  deadline : s'.stallDeadline =
    if s'.stalled && !s.stalled then clock + kRelayStallTimeout else s.stallDeadline
  own : SameOwn s s'

section

variable {clock : Nat} {s s' : Session} {reading : PressureReading}

/-- A refresh after which the session is stalled, or not, as before. -/
theorem refreshed_withPause (hsame : (s.withPause reading).stalled = s.stalled) :
    Refreshed clock s (s.withPause reading) := by
  refine ⟨rfl, rfl, ?_, rfl, rfl, rfl, rfl, rfl, rfl⟩
  rw [hsame]
  simp [Session.withPause]

/-- A refresh with which a stall has begun, or has ended. -/
theorem refreshed_withStall (hchange : (s.withPause reading).stalled ≠ s.stalled) :
    Refreshed clock s ((s.withPause reading).withStall clock) := by
  refine ⟨rfl, rfl, ?_, rfl, rfl, rfl, rfl, rfl, rfl⟩
  have hflags : ((s.withPause reading).withStall clock).stalled = (s.withPause reading).stalled :=
    rfl
  rw [hflags]
  unfold Session.withStall
  cases hnow : (s.withPause reading).stalled with
  | false => rfl
  | true =>
      have hbefore : s.stalled = false := by
        rw [hnow] at hchange
        exact Bool.eq_false_iff.mpr fun h => hchange h.symm
      rw [hbefore]
      rfl

/-- A new timer is not part of a refresh. -/
theorem Refreshed.bump (h : Refreshed clock s s') : Refreshed clock s s'.bump :=
  ⟨h.client, h.upstream, h.deadline, h.own.toUpstream, h.own.toClient, h.own.stage,
    h.own.deadline, h.own.lastActivity, h.own.limits⟩

/-- The readings leave the session as it is. -/
theorem readPressure_holds :
    Holds (atClock clock) s () readPressure (fun _ s' _ => s' = s) (fun _ _ _ => False) := by
  unfold readPressure tlsBufferDrained
  refine holds_ask_bind trivial fun queued _ => holds_ask_bind trivial fun budget _ => ?_
  apply Holds.bind (Q := fun _ s' _ => s' = s)
  · apply holds_current_bind
    split
    · exact holds_ask_bind trivial fun pending _ => rfl
    · exact rfl
  · intro drained s' _ hs
    exact hs

/-- Counting leaves the session as it is. -/
theorem countWhen_holds (condition : Bool) (counter : WorkerCounter) :
    Holds (atClock clock) s () (countWhen condition counter) (fun _ s' _ => s' = s)
      (fun _ _ _ => False) := by
  unfold countWhen
  split
  · exact ⟨trivial, fun _ _ => rfl⟩
  · exact rfl

/-- So do the three counters together. -/
theorem countPauses_holds (reading : PressureReading) :
    Holds (atClock clock) s () (countPauses reading) (fun _ s' _ => s' = s)
      (fun _ _ _ => False) := by
  unfold countPauses
  apply holds_current_bind
  apply (countWhen_holds _ _).bind
  intro _ s₁ _ h₁
  rw [h₁]
  apply (countWhen_holds _ _).bind
  intro _ s₂ _ h₂
  rw [h₂]
  exact countWhen_holds _ _

/-- A stall that begins gets its deadline from the clock. -/
theorem beginStall_holds :
    Holds (atClock clock) s () beginStall (fun _ s' _ => s' = s.withStall clock)
      (fun _ _ _ => False) := by
  unfold beginStall Session.withStall
  apply holds_current_bind
  split
  · refine holds_ask_bind trivial fun now hnow => ?_
    have hnow : now = clock := hnow
    rw [hnow]
    exact rfl
  · exact rfl

/-- **`refresh_read_pause`.** -/
theorem refreshReadPause_holds :
    Holds (atClock clock) s () refreshReadPause (fun _ s' _ => Refreshed clock s s')
      (fun _ _ _ => False) := by
  unfold refreshReadPause
  apply readPressure_holds.bind
  intro reading s₁ _ hs
  rw [hs]
  apply (countPauses_holds reading).bind
  intro _ s₂ _ hs
  rw [hs]
  refine holds_current_bind (holds_modify_bind (holds_current_bind ?_))
  split
  · rename_i hsame
    exact refreshed_withPause hsame
  · rename_i hchange
    apply beginStall_holds.bind
    intro _ s₃ _ hs
    rw [hs]
    split
    · exact holds_modify_bind (holds_current_bind ⟨trivial, fun _ _ =>
        (refreshed_withStall hchange).bump⟩)
    · exact refreshed_withStall hchange

end

/-! ## The refreshes of a session -/

/-- A call of `refresh_read_pause`: the session before and after it, and the clock. -/
structure Call where
  before : Session
  after : Session
  clock : Nat

/-- The call was made, by the code. -/
def Call.Made (call : Call) : Prop :=
  Runs (atClock call.clock) () (refreshReadPause call.before) (.ok (), call.after) ()

/-- The call did what a refresh does. -/
def Call.Done (call : Call) : Prop := Refreshed call.clock call.before call.after

/-- **What the code does is a refresh.** -/
theorem Call.Made.done {call : Call} (h : call.Made) : call.Done :=
  refreshReadPause_holds.sound h

/-- What no other code of a session touches. -/
structure SameStall (s s' : Session) : Prop where
  client : s'.clientQueueStalled = s.clientQueueStalled
  upstream : s'.upstreamQueueStalled = s.upstreamQueueStalled
  deadline : s'.stallDeadline = s.stallDeadline
  limits : s'.limits = s.limits

/-- A session with the refreshes that it has been through, the latest first.  Between two
of them its queues, its stage and its times may become anything. -/
inductive History (call : Call → Prop) : List Call → Session → Prop where
  | fresh {s : Session} (hclient : s.clientQueueStalled = false)
      (hupstream : s.upstreamQueueStalled = false) (hdeadline : s.stallDeadline = 0) :
      History call [] s
  | refresh {calls : List Call} {latest : Call} (h : History call calls latest.before)
      (hcall : call latest) : History call (latest :: calls) latest.after
  | between {calls : List Call} {s s' : Session} (h : History call calls s)
      (hsame : SameStall s s') : History call calls s'

variable {calls others : List Call} {s s' : Session}

theorem History.mono {call call' : Call → Prop} (h : History call calls s)
    (hcall : ∀ c, call c → call' c) : History call' calls s := by
  induction h with
  | fresh hclient hupstream hdeadline => exact .fresh hclient hupstream hdeadline
  | refresh _ hlatest ih => exact .refresh ih (hcall _ hlatest)
  | between _ hsame ih => exact .between ih hsame

/-- The limits of a session never change. -/
theorem History.limits (h : History Call.Done calls s) :
    ∀ call ∈ calls, call.before.limits = s.limits := by
  induction h with
  | fresh => exact fun _ hmem => nomatch hmem
  | @refresh calls latest _ hdone ih =>
      intro call hmem
      rw [hdone.own.limits]
      rcases List.mem_cons.mp hmem with hlatest | hearlier
      · rw [hlatest]
      · exact ih call hearlier
  | between _ hsame ih =>
      intro call hmem
      rw [ih call hmem, hsame.limits]

/-- The levels of the queue to the pool, at the refreshes. -/
def towardPool (calls : List Call) : List Nat := calls.map fun call => call.before.toUpstream.size

/-- The levels of the queue to the client. -/
def towardClient (calls : List Call) : List Nat := calls.map fun call => call.before.toClient.size

/-- The stall flags are a hysteresis over the queues. -/
theorem History.flags (h : History Call.Done calls s) :
    s.clientQueueStalled = Hysteresis.after (queuePauseBytes s.limits) (queueResumeBytes s.limits)
        (towardPool calls) ∧
      s.upstreamQueueStalled = Hysteresis.after (queuePauseBytes s.limits)
        (queueResumeBytes s.limits) (towardClient calls) := by
  induction h with
  | fresh hclient hupstream _ => exact ⟨hclient, hupstream⟩
  | @refresh calls latest _ hdone ih =>
      have hown := hdone.own
      rw [hdone.client, hdone.upstream, hown.limits]
      unfold Session.clientQueueHigh Session.upstreamQueueHigh
      rw [ih.1, ih.2]
      exact ⟨rfl, rfl⟩
  | between _ hsame ih =>
      rw [hsame.client, hsame.upstream, hsame.limits]
      exact ih

/-! ## The beginning of a stall -/

/-- A stall begins with the call. -/
def Call.Onset (call : Call) : Prop := call.before.stalled = false ∧ call.after.stalled = true

/-- The stall goes on at the call. -/
def Call.Goes (call : Call) : Prop := call.before.stalled = true ∧ call.after.stalled = true

/-- A session that keeps its flags is stalled as before. -/
theorem SameStall.stalled (h : SameStall s s') : s'.stalled = s.stalled := by
  unfold Session.stalled
  rw [h.client, h.upstream]

/-- The deadline of a stalled session is that of the latest onset. -/
theorem History.onset (h : History Call.Done calls s) (hstalled : s.stalled = true) :
    ∃ newer onset earlier, calls = newer ++ onset :: earlier ∧ onset.Onset ∧
      (∀ call ∈ newer, call.Goes) ∧ s.stallDeadline = onset.clock + kRelayStallTimeout := by
  induction h with
  | fresh hclient hupstream _ =>
      unfold Session.stalled at hstalled
      rw [hclient, hupstream] at hstalled
      cases hstalled
  | @refresh calls latest _ hdone ih =>
      have hdeadline := hdone.deadline
      rw [hstalled] at hdeadline
      cases hbefore : latest.before.stalled with
      | false =>
          rw [hbefore] at hdeadline
          exact ⟨[], latest, calls, rfl, ⟨hbefore, hstalled⟩, fun _ hmem => (nomatch hmem), hdeadline⟩
      | true =>
          rw [hbefore] at hdeadline
          obtain ⟨newer, onset, earlier, hcalls, honset, hgoes, hold⟩ := ih hbefore
          refine ⟨latest :: newer, onset, earlier, by rw [hcalls]; rfl, honset, ?_,
            hdeadline.trans hold⟩
          exact List.forall_mem_cons.mpr ⟨⟨hbefore, hstalled⟩, hgoes⟩
  | between _ hsame ih =>
      rw [hsame.stalled] at hstalled
      rw [hsame.deadline]
      exact ih hstalled

/-- At a refresh that leaves the session stalled, one of its own queues is above the
resume mark. -/
theorem Refreshed.above {clock : Nat} (h : Refreshed clock s s') (hstalled : s'.stalled = true) :
    queueResumeBytes s.limits < s.toUpstream.size ∨ queueResumeBytes s.limits < s.toClient.size := by
  unfold Session.stalled at hstalled
  rw [h.client, h.upstream, Bool.or_eq_true] at hstalled
  rcases hstalled with hhigh | hhigh
  · exact .inl (Hysteresis.lower_of_next (queueResumeBytes_le s.limits) hhigh)
  · exact .inr (Hysteresis.lower_of_next (queueResumeBytes_le s.limits) hhigh)

/-- Every call of a history was a refresh. -/
theorem History.done (h : History Call.Done calls s) : ∀ call ∈ calls, call.Done := by
  induction h with
  | fresh => exact fun _ hmem => nomatch hmem
  | refresh _ hdone ih => exact List.forall_mem_cons.mpr ⟨hdone, ih⟩
  | between _ _ ih => exact ih

/-- A session that is closed by its stall deadline was above a mark of its own at every
refresh of the last minute. -/
theorem History.above (h : History Call.Done calls s) (hstalled : s.stalled = true) {now : Nat}
    (hdue : s.stallDeadline ≤ now)
    (horder : calls.Pairwise fun newer older => older.clock ≤ newer.clock) :
    ∀ call ∈ calls, now < call.clock + kRelayStallTimeout →
      queueResumeBytes s.limits < call.before.toUpstream.size ∨
        queueResumeBytes s.limits < call.before.toClient.size := by
  intro call hmem hrecent
  obtain ⟨newer, onset, earlier, hcalls, honset, hgoes, hdeadline⟩ := h.onset hstalled
  have hafter : call.after.stalled = true := by
    rw [hcalls] at hmem horder
    rcases List.mem_append.mp hmem with hnewer | hrest
    · exact (hgoes call hnewer).2
    · rcases List.mem_cons.mp hrest with hsame | hearlier
      · rw [hsame]
        exact honset.2
      · -- what came before the onset is older than a minute
        have hclock := List.rel_of_pairwise_cons (List.pairwise_append.mp horder).2.1 hearlier
        omega
  rw [← h.limits call hmem]
  exact (h.done call hmem).above hafter

/-! ## Two runs -/

/-- The stall deadline, from the session's own queues and the clock alone. -/
def deadlineAfter (limits : LimitsConfig) : List (Nat × Nat × Nat) → Nat
  | [] => 0
  | (pool, client, clock) :: earlier =>
      let before := Hysteresis.after (queuePauseBytes limits) (queueResumeBytes limits)
          (earlier.map fun level => level.1) ||
        Hysteresis.after (queuePauseBytes limits) (queueResumeBytes limits)
          (earlier.map fun level => level.2.1)
      let now := Hysteresis.after (queuePauseBytes limits) (queueResumeBytes limits)
          (pool :: earlier.map fun level => level.1) ||
        Hysteresis.after (queuePauseBytes limits) (queueResumeBytes limits)
          (client :: earlier.map fun level => level.2.1)
      if now && !before then clock + kRelayStallTimeout else deadlineAfter limits earlier

/-- The levels of both queues and the clock at a call. -/
def Call.levels (call : Call) : Nat × Nat × Nat :=
  (call.before.toUpstream.size, call.before.toClient.size, call.clock)

/-- The levels toward the pool, out of the levels of both. -/
theorem towardPool_eq (calls : List Call) :
    towardPool calls = (calls.map Call.levels).map fun level => level.1 := by
  rw [List.map_map]
  rfl

/-- The levels toward the client, out of the levels of both. -/
theorem towardClient_eq (calls : List Call) :
    towardClient calls = (calls.map Call.levels).map fun level => level.2.1 := by
  rw [List.map_map]
  rfl

/-- **The stall deadline is a function of the session's own queues and the clock.** -/
theorem History.stallDeadline (h : History Call.Done calls s) :
    s.stallDeadline = deadlineAfter s.limits (calls.map Call.levels) := by
  induction h with
  | fresh _ _ hdeadline => exact hdeadline
  | @refresh calls latest hbefore hdone ih =>
      have hflags := (History.refresh hbefore hdone).flags
      have hearlier := hbefore.flags
      rw [hdone.deadline]
      unfold Session.stalled
      rw [hflags.1, hflags.2, hearlier.1, hearlier.2, ih, hdone.own.limits, towardPool_eq,
        towardClient_eq, towardPool_eq, towardClient_eq]
      rfl
  | between _ hsame ih =>
      rw [hsame.deadline, hsame.limits]
      exact ih

/-- Two calls on the same queues, at the same time. -/
def Call.Alike (call other : Call) : Prop :=
  SameOwn call.before other.before ∧ other.clock = call.clock

/-- Sessions with the same queues at the same times have the same levels. -/
theorem levels_alike (h : List.Forall₂ Call.Alike calls others) :
    others.map Call.levels = calls.map Call.levels := by
  induction h with
  | nil => rfl
  | cons hfirst _ ih =>
      rw [List.map_cons, List.map_cons, ih]
      unfold Call.levels
      rw [hfirst.1.toUpstream, hfirst.1.toClient, hfirst.2]

/-- **The process-wide readings do not matter**: two sessions with the same queues at the
same times have the same stall flags and the same stall deadline. -/
theorem History.alike (h : History Call.Done calls s) (h' : History Call.Done others s')
    (hcalls : List.Forall₂ Call.Alike calls others) (hlimits : s'.limits = s.limits) :
    SameStall s s' := by
  have hlevels := levels_alike hcalls
  have hflags := h.flags
  have hflags' := h'.flags
  rw [towardPool_eq, towardClient_eq] at hflags hflags'
  rw [hlevels, hlimits] at hflags'
  refine ⟨hflags'.1.trans hflags.1.symm, hflags'.2.trans hflags.2.symm, ?_, hlimits⟩
  rw [h.stallDeadline, h'.stallDeadline, hlevels, hlimits]

/-- The timeout deadline then is the same too. -/
theorem SameStall.timeoutDeadline (h : SameStall s s') (hown : SameOwn s s') :
    s'.timeoutDeadline = s.timeoutDeadline := by
  unfold Session.timeoutDeadline
  rw [hown.stage, hown.deadline, hown.lastActivity, hown.limits, h.client, h.upstream, h.deadline]

/-! ## The timer -/

/-- The idle deadline of a session. -/
def idleDeadline (s : Session) : Nat := afterSeconds s.lastActivity s.limits.idleTimeoutSeconds

/-- A relay that its timer closes before it has been idle for long is stalled, and has
been for a minute. -/
theorem stalled_of_reaped {now : Nat} {e : Exit} {w w' : Outside} (hrelay : s.stage = .relay)
    (hidle : now < idleDeadline s)
    (hrun : Runs outside w (expireSession now s) (.error e, s') w') :
    s.stalled = true ∧ s.stallDeadline ≤ now := by
  have hexpire : Holds outside s w (expireSession now) (fun _ _ _ => True)
      (fun _ _ _ => s.timeoutDeadline ≤ now) := by
    unfold expireSession
    apply holds_current_bind
    split
    · exact ⟨trivial, fun _ _ => trivial⟩
    · rename_i hdue
      rw [if_neg (by rw [hrelay]; decide), if_neg (by rw [hrelay]; decide)]
      exact Nat.le_of_not_lt hdue
  have hdue : s.timeoutDeadline ≤ now := hexpire.sound hrun
  unfold Session.timeoutDeadline at hdue
  rw [if_neg (not_not.mpr hrelay)] at hdue
  by_cases hstalled : s.clientQueueStalled ∨ s.upstreamQueueStalled
  · rw [if_pos hstalled] at hdue
    refine ⟨?_, hdue⟩
    unfold Session.stalled
    rw [Bool.or_eq_true]
    exact hstalled
  · rw [if_neg hstalled] at hdue
    unfold idleDeadline at hidle
    omega

/-- **Stall detection depends only on the session's own queues.**  After any refreshes,
whatever the process-wide readings were: each flag is up exactly when its queue has
exceeded the pause mark at some refresh and the resume mark at every one since; another
session with the same queues at the same times has the same flags and deadlines; a stalled
session has the deadline of the latest onset; and a relay that the timer closes before its
idle deadline had, at every refresh of the last minute, a queue of its own above the resume
mark. -/
theorem stall_depends_on_own_queues (h : History Call.Made calls s) :
    (s.clientQueueStalled = true ↔ Hysteresis.Exceeded (queuePauseBytes s.limits)
        (queueResumeBytes s.limits) (towardPool calls)) ∧
      (s.upstreamQueueStalled = true ↔ Hysteresis.Exceeded (queuePauseBytes s.limits)
        (queueResumeBytes s.limits) (towardClient calls)) ∧
      (∀ others s', History Call.Made others s' → List.Forall₂ Call.Alike calls others →
        SameOwn s s' → s'.clientQueueStalled = s.clientQueueStalled ∧
          s'.upstreamQueueStalled = s.upstreamQueueStalled ∧
          s'.stallDeadline = s.stallDeadline ∧ s'.timeoutDeadline = s.timeoutDeadline) ∧
      (s.stalled = true → ∃ newer onset earlier, calls = newer ++ onset :: earlier ∧
        onset.Onset ∧ (∀ call ∈ newer, call.Goes) ∧
        s.stallDeadline = onset.clock + kRelayStallTimeout) ∧
      (∀ now e s' w w', s.stage = .relay → now < idleDeadline s →
        Runs outside w (expireSession now s) (.error e, s') w' →
        (calls.Pairwise fun newer older => older.clock ≤ newer.clock) →
        ∀ call ∈ calls, now < call.clock + kRelayStallTimeout →
          queueResumeBytes s.limits < call.before.toUpstream.size ∨
            queueResumeBytes s.limits < call.before.toClient.size) := by
  have hdone : History Call.Done calls s := h.mono fun _ => Call.Made.done
  have hmarks := queueResumeBytes_le s.limits
  refine ⟨?_, ?_, ?_, hdone.onset, ?_⟩
  · rw [hdone.flags.1]
    exact Hysteresis.after_eq_true_iff hmarks _
  · rw [hdone.flags.2]
    exact Hysteresis.after_eq_true_iff hmarks _
  · intro others s' hothers halike hown
    have hdone' : History Call.Done others s' := hothers.mono fun _ => Call.Made.done
    have hsame := hdone.alike hdone' halike hown.limits
    exact ⟨hsame.client, hsame.upstream, hsame.deadline, hsame.timeoutDeadline hown⟩
  · intro now e s' w w' hrelay hidle hrun horder
    obtain ⟨hstalled, hdue⟩ := stalled_of_reaped hrelay hidle hrun
    exact hdone.above hstalled hdue horder

/-! ## A stalled relay, computed -/

/-- A relay with eleven bytes for the pool, where ten are the mark. -/
def brimming : Session where
  id := 1
  client := 7
  runtime := { limits := { maxLineBytes := 1, maxBufferBytes := 10 } }
  proxyHeader := makeProxyV2Header .other .other
  stage := .relay
  lastActivity := 5
  toUpstream := PendingBuffer.append {} (List.replicate 11 0)

def refreshAt (clock : Nat) (s : Session) : (Except Exit Unit × Session) × Unit :=
  (refreshReadPause s).play (atClock clock) (fun _ c => ({} : Scenario).answer { clock := clock } c) ()

/-- The answers are allowed at that clock. -/
theorem atClock_answer (clock : Nat) (c : ReactorCall) :
    (atClock clock).allows () c (({} : Scenario).answer { clock := clock } c) := by
  cases c with
  | now => exact rfl
  | _ => trivial

theorem refreshAt_made {clock : Nat} {s : Session} (hok : (refreshAt clock s).1.1 = .ok ()) :
    Call.Made ⟨s, (refreshAt clock s).1.2, clock⟩ := by
  have hrun : Runs (atClock clock) () (refreshReadPause s) (refreshAt clock s).1 () :=
    runs_play (fun _ c => atClock_answer clock c) () (refreshReadPause s)
  have houtcome : (refreshAt clock s).1 = (.ok (), (refreshAt clock s).1.2) := Prod.ext hok rfl
  rw [houtcome] at hrun
  exact hrun

/-- The pool has taken some bytes since. -/
def drained (s : Session) (count : Nat) : Session :=
  { s with toUpstream := s.toUpstream.consume count }

/-- A refresh at 5, with eleven bytes. -/
def brimmingCall : Call := ⟨brimming, (refreshAt 5 brimming).1.2, 5⟩

/-- A refresh at 9, with eight left. -/
def fullCall : Call where
  before := drained brimmingCall.after 3
  after := (refreshAt 9 (drained brimmingCall.after 3)).1.2
  clock := 9

/-- A refresh at 12, with five left. -/
def halfCall : Call where
  before := drained fullCall.after 3
  after := (refreshAt 12 (drained fullCall.after 3)).1.2
  clock := 12

/-- It is stalled after the first refresh, and still after the second, with the deadline of
the first; with no more than half the mark left it is not. -/
theorem stall_depends_on_own_queues_brimming :
    History Call.Made [fullCall, brimmingCall] fullCall.after ∧
      fullCall.after.clientQueueStalled = true ∧
      fullCall.after.stallDeadline = 5 + kRelayStallTimeout ∧
      Hysteresis.Exceeded (queuePauseBytes fullCall.after.limits)
        (queueResumeBytes fullCall.after.limits) [8, 11] ∧
      History Call.Made [halfCall, fullCall, brimmingCall] halfCall.after ∧
      halfCall.after.clientQueueStalled = false ∧
      ¬ Hysteresis.Exceeded (queuePauseBytes halfCall.after.limits)
        (queueResumeBytes halfCall.after.limits) [5, 8, 11] := by
  have hfirst : brimmingCall.Made := refreshAt_made (by decide +kernel)
  have hsecond : fullCall.Made := refreshAt_made (by decide +kernel)
  have hthird : halfCall.Made := refreshAt_made (by decide +kernel)
  have hfresh : History Call.Made [] brimmingCall.before := .fresh rfl rfl rfl
  have hfull : History Call.Made [fullCall, brimmingCall] fullCall.after :=
    .refresh (.between (.refresh hfresh hfirst) ⟨rfl, rfl, rfl, rfl⟩) hsecond
  have hhalf : History Call.Made [halfCall, fullCall, brimmingCall] halfCall.after :=
    .refresh (.between hfull ⟨rfl, rfl, rfl, rfl⟩) hthird
  have hstalled : fullCall.after.clientQueueStalled = true := by decide +kernel
  have hdeadline : fullCall.after.stallDeadline = 5 + kRelayStallTimeout := by decide +kernel
  have hresumed : halfCall.after.clientQueueStalled = false := by decide +kernel
  refine ⟨hfull, hstalled, hdeadline, (stall_depends_on_own_queues hfull).1.mp hstalled, hhalf,
    hresumed, fun hexceeded => ?_⟩
  rw [(stall_depends_on_own_queues hhalf).1.mpr hexceeded] at hresumed
  cases hresumed

/-! ## Over the life of a session -/

variable {json : Glaze} {c c' : Config}

/-- **No handler touches the stall flags but by a refresh.** -/
theorem move_stall (h : Move json c c') :
    (SameStall c.session c'.session ∧ c.outside.clock ≤ c'.outside.clock) ∨
      Refreshed c.outside.clock c.session c'.session ∧ c'.outside.clock = c.outside.clock := by
  cases h with
  | tick time h => exact .inl ⟨⟨rfl, rfl, rfl, rfl⟩, h⟩
  | inert s h =>
      refine .inl ⟨?_, le_refl _⟩
      show SameStall c.session s
      rw [h]
      exact ⟨rfl, rfl, rfl, rfl⟩
  | keepPause reading _ _ hsame => exact .inr ⟨refreshed_withPause hsame, rfl⟩
  | changeStall reading _ _ _ hchange => exact .inr ⟨refreshed_withStall hchange, rfl⟩
  | changeRelayStall reading _ _ _ hchange =>
      exact .inr ⟨(refreshed_withStall hchange).bump, rfl⟩
  | _ => exact .inl ⟨⟨rfl, rfl, rfl, rfl⟩, le_refl _⟩

/-- The refreshes that a session has been through, in the order of the clock. -/
def Recorded (c : Config) : Prop :=
  ∃ calls, History Call.Done calls c.session ∧
    (calls.Pairwise fun newer older => older.clock ≤ newer.clock) ∧
    ∀ call ∈ calls, call.clock ≤ c.outside.clock

theorem Recorded.later {s : Session} {w w' : Outside} (hclock : w.clock ≤ w'.clock)
    (h : Recorded (.start s w)) : Recorded (.start s w') := by
  obtain ⟨calls, hhistory, horder, hpast⟩ := h
  exact ⟨calls, hhistory, horder, fun call hmem => (hpast call hmem).trans hclock⟩

/-- **Every session has such a history**, at every point of its life. -/
theorem history_lawful (json : Glaze) : Lawful json Recorded where
  fresh s w hs _ := by
    obtain ⟨id, client, runtime, header, lease, now, rfl | rfl⟩ := hs
    · exact ⟨[], .fresh rfl rfl rfl, .nil, fun _ hmem => nomatch hmem⟩
    · exact ⟨[], .fresh rfl rfl rfl, .nil, fun _ hmem => nomatch hmem⟩
  move others c c' hmove _ h := by
    obtain ⟨calls, hhistory, horder, hpast⟩ := h
    rcases move_stall hmove with ⟨hsame, hclock⟩ | ⟨hrefreshed, hclock⟩
    · exact ⟨calls, .between hhistory hsame, horder, fun call hmem => (hpast call hmem).trans hclock⟩
    · let latest : Call := ⟨c.session, c'.session, c.outside.clock⟩
      have hnext : History Call.Done (latest :: calls) latest.after := .refresh hhistory hrefreshed
      refine ⟨latest :: calls, hnext, .cons hpast horder, ?_⟩
      rw [hclock]
      exact List.forall_mem_cons.mpr ⟨le_refl _, hpast⟩
  restart c hresting hnothing h := by
    rw [hresting.start_eq hnothing]
    exact h
  meanwhile s w w' _ hclock h := h.later hclock

/-- **A relay is not closed for the load of others**: where the timer closes a session that
has not been idle for long, a queue of its own was above the resume mark at every refresh of
the last minute, of those that it has been through. -/
theorem reaped_relay_was_stalled {w w' : Outside} {now : Nat} {e : Exit}
    (h : Reached json s w) (hrelay : s.stage = .relay) (hidle : now < idleDeadline s)
    (hrun : Runs outside w (expireSession now s) (.error e, s') w') :
    ∃ calls, History Call.Done calls s ∧ ∀ call ∈ calls, now < call.clock + kRelayStallTimeout →
      queueResumeBytes s.limits < call.before.toUpstream.size ∨
        queueResumeBytes s.limits < call.before.toClient.size := by
  obtain ⟨calls, hhistory, horder, _⟩ := (history_lawful json).reached h
  obtain ⟨hstalled, hdue⟩ := stalled_of_reaped hrelay hidle hrun
  exact ⟨calls, hhistory, hhistory.above hstalled hdue horder⟩

end PoolLb.Stall
