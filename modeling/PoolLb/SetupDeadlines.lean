import PoolLb.Reactions
import PoolLb.WorkerTimers

/-!
# What moves a deadline before the relay

A session that is not yet a relay has one deadline, and the stages of its setup use it in turn:
for the TLS handshake, for the first line, for each attempt to connect.  Traffic never touches
it.  `Headway` says what one reaction can make of the deadlines: nothing, or the end of the
handshake, or the beginning of an attempt within the overall deadline, or the relay.

The world of this module is a diary of the clock and of the attempts.  It is what every other
world shows when the rest of it is forgotten, so what holds in it holds everywhere.
-/

namespace PoolLb.Setup

open Interaction Handler

/-- The clock, and the sockets that `start_connect` has returned. -/
structure Diary where
  clock : Nat
  attempts : Nat := 0
deriving DecidableEq

def Diary.after (d : Diary) : (c : ReactorCall) → c.Answer → Diary
  | .now, time => { d with clock := time }
  | .startConnect _ _, some _ => { d with attempts := d.attempts + 1 }
  | _, _ => d

def Diary.allows (d : Diary) : (c : ReactorCall) → c.Answer → Prop
  | .now, time => d.clock ≤ time
  | _, _ => True

def diary : World reactorCalls Diary where
  requires _ _ := True
  allows := Diary.allows
  after := Diary.after

/-- The event is a new socket. -/
def isOpened : Event → Bool
  | .opened _ => true
  | _ => false

/-- What the diary has of the outside. -/
def diaryOf (w : Outside) : Diary := ⟨w.clock, w.log.countP isOpened⟩

/-- An answer that the outside allows is allowed in its diary. -/
theorem diaryOf_allows (w : Outside) (c : ReactorCall) (r : c.Answer) (h : outside.allows w c r) :
    diary.allows (diaryOf w) c r := by
  cases c with
  | now => exact h
  | _ => trivial

/-- A call logs a new socket exactly when the diary counts an attempt. -/
theorem countP_observe (c : ReactorCall) (r : c.Answer) :
    (Outside.observe c r).countP isOpened = (Diary.after ⟨0, 0⟩ c r).attempts := by
  cases c with
  | reserveQueuedBytes use =>
      cases use with
      | line bytes => cases r <;> rfl
      | _ => rfl
  | recvClient client => cases r <;> rfl
  | sslRead session => cases r <;> rfl
  | recvUpstream socket => cases r <;> rfl
  | sendClient client data => cases r <;> rfl
  | sslWrite session data => cases r <;> rfl
  | sendUpstream socket data => cases socket <;> cases r <;> rfl
  | startConnect address source => cases r <;> rfl
  | count counter amount => cases counter <;> rfl
  | sslPending session =>
      show (if r = 0 then [] else [Event.strandedPlaintext]).countP isOpened = 0
      split <;> rfl
  | _ => rfl

/-- A call updates the clock only where the diary does, and no call rewrites the log. -/
theorem update_diary (w : Outside) (c : ReactorCall) (r : c.Answer) :
    (w.update c r).clock = ((diaryOf w).after c r).clock ∧ (w.update c r).log = w.log := by
  cases c with
  | reserveQueuedBytes use => cases r <;> exact ⟨rfl, rfl⟩
  | acquireLease key limits =>
      obtain ⟨result, lease⟩ := r
      cases lease <;> exact ⟨rfl, rfl⟩
  | releaseLease lease => cases lease <;> exact ⟨rfl, rfl⟩
  | emplaceSession s => cases r <;> exact ⟨rfl, rfl⟩
  | startConnect address source => cases r <;> exact ⟨rfl, rfl⟩
  | _ => exact ⟨rfl, rfl⟩

/-- What a call adds to the attempts does not depend on what was there. -/
theorem attempts_after (d : Diary) (c : ReactorCall) (r : c.Answer) :
    (d.after c r).attempts = (Diary.after ⟨0, 0⟩ c r).attempts + d.attempts := by
  cases c with
  | startConnect address source =>
      cases r with
      | none => exact (Nat.zero_add _).symm
      | some started => exact Nat.add_comm _ _
  | _ => exact (Nat.zero_add _).symm

/-- **The diary forgets the rest of the outside, call by call.** -/
theorem diaryOf_after (w : Outside) (c : ReactorCall) (r : c.Answer) :
    diaryOf (outside.after w c r) = diary.after (diaryOf w) c r := by
  obtain ⟨hclock, hlog⟩ := update_diary w c r
  have hattempts : (outside.after w c r).log.countP isOpened =
      ((diaryOf w).after c r).attempts := by
    show (Outside.observe c r ++ (w.update c r).log).countP isOpened = _
    rw [hlog, List.countP_append, countP_observe, attempts_after (diaryOf w)]
    rfl
  show (⟨(w.update c r).clock, _⟩ : Diary) = (diaryOf w).after c r
  rw [hclock, hattempts]

/-- An execution of the outside is in the diary. -/
theorem runs_diary {α : Type} {p : Prog reactorCalls α} {a : α} {w w' : Outside}
    (h : Runs outside w p a w') : Runs diary (diaryOf w) p a (diaryOf w') :=
  h.seen_through diaryOf diaryOf_allows diaryOf_after

/-! ## Courses -/

/-- The part of a session that its setup is about. -/
structure Course where
  runtime : RuntimeSnapshot
  ssl : Bool
  stage : SessionStage
  deadline : Nat
  overall : Nat
  receivedMessage : Bool

def courseOf (standing : Standing) : Course where
  runtime := standing.runtime
  ssl := standing.ssl
  stage := standing.stage
  deadline := standing.deadline
  overall := standing.upstreamOverallDeadline
  receivedMessage := standing.receivedMessage

def course (s : Session) : Course := courseOf s.standing

/-- The course is a part of the standing. -/
theorem course_of_standing {s s' : Session} (h : s'.standing = s.standing) : course s' = course s :=
  congrArg courseOf h

/-- The calls that leave the diary as it is. -/
def Quiet : ReactorCall → Prop
  | .now | .startConnect _ _ => False
  | _ => True

/-- A call that is not in the diary leaves it as it is. -/
theorem quiet_after {c : ReactorCall} (h : Quiet c) (d : Diary) (r : c.Answer) : d.after c r = d := by
  cases c with
  | now => exact h.elim
  | startConnect address source => exact h.elim
  | _ => rfl

/-- The code keeps the course, and is not in the diary. -/
abbrev Keeps {α : Type} (m : SessionM α) : Prop :=
  Interaction.Framed Quiet course (fun _ => True) (fun _ : Exit => True) m

/-- Any end of a piece of code, with its diary. -/
abbrev Notes {α : Type} (s : Session) (d : Diary) (m : SessionM α)
    (Q : α → Session → Diary → Prop) : Prop :=
  Holds diary s d m Q (fun _ _ _ => True)

/-- Code that keeps the course and is not in the diary, as a rule for its ends. -/
theorem keeps_notes {α : Type} {m : SessionM α} (h : Keeps m) (s : Session) (d : Diary) :
    Notes s d m (fun _ s' d' => course s' = course s ∧ d' = d) := by
  have hend := h.holds (M := diary) (s := s) (w := d) (R := fun d d' => d' = d) trivial
    (fun _ => rfl) (fun _ _ _ h h' => h'.trans h)
    fun d c hc => ⟨trivial, fun r _ => quiet_after hc d r⟩
  exact hend.mono (fun _ _ _ hend => hend) fun _ _ _ _ => trivial

/-- What comes after code that keeps the course. -/
theorem keeps_bind {α β : Type} {m : SessionM α} {f : α → SessionM β} {s : Session} {d : Diary}
    {Q : β → Session → Diary → Prop} (h : Keeps m)
    (hf : ∀ a s', course s' = course s → Notes s' d (f a) Q) : Notes s d (m >>= f) Q := by
  apply (keeps_notes h s d).bind
  intro a s' d' hend
  obtain ⟨hcourse, rfl⟩ := hend
  exact hf a s' hcourse

/-- The calls that end an attempt are not in the diary. -/
theorem quiet_of_finishes {c : ReactorCall} (h : c.Finishes) : Quiet c := by
  cases c with
  | now => exact h
  | startConnect address source => exact h
  | _ => trivial

/-- What a connect function yields, with nothing in the diary. -/
theorem notes_of_completes {α : Type} {m : SessionM α} {Q : α → Session → Prop} {s : Session}
    (h : Completes ReactorCall.Finishes s m Q) (d : Diary) :
    Notes s d m (fun a s' d' => Q a s' ∧ d' = d) :=
  (h.holds (M := diary) (R := fun d d' => d' = d) (fun _ => rfl) (fun _ _ _ h h' => h'.trans h)
    fun d _ hc => ⟨trivial, fun r _ => quiet_after (quiet_of_finishes hc) d r⟩).mono
      (fun _ _ _ hend => hend) fun _ _ _ _ => trivial

/-- A connect function that keeps the course. -/
theorem keeps_of_completes {α : Type} {P : ReactorCall → Prop} {m : SessionM α}
    {Q : Session → α → Session → Prop} (h : ∀ s, Completes P s m (Q s)) (hP : ∀ c, P c → Quiet c)
    (hQ : ∀ s a s', Q s a s' → course s' = course s) : Keeps m :=
  framed_of_yields (fun s _ => (h s).mono (fun a s' => hQ s a s') fun _ _ h => h.elim) hP

/-- An error at a backend moves no deadline. -/
theorem recordUpstreamError_keeps : Keeps recordUpstreamError :=
  keeps_of_completes recordUpstreamError_yields (fun _ hc => quiet_of_finishes hc.finishes)
    fun _ _ _ h => h ▸ rfl

/-- Nor does a socket that goes. -/
theorem discardUpstream_keeps : Keeps discardUpstream :=
  keeps_of_completes discardUpstream_yields (fun _ hc => quiet_of_finishes hc.finishes)
    fun _ _ _ h => h ▸ rfl

/-- The timer follows the deadline and does not move it. -/
theorem scheduleTimeout_keeps : Keeps scheduleTimeout :=
  keeps_of_completes scheduleTimeout_yields (fun _ => quiet_of_finishes) fun _ _ _ h => h ▸ rfl

/-- The source number is not on the course. -/
theorem drawSourceSequence_keeps : Keeps drawSourceSequence := by
  apply keeps_of_completes drawSourceSequence_yields
  · intro c hc
    subst hc
    trivial
  · intro s _ s' h
    obtain ⟨_, rfl⟩ := h
    rfl

/-- **`finish_upstream_connect`**: a relay, or nothing. -/
theorem finishUpstreamConnect_notes (s : Session) (d : Diary) :
    Notes s d finishUpstreamConnect (fun done s' d' => d' = d ∧
      course s' = if done then { course s with stage := .relay } else course s) := by
  apply (notes_of_completes (finishUpstreamConnect_yields s) d).mono
  · intro done s' d' hend
    obtain ⟨hfinish, rfl⟩ := hend
    refine ⟨rfl, ?_⟩
    cases hfinish with
    | refused => rfl
    | crowded => rfl
    | relayed => rfl
  · exact fun _ _ _ _ => trivial

/-! ## Attempts -/

/-- The session is where it was but for its deadline, and time may have passed. -/
structure Onward (s : Session) (d : Diary) (s' : Session) (d' : Diary) : Prop where
  same : ∃ deadline, course s' = { course s with deadline := deadline }
  clock : d.clock ≤ d'.clock
  attempts : d.attempts ≤ d'.attempts

/-- An attempt to connect is under way, and its deadline lies within the time that there is for
all of them. -/
structure Started (s : Session) (d : Diary) (s' : Session) (d' : Diary) : Prop
    extends Onward s d s' d' where
  attempted : d.attempts < d'.attempts
  slice : s'.deadline ≤ s'.upstreamOverallDeadline
  ahead : d'.clock = d.clock → d.clock ≤ s'.deadline

/-- The session is a relay. -/
structure Relays (s : Session) (d : Diary) (s' : Session) (d' : Diary) : Prop where
  same : ∃ deadline, course s' = { course s with stage := .relay, deadline := deadline }
  clock : d.clock ≤ d'.clock
  attempts : d.attempts ≤ d'.attempts

/-- The answers of `tryCandidate`. -/
def TryEnd (s : Session) (d : Diary) : Option Bool → Session → Diary → Prop
  | some true, s', d' => Started s d s' d' ∨ Relays s d s' d'
  | some false, _, _ => True
  | none, s', d' => Onward s d s' d'

variable {s s' s'' : Session} {d d' d'' : Diary}

theorem Onward.refl (s : Session) (d : Diary) : Onward s d s d := ⟨⟨s.deadline, rfl⟩, le_rfl, le_rfl⟩

theorem Onward.trans (h : Onward s d s' d') (h' : Onward s' d' s'' d'') : Onward s d s'' d'' := by
  obtain ⟨deadline, hcourse⟩ := h.same
  obtain ⟨deadline', hcourse'⟩ := h'.same
  refine ⟨⟨deadline', ?_⟩, h.clock.trans h'.clock, h.attempts.trans h'.attempts⟩
  rw [hcourse', hcourse]

theorem Onward.kept (h : Onward s d s' d') (hkept : course s'' = course s') : Onward s d s'' d' :=
  h.trans ⟨⟨s'.deadline, hkept⟩, le_rfl, le_rfl⟩

/-- An attempt that starts on the way starts from the beginning of it. -/
theorem Onward.started (h : Onward s d s' d') (h' : Started s' d' s'' d'') : Started s d s'' d'' := by
  refine ⟨h.trans h'.toOnward, Nat.lt_of_le_of_lt h.attempts h'.attempted, h'.slice, fun hclock => ?_⟩
  have hle := h.clock
  have hle' := h'.clock
  have hahead := h'.ahead (by omega)
  omega

/-- So does a relay. -/
theorem Onward.relays (h : Onward s d s' d') (h' : Relays s' d' s'' d'') : Relays s d s'' d'' := by
  obtain ⟨deadline, hcourse⟩ := h.same
  obtain ⟨deadline', hcourse'⟩ := h'.same
  refine ⟨⟨deadline', ?_⟩, h.clock.trans h'.clock, h.attempts.trans h'.attempts⟩
  rw [hcourse', hcourse]

theorem Started.kept (h : Started s d s' d') (hkept : course s'' = course s') : Started s d s'' d' := by
  have hdeadline : s''.deadline = s'.deadline := congrArg Course.deadline hkept
  have hoverall : s''.upstreamOverallDeadline = s'.upstreamOverallDeadline :=
    congrArg Course.overall hkept
  refine ⟨h.toOnward.kept hkept, h.attempted, ?_, fun hclock => ?_⟩
  · rw [hdeadline, hoverall]
    exact h.slice
  · rw [hdeadline]
    exact h.ahead hclock

/-- What a candidate comes to, seen from an earlier point. -/
theorem TryEnd.onward {result : Option Bool} (h : Onward s d s' d')
    (hend : TryEnd s' d' result s'' d'') : TryEnd s d result s'' d'' := by
  cases result with
  | none => exact h.trans hend
  | some done =>
      cases done with
      | false => trivial
      | true =>
          rcases hend with hstarted | hrelays
          · exact .inl (h.started hstarted)
          · exact .inr (h.relays hrelays)

/-- A share of the time that is left ends within it, and not before now. -/
theorem attemptDeadline_bounds (s : Session) (now : Nat) :
    s.attemptDeadline now ≤ s.upstreamOverallDeadline ∧
      (now < s.upstreamOverallDeadline → now ≤ s.attemptDeadline now) := by
  unfold Session.attemptDeadline
  dsimp only
  generalize (s.upstreamOverallDeadline - now) / (s.connectCandidatesRemaining + 1) = slice
  omega

/-- What an attempt that has been started comes to. -/
theorem completeConnect_notes (started : ConnectStart) (h : Started s d s' d') :
    Notes s' d' (completeConnect started) (TryEnd s d) := by
  apply (notes_of_completes (completeConnect_yields started s') d').mono
  · intro result s₁ d₁ hend
    obtain ⟨hsettle, rfl⟩ := hend
    cases hsettle with
    | pending => exact .inl h
    | relayed => exact .inr (h.toOnward.relays ⟨⟨s'.deadline, rfl⟩, le_rfl, le_rfl⟩)
    | crowded => trivial
    | failed => exact h.toOnward.kept rfl
  · exact fun _ _ _ _ => trivial

/-- The attempt gets its share of the time that is left, and nothing beyond it. -/
theorem adoptSocket_notes (started : ConnectStart) (hd : d.clock < s.upstreamOverallDeadline) :
    Notes s { d with attempts := d.attempts + 1 } (adoptSocket started) (TryEnd s d) := by
  have hopened : Onward s d s { d with attempts := d.attempts + 1 } :=
    ⟨⟨s.deadline, rfl⟩, le_rfl, Nat.le_succ _⟩
  refine holds_modify_bind (holds_current_bind (holds_ask_bind trivial fun added _ => ?_))
  cases added with
  | false =>
      refine keeps_bind recordUpstreamError_keeps fun _ s₁ h₁ => ?_
      exact holds_ask_bind trivial fun _ _ => hopened.kept h₁
  | true =>
      refine holds_modify_bind ?_
      have hschedule : Notes { s with upstream := some started.socket, upstreamEvents := connectEvents }
          { d with attempts := d.attempts + 1 } scheduleConnectAttemptTimeout
          (fun _ s' d' => Started s d s' d') := by
        refine holds_ask_bind trivial fun now hnow => holds_modify_bind ?_
        have hnow : d.clock ≤ now := hnow
        apply (keeps_notes scheduleTimeout_keeps _ _).mono
        · intro _ s' d' hend
          obtain ⟨hcourse, rfl⟩ := hend
          obtain ⟨hslice, hahead⟩ := attemptDeadline_bounds s now
          have hstarted : Started s d { s with deadline := s.attemptDeadline now }
              ⟨now, d.attempts + 1⟩ :=
            ⟨⟨⟨_, rfl⟩, hnow, Nat.le_succ _⟩, Nat.lt_succ_self _, hslice, fun hclock => by
              have hclock : now = d.clock := hclock
              exact hclock ▸ hahead (hclock ▸ hd)⟩
          exact hstarted.kept hcourse
        · exact fun _ _ _ _ => trivial
      exact hschedule.bind fun _ s' d' hend => completeConnect_notes started hend

/-- One candidate: a socket in the diary, or an error and none. -/
theorem tryCandidate_notes (backend : Backend) (address : SocketAddress)
    (source : Option SocketAddress) (hd : d.clock < s.upstreamOverallDeadline) :
    Notes s d (tryCandidate backend address source) (TryEnd s d) := by
  refine holds_modify_bind
    (holds_ask_bind trivial fun _ _ => holds_ask_bind trivial fun started _ => ?_)
  cases started with
  | none =>
      refine keeps_bind recordUpstreamError_keeps fun _ s₁ h₁ => ?_
      exact (Onward.refl s d).kept h₁
  | some started =>
      have hspent : Onward s d s.spendCandidate d := (Onward.refl s d).kept rfl
      have hadopts : Notes s.spendCandidate { d with attempts := d.attempts + 1 }
          (adoptSocket started) (TryEnd s.spendCandidate d) := adoptSocket_notes started hd
      exact hadopts.mono (fun _ _ _ hend => TryEnd.onward hspent hend) fun _ _ _ _ => trivial

/-- **The loop of `start_next_upstream_connect`**, which checks the clock in every round. -/
theorem connectRounds_notes (rounds : Nat) (s : Session) (d : Diary) :
    Notes s d (connectRounds rounds)
      (fun _ s' d' => Started s d s' d' ∨ Relays s d s' d') := by
  induction rounds generalizing s d with
  | zero => trivial
  | succ rounds ih =>
      refine holds_current_bind (holds_ask_bind trivial fun now hnow => ?_)
      have hnow : d.clock ≤ now := hnow
      split
      · trivial
      · rename_i htime
        have htime : now < s.upstreamOverallDeadline := by
          rw [not_or] at htime
          exact Nat.lt_of_not_le htime.2
        refine holds_modify_bind (holds_current_bind ?_)
        split
        · trivial
        · refine holds_modify_bind ?_
          have hcourse : course (s.seekAddress s.backendAddressesRemaining).advanceSource =
              course s := by
            rw [Session.advanceSource_view course fun _ _ => rfl,
              Session.seekAddress_view course fun _ _ _ _ _ => rfl]
          have honward : Onward s d (s.seekAddress s.backendAddressesRemaining).advanceSource
              { d with clock := now } := ⟨⟨s.deadline, hcourse⟩, hnow, le_rfl⟩
          have hoverall :
              (s.seekAddress s.backendAddressesRemaining).advanceSource.upstreamOverallDeadline
              = s.upstreamOverallDeadline := congrArg Course.overall hcourse
          generalize (s.seekAddress s.backendAddressesRemaining).advanceSource = s₁ at honward hoverall
          have hbefore : now < s₁.upstreamOverallDeadline := hoverall ▸ htime
          split
          · apply (tryCandidate_notes (d := { d with clock := now }) _ _ _ hbefore).bind
            intro result s₂ d₂ hend
            cases result with
            | none =>
                apply (ih s₂ d₂).mono
                · intro _ s₃ d₃ hend'
                  have hnext := honward.trans hend
                  exact hend'.imp hnext.started hnext.relays
                · exact fun _ _ _ _ => trivial
            | some done =>
                cases done with
                | true => exact hend.imp honward.started honward.relays
                | false => trivial
          · trivial

/-- **The loop over the candidates** ends in an attempt within the overall deadline, or in the
relay. -/
theorem startNextUpstreamConnect_notes (s : Session) (d : Diary) :
    Notes s d startNextUpstreamConnect
      (fun _ s' d' => Started s d s' d' ∨ Relays s d s' d') := by
  refine holds_current_bind ?_
  split
  · trivial
  · exact connectRounds_notes _ s d

/-! ## Headway -/

/-- The stages before a connect. -/
def Early (s : Session) : Prop := s.stage = .tlsHandshake ∨ s.stage = .firstMessage

/-- How long there is for all attempts to connect. -/
def connectTime (s : Session) : Nat :=
  s.limits.upstreamConnectTimeoutMilliseconds.toNat * kNanosecondsPerMillisecond

/-- What has become of the deadlines of a session since it was `s₀`. -/
inductive Headway (s₀ : Session) (d₀ : Diary) (s : Session) (d : Diary) : Prop where
  /-- Nothing. -/
  | waits (hstage : s.stage = s₀.stage) (hdeadline : s.deadline = s₀.deadline)
      (hoverall : s.upstreamOverallDeadline = s₀.upstreamOverallDeadline)
  /-- The handshake is complete. -/
  | greeted (hbefore : s₀.stage = .tlsHandshake) (hstage : s.stage = .firstMessage)
      (hoverall : s.upstreamOverallDeadline = s₀.upstreamOverallDeadline)
      (hdeadline : d.clock = d₀.clock →
        s.deadline = afterSeconds d₀.clock s₀.limits.firstMessageTimeoutSeconds)
  /-- An attempt to connect has begun, within the overall deadline. -/
  | connects (hstage : s.stage = .upstreamConnect) (hattempted : d₀.attempts < d.attempts)
      (hslice : s.deadline ≤ s.upstreamOverallDeadline)
      (hahead : d.clock = d₀.clock → d₀.clock ≤ s.deadline)
      (hoverall : s₀.stage = .upstreamConnect ∧
          s.upstreamOverallDeadline = s₀.upstreamOverallDeadline ∨
        Early s₀ ∧ (d.clock = d₀.clock → s.upstreamOverallDeadline = d₀.clock + connectTime s₀))
  /-- The session is a relay. -/
  | relays (hstage : s.stage = .relay)

/-- A session that is under way since it was `s₀`. -/
structure Advances (s₀ : Session) (d₀ : Diary) (s : Session) (d : Diary) : Prop where
  runtime : s.runtime = s₀.runtime
  ssl : s.ssl = s₀.ssl
  clock : d₀.clock ≤ d.clock
  attempts : d₀.attempts ≤ d.attempts
  silent : s.protocolState.receivedMessage = false → Early s
  headway : Headway s₀ d₀ s d

/-- Time passes. -/
def Later (d d' : Diary) : Prop := d.clock ≤ d'.clock ∧ d.attempts ≤ d'.attempts

variable {s₀ : Session} {d₀ : Diary}

theorem Headway.kept (h : Headway s₀ d₀ s d) (hcourse : course s' = course s) (hlater : Later d d')
    (hstart : d₀.clock ≤ d.clock) : Headway s₀ d₀ s' d' := by
  have hstage' : s'.stage = s.stage := congrArg Course.stage hcourse
  have hdeadline' : s'.deadline = s.deadline := congrArg Course.deadline hcourse
  have hoverall' : s'.upstreamOverallDeadline = s.upstreamOverallDeadline :=
    congrArg Course.overall hcourse
  have hclock : d'.clock = d₀.clock → d.clock = d₀.clock :=
    fun h => Nat.le_antisymm (hlater.1.trans h.le) hstart
  cases h with
  | waits hstage hdeadline hoverall =>
      exact .waits (hstage'.trans hstage) (hdeadline'.trans hdeadline) (hoverall'.trans hoverall)
  | greeted hbefore hstage hoverall hdeadline =>
      exact .greeted hbefore (hstage'.trans hstage) (hoverall'.trans hoverall)
        fun h => hdeadline'.trans (hdeadline (hclock h))
  | connects hstage hattempted hslice hahead hoverall =>
      refine .connects (hstage'.trans hstage) (Nat.lt_of_lt_of_le hattempted hlater.2) ?_ ?_ ?_
      · rw [hdeadline', hoverall']
        exact hslice
      · intro h
        rw [hdeadline']
        exact hahead (hclock h)
      · rw [hoverall']
        exact hoverall.imp_right fun hfirst => ⟨hfirst.1, fun h => hfirst.2 (hclock h)⟩
  | relays hstage => exact .relays (hstage'.trans hstage)

theorem Advances.kept (h : Advances s₀ d₀ s d) (hcourse : course s' = course s)
    (hlater : Later d d') : Advances s₀ d₀ s' d' := by
  have hstage : s'.stage = s.stage := congrArg Course.stage hcourse
  refine ⟨(congrArg Course.runtime hcourse).trans h.runtime, (congrArg Course.ssl hcourse).trans h.ssl,
    h.clock.trans hlater.1, h.attempts.trans hlater.2, fun hsilent => ?_,
    h.headway.kept hcourse hlater h.clock⟩
  have hsame : s'.protocolState.receivedMessage = s.protocolState.receivedMessage :=
    congrArg Course.receivedMessage hcourse
  unfold Early
  rw [hstage]
  exact h.silent (hsame ▸ hsilent)

/-- A session that waits for its first line has not begun to connect. -/
theorem Advances.early (h : Advances s₀ d₀ s d) (hstage : s.stage = .firstMessage) : Early s₀ := by
  cases h.headway with
  | waits hsame => exact .inr (hsame.symm.trans hstage)
  | greeted hbefore => exact .inl hbefore
  | connects hconnect => exact nomatch hstage.symm.trans hconnect
  | relays hrelay => exact nomatch hstage.symm.trans hrelay

/-- A session that looks for an address to connect to. -/
structure Connecting (s₀ : Session) (d₀ : Diary) (s : Session) (d : Diary) : Prop where
  runtime : s.runtime = s₀.runtime
  ssl : s.ssl = s₀.ssl
  clock : d₀.clock ≤ d.clock
  attempts : d₀.attempts ≤ d.attempts
  heard : s.protocolState.receivedMessage = true
  stage : s.stage = .upstreamConnect
  overall : s₀.stage = .upstreamConnect ∧
      s.upstreamOverallDeadline = s₀.upstreamOverallDeadline ∨
    Early s₀ ∧ (d.clock = d₀.clock → s.upstreamOverallDeadline = d₀.clock + connectTime s₀)

/-- In the stage of connecting there is an overall deadline. -/
theorem Advances.connecting (h : Advances s₀ d₀ s d) (hstage : s.stage = .upstreamConnect) :
    Connecting s₀ d₀ s d := by
  refine ⟨h.runtime, h.ssl, h.clock, h.attempts, ?_, hstage, ?_⟩
  · by_contra hsilent
    rcases h.silent (Bool.not_eq_true _ ▸ hsilent) with htls | hfirst
    · exact nomatch hstage.symm.trans htls
    · exact nomatch hstage.symm.trans hfirst
  · cases h.headway with
    | waits hsame _ hoverall => exact .inl ⟨hsame.symm.trans hstage, hoverall⟩
    | greeted _ hgreeted => exact nomatch hstage.symm.trans hgreeted
    | connects _ _ _ _ hoverall => exact hoverall
    | relays hrelay => exact nomatch hstage.symm.trans hrelay

/-- **The next attempt.** -/
theorem Connecting.connected (h : Connecting s₀ d₀ s d)
    (hend : Started s d s' d' ∨ Relays s d s' d') :
    Advances s₀ d₀ s' d' ∧ s'.stage ≠ .tlsHandshake := by
  rcases hend with hstarted | hrelays
  · obtain ⟨deadline, hcourse⟩ := hstarted.same
    have hoverall : s'.upstreamOverallDeadline = s.upstreamOverallDeadline :=
      congrArg Course.overall hcourse
    have hheard : s'.protocolState.receivedMessage = true :=
      (congrArg Course.receivedMessage hcourse).trans h.heard
    have hstage : s'.stage = .upstreamConnect := (congrArg Course.stage hcourse).trans h.stage
    have hclock := h.clock
    have hclock' := hstarted.clock
    refine ⟨⟨(congrArg Course.runtime hcourse).trans h.runtime,
      (congrArg Course.ssl hcourse).trans h.ssl, hclock.trans hclock',
      h.attempts.trans hstarted.attempts, fun hsilent => (nomatch hheard.symm.trans hsilent),
      .connects hstage (Nat.lt_of_le_of_lt h.attempts hstarted.attempted) hstarted.slice
        (fun hsame => ?_) ?_⟩, by rw [hstage]; decide⟩
    · have hahead := hstarted.ahead (by omega)
      omega
    · rw [hoverall]
      exact h.overall.imp_right fun hfirst => ⟨hfirst.1, fun hsame => hfirst.2 (by omega)⟩
  · obtain ⟨deadline, hcourse⟩ := hrelays.same
    have hheard : s'.protocolState.receivedMessage = true :=
      (congrArg Course.receivedMessage hcourse).trans h.heard
    have hstage : s'.stage = .relay := congrArg Course.stage hcourse
    exact ⟨⟨(congrArg Course.runtime hcourse).trans h.runtime,
      (congrArg Course.ssl hcourse).trans h.ssl, h.clock.trans hrelays.clock,
      h.attempts.trans hrelays.attempts, fun hsilent => (nomatch hheard.symm.trans hsilent),
      .relays hstage⟩, by rw [hstage]; decide⟩

theorem Connecting.kept (h : Connecting s₀ d₀ s d) (hcourse : course s' = course s)
    (hlater : Later d d') : Connecting s₀ d₀ s' d' := by
  refine ⟨(congrArg Course.runtime hcourse).trans h.runtime, (congrArg Course.ssl hcourse).trans h.ssl,
    h.clock.trans hlater.1, h.attempts.trans hlater.2,
    (congrArg Course.receivedMessage hcourse).trans h.heard,
    (congrArg Course.stage hcourse).trans h.stage, ?_⟩
  have hoverall : s'.upstreamOverallDeadline = s.upstreamOverallDeadline :=
    congrArg Course.overall hcourse
  have hclock := h.clock
  have hclock' := hlater.1
  rw [hoverall]
  exact h.overall.imp_right fun hfirst => ⟨hfirst.1, fun hsame => hfirst.2 (by omega)⟩

/-- From there the next attempt is headway. -/
theorem Connecting.startNext (h : Connecting s₀ d₀ s d) :
    Notes s d startNextUpstreamConnect
      (fun _ s' d' => Advances s₀ d₀ s' d' ∧ s'.stage ≠ .tlsHandshake) :=
  (startNextUpstreamConnect_notes s d).mono (fun _ _ _ hend => h.connected hend)
    fun _ _ _ _ => trivial

/-! ## Reactions -/

/-- No exit is of interest here. -/
abbrev AnyEnd : Exit → Session → Diary → Prop := fun _ _ _ => True

/-- **The handshake.** -/
theorem driveTlsHandshake_advances (h : Advances s₀ d₀ s d) (hstage : s.stage = .tlsHandshake) :
    Notes s d driveTlsHandshake (fun _ s' d' => Advances s₀ d₀ s' d') := by
  have hkept : ∀ s', course s' = course s → Advances s₀ d₀ s' d :=
    fun s' hcourse => h.kept hcourse ⟨le_rfl, le_rfl⟩
  have hbegan : s₀.stage = .tlsHandshake ∧
      s.upstreamOverallDeadline = s₀.upstreamOverallDeadline := by
    cases h.headway with
    | waits hsame _ hoverall => exact ⟨hsame.symm.trans hstage, hoverall⟩
    | greeted _ hgreeted => exact nomatch hstage.symm.trans hgreeted
    | connects hconnect => exact nomatch hstage.symm.trans hconnect
    | relays hrelay => exact nomatch hstage.symm.trans hrelay
  refine holds_current_bind (holds_ask_bind trivial fun answer _ => ?_)
  cases answer with
  | done =>
      refine holds_ask_bind trivial fun now hnow => holds_modify_bind ?_
      have hnow : d.clock ≤ now := hnow
      refine holds_ask_bind trivial fun _ _ => holds_ask_bind trivial fun _ _ => ?_
      apply (keeps_notes scheduleTimeout_keeps _ _).mono
      · intro _ s' d' hend
        obtain ⟨hcourse, rfl⟩ := hend
        have hfirst : Advances s₀ d₀ { s.clearTls with
            stage := .firstMessage
            deadline := afterSeconds now s.limits.firstMessageTimeoutSeconds }
            { d with clock := now } := by
          refine ⟨h.runtime, h.ssl, h.clock.trans hnow, h.attempts, fun _ => .inr rfl,
            .greeted hbegan.1 rfl hbegan.2 fun hclock => ?_⟩
          have hclock : now = d₀.clock := hclock
          show afterSeconds now s.runtime.limits.firstMessageTimeoutSeconds = _
          rw [h.runtime, hclock]
          rfl
        exact hfirst.kept hcourse ⟨le_rfl, le_rfl⟩
      · exact fun _ _ _ _ => trivial
  | wantRead => exact hkept _ rfl
  | wantWrite => exact hkept _ rfl
  | interrupted =>
      refine hkept _ ?_
      show course (if s.tlsOperation ≠ .handshake then s.setTls .handshake .read else s) = course s
      split
      · rfl
      · rfl
  | failed => exact holds_ask_bind trivial fun _ _ => trivial

/-- **The beginning of a connect.** -/
theorem beginUpstreamConnect_advances (h : Advances s₀ d₀ s d) (hstage : s.stage = .firstMessage)
    (hcourse : course s' = { course s with receivedMessage := true }) :
    Notes s' d beginUpstreamConnect
      (fun _ s'' d'' => Advances s₀ d₀ s'' d'' ∧ s''.stage ≠ .tlsHandshake) := by
  refine holds_ask_bind trivial fun selection _ => holds_ask_bind trivial fun view _ => ?_
  refine holds_modify_bind ?_
  generalize hs₁ : ({ s' with
    backend := Router.selectBackend view s'.runtime.routing selection } : Session) = s₁
  have hcourse₁ : course s₁ = { course s with receivedMessage := true } := by
    rw [← hs₁, ← hcourse]
    rfl
  show Notes s₁ d (connectBackend selection) _
  refine holds_current_bind ?_
  split
  · exact holds_ask_bind trivial fun _ _ => trivial
  · refine holds_ask_bind trivial fun now hnow => holds_modify_bind ?_
    have hnow : d.clock ≤ now := hnow
    refine keeps_bind drawSourceSequence_keeps fun _ s₂ h₂ => holds_current_bind ?_
    split
    · exact holds_ask_bind trivial fun _ _ => trivial
    · have hruntime : s₁.runtime = s₀.runtime := (congrArg Course.runtime hcourse₁).trans h.runtime
      have hopened : Connecting s₀ d₀ (s₁.openConnect selection now) { d with clock := now } := by
        refine ⟨hruntime, (congrArg Course.ssl hcourse₁).trans h.ssl, h.clock.trans hnow, h.attempts,
          congrArg Course.receivedMessage hcourse₁, rfl, .inr ⟨h.early hstage, fun hclock => ?_⟩⟩
        have hclock : now = d₀.clock := hclock
        show now + connectTime s₁ =
          d₀.clock + s₀.runtime.limits.upstreamConnectTimeoutMilliseconds.toNat *
          kNanosecondsPerMillisecond
        rw [hclock, ← hruntime]
        rfl
      exact (hopened.kept h₂ ⟨le_rfl, le_rfl⟩).startNext

/-- A failed attempt is followed by the next one, within the same overall deadline. -/
theorem retryUpstreamConnect_advances (h : Connecting s₀ d₀ s d) :
    Notes s d retryUpstreamConnect (fun _ s' d' => Advances s₀ d₀ s' d') := by
  refine holds_current_bind ?_
  split
  · trivial
  · refine keeps_bind recordUpstreamError_keeps fun _ s₁ h₁ => ?_
    refine keeps_bind discardUpstream_keeps fun _ s₂ h₂ => ?_
    refine holds_ask_bind trivial fun now hnow => ?_
    split
    · have hlater : Later d { d with clock := now } := ⟨hnow, le_rfl⟩
      exact (h.kept (h₂.trans h₁) hlater).startNext.mono (fun _ _ _ hend => hend.1)
        fun _ _ _ _ => trivial
    · trivial

/-- **The law of setup.** -/
theorem advances_law (s₀ : Session) (d₀ : Diary) :
    Law diary Later (Advances s₀ d₀) AnyEnd where
  refl _ := ⟨le_rfl, le_rfl⟩
  trans _ _ _ h h' := ⟨h.1.trans h'.1, h.2.trans h'.2⟩
  traffic d c hc := by
    refine ⟨trivial, fun r hr => ?_⟩
    cases c with
    | now => exact ⟨hr, le_rfl⟩
    | startConnect address source => exact hc.elim
    | _ => exact ⟨le_rfl, le_rfl⟩
  kept s s' d d' h hstanding hlater := h.kept (course_of_standing hstanding) hlater
  ended _ _ _ _ _ _ _ _ := trivial
  leaves _ _ _ _ _ := trivial
  begins s s' d h hsilent hstage hstanding := by
    have hfirst : s.stage = .firstMessage := (h.silent hsilent).resolve_left hstage
    exact beginUpstreamConnect_advances h hfirst (congrArg courseOf hstanding)
  greets s d h hstage := driveTlsHandshake_advances h hstage
  finishes s d h hstage := by
    apply (finishUpstreamConnect_notes s d).mono
    · intro done s' d' hend
      obtain ⟨rfl, hcourse⟩ := hend
      cases done with
      | true =>
          have hrelays : Relays s d' s' d' := ⟨⟨s.deadline, hcourse⟩, le_rfl, le_rfl⟩
          refine ⟨((h.connecting hstage).connected (.inr hrelays)).1, ?_⟩
          have hrelay : s'.stage = .relay := congrArg Course.stage hcourse
          rw [hrelay]
          decide
      | false =>
          exact retryUpstreamConnect_advances ((h.connecting hstage).kept hcourse ⟨le_rfl, le_rfl⟩)
    · exact fun _ _ _ hend => hend
  discards s d h _ := by
    apply (keeps_notes discardUpstream_keeps s d).mono
    · intro _ s' d' hend
      exact h.kept hend.1 (hend.2 ▸ ⟨le_rfl, le_rfl⟩)
    · exact fun _ _ _ hend => hend

theorem Advances.refl (hsilent : s.protocolState.receivedMessage = false → Early s) :
    Advances s d s d :=
  ⟨rfl, rfl, le_rfl, le_rfl, hsilent, .waits rfl rfl rfl⟩

/-- The end of every reaction: pauses and arming. -/
theorem updateInterests_advances (h : Advances s₀ d₀ s d) :
    Notes s d updateInterests (fun _ s' d' => Advances s₀ d₀ s' d') := by
  apply ((advances_law s₀ d₀).carries_self refreshReadPause_forwards.carries h).bind
  intro _ s₁ d₁ h₁
  have hkeeps : Keeps (armClient >>= fun _ => armUpstream) :=
    armSockets_rearms.keeps (fun _ _ _ => trivial) (fun _ => rfl) trivial
  apply (keeps_notes hkeeps s₁ d₁).mono
  · intro _ s₂ d₂ h₂
    obtain ⟨hcourse, rfl⟩ := h₂
    exact h₁.1.kept hcourse ⟨le_rfl, le_rfl⟩
  · exact fun _ _ _ _ => trivial

/-- **The timer of a session has fired.**  It had time left, or it tries the next address. -/
theorem expireSession_notes (now : Nat) (s : Session) (d : Diary) :
    Notes s d (expireSession now) (fun _ s' d' =>
      now < s.timeoutDeadline ∧ s' = s ∧ d' = d ∨
        s.stage = .upstreamConnect ∧ (Started s d s' d' ∨ Relays s d s' d')) := by
  refine holds_current_bind ?_
  split
  · rename_i hearly
    exact ⟨trivial, fun _ _ => .inl ⟨hearly, rfl, rfl⟩⟩
  · split
    · rename_i hstage
      refine keeps_bind recordUpstreamError_keeps fun _ s₁ h₁ => ?_
      refine keeps_bind discardUpstream_keeps fun _ s₂ h₂ => ?_
      split
      · trivial
      · have honward : Onward s d s₂ d := (Onward.refl s d).kept (h₂.trans h₁)
        apply (startNextUpstreamConnect_notes s₂ d).mono
        · exact fun _ _ _ hend => .inr ⟨hstage, hend.imp honward.started honward.relays⟩
        · exact fun _ _ _ _ => trivial
    · split
      · exact holds_ask_bind trivial fun _ _ => trivial
      · trivial

/-- **One reaction of a session makes headway or none.** -/
theorem handle_advances {json : Glaze} (event : SessionEvent)
    (hsilent : s.protocolState.receivedMessage = false → Early s) :
    Notes s d (Session.handle json event) (fun _ s' d' => Advances s d s' d') := by
  have hbegin : Advances s d s d := .refl hsilent
  have hlaw := advances_law s d
  cases event with
  | client events =>
      exact (hlaw.clientReady events hbegin).bind fun _ _ _ h => updateInterests_advances h
  | upstream events =>
      exact (hlaw.upstreamReady events hbegin).bind fun _ _ _ h => updateInterests_advances h
  | timeout now =>
      apply (expireSession_notes now s d).mono
      · intro _ s' d' hend
        rcases hend with ⟨_, rfl, rfl⟩ | ⟨hstage, hend⟩
        · exact hbegin
        · exact ((hbegin.connecting hstage).connected hend).1
      · exact fun _ _ _ _ => trivial

end PoolLb.Setup
