import PoolLb.ConnectLife
import PoolLb.DeadlineMap
import PoolLb.SessionMoves

/-!
# The time of a connect attempt

Each attempt to connect gets an equal share of the time that is left, in nanoseconds, but
its timer is an entry of the wheel, which fires at whole seconds and not before the next
one.  What an attempt runs over is taken from those that come after it.

The first part is about these numbers: when a timer fires, and what has to be left then for
the other candidates.  The second is about a world in which no attempt is answered, where
`start_next_upstream_connect` starts one attempt and sets its timer.
-/

namespace PoolLb.TimeSlice

open Interaction Handler TimerWheel Dial

/-! ## Shares and ticks -/

/-- Rounding up to a whole second adds less than a second. -/
theorem tickAtOrAfter_bounds (time : Nat) :
    time ≤ tickAtOrAfter time * kNanosecondsPerSecond ∧
      tickAtOrAfter time * kNanosecondsPerSecond < time + kNanosecondsPerSecond := by
  unfold tickAtOrAfter kNanosecondsPerSecond
  dsimp only
  split <;> omega

/-- A whole second is its own tick. -/
theorem tickFloor_mul (tick : Nat) : tickFloor (tick * kNanosecondsPerSecond) = tick := by
  unfold tickFloor
  rw [Nat.mul_div_cancel tick (by decide)]

/-- When the timer of an attempt fires that starts at `now` with the wheel at `tick`, with
`rest` candidates after it. -/
def dueTick (overall now tick rest : Nat) : Nat :=
  max (tickAtOrAfter (min (now + (overall - now) / (rest + 1)) overall)) (tick + 1)

/-- There is time for `rest` more attempts after a timer that fires at `due`; after the last
attempt it fires when the overall deadline has passed. -/
def InTime (overall due rest : Nat) : Prop :=
  (rest = 0 → overall ≤ due * kNanosecondsPerSecond ∧
    due * kNanosecondsPerSecond < overall + kNanosecondsPerSecond) ∧
  (0 < rest → (due + rest - 1) * kNanosecondsPerSecond < overall)

/-- A timer that is set for a later moment fires later. -/
theorem lt_dueTick_of_lt {overall now tick rest : Nat}
    (hlater : now < min (now + (overall - now) / (rest + 1)) overall) :
    now < dueTick overall now tick rest * kNanosecondsPerSecond := by
  apply hlater.trans_le
  apply (tickAtOrAfter_bounds _).1.trans
  exact Nat.mul_le_mul_right _ (Nat.le_max_left _ _)

/-- The last attempt has all the time that is left. -/
theorem dueTick_last {overall now tick : Nat} (hnow : now < overall)
    (htick : tick * kNanosecondsPerSecond ≤ now) : InTime overall (dueTick overall now tick 0) 0 := by
  refine ⟨fun _ => ?_, fun hpos => absurd hpos (Nat.lt_irrefl 0)⟩
  have hall : min (now + (overall - now) / (0 + 1)) overall = overall := by
    rw [Nat.zero_add, Nat.div_one]
    omega
  unfold dueTick
  rw [hall]
  have hbounds := tickAtOrAfter_bounds overall
  generalize tickAtOrAfter overall = due at *
  have hmax : max due (tick + 1) = due := by
    unfold kNanosecondsPerSecond at *
    omega
  rw [hmax]
  exact hbounds

/-- The first attempt may start at any moment, if every share is a second at least. -/
theorem dueTick_first {overall now tick rest : Nat}
    (hshares : (rest + 1) * kNanosecondsPerSecond ≤ overall - now)
    (htick : tick * kNanosecondsPerSecond ≤ now) :
    InTime overall (dueTick overall now tick rest) rest := by
  have hnow : now < overall := by
    unfold kNanosecondsPerSecond at hshares
    omega
  by_cases hlast : rest = 0
  · subst hlast
    exact dueTick_last hnow htick
  · refine ⟨fun h => absurd h hlast, fun hpos => ?_⟩
    have hshare : kNanosecondsPerSecond ≤ (overall - now) / (rest + 1) := by
      rw [Nat.le_div_iff_mul_le (Nat.succ_pos rest), Nat.mul_comm]
      exact hshares
    have hwhole := Nat.mul_div_le (overall - now) (rest + 1)
    unfold dueTick
    generalize (overall - now) / (rest + 1) = share at *
    -- the shares of the others are a second each at least
    have hothers : rest * kNanosecondsPerSecond + share ≤ overall - now := by
      calc rest * kNanosecondsPerSecond + share
          ≤ rest * share + share := Nat.add_le_add_right (Nat.mul_le_mul_left rest hshare) share
        _ = (rest + 1) * share := (Nat.succ_mul rest share).symm
        _ ≤ overall - now := hwhole
    have hmin : min (now + share) overall = now + share := by omega
    rw [hmin]
    have hbounds := tickAtOrAfter_bounds (now + share)
    generalize tickAtOrAfter (now + share) = due at *
    have hmax : max due (tick + 1) = due := by
      unfold kNanosecondsPerSecond at *
      omega
    rw [hmax]
    unfold kNanosecondsPerSecond at *
    omega

/-- A timer is set for a later moment if the share is not nothing. -/
theorem lt_dueTick {overall now tick rest : Nat}
    (hshares : (rest + 1) * kNanosecondsPerSecond ≤ overall - now) :
    now < dueTick overall now tick rest * kNanosecondsPerSecond := by
  have hshare : kNanosecondsPerSecond ≤ (overall - now) / (rest + 1) := by
    rw [Nat.le_div_iff_mul_le (Nat.succ_pos rest), Nat.mul_comm]
    exact hshares
  apply lt_dueTick_of_lt
  unfold kNanosecondsPerSecond at *
  omega

/-- The timer of the last attempt fires later than now. -/
theorem lt_dueTick_last {overall now tick : Nat} (hnow : now < overall) :
    now < dueTick overall now tick 0 * kNanosecondsPerSecond := by
  apply lt_dueTick_of_lt
  rw [Nat.zero_add, Nat.div_one]
  omega

/-- An attempt that starts with a tick uses up as many whole seconds as its share has, and
leaves more than the others need. -/
theorem dueTick_next {overall tick rest : Nat}
    (htime : (tick + rest) * kNanosecondsPerSecond < overall) :
    InTime overall (dueTick overall (tick * kNanosecondsPerSecond) tick rest) rest := by
  have hnow : tick * kNanosecondsPerSecond < overall :=
    (Nat.mul_le_mul_right _ (Nat.le_add_right tick rest)).trans_lt htime
  by_cases hlast : rest = 0
  · subst hlast
    exact dueTick_last hnow le_rfl
  · refine ⟨fun h => absurd h hlast, fun hpos => ?_⟩
    have hwhole := Nat.mul_div_le (overall - tick * kNanosecondsPerSecond) (rest + 1)
    unfold dueTick
    generalize hshare : (overall - tick * kNanosecondsPerSecond) / (rest + 1) = share at *
    have hle : share ≤ overall - tick * kNanosecondsPerSecond := by
      rw [← hshare]
      exact Nat.div_le_self _ _
    have hmin : min (tick * kNanosecondsPerSecond + share) overall =
        tick * kNanosecondsPerSecond + share := by omega
    rw [hmin]
    have hbounds := tickAtOrAfter_bounds (tick * kNanosecondsPerSecond + share)
    generalize tickAtOrAfter (tick * kNanosecondsPerSecond + share) = due at *
    -- the share in whole seconds, rounded up
    obtain ⟨seconds, hseconds⟩ : ∃ seconds, due = tick + seconds := by
      refine ⟨due - tick, ?_⟩
      unfold kNanosecondsPerSecond at hbounds
      omega
    subst hseconds
    clear hshare hmin
    by_cases hshort : seconds ≤ 1
    · have hmax : max (tick + seconds) (tick + 1) + rest - 1 = tick + rest := by omega
      rw [hmax]
      exact htime
    · obtain ⟨more, hmore⟩ : ∃ more, seconds = more + 2 := ⟨seconds - 2, by omega⟩
      subst hmore
      have hlong : (more + 1) * kNanosecondsPerSecond < share := by
        have hend := hbounds.2
        rw [Nat.add_mul] at hend
        unfold kNanosecondsPerSecond at hend ⊢
        omega
      have hneed : (rest + more + 1) * kNanosecondsPerSecond ≤
          (rest + 1) * ((more + 1) * kNanosecondsPerSecond) := by
        rw [← Nat.mul_assoc]
        apply Nat.mul_le_mul_right
        have hproduct : (rest + 1) * (more + 1) = rest * more + rest + more + 1 := by ring
        omega
      have hless : (rest + 1) * ((more + 1) * kNanosecondsPerSecond) < (rest + 1) * share :=
        Nat.mul_lt_mul_of_pos_left hlong (Nat.succ_pos rest)
      have hmax : max (tick + (more + 2)) (tick + 1) + rest - 1 = tick + (rest + more + 1) := by omega
      rw [hmax, Nat.add_mul]
      omega

/-! ## A world that does not answer -/

/-- The time, the timer wheel of the worker, and the attempts of the session. -/
structure Clockwork where
  clock : Nat
  wheel : TimerWheel
  attempts : List Attempt := []

namespace Clockwork

def after (w : Clockwork) : (c : ReactorCall) → c.Answer → Clockwork
  | .startConnect address source, _ => { w with attempts := w.attempts ++ [(address, source)] }
  | .scheduleTimer session generation deadline, _ =>
      { w with wheel := w.wheel.schedule session generation deadline }
  | .cancelTimer session, _ => { w with wheel := w.wheel.cancel session }
  | _, _ => w

/-- Time stands still while a handler is at work, every connect is started and registered,
and none completes at once. -/
def allows (w : Clockwork) : (c : ReactorCall) → c.Answer → Prop
  | .now, time => time = w.clock
  | .startConnect _ _, answer => ∃ socket, answer = some ⟨socket, false⟩
  | .epollAdd _ _ _, added => added = true
  | _, _ => True

/-- The next instant: the clock and the wheel have advanced. -/
def instant (w : Clockwork) : Clockwork :=
  { w with clock := w.clock + 1, wheel := (w.wheel.advance (w.clock + 1)).1 }

/-- What `advance` hands out at the next instant. -/
def expired (w : Clockwork) : List TimerExpiry := (w.wheel.advance (w.clock + 1)).2

/-- Other sessions have used the wheel. -/
def used (w : Clockwork) (ops : List TimerOp) : Clockwork :=
  { w with wheel := (w.wheel.run ops).1 }

end Clockwork

/-- A world in which every attempt hangs. -/
def hanging : World reactorCalls Clockwork where
  requires _ _ := True
  allows := Clockwork.allows
  after := Clockwork.after

variable {s s' : Session} {w w' : Clockwork} {E : Exit → Session → Clockwork → Prop}

/-- The calls that touch neither the wheel nor the attempts. -/
def Idle : ReactorCall → Prop
  | .startConnect _ _ | .scheduleTimer _ _ _ | .cancelTimer _ => False
  | _ => True

/-- An idle call leaves the clockwork as it is. -/
theorem after_of_idle {c : ReactorCall} (h : Idle c) (w : Clockwork) (r : c.Answer) :
    w.after c r = w := by
  cases c with
  | startConnect address source => exact h.elim
  | scheduleTimer session generation deadline => exact h.elim
  | cancelTimer session => exact h.elim
  | _ => rfl

/-- Tidying up is idle. -/
theorem idle_of_tidies {c : ReactorCall} (h : c.Tidies) : Idle c := by
  cases c with
  | startConnect address source => exact h
  | scheduleTimer session generation deadline => exact h
  | cancelTimer session => exact h
  | _ => trivial

/-- A connect function that leaves the clockwork alone. -/
theorem hangs_of_completes {α : Type} {P : ReactorCall → Prop} {m : SessionM α}
    {Q : α → Session → Prop} (h : Completes P s m Q) (hP : ∀ c, P c → Idle c) :
    Holds hanging s w m (fun a s' w' => Q a s' ∧ w' = w) E :=
  (h.holds (M := hanging) (R := fun w w' => w' = w) (fun _ => rfl) (fun _ _ _ h h' => h'.trans h)
    fun w c hc => ⟨trivial, fun r _ => after_of_idle (hP c hc) w r⟩).mono
      (fun _ _ _ hend => hend) fun _ _ _ hend => hend.1.elim

/-- The wheel after an attempt has started. -/
def Clockwork.tried (w : Clockwork) (s : Session) (attempt : Attempt) : Clockwork :=
  { w with
    attempts := w.attempts ++ [attempt]
    wheel := w.wheel.schedule s.id s.timeoutGeneration s.timeoutDeadline }

/-- **One attempt**: it is started, registered and timed, and that is all. -/
theorem tryCandidate_hangs (backend : Backend) (address : SocketAddress)
    (source : Option SocketAddress) :
    Holds hanging s w (tryCandidate backend address source)
      (fun r s' w' => r = some true ∧ ∃ socket, s' = s.spendCandidate.adopt socket w.clock ∧
        w' = w.tried s' (address, source)) E := by
  apply holds_modify_bind
  refine ⟨trivial, fun _ _ => ⟨trivial, fun answer hanswer => ?_⟩⟩
  obtain ⟨socket, hsocket⟩ : ∃ socket, answer = some ⟨socket, false⟩ := hanswer
  subst hsocket
  refine ⟨trivial, fun added hadded => ?_⟩
  have hadded : added = true := hadded
  subst hadded
  refine ⟨trivial, fun time htime => ?_⟩
  have htime : time = w.clock := htime
  subst htime
  exact ⟨trivial, fun _ _ => ⟨rfl, socket, rfl, rfl⟩⟩

/-- An attempt has begun, with its share of the time that was left. -/
structure Began (s : Session) (w : Clockwork) (s' : Session) (w' : Clockwork) : Prop where
  sound : Sound s'
  whole : w'.attempts ++ left s' = w.attempts ++ left s
  rest : s'.connectCandidatesRemaining + 1 = s.connectCandidatesRemaining
  fixed : Fixed s s'
  id : s'.id = s.id
  stage : s'.stage = s.stage
  deadline : s'.deadline = s'.attemptDeadline w.clock
  wheel : w'.wheel = w.wheel.schedule s'.id s'.timeoutGeneration s'.timeoutDeadline
  clock : w'.clock = w.clock

/-- The session has an attempt to make, and the time for it. -/
structure Ready (s : Session) (w : Clockwork) : Prop where
  sound : Sound s
  backend : s.backend.isSome
  more : 0 < s.connectCandidatesRemaining
  early : w.clock < s.upstreamOverallDeadline

/-- **The loop of `start_next_upstream_connect`** goes round once. -/
theorem connectRounds_hangs {rounds : Nat} (h : Ready s w) :
    Holds hanging s w (connectRounds (rounds + 1)) (fun _ => Began s w) E := by
  apply holds_current_bind
  refine holds_ask_bind trivial fun (time : Nat) (htime : time = w.clock) => ?_
  subst htime
  have hearly := h.early
  have hmore := h.more
  rw [if_neg (by omega)]
  obtain ⟨hleft, hsound, hfixed, hnone⟩ :=
    left_seekAddress h.sound (le_refl s.backendAddressesRemaining)
  have hid := s.seekAddress_view Session.id (fun _ _ _ _ _ => rfl) s.backendAddressesRemaining
  have hstage := s.seekAddress_view Session.stage (fun _ _ _ _ _ => rfl) s.backendAddressesRemaining
  apply holds_modify_bind
  apply holds_current_bind
  generalize s.seekAddress s.backendAddressesRemaining = sought at *
  have hremaining : sought.connectCandidatesRemaining = s.connectCandidatesRemaining := by
    rw [hsound.remaining, h.sound.remaining, hleft]
  have hpos : sought.currentAddressSourcesRemaining ≠ 0 := by
    intro hzero
    rw [h.sound.remaining, hnone hzero] at hmore
    exact absurd hmore (Nat.lt_irrefl 0)
  rw [if_neg hpos]
  obtain ⟨address, choice, hcandidate, hrest, hspent⟩ := left_spent hsound hpos
  obtain ⟨backend, hbackend⟩ := Option.isSome_iff_exists.mp h.backend
  rw [hcandidate, hfixed.backend.trans hbackend]
  apply holds_modify_bind
  apply (tryCandidate_hangs backend address choice).bind
  intro result s₁ w₁ h₁
  obtain ⟨hresult, socket, hs₁, hw₁⟩ := h₁
  subst hresult
  have hcursor : cursor s₁ = cursor (spent sought) := by
    rw [hs₁]
    rfl
  obtain ⟨hfields, _, _, _, _, hcount, _⟩ := spent_fields sought
  have hcount₁ : s₁.connectCandidatesRemaining = sought.connectCandidatesRemaining - 1 :=
    (congrArg Cursor.connectCandidatesRemaining hcursor).trans hcount
  have hwhole : w₁.attempts ++ left s₁ = w.attempts ++ left s := by
    rw [hw₁, left_congr hcursor, ← hleft, hrest]
    exact List.append_assoc _ _ _
  refine ⟨hspent.congr hcursor, hwhole, by omega,
    (hfixed.trans hfields).trans (fixed_of_cursor hcursor), ?_, ?_, ?_, ?_, ?_⟩
  · rw [hs₁]
    exact (sought.advanceSource_view Session.id fun _ _ => rfl).trans hid
  · rw [hs₁]
    exact (sought.advanceSource_view Session.stage fun _ _ => rfl).trans hstage
  · rw [hs₁]
    rfl
  · rw [hw₁]
    rfl
  · rw [hw₁]
    rfl

/-- **`start_next_upstream_connect`** starts one attempt. -/
theorem startNextUpstreamConnect_hangs (h : Ready s w) :
    Holds hanging s w startNextUpstreamConnect (fun _ => Began s w) E := by
  have hsome : s.backendAddresses ≠ [] := by
    intro hnone
    have hzero : s.backendAddressesRemaining = 0 := by
      have haddresses := h.sound.addresses
      rw [hnone] at haddresses
      exact Nat.le_zero.mp haddresses
    have hhere : s.currentAddressSourcesRemaining = 0 := by
      by_contra hpos
      obtain ⟨address, haddress, _⟩ := h.sound.current (Nat.pos_of_ne_zero hpos)
      rw [hnone] at haddress
      cases haddress
    have hcount := length_left h.sound
    unfold upcoming at hcount
    rw [hhere, hzero, Cyclic.walk_zero] at hcount
    exact absurd hcount (Nat.pos_iff_ne_zero.mp h.more)
  obtain ⟨rounds, hrounds⟩ := Nat.exists_eq_succ_of_ne_zero (Nat.pos_iff_ne_zero.mp h.more)
  apply holds_current_bind
  rw [if_neg hsome, hrounds]
  exact connectRounds_hangs h

end PoolLb.TimeSlice
