import PoolLb.Scenario
import PoolLb.Worker

/-!
# The run of a worker

`accept_ready` takes a slot tentatively and has many exits; on each of them it gives back what
it has taken so far, and the one that does not makes a session.  So accepting is made of deeds
as well, and with it everything that the loop of a reactor does.  `WorkerRun` is every state of
a worker between two turns of its loop.
-/

namespace PoolLb

open Interaction Handler Tally

variable {json : Glaze} {s : Session} {w w' : Outside} {time : Nat}

/-! ## Accepting -/

/-- The worker while a connection holds a slot. -/
def Outside.seated (w : Outside) : Outside :=
  { w with slots := w.slots + 1, workerActive := w.workerActive + 1 }

/-- The worker while an admitted connection holds a slot, a lease and a session id. -/
def Outside.admitted (w : Outside) (lease now : Nat) : Outside :=
  { w.seated with leases := lease :: w.leases, nextId := w.nextId + 1, clock := now }

/-- A slot is given back. -/
theorem releaseActiveSlot_ensures :
    Ensures outside w.seated releaseActiveSlot (fun _ w' => w' = w) :=
  ⟨Nat.succ_pos _, fun _ _ => ⟨Nat.succ_pos _, fun _ _ => rfl⟩⟩

/-- A connection that gives back its slot leaves no trace. -/
theorem leaveSeat_does (client : Nat) :
    Ensures outside w.seated
      (do
        releaseActiveSlot
        request (.closeSocket client))
      (fun _ w' => w' = w) := by
  apply Ensures.bind releaseActiveSlot_ensures
  intro _ w' hw'
  subst hw'
  exact ⟨trivial, fun _ _ => rfl⟩

/-- A connection has come to nothing and left no trace, or it has become a session. -/
def Attempted (json : Glaze) (time : Nat) (w w' : Outside) : Prop :=
  w.Idled w' ∨ w.accepted < w'.accepted ∧ Deeds json ⟨w, [], time⟩ ⟨w', [], time⟩

theorem Outside.Idled.refl (w : Outside) : w.Idled w :=
  ⟨rfl, rfl, rfl, rfl, rfl, rfl, rfl, rfl, rfl, le_rfl, le_rfl⟩

/-- A connection is a deed or none. -/
theorem Attempted.deeds (h : Attempted json time w w') : Deeds json ⟨w, [], time⟩ ⟨w', [], time⟩ := by
  rcases h with hidle | ⟨_, hdeeds⟩
  · exact .single (.idle hidle)
  · exact hdeeds

/-- No deed takes back that a connection was accepted. -/
theorem Deed.accepted_le {d d' : Desk} (h : Deed json d d') (hbooked : d.outside.Booked) :
    d.outside.accepted ≤ d'.outside.accepted := by
  cases h with
  | react event hs _ hrun =>
      obtain ⟨c, hmoves, rfl, rfl⟩ := hbooked.moves hs hrun
      exact hmoves.sameRoll.accepted.ge
  | fail _ hmoves hlast => exact (hlast.sameRoll.accepted.trans hmoves.sameRoll.accepted).ge
  | close _ hlast => exact hlast.sameRoll.accepted.ge
  | advance now => exact le_rfl
  | skip _ => exact le_rfl
  | expire hs _ _ hrun =>
      obtain ⟨c, hmoves, rfl, rfl⟩ := hbooked.expiry_moves json hs hrun
      exact hmoves.sameRoll.accepted.ge
  | lapse _ _ _ hmoves hlast => exact (hlast.sameRoll.accepted.trans hmoves.sameRoll.accepted).ge
  | opens _ _ _ _ => exact Nat.le_succ _
  | idle hidle => exact hidle.accepted.ge

/-- Deeds never uncount an accepted session. -/
theorem Deeds.accepted_le {d d' : Desk} (h : Deeds json d d') (hbooked : d.outside.Booked) :
    d.outside.accepted ≤ d'.outside.accepted :=
  h.invariant (I := fun d'' => d.outside.accepted ≤ d''.outside.accepted) hbooked le_rfl
    fun _ _ hdeed hnow hle => hle.trans (hdeed.accepted_le hnow)

/-- An admitted connection that comes to nothing leaves no trace but its id. -/
theorem leaveAdmission_does {lease now client : Nat} (hnow : w.clock ≤ now)
    (hlease : s.admission = some lease) :
    Ensures outside (w.admitted lease now)
      (do
        releaseAdmission s
        request (.closeSocket client))
      (fun _ => Attempted json time w) := by
  have hmem : ∀ number, s.share (.lease number) ≤ (w.admitted lease now).book (.lease number) := by
    intro number
    show (if s.admission = some number then 1 else 0) ≤ (lease :: w.leases).count number
    rw [hlease, List.count_cons]
    simp only [beq_iff_eq, Option.some.injEq]
    omega
  apply Ensures.bind (releaseAdmission_ensures (by rw [hlease]; rfl) hmem (Nat.succ_pos _)
    (Nat.succ_pos _))
  intro _ w' hw'
  subst hw'
  refine ⟨trivial, fun _ _ => .inl ?_⟩
  have hleases : s.unleased (lease :: w.leases) = w.leases := by
    unfold Session.unleased
    rw [hlease]
    exact List.erase_cons_head _ _
  exact ⟨rfl, rfl, rfl, rfl, hleases, rfl, rfl, rfl, rfl, Nat.le_succ _, hnow⟩

/-- A program may start from an equal worker. -/
theorem ensures_of_eq {α : Type} {p : Prog reactorCalls α} {Q : α → Outside → Prop}
    (hw : w = w') (h : Ensures outside w' p Q) : Ensures outside w p Q := by
  rw [hw]
  exact h

/-- The first handshake of a TLS session is its reaction to a client event. -/
theorem firstHandshake_eq (json : Glaze) (hstage : s.stage = .tlsHandshake) :
    firstHandshake s = Session.handle json (.client {}) s := by
  have hready : clientReady json {} s = driveTlsHandshake s := by
    show (if s.stage = .tlsHandshake then _ else _ : SessionM Unit) s = _
    rw [if_pos hstage]
  show (driveTlsHandshake s).bind _ = (clientReady json {} s).bind _
  rw [hready]

/-- The state of a worker once a session is registered. -/
theorem Outside.opened_eq (w : Outside) (s : Session) (lease now : Nat) :
    { (w.admitted lease now) with
      sessions := ((w.admitted lease now).sessions.insert s.id s).insert s.bump.id s.bump
      accepted := w.accepted + 1
      wheel := w.wheel.schedule s.id (s.timeoutGeneration + 1) s.bump.timeoutDeadline } =
      ({ w with clock := now }).opened s.bump lease := by
  unfold Outside.opened Outside.admitted Outside.seated
  have hinsert : (w.sessions.insert s.id s).insert s.bump.id s.bump =
      w.sessions.insert s.bump.id s.bump := AList.insert_insert _
  rw [hinsert]
  rfl

/-- A session that has just been registered: one on a TLS listener tries its handshake. -/
theorem greetNew_does (h : w.Booked) (hs : w.Holds s) :
    Ensures outside w
      (if s.stage = .tlsHandshake then do
        let keep ← onSession s firstHandshake
        closeUnless keep s.id
      else pure ())
      (fun _ w' => Deeds json ⟨w, [], time⟩ ⟨w', [], time⟩) := by
  split
  · rename_i hstage
    have hsame : onSession s firstHandshake = onSession s (Session.handle json (.client {})) := by
      unfold onSession
      rw [firstHandshake_eq json hstage]
    rw [hsame]
    apply Ensures.bind (onSession_does json (.client {}) h hs)
    intro keep w₁ hreacted
    apply Ensures.mono (closeUnless_does h hs hreacted)
    intro _ w' hend
    rcases hend with ⟨hkeep, rfl⟩ | ⟨_, c, d, hmoves, hlast, rfl⟩
    · obtain ⟨result, s', w₁, hrun, rfl, hresult⟩ := hreacted
      rw [hresult.mp hkeep] at hrun
      exact .single (.react (.client {}) hs (fun _ hevent => nomatch hevent) hrun)
    · exact .single (.fail hs hmoves hlast)
  · exact .refl

/-- **An admitted connection becomes a session**, or leaves no trace. -/
theorem registerSession_does {lease now : Nat} (h : w.Booked) (hnow : w.clock ≤ now)
    (hfresh : s.bump.Fresh) (hborn : s.lastActivity = now) (hid : s.id = w.nextId)
    (hlease : s.admission = some lease) :
    Ensures outside (w.admitted lease now) (registerSession s)
      (fun _ => Attempted json time w) := by
  refine ensures_call_bind trivial fun added _ => ?_
  cases added with
  | false => exact leaveAdmission_does hnow hlease
  | true =>
      have hnone : (w.admitted lease now).sessions.lookup s.id = none := by
        rw [hid]
        exact h.unknown
      refine ensures_call_bind trivial fun inserted hinserted => ?_
      have hinserted : inserted = true := by
        have hallowed : inserted = ((w.admitted lease now).sessions.lookup s.id).isNone := hinserted
        rw [hallowed, hnone]
        rfl
      subst hinserted
      -- `schedule_timeout`, the storing of its session and the counter
      refine ⟨trivial, fun _ _ => ⟨trivial, fun _ _ => ⟨trivial, fun _ _ => ?_⟩⟩⟩
      have hstart : Deed json ⟨w, [], time⟩ ⟨{ w with clock := now }, [], time⟩ :=
        .idle ⟨rfl, rfl, rfl, rfl, rfl, rfl, rfl, rfl, rfl, le_rfl, hnow⟩
      have hopens : Deed json ⟨{ w with clock := now }, [], time⟩
          ⟨({ w with clock := now }).opened s.bump lease, [], time⟩ :=
        .opens hfresh hborn hid hlease
      have hbooked := hopens.booked (hstart.booked h)
      have hholds : (({ w with clock := now }).opened s.bump lease).Holds s.bump :=
        AList.lookup_insert _
      refine ensures_of_eq (Outside.opened_eq w s lease now)
        (ensures_call_bind trivial fun found hfound => ?_)
      have hfound : found = some s.bump := hfound.trans hholds
      subst hfound
      apply Ensures.mono (greetNew_does hbooked hholds)
      intro _ w' hrest
      exact .inr ⟨hrest.accepted_le hbooked, .head hstart (.head hopens hrest)⟩

/-- A session is opened, or what it holds is given back. -/
theorem openSession_does {lease now : Nat} (listener : Nat) (tlsEnabled : Bool) (client : Nat)
    (runtime : RuntimeSnapshot) (header : ProxyV2Header) (h : w.Booked) (hnow : w.clock ≤ now) :
    Ensures outside (w.admitted lease now)
      (openSession listener tlsEnabled
        (freshSession w.nextId client runtime header (some lease) now))
      (fun _ => Attempted json time w) := by
  unfold openSession
  split
  · refine ensures_call_bind trivial fun _ _ => ?_
    have hstream : Ensures outside (w.admitted lease now) (createStream listener client)
        (fun _ w' => w' = w.admitted lease now) := by
      refine ensures_call_bind trivial fun present _ => ?_
      cases present with
      | true => exact ⟨trivial, fun _ _ => rfl⟩
      | false => rfl
    apply Ensures.bind hstream
    intro created w' hw'
    subst hw'
    cases created with
    | true =>
        exact registerSession_does h hnow ⟨_, _, _, _, _, _, .inr rfl⟩ rfl rfl rfl
    | false =>
        refine ensures_call_bind trivial fun _ _ => ?_
        exact leaveAdmission_does hnow rfl
  · exact registerSession_does h hnow ⟨_, _, _, _, _, _, .inl rfl⟩ rfl rfl rfl

/-- A refused connection is not counted as refused traffic. -/
theorem refusalCounter_ne (result : AdmissionResult) :
    refusalCounter result ≠ .rejectedTrafficRate := by
  cases result with
  | _ => decide

/-- From the slot on: refused and given back, or a session. -/
theorem admitConnection_does (listener : Nat) (tlsEnabled : Bool) (runtime : RuntimeSnapshot)
    (client : Nat) (peer : SockAddr) (h : w.Booked) :
    Ensures outside w.seated (admitConnection listener tlsEnabled runtime client peer)
      (fun _ => Attempted json time w) := by
  have hleave : ∀ client, Ensures outside w.seated
      (do
        releaseActiveSlot
        request (.closeSocket client))
      (fun _ => Attempted json time w) := by
    intro client
    apply Ensures.mono (leaveSeat_does client)
    intro _ w' hw'
    subst hw'
    exact .inl (.refl _)
  refine ensures_call_bind trivial fun localAddress _ => ?_
  cases localAddress with
  | none => exact hleave client
  | some localAddress =>
      refine ensures_call_bind trivial fun admission hadmission =>
        ensures_call_bind trivial fun _ _ => ?_
      obtain ⟨result, lease⟩ := admission
      have haccepted : result = .accepted ↔ lease.isSome := hadmission.1
      cases lease with
      | none =>
          have hrefused : result ≠ .accepted := fun heq => absurd (haccepted.mp heq) (by decide)
          rw [if_pos hrefused]
          refine ensures_call_bind trivial fun r _ => ?_
          refine ensures_of_eq (Outside.after_count (refusalCounter_ne result) _ 1 r) ?_
          exact hleave client
      | some lease =>
          have hresult : result = .accepted := haccepted.mpr rfl
          rw [if_neg (not_not.mpr hresult)]
          refine ensures_call_bind trivial fun id hid => ensures_call_bind trivial fun now hnow => ?_
          have hid : id = w.nextId := hid
          subst hid
          have hnow : w.clock ≤ now := hnow
          show Ensures outside (w.admitted lease now) _ _
          exact openSession_does listener tlsEnabled client runtime _ h hnow

/-- **One connection**: it comes to nothing, or it has become a session. -/
theorem acceptConnection_does (json : Glaze) (listener : Nat) (tlsEnabled : Bool)
    (runtime : RuntimeSnapshot)
    (client : Nat) (peer : SockAddr) (h : w.Booked) :
    Ensures outside w (acceptConnection listener tlsEnabled runtime client peer)
      (fun _ => Attempted json time w) := by
  refine ensures_call_bind trivial fun priorActive _ => ?_
  split
  · refine ensures_call_bind (Nat.succ_pos _) fun r _ => ?_
    have hback : outside.after (outside.after w .activeIncrement priorActive) .activeDecrement r = w :=
      rfl
    refine ensures_of_eq hback (ensures_call_bind trivial fun r _ => ?_)
    refine ensures_of_eq (Outside.after_count (by decide) w 1 r) ⟨trivial, fun _ _ => ?_⟩
    have hclosed : outside.after w (.closeSocket client) () = w := rfl
    rw [hclosed]
    exact .inl (.refl _)
  · refine ensures_call_bind trivial fun _ _ => ?_
    exact admitConnection_does listener tlsEnabled runtime client peer h

/-- **`accept_ready` is made of deeds.** -/
theorem acceptReady_does (json : Glaze) (listener : Nat) (tlsEnabled : Bool) (h : w.Booked) :
    Ensures outside w (acceptReady listener tlsEnabled)
      (fun _ w' => Deeds json ⟨w, [], time⟩ ⟨w', [], time⟩) := by
  refine ensures_call_bind trivial fun runtime hload => ?_
  clear hload
  show Ensures outside w (acceptRounds listener tlsEnabled runtime kMaximumAcceptsPerReadyEvent) _
  generalize kMaximumAcceptsPerReadyEvent = attempts
  induction attempts generalizing w with
  | zero => exact .refl
  | succ attempts ih =>
      refine ensures_call_bind trivial fun answer _ => ?_
      cases answer with
      | interrupted => exact ih h
      | noResources => exact .refl
      | nothing => exact .refl
      | accepted client peer =>
          apply Ensures.bind (acceptConnection_does json listener tlsEnabled runtime client peer h)
          intro _ w₁ hattempt
          have hfirst : Deeds json ⟨w, [], time⟩ ⟨w₁, [], time⟩ := hattempt.deeds
          apply Ensures.mono (ih (hfirst.booked h))
          intro _ w' hrest
          exact hfirst.trans hrest

/-! ## Turns -/

/-- What the loop of a reactor does in one turn. -/
inductive Turn where
  /-- A socket event of a session. -/
  | socket (id : Nat) (event : SessionEvent) (hsocket : ∀ now, event ≠ .timeout now)
  /-- A ready listener. -/
  | accept (listener : Nat) (tlsEnabled : Bool)
  /-- Expired timers. -/
  | expire (now : Nat)
  /-- Sessions closed by `shutdown`. -/
  | shutdown (rounds : Nat)

def Turn.prog (json : Glaze) : Turn → Prog reactorCalls Unit
  | .socket id event _ => dispatchEvent json id event
  | .accept listener tlsEnabled => acceptReady listener tlsEnabled
  | .expire now => expireTimeouts now
  | .shutdown rounds => closeAll rounds

/-- The clock reading that a worker works with after a turn. -/
def Turn.moment (time : Nat) : Turn → Nat
  | .expire now => now
  | _ => time

/-- **Every turn is made of deeds**, and meets the demands of the books. -/
theorem Turn.does (turn : Turn) (h : w.Booked) :
    Ensures outside w (turn.prog json)
      (fun _ w' => Deeds json ⟨w, [], time⟩ ⟨w', [], turn.moment time⟩) := by
  cases turn with
  | socket id event hsocket => exact dispatchEvent_does json id event hsocket h
  | accept listener tlsEnabled => exact acceptReady_does json listener tlsEnabled h
  | expire now => exact expireTimeouts_does json now h
  | shutdown rounds => exact closeAll_does json rounds h

/-- A worker before its first turn. -/
def Outside.empty (now : Nat) : Outside := { clock := now, wheel := TimerWheel.new now }

/-- A worker begins without sessions. -/
theorem Outside.lookup_empty (now id : Nat) (s : Session) :
    (Outside.empty now).sessions.lookup id ≠ some s := by
  show (none : Option Session) ≠ some s
  simp

/-- Its books are in order. -/
theorem Outside.empty_booked (now : Nat) : (Outside.empty now).Booked := by
  have hnone := Outside.lookup_empty now
  refine ⟨fun id s hs => absurd hs (hnone id s), fun id s hs => absurd hs (hnone id s),
    fun id s hs => absurd hs (hnone id s), fun id s hs => absurd hs (hnone id s), ?_, rfl⟩
  intro account
  cases account <;> rfl

/-- The states of a worker between two turns of its loop.  In between the clock goes on. -/
inductive WorkerRun (json : Glaze) : Outside → Prop where
  | start (now : Nat) : WorkerRun json (.empty now)
  | wait {w : Outside} (h : WorkerRun json w) (now : Nat) (hnow : w.clock ≤ now) :
      WorkerRun json { w with clock := now }
  | turn {w w' : Outside} (h : WorkerRun json w) (turn : Turn)
      (hrun : Runs outside w (turn.prog json) () w') : WorkerRun json w'

/-- **The books of a worker are in order between any two turns.** -/
theorem WorkerRun.booked (h : WorkerRun json w) : w.Booked := by
  induction h with
  | start now => exact Outside.empty_booked now
  | wait _ now _ ih => exact ih.congr ⟨rfl, rfl, rfl, rfl, rfl, rfl, rfl⟩ rfl rfl
  | turn _ turn hrun ih =>
      have hdeeds : Deeds json ⟨_, [], 0⟩ ⟨_, [], turn.moment 0⟩ := (turn.does ih).sound hrun
      exact hdeeds.booked ih

/-- **The rule of workers**: what holds of an empty worker and is kept by time and by every deed
holds between any two turns. -/
theorem WorkerRun.invariant {I : Desk → Prop} (h : WorkerRun json w) (time : Nat)
    (hstart : ∀ now, I ⟨.empty now, [], time⟩)
    (hwait : ∀ (w : Outside) now,
      w.clock ≤ now → I ⟨w, [], time⟩ → I ⟨{ w with clock := now }, [], time⟩)
    (htime : ∀ w time', I ⟨w, [], time'⟩ → I ⟨w, [], time⟩)
    (hdeed : ∀ d d', Deed json d d' → d.outside.Booked → I d → I d') : I ⟨w, [], time⟩ := by
  induction h with
  | start now => exact hstart now
  | wait _ now hnow ih => exact hwait _ now hnow ih
  | turn hbefore turn hrun ih =>
      have hbooked := hbefore.booked
      have hdeeds : Deeds json ⟨_, [], time⟩ ⟨_, [], turn.moment time⟩ := (turn.does hbooked).sound hrun
      exact htime _ _ (hdeeds.invariant hbooked ih hdeed)

/-- All sessions of a worker are alike. -/
def Outside.Each (J : Session → Prop) (w : Outside) : Prop :=
  ∀ id s, w.sessions.lookup id = some s → J s

/-- A session that is stored back like the others. -/
theorem Outside.Each.stored {J : Session → Prop} (h : w.Each J) (hs : J s) : (w.stored s).Each J := by
  intro id t ht
  rcases lookup_insert_cases ht with ⟨_, rfl⟩ | ⟨_, ht⟩
  · exact hs
  · exact h id t ht

/-- One session less. -/
theorem Outside.Each.erased {J : Session → Prop} {erased : Nat} (h : w.Each J)
    (hw : w'.sessions = w.sessions.erase erased) : w'.Each J := by
  intro id t ht
  rw [hw] at ht
  by_cases hid : id = erased
  · rw [hid, AList.lookup_erase] at ht
    exact nomatch ht
  · exact h id t (AList.lookup_erase_ne hid ▸ ht)

theorem Outside.Each.congr {J : Session → Prop} (h : w.Each J) (hw : w'.sessions = w.sessions) :
    w'.Each J := fun id s hs => h id s (hw ▸ hs)

/-- A session that leaves makes no difference to the others. -/
theorem Outside.Each.left {J : Session → Prop} {c d : Config} (h : w.Each J)
    (hmoves : Follows json (.start s w) d)
    (hlast : Follows json (.start d.session (d.outside.stored d.session)) c) :
    (c.outside.parted c.session).Each J := by
  intro id t ht
  have hid : c.session.id = d.session.id := hlast.frame.2.2
  by_cases hgone : id = c.session.id
  · have hnone : (c.outside.parted c.session).sessions.lookup id = none :=
      hgone ▸ AList.lookup_erase c.session.id c.outside.sessions
    exact nomatch hnone.symm.trans ht
  · have ht : (c.outside.sessions.erase c.session.id).lookup id = some t := ht
    rw [AList.lookup_erase_ne hgone, hlast.sameRoll.sessions] at ht
    have ht : (d.outside.sessions.insert d.session.id d.session).lookup id = some t := ht
    rw [AList.lookup_insert_ne (hid ▸ hgone), hmoves.sameRoll.sessions] at ht
    exact h id t ht

/-- **The rule of sessions**: what holds of new sessions and survives every reaction holds of
all sessions that a worker has. -/
theorem WorkerRun.sessions_reacting {J : Session → Prop} (h : WorkerRun json w)
    (hfresh : ∀ s, s.Fresh → J s)
    (hreact : ∀ event s s' (w w' : Outside), w.Booked → w.Holds s → J s →
      Runs outside w (Session.handle json event s) (.ok (), s') w' → J s') : w.Each J := by
  refine h.invariant (I := fun d => d.outside.Each J) 0
    (fun now id s hs => absurd hs (Outside.lookup_empty now id s)) (fun _ _ _ h => h)
    (fun _ _ h => h) fun d d' hdeed hbooked h => ?_
  cases hdeed with
  | react event hs _ hrun =>
      obtain ⟨c, hmoves, rfl, rfl⟩ := hbooked.moves hs hrun
      exact (h.congr hmoves.sameRoll.sessions).stored
        (hreact event _ _ _ _ hbooked hs (h _ _ hs) hrun)
  | fail hs hmoves hlast => exact h.left hmoves hlast
  | close hs hlast => exact (h.congr hlast.sameRoll.sessions).erased rfl
  | advance now => exact h
  | skip _ => exact h
  | expire hs _ _ hrun =>
      have hhandle : Runs outside _ (Session.handle json (.timeout _) _) _ _ := hrun
      obtain ⟨c, hmoves, rfl, rfl⟩ := hbooked.expiry_moves json hs hrun
      exact (h.congr hmoves.sameRoll.sessions).stored
        (hreact _ _ _ _ _ hbooked hs (h _ _ hs) hhandle)
  | lapse hs _ _ hmoves hlast => exact h.left hmoves hlast
  | opens hs _ _ _ => exact (h.stored (hfresh _ hs)).congr rfl
  | idle hidle => exact h.congr hidle.sessions

/-- **What every session starts with and every reaction keeps** is so of all sessions at all
times. -/
theorem WorkerRun.sessions {J : Session → Prop} (h : WorkerRun json w) (hfresh : ∀ s, s.Fresh → J s)
    (hreact : ∀ event s s' w w', s.Proper → J s →
      Runs outside w (Session.handle json event s) (.ok (), s') w' → J s') : w.Each J :=
  h.sessions_reacting hfresh fun event s s' w w' hbooked hs =>
    hreact event s s' w w' (hbooked.proper s.id s hs)

/-- What every move keeps. -/
theorem WorkerRun.sessions_moving {J : Session → Prop} (h : WorkerRun json w)
    (hfresh : ∀ s, s.Fresh → J s)
    (hmove : ∀ c c', Move json c c' → J c.session → J c'.session) : w.Each J := by
  refine h.sessions_reacting hfresh fun event s s' w w' hbooked hs hJ hrun => ?_
  obtain ⟨c, hmoves, rfl, rfl⟩ := hbooked.moves hs hrun
  exact hmoves.invariant (P := fun c => J c.session) hmove hJ

/-! ## Workers in a scenario -/

namespace Scenario

/-- One turn in the scenario. -/
def turn (scenario : Scenario) (json : Glaze) (turn : Turn) (w : Outside) : Outside :=
  ((turn.prog json).play outside scenario.answer w).2

theorem runs_turn (scenario : Scenario) (json : Glaze) (turn : Turn) (w : Outside) :
    Runs outside w (turn.prog json) () (scenario.turn json turn w) :=
  runs_play scenario.answer_allowed w (turn.prog json)

/-- A client at the door of a worker that takes one connection. -/
def doorstep : Scenario where
  accept := .accepted 7 .other
  runtime := { limits := { maxConnections := 1 } }

/-- A worker that has let it in. -/
def visited : Outside := doorstep.turn subscribeJson (.accept 0 false) (.empty 0)

theorem visited_run : WorkerRun subscribeJson visited :=
  .turn (.start 0) (.accept 0 false) (doorstep.runs_turn subscribeJson _ _)

/-- A client that subscribes, and a pool that does not answer. -/
def caller : Scenario where
  client := sends [subscribeChunk]
  connect := some ⟨9, false⟩
  accept := .accepted 7 .other
  runtime :=
    { onePool false with
      limits := { maxConnections := 1, upstreamConnectTimeoutMilliseconds := 2000 } }

/-- A worker that has accepted it. -/
def called : Outside := caller.turn subscribeJson (.accept 0 false) (.empty 0)

theorem called_run : WorkerRun subscribeJson called :=
  .turn (.start 0) (.accept 0 false) (caller.runs_turn subscribeJson _ _)

/-- The one session of that worker. -/
def calling : Session := (called.sessions.lookup 1).getD (plainMiner {})

/-- The session has the id 1. -/
theorem called_calling : called.sessions.lookup 1 = some calling := by
  have hfound : (called.sessions.lookup 1).isSome := by decide +kernel
  obtain ⟨s, hs⟩ := Option.isSome_iff_exists.mp hfound
  unfold calling
  rw [hs]
  rfl

end Scenario

end PoolLb
