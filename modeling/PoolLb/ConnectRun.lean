import PoolLb.ConnectPlan
import PoolLb.ConnectSteps
import PoolLb.Reactions

/-!
# The attempts of a session over its whole life

`dialling` is a world in which nothing is known but that the clock does not go back; it
records the numbers a session takes and the attempts it makes.  Whatever happens to the
session in that world, the attempts it has made so far are the beginning of its plan, and
its counters describe the rest.
-/

namespace PoolLb.Dial

open Interaction Handler

/-- What a session has asked for, and the time. -/
structure Record where
  clock : Nat := 0
  route : Option Nat := none
  source : Nat := 0
  attempts : List Attempt := []

namespace Record

def after (w : Record) : (c : ReactorCall) → c.Answer → Record
  | .now, time => { w with clock := time }
  | .nextRouteSequence, number => { w with route := some number }
  | .nextSourceSequence, number => { w with source := number }
  | .startConnect address source, _ => { w with attempts := w.attempts ++ [(address, source)] }
  | _, _ => w

def allows (w : Record) : (c : ReactorCall) → c.Answer → Prop
  | .now, time => w.clock ≤ time
  | _, _ => True

/-- The record at a later time. -/
def aged (w : Record) (time : Nat) : Record := { w with clock := time }

/-- The record with one more attempt. -/
def tried (w : Record) (attempt : Attempt) : Record :=
  { w with attempts := w.attempts ++ [attempt] }

end Record

/-- A world that only keeps the record. -/
def dialling : World reactorCalls Record where
  requires _ _ := True
  allows := Record.allows
  after := Record.after

/-- Only time has passed. -/
def Later (w w' : Record) : Prop := w.clock ≤ w'.clock ∧ w' = w.aged w'.clock

theorem Later.refl (w : Record) : Later w w := ⟨le_refl _, rfl⟩

theorem Later.trans {u v w : Record} (h : Later u v) (h' : Later v w) : Later u w := by
  refine ⟨h.1.trans h'.1, ?_⟩
  rw [h'.2, h.2]
  rfl

/-- A call that takes no number and tries no candidate. -/
def besides : ReactorCall → Prop
  | .nextRouteSequence | .nextSourceSequence | .startConnect _ _ => False
  | _ => True

/-- A call that is about no candidate only takes time. -/
theorem later_of_besides (w : Record) (c : ReactorCall) (hc : besides c) :
    dialling.requires w c ∧ ∀ r, dialling.allows w c r → Later w (dialling.after w c r) := by
  refine ⟨trivial, ?_⟩
  cases c with
  | now => exact fun time htime => ⟨htime, rfl⟩
  | nextRouteSequence => exact hc.elim
  | nextSourceSequence => exact hc.elim
  | startConnect address source => exact hc.elim
  | _ => exact fun _ _ => Later.refl w

/-- Traffic is about no candidate. -/
theorem besides_of_traffic {c : ReactorCall} (hc : c.Traffic) : besides c := by
  cases c with
  | nextRouteSequence => exact hc
  | nextSourceSequence => exact hc
  | startConnect address source => exact hc
  | _ => trivial

/-! ## What surrounds an attempt -/

/-- Where a session stands among its candidates, and with which socket. -/
structure Course where
  cursor : Cursor
  receivedMessage : Bool
  stage : SessionStage
  upstream : Option Nat

def course (s : Session) : Course where
  cursor := cursor s
  receivedMessage := s.protocolState.receivedMessage
  stage := s.stage
  upstream := s.upstream

variable {s s₀ s' : Session} {w w₀ w' : Record} {E : Exit → Session → Record → Prop}

/-- The course is what it was, some time later. -/
def Still (s₀ : Session) (w₀ : Record) (s : Session) (w : Record) : Prop :=
  course s = course s₀ ∧ Later w₀ w

theorem still_query_bind {α : Type} {c : ReactorCall} {f : c.Answer → SessionM α}
    {Q : α → Session → Record → Prop} (hc : besides c) (h : Still s₀ w₀ s w)
    (hf : ∀ r s' w', Still s₀ w₀ s' w' → Holds dialling s' w' (f r) Q E) :
    Holds dialling s w (query c >>= f) Q E :=
  holds_ask_bind trivial fun r hr => hf r s _ ⟨h.1, h.2.trans ((later_of_besides w c hc).2 r hr)⟩

/-- The counters are what they were, some time later. -/
structure Kept (s₀ : Session) (w₀ : Record) (s : Session) (w : Record) : Prop where
  cursor : cursor s = cursor s₀
  received : s.protocolState.receivedMessage = s₀.protocolState.receivedMessage
  later : Later w₀ w

theorem Still.kept (h : Still s₀ w₀ s w) : Kept s₀ w₀ s w :=
  ⟨congrArg Course.cursor h.1, congrArg Course.receivedMessage h.1, h.2⟩

/-- The stage is on the course. -/
theorem Still.stage (h : Still s₀ w₀ s w) : s.stage = s₀.stage := congrArg Course.stage h.1

/-- So is the socket. -/
theorem Still.upstream (h : Still s₀ w₀ s w) : s.upstream = s₀.upstream :=
  congrArg Course.upstream h.1

/-- Adopting a socket takes no number and tries no further candidate. -/
theorem besides_of_adopts {c : ReactorCall} (h : c.Adopts) : besides c := by
  cases c with
  | nextRouteSequence => exact h
  | nextSourceSequence => exact h
  | startConnect address source => exact h
  | _ => trivial

/-- What a connect function yields it yields here, some time later. -/
theorem later_holds {α : Type} {P : ReactorCall → Prop} {m : SessionM α} {Q : α → Session → Prop}
    (h : Completes P s m Q) (hP : ∀ c, P c → c.Adopts) :
    Holds dialling s w m (fun a s' w' => Q a s' ∧ Later w w') E :=
  (h.holds (M := dialling) Later.refl (fun _ _ _ => Later.trans)
    fun w c hc => later_of_besides w c (besides_of_adopts (hP c hc))).mono
      (fun _ _ _ hend => hend) fun _ _ _ hend => hend.1.elim

/-- The timer is no part of the course. -/
theorem scheduleTimeout_holds :
    Holds dialling s w scheduleTimeout (fun _ => Still s w) E := by
  apply (later_holds (scheduleTimeout_yields s) fun _ => ReactorCall.Finishes.adopts).mono
  · intro _ s' w' hend
    obtain ⟨rfl, hlater⟩ := hend
    exact ⟨rfl, hlater⟩
  · exact fun _ _ _ hend => hend

/-- **`finish_upstream_connect`**: the session is a relay, or nothing has changed. -/
theorem finishUpstreamConnect_holds :
    Holds dialling s w finishUpstreamConnect
      (fun done s' w' => if done then Kept s w s' w' ∧ s'.stage = .relay else Still s w s' w') E := by
  apply (later_holds (finishUpstreamConnect_yields s) fun _ => ReactorCall.Finishes.adopts).mono
  · intro done s' w' hend
    obtain ⟨hfinish, hlater⟩ := hend
    cases hfinish with
    | refused => exact ⟨rfl, hlater⟩
    | crowded => exact ⟨rfl, hlater⟩
    | relayed => exact ⟨⟨rfl, rfl, hlater⟩, rfl⟩
  · exact fun _ _ _ hend => hend

/-- The socket goes, and the counters stay. -/
theorem discardUpstream_holds :
    Holds dialling s w discardUpstream
      (fun _ s' w' => Kept s w s' w' ∧ s'.stage = s.stage ∧ s'.upstream = none) E := by
  apply (later_holds (discardUpstream_yields s) fun _ hc => hc.finishes.adopts).mono
  · intro _ s' w' hend
    obtain ⟨rfl, hlater⟩ := hend
    exact ⟨⟨rfl, rfl, hlater⟩, rfl, rfl⟩
  · exact fun _ _ _ hend => hend

/-- A socket that has failed is given up. -/
theorem give_up_bind {α : Type} {f : Unit → SessionM α} {Q : α → Session → Record → Prop}
    (hf : ∀ r s' w', Kept s w s' w' → s'.stage = s.stage → s'.upstream = none →
      Holds dialling s' w' (f r) Q E) :
    Holds dialling s w (recordUpstreamError >>= fun _ => discardUpstream >>= f) Q E := by
  apply (later_holds (recordUpstreamError_yields s) fun _ hc => hc.finishes.adopts).bind
  intro _ s₁ w₁ h₁
  obtain ⟨rfl, hlater⟩ := h₁
  apply discardUpstream_holds.bind
  intro r s₂ w₂ h₂
  obtain ⟨hkept, hstage, hnone⟩ := h₂
  exact hf r s₂ w₂ ⟨hkept.cursor, hkept.received, hlater.trans hkept.later⟩ hstage hnone

/-- What an attempt comes to: a relay, a socket that is connecting, or nothing. -/
structure Attempted (s₀ : Session) (w₀ : Record) (result : Option Bool) (s : Session) (w : Record) :
    Prop where
  kept : Kept s₀ w₀ s w
  going : result = some true → s.stage = .relay ∨ s.stage = s₀.stage ∧ s.upstream.isSome
  failed : result = none → s.stage = s₀.stage

/-- A socket that is adopted is an attempt. -/
theorem attempted_of_adopt {result : Option Bool} (h : s.Adopt result s') (hlater : Later w w') :
    Attempted s w result s' w' := by
  cases h with
  | unwatched => exact ⟨⟨rfl, rfl, hlater⟩, fun hsome => (nomatch hsome), fun _ => rfl⟩
  | settled socket now hsettle =>
      cases hsettle with
      | pending => exact ⟨⟨rfl, rfl, hlater⟩, fun _ => .inr ⟨rfl, rfl⟩, fun hnone => nomatch hnone⟩
      | relayed => exact ⟨⟨rfl, rfl, hlater⟩, fun _ => .inl rfl, fun hnone => nomatch hnone⟩
      | crowded => exact ⟨⟨rfl, rfl, hlater⟩, fun hsome => (nomatch hsome), fun hnone => nomatch hnone⟩
      | failed => exact ⟨⟨rfl, rfl, hlater⟩, fun hsome => (nomatch hsome), fun _ => rfl⟩

/-- **One attempt**: it is on the record, and off the books of the session. -/
theorem tryCandidate_holds (backend : Backend) (address : SocketAddress)
    (source : Option SocketAddress) :
    Holds dialling s w (tryCandidate backend address source)
      (fun r => Attempted s.spendCandidate (w.tried (address, source)) r) E := by
  apply holds_modify_bind
  refine ⟨trivial, fun _ _ => ⟨trivial, fun started _ => ?_⟩⟩
  cases started with
  | none =>
      apply (later_holds (recordUpstreamError_yields _) fun _ hc => hc.finishes.adopts).bind
      intro _ s₁ w₁ h₁
      obtain ⟨rfl, hlater⟩ := h₁
      exact ⟨⟨rfl, rfl, hlater⟩, fun hsome => (nomatch hsome), fun _ => rfl⟩
  | some started =>
      apply (later_holds (adoptSocket_yields started _) fun _ hc => hc).mono
      · exact fun _ _ _ hend => attempted_of_adopt hend.1 hend.2
      · exact fun _ _ _ hend => hend

/-! ## The loop -/

/-- Some attempts later: what was made and what is left is what it was in all. -/
structure Progress (s₀ : Session) (w₀ : Record) (s : Session) (w : Record) : Prop where
  sound : Sound s
  whole : w.attempts ++ left s = w₀.attempts ++ left s₀
  fixed : Fixed s₀ s
  received : s.protocolState.receivedMessage = s₀.protocolState.receivedMessage
  numbers : w.route = w₀.route ∧ w.source = w₀.source
  sequence : s₀.sources ≠ [] →
    s.upstreamSourceSequence + w₀.attempts.length = s₀.upstreamSourceSequence + w.attempts.length
  clock : w₀.clock ≤ w.clock

/-- The sources of a session are fixed. -/
theorem Fixed.sources (h : Fixed s₀ s) : s.sources = s₀.sources := by
  unfold Session.sources
  rw [h.runtime]

/-- So are the addresses of its backend. -/
theorem Fixed.backendAddresses (h : Fixed s₀ s) : s.backendAddresses = s₀.backendAddresses := by
  unfold Session.backendAddresses
  rw [h.backend]

/-- No attempt at all is progress of length zero. -/
theorem Kept.progress (h : Kept s₀ w₀ s w) (hs : Sound s₀) : Progress s₀ w₀ s w := by
  obtain ⟨hclock, hw⟩ := h.later
  refine ⟨hs.congr h.cursor, ?_, fixed_of_cursor h.cursor, h.received, ?_, fun _ => ?_, hclock⟩
  · rw [left_congr h.cursor, hw]
    rfl
  · rw [hw]
    exact ⟨rfl, rfl⟩
  · have hsequence : s.upstreamSourceSequence = s₀.upstreamSourceSequence :=
      congrArg Cursor.upstreamSourceSequence h.cursor
    rw [hsequence, hw]
    rfl

theorem Progress.trans {s₁ s₂ s₃ : Session} {w₁ w₂ w₃ : Record} (h : Progress s₁ w₁ s₂ w₂)
    (h' : Progress s₂ w₂ s₃ w₃) : Progress s₁ w₁ s₃ w₃ where
  sound := h'.sound
  whole := h'.whole.trans h.whole
  fixed := h.fixed.trans h'.fixed
  received := h'.received.trans h.received
  numbers := ⟨h'.numbers.1.trans h.numbers.1, h'.numbers.2.trans h.numbers.2⟩
  sequence hsources := by
    have hfirst := h.sequence hsources
    have hsecond := h'.sequence (h.fixed.sources ▸ hsources)
    omega
  clock := h.clock.trans h'.clock

/-- How connecting is given up: with no candidate left, too late, or for want of room. -/
structure GaveUp (s₀ : Session) (w₀ : Record) (e : Exit) (s : Session) (w : Record) : Prop where
  progress : Progress s₀ w₀ s w
  exit : e = .connectFailed ∧ (s.connectCandidatesRemaining = 0 ∨ s.upstreamOverallDeadline ≤ w.clock) ∨
    e = .queueBudget

/-- An attempt is under way, or has succeeded. -/
def Going (s : Session) : Prop :=
  s.stage = .relay ∨ s.stage = .upstreamConnect ∧ s.upstream.isSome

/-- One attempt makes progress. -/
theorem progress_of_attempted {address : SocketAddress} {choice : Option SocketAddress}
    {result : Option Bool} {s' : Session} {w' : Record} (hs : Sound s)
    (hpos : s.currentAddressSourcesRemaining ≠ 0) (hcandidate : s.candidate = some (address, choice))
    (h : Attempted (spent s) (w.tried (address, choice)) result s' w') :
    Progress s w s' w' := by
  obtain ⟨found, chosen, hfound, hleft, hsound⟩ := left_spent hs hpos
  rw [hcandidate] at hfound
  cases hfound
  have hspent : Progress s w (spent s) (w.tried (address, choice)) := by
    refine ⟨hsound, ?_, (spent_fields s).1, ?_, ⟨rfl, rfl⟩, fun hsources => ?_, le_refl _⟩
    · show w.attempts ++ [(address, choice)] ++ left (spent s) = w.attempts ++ left s
      rw [hleft, List.append_assoc]
      rfl
    · show s.advanceSource.protocolState.receivedMessage = _
      rw [s.advanceSource_view Session.protocolState fun _ _ => rfl]
    · obtain ⟨_, _, _, _, _, _, hsequence⟩ := spent_fields s
      have hmade : (w.tried (address, choice)).attempts.length = w.attempts.length + 1 :=
        List.length_append
      rw [hsequence, hmade, advanced, if_neg hsources]
      omega
  exact hspent.trans (h.kept.progress hsound)

/-- **The loop of `start_next_upstream_connect`.**  The induction is on the fuel, of which
there is enough for the candidates; that no address is left and that no source is found are
ways out that are never taken. -/
theorem connectRounds_holds {rounds : Nat} (hs : Sound s)
    (hrounds : s.connectCandidatesRemaining ≤ rounds) (hstage : s.stage = .upstreamConnect)
    (hbackend : s.backend.isSome) :
    Holds dialling s w (connectRounds rounds) (fun _ s' w' => Progress s w s' w' ∧ Going s')
      (GaveUp s w) := by
  induction rounds generalizing s w with
  | zero =>
      have hstill : Still s w s w := ⟨rfl, .refl w⟩
      exact ⟨hstill.kept.progress hs, .inl ⟨rfl, .inl (by omega)⟩⟩
  | succ rounds ih =>
      apply holds_current_bind
      refine holds_ask_bind trivial fun (time : Nat) (htime : w.clock ≤ time) => ?_
      have hnow : Progress s w s (w.aged time) :=
        ⟨hs, rfl, .refl s, rfl, ⟨rfl, rfl⟩, fun _ => rfl, htime⟩
      split
      · rename_i hover
        exact ⟨hnow, .inl ⟨rfl, hover⟩⟩
      · rename_i hmore
        obtain ⟨hleft, hsound, hfixed, hnone⟩ :=
          left_seekAddress hs (le_refl s.backendAddressesRemaining)
        apply holds_modify_bind
        apply holds_current_bind
        generalize hsought : s.seekAddress s.backendAddressesRemaining = sought at *
        obtain ⟨_, _, _, _, hframe⟩ := s.seekAddress_frame s.backendAddressesRemaining
        rw [hsought] at hframe
        have hseek : Progress s w sought (w.aged time) := by
          refine hnow.trans ⟨hsound, ?_, hfixed, ?_, ⟨rfl, rfl⟩, fun _ => ?_, le_refl _⟩
          · rw [hleft]
          · rw [hframe]
          · rw [hframe]
        split
        · rename_i hzero
          have hempty := hnone hzero
          have hcount := hs.remaining
          rw [hempty] at hcount
          exact absurd (.inl hcount) hmore
        · rename_i hpos
          obtain ⟨address, choice, hcandidate, hrest, hspent⟩ := left_spent hsound hpos
          obtain ⟨backend, hsome⟩ := Option.isSome_iff_exists.mp hbackend
          have hchosen : sought.backend = some backend := hfixed.backend.trans hsome
          apply holds_modify_bind
          rw [hcandidate, hchosen]
          apply (tryCandidate_holds backend address choice).bind
          intro result s₁ w₁ h₁
          have hprogress := hseek.trans (progress_of_attempted hsound hpos hcandidate h₁)
          have hspentStage : (spent sought).stage = .upstreamConnect := by
            show sought.advanceSource.stage = _
            rw [sought.advanceSource_view Session.stage fun _ _ => rfl, hframe]
            exact hstage
          cases result with
          | none =>
              have hstage₁ : s₁.stage = .upstreamConnect := (h₁.failed rfl).trans hspentStage
              have hless : s₁.connectCandidatesRemaining ≤ rounds := by
                have hwhole := congrArg List.length hprogress.whole
                have hmade : w₁.attempts.length = w.attempts.length + 1 := by
                  rw [h₁.kept.later.2]
                  exact List.length_append
                rw [List.length_append, List.length_append, ← hprogress.sound.remaining,
                  ← hs.remaining] at hwhole
                omega
              apply (ih hprogress.sound hless hstage₁ (hprogress.fixed.backend ▸ hbackend)).mono
              · exact fun _ _ _ hend => ⟨hprogress.trans hend.1, hend.2⟩
              · exact fun _ _ _ hend => ⟨hprogress.trans hend.progress, hend.exit⟩
          | some answer =>
              cases answer with
              | true =>
                  refine ⟨hprogress, ?_⟩
                  rcases h₁.going rfl with hrelay | ⟨hconnecting, hsocket⟩
                  · exact .inl hrelay
                  · exact .inr ⟨hconnecting.trans hspentStage, hsocket⟩
              | false => exact ⟨hprogress, .inr rfl⟩

end PoolLb.Dial
