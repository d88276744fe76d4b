import PoolLb.SessionCalls
import PoolLb.WorkerRun

/-!
# Sessions and their slots, call by call

`accept_ready` takes a slot before it knows whether there is one, and `close_session` gives the
slot of a session back before it takes the session off the table.  So between two calls of a
worker its slots and its sessions need not agree.  This module says how far they can be apart.

`Berths` is what a worker has of slots, leases and sessions, with the limit that it has loaded
last and the slot it has taken above that limit, if any.  A session is leaving when its lease
has been given back already.  At every call of a worker there is a slot that was not refused
for each of its sessions but one that is leaving, and at the end of a turn for each of them.
A worker that is not accepting is out of step with its sessions only while it parts with one,
from the lease to the table, and no worker has a session that is leaving but then.

The relays of a worker are the sessions whose stage has been written; a backend counts a session
a little later, and stops counting it a little before the session is off the table.  `Window`
says which of the two is under way, and between two reactions neither is.
-/

namespace PoolLb

open Interaction Handler Tally

/-- The lease of the session is still out. -/
def Session.leasedIn (leases : List Nat) (s : Session) : Bool := s.admission.any leases.contains

/-- How many sessions have given their lease back. -/
def leavingOf (leases : List Nat) (sessions : Table Nat Session) : Nat :=
  tally (fun _ s => if s.leasedIn leases then 0 else 1) sessions

/-- The slots, leases and sessions of a worker. -/
structure Berths where
  slots : Nat := 0
  leases : List Nat := []
  sessions : Table Nat Session := ∅
  nextId : Nat := 1
  /-- `max_connections` of the configuration loaded last. -/
  limit : Nat := 0
  /-- Slots taken above the limit. -/
  refused : Nat := 0
  workerActive : Nat := 0
  accepted : Nat := 0
  closed : Nat := 0
  /-- The worker is in `accept_ready`. -/
  accepting : Bool := false
  /-- The backend and the id of every session that has become a relay. -/
  reached : List (Nat × Nat) := []
  window : Window := .shut

namespace Berths

def live (b : Berths) : Nat := tally (fun _ _ => 1) b.sessions

def leaving (b : Berths) : Nat := leavingOf b.leases b.sessions

/-- The session has become a relay. -/
def Relays (b : Berths) (id : Nat) : Prop := id ∈ b.reached.map Prod.snd

/-- There is a slot for every session, but for one that is leaving. -/
structure Seated (b : Berths) : Prop where
  slots : b.live + b.refused ≤ b.slots + b.leaving
  leaving : b.leaving ≤ 1

def allows (b : Berths) : (c : ReactorCall) → c.Answer → Prop
  | .acquireLease _ _, admission =>
      (admission.result = .accepted ↔ admission.lease.isSome) ∧
        ∀ lease, admission.lease = some lease → lease ∉ b.leases
  | .nextSessionId, id => id = b.nextId
  | .findSession id, found => found = b.sessions.lookup id
  | .emplaceSession s, inserted => inserted = (b.sessions.lookup s.id).isNone
  | .anySession, some id => (b.sessions.lookup id).isSome
  | _, _ => True

def after (b : Berths) : (c : ReactorCall) → c.Answer → Berths
  | .loadRuntime, runtime => { b with limit := runtime.limits.maxConnections }
  | .activeIncrement, prior =>
      { b with slots := b.slots + 1, refused := if b.limit ≤ prior then b.refused + 1 else b.refused }
  | .activeDecrement, _ => { b with slots := b.slots - 1, refused := b.refused - 1 }
  | .workerActiveIncrement, _ => { b with workerActive := b.workerActive + 1 }
  | .workerActiveDecrement, _ => { b with workerActive := b.workerActive - 1 }
  | .acceptedIncrement, _ => { b with accepted := b.accepted + 1 }
  | .closedIncrement, _ => { b with closed := b.closed + 1 }
  | .acquireLease _ _, ⟨_, some lease⟩ => { b with leases := lease :: b.leases }
  | .releaseLease (some lease), _ => { b with leases := b.leases.erase lease }
  | .nextSessionId, _ => { b with nextId := b.nextId + 1 }
  | .storeSession s, _ => { b with sessions := b.sessions.insert s.id s }
  | .emplaceSession s, true => { b with sessions := b.sessions.insert s.id s }
  | .eraseSession id, _ =>
      { b with
        sessions := b.sessions.erase id
        reached := b.reached.filter fun entry => entry.2 ≠ id
        window := .shut }
  | .writeRelayStage session (some backend) _, _ =>
      { b with
        reached := (backend, session) :: b.reached
        window := .entering backend session }
  | .backendEnter _ _ _, _ => { b with window := .shut }
  | .backendLeave backend session, _ => { b with window := .leaving backend session }
  | _, _ => b

/-- What holds between two turns. -/
structure AtRest (b : Berths) : Prop where
  keyed : ∀ id s, b.sessions.lookup id = some s → s.id = id
  known : ∀ id s, b.sessions.lookup id = some s → id < b.nextId
  leased : ∀ id s, b.sessions.lookup id = some s → ∃ lease, s.admission = some lease ∧ lease ∈ b.leases
  distinct : ∀ id id' s s', b.sessions.lookup id = some s → b.sessions.lookup id' = some s' →
    s.admission = s'.admission → id = id'
  nodup : b.leases.Nodup
  seated : b.live ≤ b.slots
  refused : b.refused = 0

/-- Every counter of the worker is the number of its sessions. -/
structure Settled (b : Berths) : Prop where
  slots : b.slots = b.live
  workerActive : b.workerActive = b.live
  flow : b.accepted = b.closed + b.live

/-- The relays are the sessions that a backend counts, and no backend is about to. -/
structure Marked (b : Berths) : Prop where
  shut : b.window = .shut
  counted : ∀ id s, b.sessions.lookup id = some s → (s.backendCounted = true ↔ b.Relays id)
  live : ∀ id, b.Relays id → (b.sessions.lookup id).isSome

/-- Nobody is leaving, and nothing is under way or a connection is being accepted. -/
structure Calm (b : Berths) : Prop where
  seated : b.Seated
  stays : b.leaving = 0
  even : b.accepting = true ∨ b.AtRest ∧ b.Settled

/-- Where in its windows a worker makes a call.  Between the stage of a session and its backend
it sets the timer; between the backend and the table it gives back what the session holds. -/
def Passes (b : Berths) : ReactorCall → Prop
  | .writeRelayStage session _ counted =>
      b.window = .shut ∧ (b.sessions.lookup session).isSome ∧ (counted = true ↔ b.Relays session)
  | .backendEnter backend session _ => b.window = .entering backend session
  | .scheduleTimer session _ _ =>
      b.window = .shut ∨ ∃ backend, b.window = .entering backend session
  | .cancelTimer _ | .releaseQueuedBytes _ | .releaseLease _ | .activeDecrement
  | .workerActiveDecrement | .closedIncrement =>
      b.window = .shut ∨ ∃ backend session, b.window = .leaving backend session
  | .eraseSession id => b.window = .shut ∨ ∃ backend, b.window = .leaving backend id
  | _ => b.window = .shut

end Berths

/-- The calls of `close_session` between the lease and the table. -/
def ReactorCall.Parting : ReactorCall → Prop
  | .activeDecrement | .workerActiveDecrement | .closedIncrement | .eraseSession _ => True
  | _ => False

/-- The worker as far as slots, leases and sessions go.  Every call is made with the sessions
seated, out of step with them only for a good reason, and at its place in the windows. -/
def berths : World reactorCalls Berths where
  requires b c := b.Seated ∧
    (c.Parting ∨ b.leaving = 0 ∧ (b.accepting = true ∨ b.AtRest ∧ b.Settled)) ∧ b.Passes c
  allows := Berths.allows
  after := Berths.after

/-- With the windows shut any call is in place, but for those that enter a backend. -/
theorem Berths.passes_of_shut {b : Berths} {c : ReactorCall} (h : b.window = .shut)
    (hc : ¬ c.Enters) : b.Passes c := by
  cases c with
  | writeRelayStage session backend counted => exact absurd trivial hc
  | backendEnter backend session socket => exact absurd trivial hc
  | scheduleTimer | cancelTimer | releaseQueuedBytes | releaseLease | activeDecrement
  | workerActiveDecrement | closedIncrement | eraseSession => exact .inl h
  | _ => exact h

/-- A calm worker may make any call that passes its windows. -/
theorem Berths.Calm.requires {b : Berths} {c : ReactorCall} (h : b.Calm) (hc : b.Passes c) :
    berths.requires b c := ⟨h.seated, .inr ⟨h.stays, h.even⟩, hc⟩

/-! ## At rest -/

namespace Berths

variable {b b' : Berths} {s s' : Session}

/-- Between two turns the lease of every session is out. -/
theorem AtRest.leasedIn {id : Nat} (h : b.AtRest) (hs : b.sessions.lookup id = some s) :
    s.leasedIn b.leases = true := by
  obtain ⟨lease, hadmission, hmem⟩ := h.leased id s hs
  unfold Session.leasedIn
  rw [hadmission]
  exact List.contains_iff_mem.mpr hmem

/-- Nobody is leaving who has a lease. -/
theorem leavingOf_eq_zero {leases : List Nat} {sessions : Table Nat Session}
    (h : ∀ id s, sessions.lookup id = some s → s.leasedIn leases = true) :
    leavingOf leases sessions = 0 :=
  tally_eq_zero fun id s hs => if_pos (h id s hs)

/-- So nobody is leaving. -/
theorem AtRest.leaving (h : b.AtRest) : b.leaving = 0 :=
  leavingOf_eq_zero fun _ _ hs => h.leasedIn hs

/-- And there is a slot for every session. -/
theorem AtRest.isSeated (h : b.AtRest) : b.Seated := by
  have hleaving := h.leaving
  have hseated := h.seated
  have hrefused := h.refused
  exact ⟨by omega, by omega⟩

/-- A session is stored back. -/
theorem AtRest.stored (h : b.AtRest) (hs : b.sessions.lookup s.id = some s)
    (hbadge : s'.badge = s.badge) : { b with sessions := b.sessions.insert s'.id s' }.AtRest := by
  have hid : s'.id = s.id := congrArg Prod.fst hbadge
  have hadmission : s'.admission = s.admission := congrArg Prod.snd hbadge
  -- every entry has the id and the lease of an old one
  have hold : ∀ id t, (b.sessions.insert s'.id s').lookup id = some t →
      ∃ t', b.sessions.lookup id = some t' ∧ t.id = t'.id ∧ t.admission = t'.admission := by
    intro id t ht
    rcases lookup_insert_cases ht with ⟨rfl, rfl⟩ | ⟨_, ht⟩
    · exact ⟨s, hid ▸ hs, hid, hadmission⟩
    · exact ⟨t, ht, rfl, rfl⟩
  refine ⟨?_, ?_, ?_, ?_, h.nodup, ?_, h.refused⟩
  · intro id t ht
    obtain ⟨t', ht', hsame, _⟩ := hold id t ht
    rw [hsame]
    exact h.keyed id t' ht'
  · intro id t ht
    obtain ⟨t', ht', _, _⟩ := hold id t ht
    exact h.known id t' ht'
  · intro id t ht
    obtain ⟨t', ht', _, hsame⟩ := hold id t ht
    rw [hsame]
    exact h.leased id t' ht'
  · intro id id' t u ht hu hsame
    obtain ⟨t', ht', _, hsame₁⟩ := hold id t ht
    obtain ⟨u', hu', _, hsame₂⟩ := hold id' u hu
    exact h.distinct id id' t' u' ht' hu' (hsame₁.symm.trans (hsame.trans hsame₂))
  · have hlive : tally (fun _ _ => 1) (b.sessions.insert s'.id s') = b.live := by
      unfold Berths.live
      rw [tally_insert, hid, tally_of_lookup hs]
    show tally (fun _ _ => 1) (b.sessions.insert s'.id s') ≤ b.slots
    rw [hlive]
    exact h.seated

/-! ## A session that leaves -/

/-- A lease is given back: its session is the one that is leaving. -/
theorem AtRest.leaving_erase {id lease : Nat} (h : b.AtRest) (hs : b.sessions.lookup id = some s)
    (hlease : s.admission = some lease) : leavingOf (b.leases.erase lease) b.sessions = 1 := by
  unfold leavingOf
  rw [tally_of_lookup hs]
  have hgone : s.leasedIn (b.leases.erase lease) = false := by
    unfold Session.leasedIn
    rw [hlease]
    exact Bool.eq_false_iff.mpr fun hmem => h.nodup.not_mem_erase (List.contains_iff_mem.mp hmem)
  have hothers : tally (fun _ s => if Session.leasedIn (b.leases.erase lease) s then 0 else 1)
      (b.sessions.erase id) = 0 := by
    apply leavingOf_eq_zero
    intro other t ht
    have hother : other ≠ id := by
      intro heq
      rw [heq, AList.lookup_erase] at ht
      exact nomatch ht
    rw [AList.lookup_erase_ne hother] at ht
    obtain ⟨lease', hlease', hmem⟩ := h.leased other t ht
    unfold Session.leasedIn
    rw [hlease']
    refine List.contains_iff_mem.mpr ((List.mem_erase_of_ne ?_).mpr hmem)
    intro heq
    subst heq
    exact hother (h.distinct other id t s ht hs (hlease'.trans hlease.symm))
  rw [hgone, hothers]
  rfl

/-- The session is off the table. -/
theorem AtRest.erased {id lease : Nat} (h : b.AtRest) (hs : b.sessions.lookup id = some s)
    (hlease : s.admission = some lease) :
    { b with slots := b.slots - 1, refused := b.refused - 1, leases := b.leases.erase lease
             workerActive := b.workerActive - 1, closed := b.closed + 1
             sessions := b.sessions.erase id }.AtRest := by
  have hkept : ∀ other t, (b.sessions.erase id).lookup other = some t →
      other ≠ id ∧ b.sessions.lookup other = some t := by
    intro other t ht
    have hother : other ≠ id := by
      intro heq
      rw [heq, AList.lookup_erase] at ht
      exact nomatch ht
    exact ⟨hother, AList.lookup_erase_ne hother ▸ ht⟩
  refine ⟨?_, ?_, ?_, ?_, h.nodup.erase _, ?_, ?_⟩
  · exact fun other t ht => h.keyed other t (hkept other t ht).2
  · exact fun other t ht => h.known other t (hkept other t ht).2
  · intro other t ht
    obtain ⟨hother, hfound⟩ := hkept other t ht
    obtain ⟨lease', hlease', hmem⟩ := h.leased other t hfound
    refine ⟨lease', hlease', (List.mem_erase_of_ne ?_).mpr hmem⟩
    intro heq
    subst heq
    exact hother (h.distinct other id t s hfound hs (hlease'.trans hlease.symm))
  · exact fun i j t u ht hu => h.distinct i j t u (hkept i t ht).2 (hkept j u hu).2
  · have hlive : b.live = 1 + tally (fun _ _ => 1) (b.sessions.erase id) := tally_of_lookup hs
    have hseated := h.seated
    show tally (fun _ _ => 1) (b.sessions.erase id) ≤ b.slots - 1
    omega
  · show b.refused - 1 = 0
    rw [h.refused]

end Berths

/-! ## Calls and session code -/

/-- The call has no part in slots, leases, sessions and relays. -/
def ReactorCall.Plain : ReactorCall → Prop
  | .loadRuntime | .activeIncrement | .activeDecrement | .acquireLease _ _ | .releaseLease _
  | .nextSessionId | .storeSession _ | .emplaceSession _ | .eraseSession _
  | .workerActiveIncrement | .workerActiveDecrement | .acceptedIncrement | .closedIncrement
  | .writeRelayStage _ _ _ | .backendEnter _ _ _ | .backendLeave _ _ => False
  | _ => True

variable {b : Berths} {s : Session} {α : Type}

/-- A plain call changes nothing of the berths. -/
theorem plain_after {c : ReactorCall} (h : c.Plain) (b : Berths) (r : c.Answer) : b.after c r = b := by
  cases c <;> first | exact h.elim | rfl

/-- The calls of session code are plain. -/
theorem plain_of_session {c : ReactorCall} (h : c.OfSession) : c.Plain := by
  cases c <;> first | exact h.elim | trivial

/-- A plain call enters no backend. -/
theorem not_enters_of_plain {c : ReactorCall} (h : c.Plain) : ¬ c.Enters := by
  cases c <;> first | exact h.elim | exact id

/-- A worker that is calm, with its windows shut. -/
structure Berths.Still (b : Berths) : Prop extends b.Calm where
  shut : b.window = .shut

/-- With its windows shut a worker may make any call that enters no backend. -/
theorem Berths.Still.requires {c : ReactorCall} (h : b.Still) (hc : ¬ c.Enters) : berths.requires b c :=
  h.toCalm.requires (Berths.passes_of_shut h.shut hc)

/-- A call that has no part in them. -/
theorem ensures_plain {c : ReactorCall} {k : c.Answer → Prog reactorCalls α} {Q : α → Berths → Prop}
    (hc : c.Plain) (hb : b.Still) (hk : ∀ r, b.allows c r → Ensures berths b (k r) Q) :
    Ensures berths b (request c >>= k) Q := by
  refine ensures_call_bind (hb.requires (not_enters_of_plain hc)) fun r hr => ?_
  have hsame : berths.after b c r = b := plain_after hc b r
  rw [hsame]
  exact hk r hr

/-- A plain call at the end of a program. -/
theorem ensures_plain_last {c : ReactorCall} {Q : c.Answer → Berths → Prop} (hc : c.Plain)
    (hb : b.Still) (hQ : ∀ r, Q r b) : Ensures berths b (request c) Q :=
  ⟨hb.requires (not_enters_of_plain hc), fun r _ => by
    have hsame : berths.after b c r = b := plain_after hc b r
    rw [hsame]
    exact hQ r⟩

/-- The relays of a worker after the code of the session `s` has made `s'` of it. -/
structure Berths.Entered (b : Berths) (s s' : Session) (reached : List (Nat × Nat)) : Prop where
  own : s'.backendCounted = true ↔ s.id ∈ reached.map Prod.snd
  others : ∀ id, id ≠ s.id → (id ∈ reached.map Prod.snd ↔ b.Relays id)

/-- How far the code of the session `s` has come with the relays. -/
structure Berths.Passing (b : Berths) (s : Session) (passage : Passage) (b' : Berths)
    (reached : List (Nat × Nat)) : Prop where
  same : b' = { b with reached := reached, window := passage.window }
  own : passage.counted = true ∨ passage.window ≠ .shut ↔ s.id ∈ reached.map Prod.snd
  others : ∀ id, id ≠ s.id → (id ∈ reached.map Prod.snd ↔ b.Relays id)

/-- A worker is calm whatever its relays are. -/
theorem Berths.Calm.aside (h : b.Calm) (reached : List (Nat × Nat)) (window : Window) :
    { b with reached := reached, window := window }.Calm := by
  refine ⟨⟨h.seated.slots, h.seated.leaving⟩, h.stays, h.even.imp_right fun heven => ?_⟩
  obtain ⟨hrest, hsettled⟩ := heven
  exact ⟨⟨hrest.keyed, hrest.known, hrest.leased, hrest.distinct, hrest.nodup, hrest.seated,
    hrest.refused⟩, ⟨hsettled.slots, hsettled.workerActive, hsettled.flow⟩⟩

/-- The code of a session makes its calls in place, and is where its passage says. -/
theorem Berths.Passing.step {passage : Passage} {b' : Berths} {c : ReactorCall} (hb : b.Calm)
    (hlive : (b.sessions.lookup s.id).isSome) (h : ∃ reached, b.Passing s passage b' reached)
    (hc : passage.requires s.id c) : berths.requires b' c ∧ ∀ r, ∃ reached,
      b.Passing s (passage.after c) (berths.after b' c r) reached := by
  obtain ⟨reached, rfl, hown, hothers⟩ := h
  have hcalm := hb.aside reached passage.window
  cases c with
  | writeRelayStage session backend counted =>
      obtain ⟨hshut, rfl, rfl⟩ := hc
      refine ⟨hcalm.requires ⟨hshut, hlive, ?_⟩, fun _ => ?_⟩
      · show passage.counted = true ↔ s.id ∈ reached.map Prod.snd
        rw [← hown]
        simp [hshut]
      · cases backend with
        | none => exact ⟨reached, rfl, hown, hothers⟩
        | some backend =>
            refine ⟨(backend, s.id) :: reached, rfl, by simp [Passage.after], fun id hid => ?_⟩
            rw [List.map_cons, List.mem_cons, ← hothers id hid]
            exact or_iff_right hid
  | backendEnter backend session socket =>
      have hentering : passage.window = .entering backend session := hc
      refine ⟨hcalm.requires hentering, fun _ => ⟨reached, rfl, ?_, hothers⟩⟩
      rw [← hown, hentering]
      simp [Passage.after]
  | scheduleTimer session generation deadline =>
      exact ⟨hcalm.requires hc, fun _ => ⟨reached, rfl, hown, hothers⟩⟩
  | _ =>
      have hplain := plain_of_session hc.2
      exact ⟨hcalm.requires (Berths.passes_of_shut hc.1 (not_enters_of_plain hplain)),
        fun r => ⟨reached, plain_after hplain _ r, hown, hothers⟩⟩

/-- **The code of a session in the worker**: it leaves everything alone but the relays. -/
theorem ensures_local {m : SessionM α} (hm : Local m) (hb : b.Still)
    (hs : b.sessions.lookup s.id = some s) (hcounted : s.backendCounted = true ↔ b.Relays s.id) :
    Ensures berths b (m s) (fun outcome b' => outcome.2.badge = s.badge ∧
      ∃ reached, b' = { b with reached := reached } ∧ b.Entered s outcome.2 reached) := by
  have hlive : (b.sessions.lookup s.id).isSome := Option.isSome_iff_exists.mpr ⟨s, hs⟩
  have hshut : ∀ reached, { b with reached := reached, window := .shut } =
      { b with reached := reached } := by
    intro reached
    rw [← hb.shut]
  have hstart : b.Passing s s.passage b b.reached := by
    refine ⟨(hshut b.reached).symm, ?_, fun _ _ => Iff.rfl⟩
    rw [or_iff_left (fun hopen => hopen rfl)]
    exact hcounted
  apply Ensures.mono (Ensures.simulates
    (R := fun passage b' => ∃ reached, b.Passing s passage b' reached)
    (fun passage b' c hR hc => ?_) (hm s) ⟨b.reached, hstart⟩)
  · intro outcome b' hend
    obtain ⟨passage, hled, reached, hsame, hown, hothers⟩ := hend
    obtain ⟨r, s'⟩ := outcome
    have hled : s.Leads () s' passage := by
      cases r with
      | ok _ => exact hled
      | error _ => exact hled
    obtain ⟨hbadge, rfl⟩ := hled
    refine ⟨hbadge, reached, hsame.trans (hshut reached), ?_, hothers⟩
    rw [or_iff_left (fun hopen => hopen rfl)] at hown
    exact hown
  · obtain ⟨hrequires, hnext⟩ := Berths.Passing.step hb.toCalm hlive hR hc
    exact ⟨hrequires, fun r _ => ⟨trivial, hnext r⟩⟩

/-- A worker between two reactions that has loaded `limit`. -/
structure Rests (accepting : Bool) (limit : Nat) (b : Berths) : Prop where
  rest : b.AtRest
  limit : b.limit = limit
  accepting : b.accepting = accepting
  even : b.accepting = true ∨ b.Settled
  marked : b.Marked

variable {accepting : Bool} {limit : Nat}

theorem Rests.still (h : Rests accepting limit b) : b.Still :=
  ⟨⟨h.rest.isSeated, h.rest.leaving, h.even.imp_right fun hsettled => ⟨h.rest, hsettled⟩⟩,
    h.marked.shut⟩

/-- The relays are as they were where only other things have changed. -/
theorem Berths.Marked.congr {b' : Berths} (h : b.Marked) (hsessions : b'.sessions = b.sessions)
    (hreached : b'.reached = b.reached) (hwindow : b'.window = b.window) : b'.Marked := by
  refine ⟨hwindow.trans h.shut, fun id s hs => ?_, fun id hrelays => ?_⟩
  · unfold Berths.Relays
    rw [hreached]
    exact h.counted id s (hsessions ▸ hs)
  · unfold Berths.Relays at hrelays
    rw [hreached] at hrelays
    rw [hsessions]
    exact h.live id hrelays

/-- A session is stored back, and its backend counts it if it has become a relay. -/
theorem Berths.Marked.stored {s' : Session} {reached : List (Nat × Nat)} (h : b.Marked)
    (hid : s'.id = s.id) (hentered : b.Entered s s' reached) :
    { b with reached := reached, sessions := b.sessions.insert s'.id s' }.Marked := by
  refine ⟨h.shut, fun id t ht => ?_, fun id hrelays => ?_⟩
  · rcases lookup_insert_cases ht with ⟨rfl, rfl⟩ | ⟨hother, ht⟩
    · rw [hid]
      exact hentered.own
    · rw [hid] at hother
      exact (h.counted id t ht).trans (hentered.others id hother).symm
  · show ((b.sessions.insert s'.id s').lookup id).isSome
    by_cases hsame : id = s'.id
    · rw [hsame, AList.lookup_insert]
      rfl
    · rw [AList.lookup_insert_ne hsame]
      exact h.live id ((hentered.others id (hid ▸ hsame)).mp hrelays)

/-- A session is stored back. -/
theorem Rests.stored {s' : Session} {reached : List (Nat × Nat)} (h : Rests accepting limit b)
    (hs : b.sessions.lookup s.id = some s) (hbadge : s'.badge = s.badge)
    (hentered : b.Entered s s' reached) :
    Rests accepting limit
      { b with reached := reached, sessions := b.sessions.insert s'.id s' } := by
  have hid : s'.id = s.id := congrArg Prod.fst hbadge
  have hrest := h.rest.stored hs hbadge
  refine ⟨⟨hrest.keyed, hrest.known, hrest.leased, hrest.distinct, hrest.nodup, hrest.seated,
    hrest.refused⟩, h.limit, h.accepting, h.even.imp_right fun hsettled => ?_,
    h.marked.stored hid hentered⟩
  have hlive : tally (fun _ _ => 1) (b.sessions.insert s'.id s') = b.live := by
    unfold Berths.live
    rw [tally_insert, hid, tally_of_lookup hs]
  refine ⟨?_, ?_, ?_⟩
  · show b.slots = tally (fun _ _ => 1) (b.sessions.insert s'.id s')
    rw [hlive]
    exact hsettled.slots
  · show b.workerActive = tally (fun _ _ => 1) (b.sessions.insert s'.id s')
    rw [hlive]
    exact hsettled.workerActive
  · show b.accepted = b.closed + tally (fun _ _ => 1) (b.sessions.insert s'.id s')
    rw [hlive]
    exact hsettled.flow

/-- The relays without a session that is off the table. -/
theorem Berths.Marked.erased {id slots refused workerActive closed : Nat} {leases : List Nat}
    (h : b.Marked) :
    { b with
      slots := slots, refused := refused, leases := leases, workerActive := workerActive
      closed := closed, sessions := b.sessions.erase id
      reached := b.reached.filter fun entry => entry.2 ≠ id, window := .shut }.Marked := by
  have hkept : ∀ other, other ∈ (b.reached.filter fun entry => entry.2 ≠ id).map Prod.snd ↔
      other ≠ id ∧ b.Relays other := by
    intro other
    simp only [Berths.Relays, List.mem_map, List.mem_filter, decide_eq_true_eq]
    constructor
    · intro hkept
      obtain ⟨entry, ⟨hmem, hne⟩, rfl⟩ := hkept
      exact ⟨hne, entry, hmem, rfl⟩
    · intro hrelays
      obtain ⟨hne, entry, hmem, rfl⟩ := hrelays
      exact ⟨entry, ⟨hmem, hne⟩, rfl⟩
  have hothers : ∀ other, other ≠ id → (b.sessions.erase id).lookup other = b.sessions.lookup other :=
    fun other hother => AList.lookup_erase_ne hother
  refine ⟨rfl, fun other t ht => ?_, fun other hrelays => ?_⟩
  · have hother : other ≠ id := by
      intro heq
      rw [heq, AList.lookup_erase] at ht
      exact absurd ht (by simp)
    rw [hothers other hother] at ht
    exact (h.counted other t ht).trans ((hkept other).trans (and_iff_right hother)).symm
  · obtain ⟨hother, hrelays⟩ := (hkept other).mp hrelays
    show ((b.sessions.erase id).lookup other).isSome
    rw [hothers other hother]
    exact h.live other hrelays

/-- The session is off the table. -/
theorem Rests.erased {id lease : Nat} (h : Rests accepting limit b)
    (hs : b.sessions.lookup id = some s) (hlease : s.admission = some lease) :
    Rests accepting limit
      { b with slots := b.slots - 1, refused := b.refused - 1, leases := b.leases.erase lease
               workerActive := b.workerActive - 1, closed := b.closed + 1
               sessions := b.sessions.erase id
               reached := b.reached.filter fun entry => entry.2 ≠ id, window := .shut } := by
  have hrest := h.rest.erased hs hlease
  refine ⟨⟨hrest.keyed, hrest.known, hrest.leased, hrest.distinct, hrest.nodup, hrest.seated,
    hrest.refused⟩, h.limit, h.accepting, h.even.imp_right fun hsettled => ?_, h.marked.erased⟩
  have hlive : b.live = 1 + tally (fun _ _ => 1) (b.sessions.erase id) := tally_of_lookup hs
  have hslots := hsettled.slots
  have hworker := hsettled.workerActive
  have hflow := hsettled.flow
  refine ⟨?_, ?_, ?_⟩
  · show b.slots - 1 = tally (fun _ _ => 1) (b.sessions.erase id)
    omega
  · show b.workerActive - 1 = tally (fun _ _ => 1) (b.sessions.erase id)
    omega
  · show b.accepted = b.closed + 1 + tally (fun _ _ => 1) (b.sessions.erase id)
    omega

/-- **A reaction of a session** leaves the worker as it was but for its relays. -/
theorem onSession_rests {m : SessionM Unit} (hm : Local m) (h : Rests accepting limit b)
    (hs : b.sessions.lookup s.id = some s) :
    Ensures berths b (onSession s m) (fun _ => Rests accepting limit) := by
  apply Ensures.bind (ensures_local hm h.still hs (h.marked.counted s.id s hs))
  intro outcome b' hend
  obtain ⟨hbadge, reached, rfl, hentered⟩ := hend
  have hrests := h.stored hs hbadge hentered
  have hstill : { b with reached := reached }.Still :=
    ⟨h.still.toCalm.aside reached b.window, h.still.shut⟩
  refine ensures_call_bind (hstill.requires id) fun _ _ => ?_
  cases outcome.1 with
  | ok _ => exact hrests
  | error _ => exact hrests

/-! ## Closing -/

/-- The last flush keeps the badge, and the session is stored back. -/
theorem finalFlush_rests (h : Rests accepting limit b) (hs : b.sessions.lookup s.id = some s) :
    Ensures berths b (finalFlush s)
      (fun s' b' => Rests accepting limit b' ∧ s'.badge = s.badge ∧
        b'.sessions.lookup s.id = some s') := by
  unfold finalFlush
  split
  · apply Ensures.bind
      (ensures_local flushUpstreamQueue_forwards.carries.isLocal h.still hs
        (h.marked.counted s.id s hs))
    intro outcome b' hend
    obtain ⟨hbadge, reached, rfl, hentered⟩ := hend
    have hid : outcome.2.id = s.id := congrArg Prod.fst hbadge
    have hstill : { b with reached := reached }.Still :=
      ⟨h.still.toCalm.aside reached b.window, h.still.shut⟩
    refine ensures_call_bind (hstill.requires id) fun _ _ =>
      ⟨h.stored hs hbadge hentered, hbadge, ?_⟩
    show (b.sessions.insert outcome.2.id outcome.2).lookup s.id = some outcome.2
    rw [hid]
    exact AList.lookup_insert _
  · exact ⟨h, rfl, hs⟩

/-- The backend may have stopped counting the session that is being closed. -/
def Window.Departing (id : Nat) (window : Window) : Prop :=
  window = .shut ∨ ∃ backend, window = .leaving backend id

/-- What follows once a backend has stopped counting a session. -/
theorem leave_rests {id lease : Nat} {window : Window} {k : Prog reactorCalls Unit}
    (h : Rests accepting limit b) (hwindow : window.Departing id)
    (hs : b.sessions.lookup id = some s) (hlease : s.admission = some lease)
    (hk : ∀ b, Rests accepting limit b → Ensures berths b k (fun _ => Rests accepting limit)) :
    Ensures berths { b with window := window } (do
      request (.cancelTimer id)
      request (.releaseQueuedBytes s.queuedBytes)
      releaseAdmission s
      request .closedIncrement
      request (.eraseSession id)
      k) (fun _ => Rests accepting limit) := by
  have hlive : b.live = 1 + tally (fun _ _ => 1) (b.sessions.erase id) := tally_of_lookup hs
  have hslots := h.rest.seated
  have hrefused := h.rest.refused
  have hleaving := h.rest.leaving_erase hs hlease
  have hcalm : { b with window := window }.Calm := h.still.toCalm.aside b.reached window
  have hopen : window = .shut ∨ ∃ backend session, window = .leaving backend session :=
    hwindow.imp_right fun hgone => ⟨hgone.choose, id, hgone.choose_spec⟩
  -- the lease is back, the slot is not
  let b₁ : Berths := { b with leases := b.leases.erase lease, window := window }
  have hb₁ : b₁.Seated := by
    refine ⟨?_, hleaving.le⟩
    show b.live + b.refused ≤ b.slots + leavingOf (b.leases.erase lease) b.sessions
    omega
  -- and now the slot is back as well
  let b₂ : Berths := { b₁ with slots := b.slots - 1, refused := b.refused - 1 }
  have hb₂ : b₂.Seated := by
    refine ⟨?_, hleaving.le⟩
    show b.live + (b.refused - 1) ≤ b.slots - 1 + leavingOf (b.leases.erase lease) b.sessions
    omega
  let b₃ : Berths := { b₂ with workerActive := b.workerActive - 1 }
  have hb₃ : b₃.Seated := ⟨hb₂.slots, hb₂.leaving⟩
  let b₄ : Berths := { b₃ with closed := b.closed + 1 }
  have hb₄ : b₄.Seated := ⟨hb₂.slots, hb₂.leaving⟩
  unfold releaseAdmission releaseActiveSlot
  rw [hlease]
  refine ensures_call_bind (hcalm.requires hopen) fun _ _ => ?_
  refine ensures_call_bind (hcalm.requires hopen) fun _ _ => ?_
  refine ensures_call_bind (hcalm.requires hopen) fun _ _ => ?_
  show Ensures berths b₁ _ _
  refine ensures_call_bind ⟨hb₁, .inl trivial, hopen⟩ fun _ _ => ?_
  show Ensures berths b₂ _ _
  refine ensures_call_bind ⟨hb₂, .inl trivial, hopen⟩ fun _ _ => ?_
  show Ensures berths b₃ _ _
  refine ensures_call_bind ⟨hb₃, .inl trivial, hopen⟩ fun _ _ => ?_
  show Ensures berths b₄ _ _
  refine ensures_call_bind ⟨hb₄, .inl trivial, hwindow⟩ fun _ _ => ?_
  exact hk _ (h.erased hs hlease)

/-- A socket that is deregistered, if there is one. -/
theorem forgetSocket_still (socket : Option Nat) (hb : b.Still) :
    Ensures berths b (forgetSocket socket) (fun _ b' => b' = b) := by
  cases socket with
  | none => rfl
  | some socket => exact ensures_plain_last trivial hb fun _ => rfl

/-- The pool socket is closed, if there is one. -/
theorem closeUpstreamSocket_still (socket : Option Nat) (hb : b.Still) :
    Ensures berths b (closeUpstreamSocket socket) (fun _ b' => b' = b) := by
  cases socket with
  | none => rfl
  | some socket => exact ensures_plain_last trivial hb fun _ => rfl

/-- A backend stops counting the session. -/
theorem leaveBackend_departs (s : Session) (hb : b.Still) :
    Ensures berths b (leaveBackend s)
      (fun _ b' => ∃ window : Window, window.Departing s.id ∧ b' = { b with window := window }) := by
  unfold leaveBackend
  split
  · rename_i backend _ _
    exact ⟨hb.requires id, fun _ _ => ⟨.leaving backend.ref s.id, .inr ⟨_, rfl⟩, rfl⟩⟩
  · exact ⟨b.window, .inl hb.shut, rfl⟩

/-- **`close_session`.** -/
theorem closeSession_rests (id : Nat) (h : Rests accepting limit b) :
    Ensures berths b (closeSession id) (fun _ => Rests accepting limit) := by
  refine ensures_plain trivial h.still fun found hfound => ?_
  have hfound : found = b.sessions.lookup id := hfound
  cases found with
  | none => exact h
  | some found =>
      have hid : found.id = id := h.rest.keyed id found hfound.symm
      have hs : b.sessions.lookup found.id = some found := by
        rw [hid]
        exact hfound.symm
      apply Ensures.bind (finalFlush_rests h hs)
      intro s b' hend
      obtain ⟨hrests, hbadge, hs'⟩ := hend
      have hstill := hrests.still
      have hsame : s.id = id := (congrArg Prod.fst hbadge).trans hid
      rw [hid] at hs'
      obtain ⟨lease, hlease, _⟩ := hrests.rest.leased id s hs'
      refine ensures_plain trivial hstill fun _ _ => ?_
      apply Ensures.bind (forgetSocket_still s.upstream hstill)
      intro _ b₁ hb₁
      subst hb₁
      apply Ensures.bind (leaveBackend_departs s hstill)
      intro _ b₂ hb₂
      obtain ⟨window, hwindow, rfl⟩ := hb₂
      rw [hsame] at hwindow
      refine leave_rests hrests hwindow hs' hlease fun b₃ h₃ => ?_
      exact ensures_plain trivial h₃.still fun _ _ =>
        (closeUpstreamSocket_still s.upstream h₃.still).mono fun _ _ hb₄ => hb₄ ▸ h₃

/-- A session that is to go on stays, and one that is not is closed. -/
theorem closeUnless_rests (keep : Bool) (id : Nat) (h : Rests accepting limit b) :
    Ensures berths b (closeUnless keep id) (fun _ => Rests accepting limit) := by
  cases keep with
  | true => exact h
  | false => exact closeSession_rests id h

/-- A reaction, and the end of the session where it is due. -/
theorem reaction_rests {m : SessionM Unit} (hm : Local m) (h : Rests accepting limit b) {id : Nat}
    (hs : b.sessions.lookup id = some s) :
    Ensures berths b (do
      let keep ← onSession s m
      closeUnless keep id) (fun _ => Rests accepting limit) := by
  have hkeyed : b.sessions.lookup s.id = some s := by
    rw [h.rest.keyed id s hs]
    exact hs
  exact Ensures.bind (onSession_rests hm h hkeyed) fun keep _ h' => closeUnless_rests keep id h'

/-- **An event**, for a session or for an id that is gone. -/
theorem dispatchEvent_rests (json : Glaze) (id : Nat) (event : SessionEvent)
    (h : Rests accepting limit b) :
    Ensures berths b (dispatchEvent json id event) (fun _ => Rests accepting limit) := by
  refine ensures_plain trivial h.still fun found hfound => ?_
  have hfound : found = b.sessions.lookup id := hfound
  cases found with
  | none => exact h
  | some s => exact reaction_rests (handle_local json event) h hfound.symm

theorem expireEach_rests (now : Nat) (expired : List TimerExpiry) (h : Rests accepting limit b) :
    Ensures berths b (expireEach now expired) (fun _ => Rests accepting limit) := by
  induction expired generalizing b with
  | nil => exact h
  | cons expiry expired ih =>
      have hone : Ensures berths b (expireOne now expiry) (fun _ => Rests accepting limit) := by
        refine ensures_plain trivial h.still fun found hfound => ?_
        have hfound : found = b.sessions.lookup expiry.sessionId := hfound
        cases found with
        | none => exact h
        | some s =>
            dsimp only
            split
            · exact h
            · exact reaction_rests (expireSession_local now) h hfound.symm
      exact Ensures.bind hone fun _ b' h' => ih h'

/-- A look at the timers, with all that follows from it. -/
theorem expireTimeouts_rests (now : Nat) (h : Rests accepting limit b) :
    Ensures berths b (expireTimeouts now) (fun _ => Rests accepting limit) :=
  ensures_plain trivial h.still fun expired _ => expireEach_rests now expired h

theorem closeAll_rests (rounds : Nat) (h : Rests accepting limit b) :
    Ensures berths b (closeAll rounds) (fun _ => Rests accepting limit) := by
  induction rounds generalizing b with
  | zero => exact h
  | succ rounds ih =>
      refine ensures_plain trivial h.still fun any _ => ?_
      cases any with
      | none => exact h
      | some id => exact Ensures.bind (closeSession_rests id h) fun _ b' h' => ih h'

/-! ## Accepting -/

/-- A worker that accepts, between two connections. -/
theorem rests_accepting (h : b.AtRest) (hlimit : b.limit = limit) (haccepting : b.accepting = true)
    (hmarked : b.Marked) : Rests true limit b := ⟨h, hlimit, haccepting, .inl haccepting, hmarked⟩

/-- A slot has been taken for a session that is not there yet. -/
structure Vacant (limit : Nat) (b : Berths) : Prop where
  rests : Rests true limit b
  vacant : b.live + 1 ≤ b.slots

theorem Vacant.still (h : Vacant limit b) : b.Still := h.rests.still

/-- The slot is given back. -/
theorem releaseActiveSlot_rests (h : Vacant limit b) :
    Ensures berths b releaseActiveSlot (fun _ => Rests true limit) := by
  have hvacant := h.vacant
  have hrefused := h.rests.1.refused
  have hrests : ∀ workerActive, Rests true limit
      { b with slots := b.slots - 1, refused := b.refused - 1, workerActive := workerActive } := by
    intro workerActive
    refine rests_accepting ⟨h.rests.1.keyed, h.rests.1.known, h.rests.1.leased, h.rests.1.distinct,
      h.rests.1.nodup, ?_, ?_⟩ h.rests.limit h.rests.accepting (h.rests.marked.congr rfl rfl rfl)
    · show b.live ≤ b.slots - 1
      omega
    · show b.refused - 1 = 0
      omega
  refine ensures_call_bind (h.still.requires id) fun _ _ => ?_
  exact ⟨(hrests b.workerActive).still.requires id, fun _ _ => hrests (b.workerActive - 1)⟩

/-- A slot, and a lease that no session has. -/
structure Admitted (limit lease : Nat) (b : Berths) : Prop extends Vacant limit b where
  issued : lease ∈ b.leases
  unowned : ∀ id s, b.sessions.lookup id = some s → s.admission ≠ some lease

/-- Both are given back. -/
theorem releaseAdmission_rests {lease : Nat} (h : Admitted limit lease b)
    (hlease : s.admission = some lease) :
    Ensures berths b (releaseAdmission s) (fun _ => Rests true limit) := by
  have hrest := h.rests.1
  have hvacant : Vacant limit { b with leases := b.leases.erase lease } := by
    refine ⟨rests_accepting ⟨hrest.keyed, hrest.known, fun id t ht => ?_, hrest.distinct,
      hrest.nodup.erase _, hrest.seated, hrest.refused⟩ h.rests.limit h.rests.accepting
      (h.rests.marked.congr rfl rfl rfl), h.vacant⟩
    obtain ⟨lease', hlease', hmem⟩ := hrest.leased id t ht
    refine ⟨lease', hlease', (List.mem_erase_of_ne ?_).mpr hmem⟩
    intro heq
    exact h.unowned id t ht (heq ▸ hlease')
  unfold releaseAdmission
  rw [hlease]
  exact ensures_call_bind (h.still.requires id) fun _ _ => releaseActiveSlot_rests hvacant

/-- A session that no backend counts is entered in the table. -/
theorem Berths.Marked.emplaced (h : b.Marked) (hnew : b.sessions.lookup s.id = none)
    (huncounted : s.backendCounted = false) :
    { b with sessions := b.sessions.insert s.id s }.Marked := by
  have hstranger : ¬ b.Relays s.id := by
    intro hrelays
    have hsome := h.live s.id hrelays
    rw [hnew] at hsome
    exact absurd hsome (by decide)
  refine ⟨h.shut, fun id t ht => ?_, fun id hrelays => ?_⟩
  · rcases lookup_insert_cases ht with ⟨rfl, rfl⟩ | ⟨_, ht⟩
    · rw [huncounted]
      exact ⟨fun hcounted => absurd hcounted Bool.false_ne_true,
        fun hrelays => absurd hrelays hstranger⟩
    · exact h.counted id t ht
  · show ((b.sessions.insert s.id s).lookup id).isSome
    have hother : id ≠ s.id := fun heq => hstranger (heq ▸ hrelays)
    rw [AList.lookup_insert_ne hother]
    exact h.live id hrelays

/-- The slot is taken by a session. -/
theorem Admitted.emplaced {lease : Nat} (h : Admitted limit lease b) (hlease : s.admission = some lease)
    (hnew : b.sessions.lookup s.id = none) (hknown : s.id < b.nextId)
    (huncounted : s.backendCounted = false) :
    Rests true limit { b with sessions := b.sessions.insert s.id s } := by
  have hrest := h.rests.1
  have hvacant := h.vacant
  refine rests_accepting ⟨?_, ?_, ?_, ?_, hrest.nodup, ?_, hrest.refused⟩ h.rests.limit
    h.rests.accepting (h.rests.marked.emplaced hnew huncounted)
  · intro id t ht
    rcases lookup_insert_cases ht with ⟨rfl, rfl⟩ | ⟨_, ht⟩
    · rfl
    · exact hrest.keyed id t ht
  · intro id t ht
    rcases lookup_insert_cases ht with ⟨rfl, rfl⟩ | ⟨_, ht⟩
    · exact hknown
    · exact hrest.known id t ht
  · intro id t ht
    rcases lookup_insert_cases ht with ⟨rfl, rfl⟩ | ⟨_, ht⟩
    · exact ⟨lease, hlease, h.issued⟩
    · exact hrest.leased id t ht
  · intro id id' t u ht hu hsame
    rcases lookup_insert_cases ht with ⟨hid, hnew⟩ | ⟨_, hold⟩
    · rcases lookup_insert_cases hu with ⟨hid', _⟩ | ⟨_, hold'⟩
      · exact hid.trans hid'.symm
      · rw [hnew, hlease] at hsame
        exact absurd hsame.symm (h.unowned id' u hold')
    · rcases lookup_insert_cases hu with ⟨_, hnew'⟩ | ⟨_, hold'⟩
      · rw [hnew', hlease] at hsame
        exact absurd hsame (h.unowned id t hold)
      · exact hrest.distinct id id' t u hold hold' hsame
  · have hlive : tally (fun _ _ => 1) (b.sessions.insert s.id s) = 1 + b.live := by
      rw [tally_insert, tally_erase_of_lookup_none hnew]
      rfl
    show tally (fun _ _ => 1) (b.sessions.insert s.id s) ≤ b.slots
    omega

/-- **The slot and the lease get their session.** -/
theorem registerSession_rests {lease : Nat} (h : Admitted limit lease b)
    (hlease : s.admission = some lease) (hnew : b.sessions.lookup s.id = none)
    (hknown : s.id < b.nextId) (huncounted : s.backendCounted = false) :
    Ensures berths b (registerSession s) (fun _ => Rests true limit) := by
  have hfirst : Local firstHandshake := driveTlsHandshake_local.bind fun _ => updateInterests_local
  refine ensures_plain trivial h.still fun added _ => ?_
  cases added with
  | false =>
      apply Ensures.bind (releaseAdmission_rests h hlease)
      intro _ b' h'
      exact ensures_plain_last trivial h'.still fun _ => h'
  | true =>
      refine ensures_call_bind (h.still.requires id) fun inserted hinserted => ?_
      have hinserted : inserted = (b.sessions.lookup s.id).isNone := hinserted
      rw [hnew] at hinserted
      subst hinserted
      have hrests := h.emplaced hlease hnew hknown huncounted
      have hs : (b.sessions.insert s.id s).lookup s.id = some s := AList.lookup_insert _
      show Ensures berths { b with sessions := b.sessions.insert s.id s } _ _
      apply Ensures.bind (onSession_rests scheduleTimeout_forwards.carries.isLocal hrests hs)
      intro _ b₁ h₁
      refine ensures_call_bind (h₁.still.requires id) fun _ _ => ?_
      have h₂ : Rests true limit { b₁ with accepted := b₁.accepted + 1 } :=
        rests_accepting ⟨h₁.rest.keyed, h₁.rest.known, h₁.rest.leased, h₁.rest.distinct,
          h₁.rest.nodup, h₁.rest.seated, h₁.rest.refused⟩ h₁.limit h₁.accepting
          (h₁.marked.congr rfl rfl rfl)
      show Ensures berths { b₁ with accepted := b₁.accepted + 1 } _ _
      refine ensures_plain trivial h₂.still fun found hfound => ?_
      have hfound : found = b₁.sessions.lookup s.id := hfound
      cases found with
      | none => exact h₂
      | some stored =>
          dsimp only
          split
          · exact reaction_rests hfirst h₂ hfound.symm
          · exact h₂

-- The deadline is a variable: the kernel would count nanoseconds otherwise.

/-- A deadline is outside the mark. -/
theorem mark_plain (s : Session) (deadline : Nat) :
    ({ s with deadline := deadline } : Session).mark = s.mark := rfl

/-- So is all that a TLS session starts with. -/
theorem mark_tls (s : Session) (start deadline : Nat) :
    ({ s with
      ssl := true, stage := .tlsHandshake, tlsHandshakeStartedAt := start
      deadline := deadline } : Session).mark = s.mark := rfl

/-- Starting without TLS keeps the mark. -/
theorem plain_mark (s : Session) : s.plain.mark = s.mark := mark_plain s _

/-- Starting with TLS keeps the mark. -/
theorem tls_mark (s : Session) : s.tls.mark = s.mark := mark_tls s _ _

/-- A session that differs from another only in what it is not known by. -/
theorem registerSession_rests_of_mark {s' : Session} {lease : Nat} (h : Admitted limit lease b)
    (hmark : s'.mark = s.mark) (hlease : s.admission = some lease)
    (hnew : b.sessions.lookup s.id = none) (hknown : s.id < b.nextId)
    (huncounted : s.backendCounted = false) :
    Ensures berths b (registerSession s') (fun _ => Rests true limit) := by
  have hid : s'.id = s.id := congrArg (fun mark => mark.1.1) hmark
  have hadmission : s'.admission = s.admission := congrArg (fun mark => mark.1.2) hmark
  have hcounted : s'.backendCounted = s.backendCounted := congrArg Prod.snd hmark
  exact registerSession_rests h (hadmission.trans hlease) (hid ▸ hnew) (hid ▸ hknown)
    (hcounted.trans huncounted)

/-- A session is registered, or its slot and its lease are given back. -/
theorem openSession_rests {lease : Nat} (listener : Nat) (tlsEnabled : Bool)
    (h : Admitted limit lease b) (hlease : s.admission = some lease)
    (hnew : b.sessions.lookup s.id = none) (hknown : s.id < b.nextId)
    (huncounted : s.backendCounted = false) :
    Ensures berths b (openSession listener tlsEnabled s) (fun _ => Rests true limit) := by
  cases tlsEnabled with
  | false => exact registerSession_rests_of_mark h (plain_mark s) hlease hnew hknown huncounted
  | true =>
      refine ensures_plain trivial h.still fun _ _ => ?_
      have hstream : Ensures berths b (createStream listener s.client) (fun _ b' => b' = b) := by
        refine ensures_plain trivial h.still fun context _ => ?_
        cases context with
        | false => rfl
        | true => exact ensures_plain_last trivial h.still fun _ => rfl
      apply Ensures.bind hstream
      intro stream b' hb'
      subst hb'
      cases stream with
      | true => exact registerSession_rests_of_mark h (tls_mark s) hlease hnew hknown huncounted
      | false =>
          refine ensures_plain trivial h.still fun _ _ => ?_
          apply Ensures.bind (releaseAdmission_rests h hlease)
          intro _ b'' h''
          exact ensures_plain_last trivial h''.still fun _ => h''

/-- From the slot on: the limiter, the listener and the table. -/
theorem admitConnection_rests (listener : Nat) (tlsEnabled : Bool) (runtime : RuntimeSnapshot)
    (client : Nat) (peer : SockAddr) (h : Vacant limit b) :
    Ensures berths b (admitConnection listener tlsEnabled runtime client peer)
      (fun _ => Rests true limit) := by
  have hreject : Ensures berths b (do
      releaseActiveSlot
      request (.closeSocket client)) (fun _ => Rests true limit) := by
    apply Ensures.bind (releaseActiveSlot_rests h)
    intro _ b' h'
    exact ensures_plain_last trivial h'.still fun _ => h'
  refine ensures_plain trivial h.still fun address _ => ?_
  cases address with
  | none => exact hreject
  | some localAddress =>
      refine ensures_call_bind (h.still.requires id) fun admission hadmission => ?_
      obtain ⟨result, lease⟩ := admission
      obtain ⟨haccepted, hfresh⟩ := hadmission
      cases lease with
      | none =>
          have hrefused : result ≠ .accepted := fun hresult => nomatch haccepted.mp hresult
          refine ensures_plain trivial h.still fun _ _ => ?_
          dsimp only
          rw [if_pos hrefused]
          exact ensures_plain trivial h.still fun _ _ => hreject
      | some lease =>
          have hresult : result = .accepted := haccepted.mpr rfl
          have hfresh : lease ∉ b.leases := hfresh lease rfl
          have hrest := h.rests.1
          have hknown : b.sessions.lookup b.nextId = none := by
            cases hfound : b.sessions.lookup b.nextId with
            | none => rfl
            | some s => exact absurd (hrest.known _ s hfound) (Nat.lt_irrefl _)
          -- the lease is new, so no session has it
          have hadmitted : Admitted limit lease
              { b with leases := lease :: b.leases, nextId := b.nextId + 1 } := by
            refine ⟨⟨rests_accepting ⟨hrest.keyed, fun id s hs => ?_, fun id s hs => ?_,
              hrest.distinct, List.nodup_cons.mpr ⟨hfresh, hrest.nodup⟩, hrest.seated,
              hrest.refused⟩ h.rests.limit h.rests.accepting (h.rests.marked.congr rfl rfl rfl),
              h.vacant⟩, List.mem_cons_self,
              fun id s hs howned => ?_⟩
            · exact Nat.lt_succ_of_lt (hrest.known id s hs)
            · obtain ⟨lease', hlease', hmem⟩ := hrest.leased id s hs
              exact ⟨lease', hlease', List.mem_cons_of_mem _ hmem⟩
            · obtain ⟨lease', hlease', hmem⟩ := hrest.leased id s hs
              rw [howned, Option.some.injEq] at hlease'
              exact hfresh (hlease' ▸ hmem)
          have hwaiting : { b with leases := lease :: b.leases }.Still :=
            ⟨⟨⟨hadmitted.still.seated.slots, hadmitted.still.seated.leaving⟩, hadmitted.still.stays,
              .inl h.rests.accepting⟩, h.still.shut⟩
          show Ensures berths { b with leases := lease :: b.leases } _ _
          refine ensures_plain trivial hwaiting fun _ _ => ?_
          dsimp only
          rw [if_neg (not_not.mpr hresult)]
          refine ensures_call_bind (hwaiting.requires id) fun id hid => ?_
          have hid : id = b.nextId := hid
          subst hid
          show Ensures berths { b with leases := lease :: b.leases, nextId := b.nextId + 1 } _ _
          refine ensures_plain trivial hadmitted.still fun now _ => ?_
          exact openSession_rests listener tlsEnabled hadmitted rfl hknown (Nat.lt_succ_self _) rfl

/-- **One connection**: a slot is taken, and is given back or has its session. -/
theorem acceptConnection_rests (listener : Nat) (tlsEnabled : Bool) (runtime : RuntimeSnapshot)
    (client : Nat) (peer : SockAddr) (h : Rests true runtime.limits.maxConnections b) :
    Ensures berths b (acceptConnection listener tlsEnabled runtime client peer)
      (fun _ => Rests true runtime.limits.maxConnections) := by
  have hrest := h.rest
  have hrefused := hrest.refused
  have hseated := hrest.seated
  have hleaving := hrest.leaving
  refine ensures_call_bind (h.still.requires id) fun prior _ => ?_
  by_cases hfull : prior ≥ runtime.limits.maxConnections
  · -- above the limit, and back at once
    have hafter : berths.after b .activeIncrement prior =
        { b with slots := b.slots + 1, refused := b.refused + 1 } := by
      show { b with slots := b.slots + 1,
                    refused := if b.limit ≤ prior then b.refused + 1 else b.refused } = _
      rw [h.limit, if_pos hfull]
    rw [hafter, if_pos hfull]
    refine ensures_call_bind ⟨⟨?_, ?_⟩, .inl trivial, .inl h.still.shut⟩ fun _ _ => ?_
    · show b.live + (b.refused + 1) ≤ b.slots + 1 + b.leaving
      omega
    · exact hleaving.trans_le (Nat.zero_le 1)
    · exact ensures_plain trivial h.still fun _ _ => ensures_plain_last trivial h.still fun _ => h
  · have hafter : berths.after b .activeIncrement prior = { b with slots := b.slots + 1 } := by
      show { b with slots := b.slots + 1,
                    refused := if b.limit ≤ prior then b.refused + 1 else b.refused } = _
      rw [h.limit, if_neg hfull]
    have hvacant : ∀ workerActive, Vacant runtime.limits.maxConnections
        { b with slots := b.slots + 1, workerActive := workerActive } := fun _ =>
      ⟨rests_accepting ⟨hrest.keyed, hrest.known, hrest.leased, hrest.distinct, hrest.nodup,
        hseated.trans (Nat.le_succ _), hrest.refused⟩ h.limit h.accepting
        (h.marked.congr rfl rfl rfl), Nat.succ_le_succ hseated⟩
    rw [hafter, if_neg hfull]
    exact ensures_call_bind ((hvacant b.workerActive).still.requires id) fun _ _ =>
      admitConnection_rests listener tlsEnabled runtime client peer (hvacant (b.workerActive + 1))

/-- **A whole event of a listener.** -/
theorem acceptReady_rests (listener : Nat) (tlsEnabled : Bool) (h : Rests true limit b) :
    Ensures berths b (acceptReady listener tlsEnabled) (fun _ b' => b'.AtRest ∧ b'.Marked) := by
  have hrounds : ∀ runtime attempts b, Rests true runtime.limits.maxConnections b →
      Ensures berths b (acceptRounds listener tlsEnabled runtime attempts)
        (fun _ => Rests true runtime.limits.maxConnections) := by
    intro runtime attempts
    induction attempts with
    | zero => exact fun _ h => h
    | succ attempts ih =>
        intro b h
        refine ensures_plain trivial h.still fun answer _ => ?_
        cases answer with
        | interrupted => exact ih b h
        | noResources => exact h
        | nothing => exact h
        | accepted client peer =>
            exact Ensures.bind (acceptConnection_rests listener tlsEnabled runtime client peer h)
              fun _ b' h' => ih b' h'
  refine ensures_call_bind (h.still.requires id) fun runtime _ => ?_
  have hloaded : Rests true runtime.limits.maxConnections
      { b with limit := runtime.limits.maxConnections } :=
    rests_accepting ⟨h.rest.keyed, h.rest.known, h.rest.leased, h.rest.distinct, h.rest.nodup,
      h.rest.seated, h.rest.refused⟩ rfl h.accepting (h.marked.congr rfl rfl rfl)
  exact (hrounds runtime _ _ hloaded).mono fun _ _ hend => ⟨hend.rest, hend.marked⟩

/-! ## Turns -/

/-- The turn accepts connections. -/
def Turn.accepts : Turn → Bool
  | .accept _ _ => true
  | _ => false

/-- **At every call of a turn the sessions are seated**, and the worker is at rest in the end. -/
theorem turn_rests (json : Glaze) (turn : Turn) (h : Rests turn.accepts limit b) :
    Ensures berths b (turn.prog json) (fun _ b' => b'.AtRest ∧ b'.Marked) := by
  cases turn with
  | socket id event _ =>
      exact (dispatchEvent_rests json id event h).mono fun _ _ hend => ⟨hend.rest, hend.marked⟩
  | accept listener tlsEnabled => exact acceptReady_rests listener tlsEnabled h
  | expire now => exact (expireTimeouts_rests now h).mono fun _ _ hend => ⟨hend.rest, hend.marked⟩
  | shutdown rounds => exact (closeAll_rests rounds h).mono fun _ _ hend => ⟨hend.rest, hend.marked⟩

end PoolLb
