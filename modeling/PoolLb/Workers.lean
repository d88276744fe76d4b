import PoolLb.Berths
import PoolLb.Interleaving

/-!
# All workers together

The workers of the process run their turns side by side.  They share the ledger of queued
bytes, the number of active connections, the leases of the rate limiter and the connections of
each backend; every call of a worker is one atomic step, and the calls of different workers
come in any order.  A reload may publish another `max_connections` at any moment.

A worker that has finished its turn is in a state of `WorkerRun`, whatever the others have done
in between.  What the shared counters show is at every moment what the workers have put there.
-/

namespace PoolLb

open Interaction Handler Tally Interleaving

/-! ## The shared memory -/

/-- What the workers share. -/
structure Shared where
  /-- `Stats::queued_bytes`. -/
  queued : Nat := 0
  /-- `Stats::active_connections`. -/
  active : Nat := 0
  /-- The leases of the rate limiter that are out. -/
  leases : List Nat := []
  /-- `BackendState::active_connections`. -/
  backends : Nat → Nat := fun _ => 0
  /-- The largest `max_connections` published so far. -/
  largest : Nat := 0

namespace Shared

/-- The answers that the shared memory gives.  A worker may load a configuration that has been
replaced since. -/
def allows (m : Shared) : (c : ReactorCall) → c.Answer → Prop
  | .loadQueuedBytes, queued => queued = m.queued
  | .activeIncrement, prior => prior = m.active
  | .acquireLease _ _, admission => ∀ lease, admission.lease = some lease → lease ∉ m.leases
  | .loadRuntime, runtime => runtime.limits.maxConnections ≤ m.largest
  | _, _ => True

/-- What a call does to the shared memory. -/
def after (m : Shared) : (c : ReactorCall) → c.Answer → Shared
  | .reserveQueuedBytes use, true => { m with queued := m.queued + use.bytes.length }
  | .releaseQueuedBytes count, _ => { m with queued := m.queued - count }
  | .activeIncrement, _ => { m with active := m.active + 1 }
  | .activeDecrement, _ => { m with active := m.active - 1 }
  | .acquireLease _ _, ⟨_, some lease⟩ => { m with leases := lease :: m.leases }
  | .releaseLease (some lease), _ => { m with leases := m.leases.erase lease }
  | .backendEnter ref _ _, _ =>
      { m with backends := Function.update m.backends ref (m.backends ref + 1) }
  | .backendLeave ref _, _ =>
      { m with backends := Function.update m.backends ref (m.backends ref - 1) }
  | _, _ => m

end Shared

/-- The shared counters. -/
inductive Counter where
  | queued
  | active
  | lease (number : Nat)
  | backend (ref : Nat)

/-- What a counter shows. -/
def Shared.value (m : Shared) : Counter → Nat
  | .queued => m.queued
  | .active => m.active
  | .lease number => m.leases.count number
  | .backend ref => m.backends ref

/-- What a worker has put there. -/
def Outside.part (w : Outside) : Counter → Nat
  | .queued => w.held
  | .active => w.slots
  | .lease number => w.leases.count number
  | .backend ref => w.entered.countP fun entry => entry.1 = ref

variable {json : Glaze} {m : Shared} {w : Outside}

/-- The entry of a session that leaves a backend. -/
theorem countP_erase_backend {entered : List (Nat × Nat)} {ref session : Nat}
    (h : (ref, session) ∈ entered) (other : Nat) :
    (entered.erase (ref, session)).countP (fun entry => entry.1 = other) +
      (if ref = other then 1 else 0) =
      entered.countP (fun entry => entry.1 = other) := by
  have hperm := List.perm_cons_erase h
  rw [hperm.countP_eq (fun entry => decide (entry.1 = other)), List.countP_cons]
  simp only [decide_eq_true_eq]

section Balance

variable {c : ReactorCall}

/-- A call changes `queued_bytes` by what it changes what the worker holds. -/
theorem queued_balanced (r : c.Answer) (hc : w.requires c) (hheld : w.held ≤ m.queued) :
    (m.after c r).queued + w.held = m.queued + (w.update c r).held := by
  cases c with
  | reserveQueuedBytes use =>
      cases r with
      | false => rfl
      | true =>
          show m.queued + _ + w.held = m.queued + (w.held + _)
          omega
  | releaseQueuedBytes count =>
      have hc : count ≤ w.held := hc
      show m.queued - count + w.held = m.queued + (w.held - count)
      omega
  | acquireLease key limits => obtain ⟨result, _ | lease⟩ := r <;> rfl
  | releaseLease lease => cases lease <;> rfl
  | emplaceSession s => cases r <;> rfl
  | _ => rfl

/-- It changes the number of active connections by what it changes the worker's slots. -/
theorem active_balanced (r : c.Answer) (hc : w.requires c) (hslots : w.slots ≤ m.active) :
    (m.after c r).active + w.slots = m.active + (w.update c r).slots := by
  cases c with
  | activeIncrement =>
      show m.active + 1 + w.slots = m.active + (w.slots + 1)
      omega
  | activeDecrement =>
      have hc : 0 < w.slots := hc
      show m.active - 1 + w.slots = m.active + (w.slots - 1)
      omega
  | reserveQueuedBytes use => cases r <;> rfl
  | acquireLease key limits => obtain ⟨result, _ | lease⟩ := r <;> rfl
  | releaseLease lease => cases lease <;> rfl
  | emplaceSession s => cases r <;> rfl
  | _ => rfl

/-- It changes the leases that are out by what it changes those of the worker. -/
theorem lease_balanced (r : c.Answer) (hc : w.requires c) (number : Nat)
    (hle : w.leases.count number ≤ m.leases.count number) :
    (m.after c r).leases.count number + w.leases.count number =
      m.leases.count number + (w.update c r).leases.count number := by
  cases c with
  | acquireLease key limits =>
      obtain ⟨result, lease⟩ := r
      cases lease with
      | none => rfl
      | some lease =>
          show (lease :: m.leases).count number + w.leases.count number =
            m.leases.count number + (lease :: w.leases).count number
          rw [List.count_cons, List.count_cons]
          omega
  | releaseLease lease =>
      obtain ⟨given, rfl, hmem⟩ := hc
      have hown := List.count_pos_iff.mpr hmem
      show (m.leases.erase given).count number + w.leases.count number =
        m.leases.count number + (w.leases.erase given).count number
      rw [List.count_erase, List.count_erase]
      by_cases hsame : given = number
      · subst hsame
        simp only [beq_self_eq_true, if_true]
        omega
      · have hne : (given == number) = false := beq_eq_false_iff_ne.mpr hsame
        rw [hne]
        rfl
  | reserveQueuedBytes use => cases r <;> rfl
  | emplaceSession s => cases r <;> rfl
  | _ => rfl

/-- The entries of a worker at a backend. -/
def Outside.enteredAt (w : Outside) (ref : Nat) : Nat := w.entered.countP fun entry => entry.1 = ref

/-- It changes the connections of a backend by what it changes the entries of the worker. -/
theorem backend_balanced (r : c.Answer) (hc : w.requires c) (ref : Nat)
    (hle : w.enteredAt ref ≤ m.backends ref) :
    (m.after c r).backends ref + w.enteredAt ref = m.backends ref + (w.update c r).enteredAt ref := by
  unfold Outside.enteredAt at hle ⊢
  cases c with
  | backendEnter backend session socket =>
      show Function.update m.backends backend (m.backends backend + 1) ref +
          w.entered.countP (fun entry => entry.1 = ref) =
        m.backends ref + ((backend, session) :: w.entered).countP (fun entry => entry.1 = ref)
      rw [List.countP_cons]
      by_cases hsame : ref = backend
      · subst hsame
        rw [Function.update_self]
        simp only [decide_true, if_true]
        omega
      · have hne : backend ≠ ref := fun heq => hsame heq.symm
        rw [Function.update_of_ne hsame]
        simp only [hne, decide_false]
        rfl
  | backendLeave backend session =>
      have herase := countP_erase_backend (show (backend, session) ∈ w.entered from hc) ref
      show Function.update m.backends backend (m.backends backend - 1) ref +
          w.entered.countP (fun entry => entry.1 = ref) =
        m.backends ref + (w.entered.erase (backend, session)).countP (fun entry => entry.1 = ref)
      by_cases hsame : ref = backend
      · subst hsame
        rw [Function.update_self]
        simp only [if_true] at herase
        omega
      · have hne : backend ≠ ref := fun heq => hsame heq.symm
        rw [if_neg hne] at herase
        rw [Function.update_of_ne hsame]
        omega
  | reserveQueuedBytes use => cases r <;> rfl
  | acquireLease key limits => obtain ⟨result, _ | lease⟩ := r <;> rfl
  | releaseLease lease => cases lease <;> rfl
  | emplaceSession s => cases r <;> rfl
  | _ => rfl

/-- **A call changes a shared counter by what it changes the worker's part.** -/
theorem call_balanced (r : c.Answer) (hc : w.requires c)
    (hpart : ∀ counter, w.part counter ≤ m.value counter) (counter : Counter) :
    (m.after c r).value counter + w.part counter =
      m.value counter + ((w.after c r).part counter) := by
  have hle := hpart counter
  cases counter with
  | queued => exact queued_balanced r hc hle
  | active => exact active_balanced r hc hle
  | lease number => exact lease_balanced r hc number hle
  | backend ref => exact backend_balanced r hc ref hle

end Balance

/-! ## Workers -/

/-- Where a worker stands: what it has still to do in its turn, and its own data. -/
structure Place where
  code : Prog reactorCalls Unit := .ret ()
  outside : Outside
  /-- `max_connections` of the configuration loaded last. -/
  limit : Nat := 0
  /-- Slots taken above that. -/
  refused : Nat := 0
  /-- The turn is one of `accept_ready`. -/
  accepting : Bool := false
  /-- The backend and the id of every session whose stage `Relay` has been written. -/
  reached : List (Nat × Nat) := []
  /-- Where the worker stands between such a stage and the count of the backend. -/
  window : Window := .shut

namespace Place

/-- The slots, leases and sessions of the worker. -/
def berths (p : Place) : Berths where
  slots := p.outside.slots
  leases := p.outside.leases
  sessions := p.outside.sessions
  nextId := p.outside.nextId
  limit := p.limit
  refused := p.refused
  workerActive := p.outside.workerActive
  accepted := p.outside.accepted
  closed := p.outside.closed
  accepting := p.accepting
  reached := p.reached
  window := p.window

/-- A call has been answered. -/
def answered (p : Place) (c : ReactorCall) (r : c.Answer) (rest : Prog reactorCalls Unit) : Place where
  code := rest
  outside := p.outside.after c r
  limit := (p.berths.after c r).limit
  refused := (p.berths.after c r).refused
  accepting := p.accepting
  reached := (p.berths.after c r).reached
  window := (p.berths.after c r).window

/-- A turn begins. -/
def begun (p : Place) (json : Glaze) (turn : Turn) : Place :=
  { p with code := turn.prog json, accepting := turn.accepts }

/-- The worker waits for events. -/
def Idle (p : Place) : Prop := p.code = .ret ()

/-- The worker is parting with a session: its lease is back, and it is still in the table. -/
def Parting (p : Place) : Prop := ∃ c k, p.code = .ask c k ∧ c.Parting

/-- The worker neither accepts connections nor parts with a session. -/
def Steady (p : Place) : Prop := p.Idle ∨ p.accepting = false ∧ ¬ p.Parting

end Place

/-- One atomic step of a worker, or of a reload. -/
inductive WorkerStep (json : Glaze) : Shared → Place → Shared → Place → Prop where
  | call {m : Shared} {p : Place} (c : ReactorCall) (k : c.Answer → Prog reactorCalls Unit)
      (r : c.Answer) (hcode : p.code = .ask c k) (hown : p.outside.allows c r)
      (hshared : m.allows c r) : WorkerStep json m p (m.after c r) (p.answered c r (k r))
  | begin {m : Shared} {p : Place} (turn : Turn) (hidle : p.Idle) :
      WorkerStep json m p m (p.begun json turn)
  | wait {m : Shared} {p : Place} (now : Nat) (hidle : p.Idle) (hnow : p.outside.clock ≤ now) :
      WorkerStep json m p m { p with outside := { p.outside with clock := now } }
  | publish {m : Shared} {p : Place} (maxConnections : Nat) :
      WorkerStep json m p { m with largest := max m.largest maxConnections } p

/-- The workers of the process, before their first turns. -/
def Workers.start {T : Type} (maxConnections : Nat) (clock : T → Nat) : System T Shared Place where
  memory := { largest := maxConnections }
  threads t := { outside := Outside.empty (clock t) }

/-- What the workers can come to. -/
def Workers.Reachable {T : Type} [DecidableEq T] (json : Glaze) (sys : System T Shared Place) : Prop :=
  ∃ maxConnections clock, Reaches (WorkerStep json) (Workers.start maxConnections clock) sys

/-! ## The relays of a worker -/

/-- The entry that a window has put on one side only. -/
def Window.pending : Window → List (Nat × Nat)
  | .shut => []
  | .entering backend session => [(backend, session)]
  | .leaving backend session => [(backend, session)]

/-- The sessions that have become relays are those entered at a backend, but for the one in the
window.  Each of them is live and has become a relay once. -/
structure Place.Tied (p : Place) : Prop where
  entered : p.reached.Perm (p.window.pending ++ p.outside.entered)
  once : (p.reached.map Prod.snd).Nodup
  live : ∀ id ∈ p.reached.map Prod.snd, (p.outside.sessions.lookup id).isSome

section Tied

variable {p : Place} {rest : Prog reactorCalls Unit}

/-- The stage of a session is written. -/
theorem Place.Tied.written {session backend : Nat} {counted : Bool} (h : p.Tied)
    (hc : p.outside.requires (.writeRelayStage session (some backend) counted))
    (hpasses : p.berths.Passes (.writeRelayStage session (some backend) counted)) :
    (p.answered (.writeRelayStage session (some backend) counted) () rest).Tied := by
  obtain ⟨hshut, hlive, hmember⟩ := hpasses
  have hc : counted = false := hc
  subst hc
  have hnew : session ∉ p.reached.map Prod.snd :=
    fun hmem => absurd (hmember.mpr hmem) Bool.false_ne_true
  have hentered := h.entered
  have hshut : p.window = .shut := hshut
  rw [hshut] at hentered
  refine ⟨hentered.cons _, List.nodup_cons.mpr ⟨hnew, h.once⟩, fun id hid => ?_⟩
  rcases List.mem_cons.mp hid with rfl | hold
  · exact hlive
  · exact h.live id hold

/-- The backend counts it. -/
theorem Place.Tied.counted {backend session : Nat} {socket : Option Nat} (h : p.Tied)
    (hpasses : p.berths.Passes (.backendEnter backend session socket)) :
    (p.answered (.backendEnter backend session socket) () rest).Tied := by
  have hentering : p.window = .entering backend session := hpasses
  have hentered := h.entered
  rw [hentering] at hentered
  exact ⟨hentered, h.once, h.live⟩

/-- The backend counts it no more. -/
theorem Place.Tied.left {backend session : Nat} (h : p.Tied)
    (hc : p.outside.requires (.backendLeave backend session))
    (hpasses : p.berths.Passes (.backendLeave backend session)) :
    (p.answered (.backendLeave backend session) () rest).Tied := by
  have hshut : p.window = .shut := hpasses
  have hentered := h.entered
  rw [hshut] at hentered
  exact ⟨hentered.trans (List.perm_cons_erase hc), h.once, h.live⟩

/-- The session is off the table. -/
theorem Place.Tied.erased {id : Nat} (h : p.Tied) (hc : p.outside.requires (.eraseSession id))
    (hpasses : p.berths.Passes (.eraseSession id)) :
    (p.answered (.eraseSession id) () rest).Tied := by
  have hc : ∀ backend, (backend, id) ∉ p.outside.entered := hc
  have hothers : p.outside.entered.filter (fun entry => entry.2 ≠ id) = p.outside.entered := by
    refine List.filter_eq_self.mpr fun entry hmem => decide_eq_true ?_
    intro hsame
    exact hc entry.1 (hsame ▸ hmem)
  have hpending : p.window.pending.filter (fun entry => entry.2 ≠ id) = [] := by
    have hpasses : p.window = .shut ∨ ∃ backend, p.window = .leaving backend id := hpasses
    rcases hpasses with hshut | ⟨backend, hleaving⟩
    · rw [hshut]
      rfl
    · rw [hleaving]
      simp [Window.pending]
  refine ⟨?_, ?_, fun other hother => ?_⟩
  · have hkept := h.entered.filter fun entry => entry.2 ≠ id
    rw [List.filter_append, hpending, hothers] at hkept
    exact hkept
  · exact h.once.sublist (List.filter_sublist.map Prod.snd)
  · obtain ⟨entry, hmem, rfl⟩ := List.mem_map.mp hother
    obtain ⟨hold, hne⟩ := List.mem_filter.mp hmem
    show ((p.outside.sessions.erase id).lookup entry.2).isSome
    rw [AList.lookup_erase_ne (of_decide_eq_true hne)]
    exact h.live entry.2 (List.mem_map.mpr ⟨entry, hold, rfl⟩)

/-- A record enters the table. -/
theorem Place.Tied.inserted {p' : Place} {s : Session} (h : p.Tied) (hreached : p'.reached = p.reached)
    (hwindow : p'.window = p.window) (hentered : p'.outside.entered = p.outside.entered)
    (hsessions : p'.outside.sessions = p.outside.sessions.insert s.id s) : p'.Tied := by
  refine ⟨?_, ?_, fun id hid => ?_⟩
  · rw [hreached, hwindow, hentered]
    exact h.entered
  · rw [hreached]
    exact h.once
  · rw [hreached] at hid
    rw [hsessions]
    by_cases hsame : id = s.id
    · rw [hsame, AList.lookup_insert]
      rfl
    · rw [AList.lookup_insert_ne hsame]
      exact h.live id hid

/-- **Every call keeps the relays of a worker tied to its entries.** -/
theorem Place.Tied.answered {c : ReactorCall} (r : c.Answer) (h : p.Tied) (hc : p.outside.requires c)
    (hpasses : p.berths.Passes c) : (p.answered c r rest).Tied := by
  cases c with
  | writeRelayStage session backend counted =>
      cases backend with
      | none => exact ⟨h.entered, h.once, h.live⟩
      | some backend => exact h.written hc hpasses
  | backendEnter backend session socket => exact h.counted hpasses
  | backendLeave backend session => exact h.left hc hpasses
  | eraseSession id => exact h.erased hc hpasses
  | storeSession s => exact h.inserted (s := s) rfl rfl rfl rfl
  | emplaceSession s =>
      cases r with
      | false => exact ⟨h.entered, h.once, h.live⟩
      | true => exact h.inserted (s := s) rfl rfl rfl rfl
  | reserveQueuedBytes use =>
      cases r with
      | _ => exact ⟨h.entered, h.once, h.live⟩
  | acquireLease key limits =>
      obtain ⟨result, lease⟩ := r
      cases lease with
      | _ => exact ⟨h.entered, h.once, h.live⟩
  | releaseLease lease =>
      cases lease with
      | _ => exact ⟨h.entered, h.once, h.live⟩
  | _ => exact ⟨h.entered, h.once, h.live⟩

end Tied

/-! ## One worker among others -/

/-- What holds of each worker, wherever it stands in its turn. -/
structure Place.Sound (json : Glaze) (p : Place) : Prop where
  /-- The demands of the books will be met, and the turn ends in a state of the worker's run. -/
  course : Ensures PoolLb.outside p.outside p.code (fun _ => WorkerRun json)
  /-- The sessions will be seated all along. -/
  seated : Ensures PoolLb.berths p.berths p.code (fun _ b => b.AtRest ∧ b.Marked)
  tied : p.Tied

variable {p : Place}

/-- An answer that the worker's own data allow is allowed in its berths. -/
theorem Place.berths_allows {c : ReactorCall} {r : c.Answer} (h : p.outside.allows c r) :
    PoolLb.berths.allows p.berths c r := by
  cases c with
  | acquireLease key limits => exact h
  | nextSessionId => exact h
  | findSession id => exact h
  | emplaceSession s => exact h
  | anySession =>
      cases r with
      | none => trivial
      | some id => exact h
  | _ => trivial

/-- The berths of a worker follow its calls. -/
theorem Place.berths_answered {c : ReactorCall} (r : c.Answer) (rest : Prog reactorCalls Unit) :
    (p.answered c r rest).berths = PoolLb.berths.after p.berths c r := by
  cases c with
  | acquireLease key limits => obtain ⟨result, _ | lease⟩ := r <;> rfl
  | releaseLease lease => cases lease <;> rfl
  | emplaceSession s => cases r <;> rfl
  | reserveQueuedBytes use => cases r <;> rfl
  | writeRelayStage session backend counted => cases backend <;> rfl
  | _ => rfl

/-- The worker finished its turn in a state of its run. -/
theorem Place.Sound.idle (h : p.Sound json) (hidle : p.Idle) :
    WorkerRun json p.outside ∧ p.berths.AtRest ∧ p.berths.Marked := by
  have hcourse := h.course
  have hseated := h.seated
  rw [hidle] at hcourse hseated
  exact ⟨hcourse, hseated⟩

/-- In order, a worker has a slot for each session. -/
theorem Outside.Booked.slots_eq (h : w.Booked) : w.slots = w.live := h.balanced .slot

/-- And counts each of them. -/
theorem Outside.Booked.workerActive_eq (h : w.Booked) : w.workerActive = w.live :=
  h.balanced .workerSlot

/-- Books in order are settled. -/
theorem Place.settled (h : p.outside.Booked) : p.berths.Settled :=
  ⟨h.slots_eq, h.workerActive_eq, h.flow⟩

/-- A turn may begin where the one before has ended. -/
theorem Place.sound_begun (turn : Turn) (h : p.Sound json) (hidle : p.Idle) :
    (p.begun json turn).Sound json := by
  obtain ⟨hrun, hrest, hmarked⟩ := h.idle hidle
  refine ⟨?_, ?_, ⟨h.tied.entered, h.tied.once, h.tied.live⟩⟩
  · exact (Ensures.and_runs ((turn.does hrun.booked : Ensures PoolLb.outside _ (turn.prog json)
      (fun _ w' => Deeds json ⟨_, [], 0⟩ ⟨w', [], turn.moment 0⟩)))).mono
        fun _ _ hend => .turn hrun turn hend.2
  · have hsettled : (p.begun json turn).berths.Settled := Place.settled hrun.booked
    have hrests : Rests turn.accepts p.limit (p.begun json turn).berths :=
      ⟨⟨hrest.keyed, hrest.known, hrest.leased, hrest.distinct, hrest.nodup, hrest.seated,
        hrest.refused⟩, rfl, rfl, .inr hsettled, hmarked.congr rfl rfl rfl⟩
    exact turn_rests json turn hrests

/-- **A worker stays sound whatever allowed answer it gets.** -/
theorem Place.Sound.sound_answered {c : ReactorCall} {k : c.Answer → Prog reactorCalls Unit}
    {r : c.Answer}
    (h : p.Sound json) (hcode : p.code = .ask c k) (hr : p.outside.allows c r) :
    (p.answered c r (k r)).Sound json := by
  have hcourse := h.course
  have hseated := h.seated
  rw [hcode] at hcourse hseated
  refine ⟨hcourse.2 r hr, ?_, h.tied.answered r hcourse.1 hseated.1.2.2⟩
  rw [Place.berths_answered]
  exact hseated.2 r (Place.berths_allows hr)

/-- It may wait, and its clock goes on. -/
theorem Place.sound_wait {now : Nat} (h : p.Sound json) (hidle : p.Idle)
    (hnow : p.outside.clock ≤ now) :
    Place.Sound json { p with outside := { p.outside with clock := now } } := by
  obtain ⟨hrun, hrest, hmarked⟩ := h.idle hidle
  have hidle : ({ p with outside := { p.outside with clock := now } } : Place).code = .ret () := hidle
  refine ⟨?_, ?_, ⟨h.tied.entered, h.tied.once, h.tied.live⟩⟩
  · rw [hidle]
    exact .wait hrun now hnow
  · rw [hidle]
    exact ⟨hrest, hmarked⟩

theorem Place.sound_start (json : Glaze) (now : Nat) :
    Place.Sound json { outside := Outside.empty now } := by
  have hnone := Outside.lookup_empty now
  refine ⟨WorkerRun.start now, ⟨?_, ?_⟩, .nil, List.nodup_nil,
    fun id hid => absurd hid List.not_mem_nil⟩
  · exact ⟨fun id s hs => absurd hs (hnone id s), fun id s hs => absurd hs (hnone id s),
      fun id s hs => absurd hs (hnone id s), fun id _ s _ hs => absurd hs (hnone id s),
      List.nodup_nil, le_rfl, rfl⟩
  · exact ⟨rfl, fun id s hs => absurd hs (hnone id s), fun id hid => absurd hid List.not_mem_nil⟩

/-! ## All of them -/

variable {T : Type} [Fintype T] {sys sys' : System T Shared Place}

/-- What holds of the workers together, at every moment. -/
structure Workers.Accounted (json : Glaze) (sys : System T Shared Place) : Prop where
  sound : ∀ t, (sys.threads t).Sound json
  balanced : ∀ counter, sys.memory.value counter = sys.total fun p => p.outside.part counter
  nodup : sys.memory.leases.Nodup
  limits : ∀ t, (sys.threads t).limit ≤ sys.memory.largest
  seats : (sys.total fun p => p.outside.slots - p.refused) ≤ sys.memory.largest

/-- A shared counter shows at least what one worker has put there. -/
theorem Workers.Accounted.part_le (h : Accounted json sys) (t : T) (counter : Counter) :
    (sys.threads t).outside.part counter ≤ sys.memory.value counter := by
  rw [h.balanced counter]
  exact Finset.single_le_sum (f := fun t => (sys.threads t).outside.part counter)
    (fun _ _ => Nat.zero_le _) (Finset.mem_univ t)

theorem Workers.accounted_start (json : Glaze) (maxConnections : Nat) (clock : T → Nat) :
    Accounted json (Workers.start maxConnections clock) := by
  have hzero : ∀ weight : Place → Nat, (∀ now, weight { outside := Outside.empty now } = 0) →
      (Workers.start maxConnections clock).total weight = 0 :=
    fun weight hweight => Finset.sum_eq_zero fun t _ => hweight (clock t)
  refine ⟨fun t => Place.sound_start json (clock t), fun counter => ?_, List.nodup_nil,
    fun _ => Nat.zero_le _, ?_⟩
  · rw [hzero _ fun now => by cases counter with | _ => rfl]
    cases counter <;> rfl
  · rw [hzero _ fun _ => rfl]
    exact Nat.zero_le _

/-- Nobody hands out a lease that is out. -/
theorem Shared.nodup_after {c : ReactorCall} {r : c.Answer} (h : m.leases.Nodup) (hr : m.allows c r) :
    (m.after c r).leases.Nodup := by
  cases c with
  | reserveQueuedBytes use => cases r <;> exact h
  | acquireLease key limits =>
      obtain ⟨result, lease⟩ := r
      cases lease with
      | none => exact h
      | some lease => exact List.nodup_cons.mpr ⟨hr lease rfl, h⟩
  | releaseLease lease =>
      cases lease with
      | none => exact h
      | some lease => exact h.erase lease
  | _ => exact h

/-- A call publishes no configuration. -/
theorem Shared.largest_after (m : Shared) (c : ReactorCall) (r : c.Answer) :
    (m.after c r).largest = m.largest := by
  cases c with
  | reserveQueuedBytes use => cases r <;> rfl
  | acquireLease key limits => obtain ⟨result, _ | lease⟩ := r <;> rfl
  | releaseLease lease => cases lease <;> rfl
  | _ => rfl

/-- A worker takes a configuration as it was published. -/
theorem Place.limit_answered {c : ReactorCall} {r : c.Answer} (rest : Prog reactorCalls Unit)
    (h : p.limit ≤ m.largest) (hr : m.allows c r) : (p.answered c r rest).limit ≤ m.largest := by
  cases c with
  | loadRuntime => exact hr
  | writeRelayStage session backend counted => cases backend <;> exact h
  | acquireLease key limits => obtain ⟨result, _ | lease⟩ := r <;> exact h
  | releaseLease lease => cases lease <;> exact h
  | emplaceSession s => cases r <;> exact h
  | _ => exact h

/-- The slots of a worker that were not refused grow only by a slot below the limit. -/
theorem Place.seats_answered {c : ReactorCall} {r : c.Answer} (rest : Prog reactorCalls Unit)
    (h : p.limit ≤ m.largest) (hr : m.allows c r) :
    (p.answered c r rest).outside.slots - (p.answered c r rest).refused ≤
        p.outside.slots - p.refused ∨
      (p.answered c r rest).outside.slots - (p.answered c r rest).refused ≤
        p.outside.slots - p.refused + 1 ∧ m.active < m.largest := by
  cases c with
  | activeIncrement =>
      have hr : r = m.active := hr
      subst hr
      have hrefused : (p.answered .activeIncrement m.active rest).refused =
          if p.limit ≤ m.active then p.refused + 1 else p.refused := rfl
      have hslots : (p.answered .activeIncrement m.active rest).outside.slots = p.outside.slots + 1 :=
        rfl
      rw [hrefused, hslots]
      by_cases hfull : p.limit ≤ m.active
      · rw [if_pos hfull]
        exact .inl (by omega)
      · rw [if_neg hfull]
        exact .inr ⟨by omega, by omega⟩
  | activeDecrement =>
      left
      show p.outside.slots - 1 - (p.refused - 1) ≤ p.outside.slots - p.refused
      omega
  | writeRelayStage session backend counted =>
      cases backend with
      | _ => exact .inl le_rfl
  | reserveQueuedBytes use =>
      cases r with
      | _ => exact .inl le_rfl
  | acquireLease key limits =>
      obtain ⟨result, lease⟩ := r
      cases lease with
      | _ => exact .inl le_rfl
  | releaseLease lease =>
      cases lease with
      | _ => exact .inl le_rfl
  | emplaceSession s =>
      cases r with
      | _ => exact .inl le_rfl
  | _ => exact .inl le_rfl

variable [DecidableEq T]

/-- A step that leaves the worker's part and its seats as they are. -/
theorem Workers.Accounted.unmoved {place : Place} {t : T} (h : Accounted json sys)
    (hsound : place.Sound json) (hpart : ∀ counter, place.outside.part counter =
      (sys.threads t).outside.part counter) (hlimit : place.limit = (sys.threads t).limit)
    (hrefused : place.refused = (sys.threads t).refused) :
    Accounted json ⟨sys.memory, Function.update sys.threads t place⟩ := by
  refine ⟨forall_update hsound h.sound, fun counter => ?_, h.nodup,
    forall_update (P := fun p : Place => p.limit ≤ sys.memory.largest) ?_ h.limits, ?_⟩
  · have htotal := total_update sys sys.memory t place fun p => p.outside.part counter
    have hbalanced := h.balanced counter
    have hsame := hpart counter
    show sys.memory.value counter = _
    omega
  · rw [hlimit]
    exact h.limits t
  · have htotal := total_update sys sys.memory t place fun p => p.outside.slots - p.refused
    have hslots : place.outside.slots = (sys.threads t).outside.slots := hpart .active
    have hseats := h.seats
    rw [hrefused, hslots] at htotal
    show _ ≤ sys.memory.largest
    omega

/-- **Every step of every worker keeps the accounts.** -/
theorem Workers.Accounted.step (h : Accounted json sys) (hstep : Step (WorkerStep json) sys sys') :
    Accounted json sys' := by
  obtain ⟨t, hact⟩ := hstep
  have hsound := h.sound t
  cases hact with
  | call c k r hcode hown hshared =>
      have hcourse := hsound.course
      rw [hcode] at hcourse
      have hbalanced := call_balanced r hcourse.1 (h.part_le t)
      refine ⟨forall_update (hsound.sound_answered hcode hown) h.sound, fun counter => ?_,
        Shared.nodup_after h.nodup hshared, ?_, ?_⟩
      · have htotal := total_update sys (sys.memory.after c r) t
          ((sys.threads t).answered c r (k r)) fun p => p.outside.part counter
        have hold := h.balanced counter
        have hnew := hbalanced counter
        have hpart : ((sys.threads t).answered c r (k r)).outside.part counter =
            ((sys.threads t).outside.after c r).part counter := rfl
        show (sys.memory.after c r).value counter = _
        omega
      · rw [Shared.largest_after]
        exact forall_update (P := fun p : Place => p.limit ≤ sys.memory.largest)
          (Place.limit_answered (k r) (h.limits t) hshared) h.limits
      · have htotal := total_update sys (sys.memory.after c r) t
          ((sys.threads t).answered c r (k r)) fun p => p.outside.slots - p.refused
        have hseats := h.seats
        have hactive : sys.memory.active = sys.total fun p => p.outside.slots := h.balanced .active
        have hfewer : (sys.total fun p => p.outside.slots - p.refused) ≤
            sys.total fun p => p.outside.slots :=
          Finset.sum_le_sum fun _ _ => Nat.sub_le _ _
        rw [Shared.largest_after]
        rcases Place.seats_answered (k r) (h.limits t) hshared with hsame | ⟨hone, hfree⟩
        · omega
        · omega
  | begin turn hidle =>
      exact h.unmoved (Place.sound_begun turn hsound hidle) (fun _ => rfl) rfl rfl
  | wait now hidle hnow =>
      refine h.unmoved (Place.sound_wait hsound hidle hnow) (fun counter => ?_) rfl rfl
      cases counter <;> rfl
  | publish maxConnections =>
      have hsame : Function.update sys.threads t (sys.threads t) = sys.threads :=
        Function.update_eq_self t sys.threads
      have hlarger : sys.memory.largest ≤ max sys.memory.largest maxConnections := le_max_left _ _
      rw [hsame]
      refine ⟨h.sound, fun counter => ?_, h.nodup, fun u => (h.limits u).trans hlarger,
        h.seats.trans hlarger⟩
      have hbalanced := h.balanced counter
      cases counter with
      | _ => exact hbalanced

/-- **The accounts hold in every interleaving.** -/
theorem Workers.Reachable.accounted (h : Reachable json sys) : Accounted json sys := by
  obtain ⟨maxConnections, clock, hreach⟩ := h
  exact hreach.invariant (fun _ _ hstep hold => hold.step hstep)
    (accounted_start json maxConnections clock)

/-! ## Workers in a scenario -/

/-- The turn is over. -/
def Place.finished (p : Place) : Bool :=
  match p.code with
  | .ret _ => true
  | .ask _ _ => false

/-- A worker whose turn is over waits for events. -/
theorem Place.idle_of_finished (h : p.finished = true) : p.Idle := by
  unfold Place.finished at h
  unfold Place.Idle
  cases hcode : p.code with
  | ret _ => rfl
  | ask c k =>
      rw [hcode] at h
      exact absurd h Bool.false_ne_true

namespace Scenario

/-- What a worker of the scenario is answered, where the others have a say as well.  A client is
at the door of each worker that has no session. -/
def reply (scenario : Scenario) (m : Shared) (w : Outside) : (c : ReactorCall) → c.Answer
  | .loadQueuedBytes => m.queued
  | .activeIncrement => m.active
  | .acquireLease _ _ =>
      { result := .accepted, lease := some (freshLease (w.leases ++ m.leases)) }
  | .accept _ => if w.sessions.keys = [] then scenario.accept else .nothing
  | c => scenario.answer w c

/-- So many calls of a worker, or as many as its turn has left. -/
def advance (scenario : Scenario) : Nat → Shared × Place → Shared × Place
  | 0, x => x
  | calls + 1, (m, p) =>
      match p.code with
      | .ret _ => (m, p)
      | .ask c k =>
          let r := scenario.reply m p.outside c
          scenario.advance calls (m.after c r, p.answered c r (k r))

variable {scenario : Scenario} {m : Shared} {p : Place}

/-- The answers fit the worker's own data. -/
theorem reply_own (scenario : Scenario) (m : Shared) (w : Outside) (c : ReactorCall) :
    w.allows c (scenario.reply m w c) := by
  have hplain := scenario.answer_allowed w c
  cases c with
  | acquireLease key limits =>
      refine ⟨⟨fun _ => rfl, fun _ => rfl⟩, fun lease hlease hmem => ?_⟩
      have heq : freshLease (w.leases ++ m.leases) = lease := Option.some.inj hlease
      exact absurd (lt_freshLease (List.mem_append_left m.leases hmem)) (by omega)
  | loadQueuedBytes => trivial
  | activeIncrement => trivial
  | accept listener => trivial
  | _ => exact hplain

/-- They fit the shared memory. -/
theorem reply_shared (h : scenario.runtime.limits.maxConnections ≤ m.largest) (w : Outside)
    (c : ReactorCall) : m.allows c (scenario.reply m w c) := by
  cases c with
  | loadQueuedBytes => rfl
  | activeIncrement => rfl
  | loadRuntime => exact h
  | acquireLease key limits =>
      intro lease hlease hmem
      have heq : freshLease (w.leases ++ m.leases) = lease := Option.some.inj hlease
      exact absurd (lt_freshLease (List.mem_append_right w.leases hmem)) (by omega)
  | _ => trivial

/-- The calls of a worker are steps of the workers. -/
theorem reaches_advance (json : Glaze) {T : Type} [DecidableEq T] (t : T) (calls : Nat)
    {start sys : System T Shared Place} (hreach : Reaches (WorkerStep json) start sys)
    (h : scenario.runtime.limits.maxConnections ≤ sys.memory.largest) :
    Reaches (WorkerStep json) start
      ⟨(scenario.advance calls (sys.memory, sys.threads t)).1,
        Function.update sys.threads t (scenario.advance calls (sys.memory, sys.threads t)).2⟩ ∧
      (scenario.advance calls (sys.memory, sys.threads t)).1.largest = sys.memory.largest := by
  induction calls generalizing sys with
  | zero =>
      refine ⟨?_, rfl⟩
      show Reaches _ start ⟨sys.memory, Function.update sys.threads t (sys.threads t)⟩
      rw [Function.update_eq_self]
      exact hreach
  | succ calls ih =>
      rw [advance]
      cases hcode : (sys.threads t).code with
      | ret _ =>
          refine ⟨?_, rfl⟩
          show Reaches _ start ⟨sys.memory, Function.update sys.threads t (sys.threads t)⟩
          rw [Function.update_eq_self]
          exact hreach
      | ask c k =>
          have hstep : Step (WorkerStep json) sys _ :=
            .act t (.call c k _ hcode (reply_own scenario sys.memory _ c) (reply_shared h _ c))
          have hnext := ih (hreach.tail hstep) (h.trans (Shared.largest_after _ _ _).ge)
          dsimp only at hnext
          rw [Function.update_self, Function.update_idem, Shared.largest_after] at hnext
          exact hnext

/-- A worker begins a turn and makes so many calls. -/
def turnOf {T : Type} [DecidableEq T] (scenario : Scenario) (json : Glaze) (t : T) (turn : Turn)
    (calls : Nat) (sys : System T Shared Place) : System T Shared Place :=
  let end_ := scenario.advance calls (sys.memory, (sys.threads t).begun json turn)
  ⟨end_.1, Function.update sys.threads t end_.2⟩

/-- **A turn, call by call, while the others wait.** -/
theorem reaches_turnOf {json : Glaze} {T : Type} [DecidableEq T] {start sys : System T Shared Place}
    (scenario : Scenario) (t : T) (turn : Turn) (calls : Nat)
    (hreach : Reaches (WorkerStep json) start sys) (hidle : (sys.threads t).Idle)
    (h : scenario.runtime.limits.maxConnections ≤ sys.memory.largest) :
    Reaches (WorkerStep json) start (scenario.turnOf json t turn calls sys) := by
  have hbegun := hreach.tail (.act t (.begin turn hidle))
  have hend := (reaches_advance json t calls hbegun h).1
  dsimp only at hend
  rw [Function.update_self, Function.update_idem] at hend
  exact hend

/-- Two workers of a process that takes one connection. -/
def office : System Bool Shared Place := Workers.start 1 fun _ => 0

/-- An event on the socket of the client of the first session. -/
def clientTurn (events : EventMask) : Turn :=
  .socket 1 (.client events) fun _ h => SessionEvent.noConfusion h

/-- A client has come to the first worker and has sent its subscription. -/
def subscribed : System Bool Shared Place :=
  caller.turnOf subscribeJson false (clientTurn { readable := true }) 300
    (caller.turnOf subscribeJson false (.accept 0 false) 100 office)

/-- The first worker parts with its session while the second accepts one. -/
def crowded : System Bool Shared Place :=
  doorstep.turnOf subscribeJson true (.accept 0 false) 100
    (doorstep.turnOf subscribeJson false (clientTurn { error := true }) 8
      (doorstep.turnOf subscribeJson false (.accept 0 false) 100 office))

/-- One turn to accept, and one to hear the client. -/
theorem subscribed_reachable : Workers.Reachable subscribeJson subscribed := by
  refine ⟨1, fun _ => 0, ?_⟩
  exact reaches_turnOf caller false _ _ (reaches_turnOf caller false _ _ .refl rfl (by decide +kernel))
    (Place.idle_of_finished (by decide +kernel)) (by decide +kernel)

/-- The second worker accepts in the midst of a turn of the first. -/
theorem crowded_reachable : Workers.Reachable subscribeJson crowded := by
  refine ⟨1, fun _ => 0, ?_⟩
  have hfirst := reaches_turnOf doorstep false (.accept 0 false) 100
    (.refl : Reaches (WorkerStep subscribeJson) office office) rfl (by decide +kernel)
  have hsecond := reaches_turnOf doorstep false
    (clientTurn { error := true }) 8 hfirst
    (Place.idle_of_finished (by decide +kernel)) (by decide +kernel)
  exact reaches_turnOf doorstep true _ _ hsecond (Place.idle_of_finished (by decide +kernel))
    (by decide +kernel)

end Scenario

/-! ## The ledger of queued bytes -/

/-- The bytes in the queues of a worker's sessions. -/
def Outside.queuedBytes (w : Outside) : Nat := tally (fun _ s => s.queuedBytes) w.sessions

/-- **The ledger is shared out among the queues.**  At every moment `queued_bytes` is what the
workers hold, and a worker between two event handlers holds the queues of its sessions; no
release takes more than its worker holds, so the counter never underflows. -/
theorem queued_bytes_are_shared_out (h : Workers.Reachable json sys) :
    (∀ t, (sys.threads t).Idle → (sys.threads t).outside.held = (sys.threads t).outside.queuedBytes) ∧
    sys.memory.queued = sys.total (fun p => p.outside.held) ∧
    ((∀ t, (sys.threads t).Idle) → sys.memory.queued = sys.total fun p => p.outside.queuedBytes) ∧
    (∀ t count k, (sys.threads t).code = .ask (.releaseQueuedBytes count) k →
      count ≤ (sys.threads t).outside.held ∧ count ≤ sys.memory.queued) ∧
    ((∀ t, (sys.threads t).Idle ∧ (sys.threads t).outside.sessions = ∅) → sys.memory.queued = 0) := by
  have hall := h.accounted
  have hheld : ∀ t, (sys.threads t).Idle →
      (sys.threads t).outside.held = (sys.threads t).outside.queuedBytes :=
    fun t hidle => ((hall.sound t).idle hidle).1.booked.balanced .queued
  have htotal : sys.memory.queued = sys.total fun p => p.outside.held := hall.balanced .queued
  have hrest : (∀ t, (sys.threads t).Idle) →
      sys.memory.queued = sys.total fun p => p.outside.queuedBytes := by
    intro hidle
    rw [htotal]
    exact Finset.sum_congr rfl fun t _ => hheld t (hidle t)
  refine ⟨hheld, htotal, hrest, fun t count k hcode => ?_, fun hempty => ?_⟩
  · have hcourse := (hall.sound t).course
    rw [hcode] at hcourse
    have hown : count ≤ (sys.threads t).outside.held := hcourse.1
    exact ⟨hown, hown.trans (hall.part_le t .queued)⟩
  · rw [hrest fun t => (hempty t).1]
    refine Finset.sum_eq_zero fun t _ => ?_
    show tally _ (sys.threads t).outside.sessions = 0
    rw [(hempty t).2]
    rfl

/-- The ledger while a subscription waits for its pool. -/
theorem subscription_is_in_the_ledger :
    0 < Scenario.subscribed.memory.queued ∧
      Scenario.subscribed.memory.queued = Scenario.subscribed.total fun p => p.outside.held :=
  ⟨by decide +kernel, (queued_bytes_are_shared_out Scenario.subscribed_reachable).2.1⟩

end PoolLb
