import PoolLb.Workers

/-!
# Connections and their counters

What the counters of connections show while the workers run side by side: the number of active
connections and the counters of a worker against the sessions in the tables, the leases against
the sessions that own them, and the connections of a backend against the sessions that relay on
it.

A session is a relay from the moment its stage is written, and its backend counts it a call
later; `close_session` takes it off the backend some calls before it is off the table.  A worker
in one of these two windows accounts for exactly one session, and no other worker for any: that
is `backend_counts`.
-/

namespace PoolLb

open Interaction Handler Tally Interleaving

variable {json : Glaze} {w : Outside} {p : Place}

/-! ## The relays of a worker between two turns -/

/-- Every relay is counted at its backend. -/
def Session.RelayCounted (s : Session) : Prop := s.stage = .relay → s.backendCounted = true

/-- A relay is counted at its backend, move by move. -/
theorem Move.relayCounted {c c' : Config} (h : Move json c c') (hc : c.session.RelayCounted) :
    c'.session.RelayCounted := by
  cases h with
  | inert s h =>
      rw [h]
      exact hc
  | openConnect selection hphase =>
      intro hrelay
      have hrelay : SessionStage.upstreamConnect = .relay := hrelay
      exact absurd hrelay (by decide)
  | finish => exact fun _ => rfl
  | greet hstage =>
      intro hrelay
      have hrelay : SessionStage.firstMessage = .relay := hrelay
      exact absurd hrelay (by decide)
  | _ => exact hc

/-- So is every relay between two turns. -/
theorem WorkerRun.relayCounted (h : WorkerRun json w) : w.Each Session.RelayCounted := by
  refine h.sessions_moving (fun s hs hrelay => ?_) fun _ _ hmove => hmove.relayCounted
  exact absurd (.inr hrelay) hs.blank.not_backed

/-- The session has reached `Relay` on this backend. -/
def Session.RelaysOn (s : Session) (ref : Nat) : Prop :=
  s.stage = .relay ∧ s.backend.map Backend.ref = some ref

instance (s : Session) (ref : Nat) : Decidable (s.RelaysOn ref) :=
  inferInstanceAs (Decidable (_ ∧ _))

/-- How many sessions relay on a backend. -/
def Outside.relaysOn (w : Outside) (ref : Nat) : Nat :=
  tally (fun _ s => if s.RelaysOn ref then 1 else 0) w.sessions

/-- The entry of a session at its backend. -/
def Session.entry (s : Session) : Option (Nat × Nat) :=
  if s.backendCounted then s.backend.map fun backend => (backend.ref, s.id) else none

/-- A session is entered where it is counted. -/
theorem Session.entry_countedAt (s : Session) (ref session : Nat) :
    s.entry.any (fun entry => entry == (ref, session)) = true ↔ s.CountedAt ref session := by
  unfold Session.entry Session.CountedAt
  cases s.backendCounted with
  | false => simp
  | true =>
      cases s.backend with
      | none => simp
      | some backend => simp [and_comm]

/-- Between two turns that is where it relays. -/
theorem Session.entry_relaysOn {s : Session} (hrelay : s.RelayCounted) (hcounted : s.CountedInRelay)
    (ref : Nat) : s.entry.any (fun entry => decide (entry.1 = ref)) = true ↔ s.RelaysOn ref := by
  unfold Session.entry Session.RelaysOn
  cases hflag : s.backendCounted with
  | false =>
      have hstage : s.stage ≠ .relay := fun heq => Bool.false_ne_true (hflag.symm.trans (hrelay heq))
      simp [hstage]
  | true =>
      have hstage := hcounted hflag
      cases s.backend with
      | none => simp
      | some backend => simp [hstage]

/-- The connections of a backend are the sessions that relay on it. -/
theorem WorkerRun.entered_eq (h : WorkerRun json w) (ref : Nat) :
    w.part (.backend ref) = w.relaysOn ref := by
  have hbooked := h.booked
  have hperm : w.entered.Perm (collect (fun _ s => s.entry) w.sessions) := by
    apply List.perm_iff_count.mpr
    intro entry
    have hbalanced := hbooked.balanced (.backend entry.1 entry.2)
    have hcount : (collect (fun _ s => s.entry) w.sessions).count entry =
        tally (fun _ s => if s.entry.any (fun other => other == entry) then 1 else 0) w.sessions :=
      countP_collect _ _ _
    rw [hcount]
    refine Eq.trans hbalanced (tally_congr fun id s _ => ?_)
    exact if_congr (s.entry_countedAt entry.1 entry.2).symm rfl rfl
  show w.entered.countP (fun entry => entry.1 = ref) = _
  rw [hperm.countP_eq, countP_collect]
  refine tally_congr fun id s hs => ?_
  exact if_congr (s.entry_relaysOn (h.relayCounted id s hs)
    (hbooked.proper id s hs).counted ref) rfl rfl

/-! ## The relays of a worker at any moment -/

/-- How many live sessions have become relays on a backend. -/
def Place.relaysOn (p : Place) (ref : Nat) : Nat :=
  tally (fun id _ => if (ref, id) ∈ p.reached then 1 else 0) p.outside.sessions

/-- How many sessions on a backend the window of a worker accounts for. -/
def Window.pendingOn (window : Window) (ref : Nat) : Nat :=
  window.pending.countP fun entry => entry.1 = ref

/-- Entries of different sessions, all of them in the table, are as many as their sessions. -/
theorem tally_entries {reached : List (Nat × Nat)} {sessions : Table Nat Session}
    (honce : (reached.map Prod.snd).Nodup)
    (hlive : ∀ id ∈ reached.map Prod.snd, (sessions.lookup id).isSome) (ref : Nat) :
    tally (fun id _ => if (ref, id) ∈ reached then 1 else 0) sessions =
      reached.countP fun entry => entry.1 = ref := by
  induction reached with
  | nil => exact tally_eq_zero fun _ _ _ => if_neg List.not_mem_nil
  | cons entry reached ih =>
      obtain ⟨backend, id⟩ := entry
      obtain ⟨hnew, honce⟩ := List.nodup_cons.mp honce
      obtain ⟨hown, hlive⟩ := List.forall_mem_cons.mp hlive
      have hnew : ∀ backend, (backend, id) ∉ reached :=
        fun backend hmem => hnew (List.mem_map.mpr ⟨(backend, id), hmem, rfl⟩)
      obtain ⟨s, hs⟩ : ∃ s, sessions.lookup id = some s := Option.isSome_iff_exists.mp hown
      have hrest := ih honce hlive
      -- the new entry is the only one of its session
      have hbefore : (if (ref, id) ∈ reached then 1 else 0) = 0 := if_neg (hnew ref)
      have hafter : (if (ref, id) ∈ (backend, id) :: reached then 1 else 0) =
          if backend = ref then 1 else 0 := by
        refine if_congr ?_ rfl rfl
        rw [List.mem_cons, Prod.mk.injEq]
        constructor
        · intro hmem
          rcases hmem with ⟨hsame, _⟩ | hmem
          · exact hsame.symm
          · exact absurd hmem (hnew ref)
        · exact fun hsame => .inl ⟨hsame.symm, rfl⟩
      have hothers : tally (fun other _ => if (ref, other) ∈ (backend, id) :: reached then 1 else 0)
          (sessions.erase id) =
            tally (fun other _ => if (ref, other) ∈ reached then 1 else 0) (sessions.erase id) := by
        apply tally_congr
        intro other t ht
        have hother : other ≠ id := by
          intro heq
          rw [heq, AList.lookup_erase] at ht
          exact absurd ht (by simp)
        refine if_congr ?_ rfl rfl
        rw [List.mem_cons, Prod.mk.injEq]
        exact or_iff_right fun hsame => hother hsame.2
      rw [tally_of_lookup hs] at hrest ⊢
      rw [List.countP_cons, hafter, hothers]
      simp only [decide_eq_true_eq]
      omega

/-- **The relays of a worker are its entries and the session in its window.** -/
theorem Place.Tied.relaysOn_eq (h : p.Tied) (ref : Nat) :
    p.relaysOn ref = p.window.pendingOn ref + p.outside.part (.backend ref) := by
  unfold Place.relaysOn
  rw [tally_entries h.once h.live, h.entered.countP_eq, List.countP_append]
  rfl

/-- Between two turns the relays are the sessions in that stage. -/
theorem Place.Sound.relaysOn_idle (h : p.Sound json) (hidle : p.Idle) :
    p.window = .shut ∧ ∀ ref, p.relaysOn ref = p.outside.relaysOn ref := by
  obtain ⟨hrun, _, hmarked⟩ := h.idle hidle
  have hshut : p.window = .shut := hmarked.shut
  refine ⟨hshut, fun ref => ?_⟩
  rw [h.tied.relaysOn_eq ref, hshut, ← hrun.entered_eq ref]
  exact Nat.zero_add _

/-- The calls of `finish_upstream_connect` from the stage to the count. -/
def ReactorCall.BeforeCount (backend id : Nat) : ReactorCall → Prop
  | .scheduleTimer session _ _ => session = id
  | .backendEnter ref session _ => ref = backend ∧ session = id
  | _ => False

/-- The calls of `close_session` from the count to the table. -/
def ReactorCall.BeforeErase (id : Nat) : ReactorCall → Prop
  | .cancelTimer _ | .releaseQueuedBytes _ | .releaseLease _ | .activeDecrement
  | .workerActiveDecrement | .closedIncrement => True
  | .eraseSession session => session = id
  | _ => False

/-- A worker with a window open is at a call that passes it. -/
theorem Place.Sound.passes (h : p.Sound json) (hopen : p.window ≠ .shut) :
    ∃ c k, p.code = .ask c k ∧ p.berths.Passes c := by
  cases hcode : p.code with
  | ret _ => exact absurd (h.relaysOn_idle hcode).1 hopen
  | ask c k =>
      have hseated := h.seated
      rw [hcode] at hseated
      exact ⟨c, k, rfl, hseated.1.2.2⟩

/-- A worker in its first window is about to count the session. -/
theorem Place.Sound.entering {backend id : Nat} (h : p.Sound json)
    (hwindow : p.window = .entering backend id) :
    ∃ c k, p.code = .ask c k ∧ c.BeforeCount backend id := by
  obtain ⟨c, k, hcode, hpasses⟩ := h.passes (by simp [hwindow])
  have hopen : p.berths.window = .entering backend id := hwindow
  refine ⟨c, k, hcode, ?_⟩
  cases c with
  | scheduleTimer session generation deadline =>
      simp only [Berths.Passes, hopen, reduceCtorEq, false_or, Window.entering.injEq] at hpasses
      obtain ⟨_, _, hid⟩ := hpasses
      exact hid.symm
  | backendEnter ref session socket =>
      simp only [Berths.Passes, hopen, Window.entering.injEq] at hpasses
      exact ⟨hpasses.1.symm, hpasses.2.symm⟩
  | _ => simp [Berths.Passes, hopen] at hpasses

/-- A worker in its second window gives back what the session holds. -/
theorem Place.Sound.leaving {backend id : Nat} (h : p.Sound json)
    (hwindow : p.window = .leaving backend id) :
    ∃ c k, p.code = .ask c k ∧ c.BeforeErase id := by
  obtain ⟨c, k, hcode, hpasses⟩ := h.passes (by simp [hwindow])
  have hopen : p.berths.window = .leaving backend id := hwindow
  refine ⟨c, k, hcode, ?_⟩
  cases c with
  | eraseSession session =>
      simp only [Berths.Passes, hopen, reduceCtorEq, false_or, Window.leaving.injEq] at hpasses
      obtain ⟨_, _, hid⟩ := hpasses
      exact hid.symm
  | cancelTimer | releaseQueuedBytes | releaseLease | activeDecrement | workerActiveDecrement
  | closedIncrement => trivial
  | _ => simp [Berths.Passes, hopen] at hpasses

/-! ## Slots and leases -/

/-- A worker in a steady place has its sessions counted. -/
theorem Place.Sound.steady (h : p.Sound json) (hsteady : p.Steady) :
    p.berths.AtRest ∧ p.berths.Settled := by
  rcases hsteady with hidle | ⟨haccepting, hparting⟩
  · obtain ⟨hrun, hrest, _⟩ := h.idle hidle
    exact ⟨hrest, Place.settled hrun.booked⟩
  · cases hcode : p.code with
    | ret _ =>
        obtain ⟨hrun, hrest, _⟩ := h.idle hcode
        exact ⟨hrest, Place.settled hrun.booked⟩
    | ask c k =>
        have hseated := h.seated
        rw [hcode] at hseated
        rcases hseated.1.2.1 with hc | ⟨_, haccepts | hsettled⟩
        · exact absurd ⟨c, k, hcode, hc⟩ hparting
        · exact absurd (haccepting.symm.trans haccepts) (by decide)
        · exact hsettled

/-- Wherever a worker stands, its sessions are seated. -/
theorem Place.Sound.isSeated (h : p.Sound json) : p.berths.Seated := by
  cases hcode : p.code with
  | ret _ => exact (h.idle hcode).2.1.isSeated
  | ask c k =>
      have hseated := h.seated
      rw [hcode] at hseated
      exact hseated.1.1

/-- How many sessions of a worker have given their lease back. -/
def Outside.leaving (w : Outside) : Nat := leavingOf w.leases w.sessions

/-- **Only a worker that parts with a session has one that is leaving.** -/
theorem Place.Sound.stays (h : p.Sound json) (hparting : ¬ p.Parting) : p.outside.leaving = 0 := by
  cases hcode : p.code with
  | ret _ => exact (h.idle hcode).2.1.leaving
  | ask c k =>
      have hseated := h.seated
      rw [hcode] at hseated
      rcases hseated.1.2.1 with hc | ⟨hstays, _⟩
      · exact absurd ⟨c, k, hcode, hc⟩ hparting
      · exact hstays

/-! ## All workers -/

variable {T : Type} [Fintype T] {sys : System T Shared Place}

/-- **The sessions are as many as the limit allows**, but for those that are leaving. -/
theorem Workers.Accounted.live_le (h : Accounted json sys) :
    (sys.total fun p => p.outside.live) ≤
      sys.memory.largest + sys.total fun p => p.outside.leaving := by
  have hseats := h.seats
  have hsum : (sys.total fun p => p.outside.live) ≤
      sys.total fun p => (p.outside.slots - p.refused) + p.outside.leaving := by
    apply Finset.sum_le_sum
    intro t _
    have hseated : (sys.threads t).outside.live + (sys.threads t).refused ≤
        (sys.threads t).outside.slots + (sys.threads t).outside.leaving := (h.sound t).isSeated.slots
    show (sys.threads t).outside.live ≤
      (sys.threads t).outside.slots - (sys.threads t).refused + (sys.threads t).outside.leaving
    omega
  have hsplit : (sys.total fun p => (p.outside.slots - p.refused) + p.outside.leaving) =
      (sys.total fun p => p.outside.slots - p.refused) + sys.total fun p => p.outside.leaving :=
    Finset.sum_add_distrib
  omega

/-- A lease is out once, at one worker. -/
theorem Workers.Accounted.lease_once (h : Accounted json sys) {t : T} {lease : Nat}
    (ht : lease ∈ (sys.threads t).outside.leases) : sys.memory.leases.count lease = 1 := by
  have hone : 0 < (sys.threads t).outside.leases.count lease := List.count_pos_iff.mpr ht
  have hpart : (sys.threads t).outside.leases.count lease ≤ sys.memory.leases.count lease :=
    h.part_le t (.lease lease)
  exact List.count_eq_one_of_mem h.nodup (List.count_pos_iff.mp (hone.trans_le hpart))

/-- **A lease belongs to one worker.** -/
theorem Workers.Accounted.lease_owner (h : Accounted json sys) {t u : T} {lease : Nat}
    (ht : lease ∈ (sys.threads t).outside.leases) (hu : lease ∈ (sys.threads u).outside.leases) :
    t = u := by
  classical
  by_contra hne
  have honce := h.lease_once ht
  have hbalanced : sys.memory.leases.count lease =
      sys.total fun p => p.outside.leases.count lease := h.balanced (.lease lease)
  have hpair : ∑ v ∈ {t, u}, (sys.threads v).outside.leases.count lease ≤
      sys.total fun p => p.outside.leases.count lease :=
    Finset.sum_le_sum_of_subset (Finset.subset_univ _)
  rw [Finset.sum_pair hne] at hpair
  have hone := List.count_pos_iff.mpr ht
  have hother := List.count_pos_iff.mpr hu
  omega

/-- **A backend counts its relays**, but for the one session of each worker in a window. -/
theorem Workers.Accounted.backend_counts (h : Accounted json sys) (ref : Nat) :
    sys.memory.backends ref + (sys.total fun p => p.window.pendingOn ref) =
      sys.total fun p => p.relaysOn ref := by
  have hbackend : sys.memory.backends ref = sys.total fun p => p.outside.part (.backend ref) :=
    h.balanced (.backend ref)
  have hsum : (sys.total fun p => p.relaysOn ref) =
      sys.total fun p => p.window.pendingOn ref + p.outside.part (.backend ref) :=
    Finset.sum_congr rfl fun t _ => (h.sound t).tied.relaysOn_eq ref
  have hsplit : (sys.total fun p => p.window.pendingOn ref + p.outside.part (.backend ref)) =
      (sys.total fun p => p.window.pendingOn ref) + sys.total fun p => p.outside.part (.backend ref) :=
    Finset.sum_add_distrib
  omega

variable [DecidableEq T]

/-- **Connections are accounted for in every interleaving.**  There are never more sessions
than the largest limit published so far, but for those whose lease `close_session` has given
back already: one at most to a worker that parts with a session, and none to any other.  When no
worker is accepting or parting with a session, the counters agree with the sessions, and every
session owns a lease of its own.  A backend counts the sessions that relay on it, all of them but
one for each worker that has just written the stage and not counted yet or has taken it off
the backend and not off the table; with the windows of all workers shut it counts them exactly.
A connection that does not become a session leaves no trace in any of these counters. -/
theorem connections_are_accounted_for (h : Workers.Reachable json sys) :
    (sys.total (fun p => p.outside.live) ≤
      sys.memory.largest + sys.total fun p => p.outside.leaving) ∧
    (∀ t, (sys.threads t).outside.leaving ≤ 1) ∧
    (∀ t, ¬ (sys.threads t).Parting → (sys.threads t).outside.leaving = 0) ∧
    (∀ t, (sys.threads t).Steady →
      (sys.threads t).outside.workerActive = (sys.threads t).outside.live ∧
      (sys.threads t).outside.accepted = (sys.threads t).outside.closed + (sys.threads t).outside.live ∧
      ∀ id s, (sys.threads t).outside.sessions.lookup id = some s →
        ∃ lease, s.admission = some lease ∧ sys.memory.leases.count lease = 1 ∧
          ∀ u id' s', (sys.threads u).Steady →
            (sys.threads u).outside.sessions.lookup id' = some s' → s'.admission = some lease →
            u = t ∧ id' = id) ∧
    ((∀ t, (sys.threads t).Steady) → sys.memory.active = sys.total fun p => p.outside.live) ∧
    (∀ ref, sys.memory.backends ref + (sys.total fun p => p.window.pendingOn ref) =
      sys.total fun p => p.relaysOn ref) ∧
    ((∀ t, (sys.threads t).window = .shut) →
      ∀ ref, sys.memory.backends ref = sys.total fun p => p.relaysOn ref) ∧
    (∀ t backend id, (sys.threads t).window = .entering backend id →
      ∃ c k, (sys.threads t).code = .ask c k ∧ c.BeforeCount backend id) ∧
    (∀ t backend id, (sys.threads t).window = .leaving backend id →
      ∃ c k, (sys.threads t).code = .ask c k ∧ c.BeforeErase id) ∧
    (∀ t, (sys.threads t).Idle → (sys.threads t).window = .shut ∧
      ∀ ref, (sys.threads t).relaysOn ref = (sys.threads t).outside.relaysOn ref) ∧
    (∀ (w w' : Outside) listener tlsEnabled runtime client peer, w.Booked →
      Runs outside w (acceptConnection listener tlsEnabled runtime client peer) () w' →
      w'.accepted = w.accepted → w.Idled w') := by
  have hall := h.accounted
  refine ⟨hall.live_le, fun t => (hall.sound t).isSeated.leaving, fun t => (hall.sound t).stays,
    fun t hsteady => ?_, fun hsteady => ?_, hall.backend_counts, fun hshut ref => ?_,
    fun t _ _ => (hall.sound t).entering, fun t _ _ => (hall.sound t).leaving,
    fun t => (hall.sound t).relaysOn_idle, ?_⟩
  · obtain ⟨hrest, hsettled⟩ := (hall.sound t).steady hsteady
    refine ⟨hsettled.workerActive, hsettled.flow, fun id s hs => ?_⟩
    obtain ⟨lease, hlease, hmem⟩ := hrest.leased id s hs
    refine ⟨lease, hlease, hall.lease_once hmem, fun u id' s' hsteady' hs' hlease' => ?_⟩
    obtain ⟨hrest', _⟩ := (hall.sound u).steady hsteady'
    obtain ⟨other, hother, hmem'⟩ := hrest'.leased id' s' hs'
    rw [hlease', Option.some.injEq] at hother
    subst hother
    have hu : u = t := hall.lease_owner hmem' hmem
    subst hu
    exact ⟨rfl, hrest.distinct id' id s' s hs' hs (hlease'.trans hlease.symm)⟩
  · have hactive : sys.memory.active = sys.total fun p => p.outside.slots := hall.balanced .active
    rw [hactive]
    exact Finset.sum_congr rfl fun t _ => ((hall.sound t).steady (hsteady t)).2.slots
  · have hcounts := hall.backend_counts ref
    have hpending : (sys.total fun p => p.window.pendingOn ref) = 0 := by
      refine Finset.sum_eq_zero fun t _ => ?_
      show (sys.threads t).window.pendingOn ref = 0
      rw [hshut t]
      rfl
    omega
  · intro w w' listener tlsEnabled runtime client peer hbooked hrun hnone
    have hattempt : Attempted json 0 w w' :=
      (acceptConnection_does json listener tlsEnabled runtime client peer hbooked).sound hrun
    rcases hattempt with hidle | ⟨hmore, _⟩
    · exact hidle
    · exact absurd hnone hmore.ne'

namespace Scenario

/-- A client that subscribes, and a pool that answers at once. -/
def boarder : Scenario := { caller with connect := some ⟨9, true⟩ }

/-- The first worker has made a relay of its session, and is about to count it. -/
def boarding : System Bool Shared Place :=
  boarder.turnOf subscribeJson false (clientTurn { readable := true }) 18
    (boarder.turnOf subscribeJson false (.accept 0 false) 100 office)

/-- One turn to accept, and another up to the call that enters the backend. -/
theorem boarding_reachable : Workers.Reachable subscribeJson boarding := by
  refine ⟨1, fun _ => 0, ?_⟩
  exact reaches_turnOf boarder false _ _
    (reaches_turnOf boarder false _ _ .refl rfl (by decide +kernel))
    (Place.idle_of_finished (by decide +kernel)) (by decide +kernel)

end Scenario

/-- The next call of the worker enters a session at a backend. -/
def Place.atBackendEnter (p : Place) : Bool :=
  match p.code with
  | .ask (.backendEnter _ _ _) _ => true
  | _ => false

/-- A worker about to enter a backend is not accepting. -/
theorem Place.steady_of_atBackendEnter (h : p.atBackendEnter = true)
    (haccepting : p.accepting = false) :
    p.Steady := by
  refine .inr ⟨haccepting, fun hparting => ?_⟩
  obtain ⟨c, k, hcode, hc⟩ := hparting
  unfold Place.atBackendEnter at h
  rw [hcode] at h
  cases c <;> first | exact hc.elim | exact absurd h Bool.false_ne_true

/-- `close_session` gives the slot of a session back before the session is off the table: in
between another worker may take it, and there is a session more than the limit allows.
`finish_upstream_connect` writes the stage of a session before it counts it: in between no worker
accepts or closes, and there is a relay more than the backend counts. -/
theorem sessions_exceed_the_limit :
    (Workers.Reachable subscribeJson Scenario.crowded ∧ Scenario.crowded.memory.largest = 1 ∧
      Scenario.crowded.total (fun p => p.outside.live) = 2) ∧
    (Workers.Reachable subscribeJson Scenario.boarding ∧
      (∀ t, (Scenario.boarding.threads t).Steady) ∧ Scenario.boarding.memory.backends 1 = 0 ∧
      Scenario.boarding.total (fun p => p.relaysOn 1) = 1) := by
  refine ⟨⟨Scenario.crowded_reachable, by decide +kernel, by decide +kernel⟩,
    ⟨Scenario.boarding_reachable, fun t => ?_, by decide +kernel, by decide +kernel⟩⟩
  cases t with
  | false => exact Place.steady_of_atBackendEnter (by decide +kernel) (by decide +kernel)
  | true => exact .inl (Place.idle_of_finished (by decide +kernel))

/-- A worker that parts with its session, and one that is about to count its own. -/
theorem crowded_connections_are_accounted_for :
    Scenario.crowded.total (fun p => p.outside.live) ≤
        Scenario.crowded.memory.largest + Scenario.crowded.total (fun p => p.outside.leaving) ∧
      (Scenario.crowded.threads false).outside.leaving = 1 ∧
      (Scenario.crowded.threads true).outside.leaving = 0 ∧
      Scenario.boarding.memory.backends 1 +
          (Scenario.boarding.total fun p => p.window.pendingOn 1) =
        Scenario.boarding.total fun p => p.relaysOn 1 := by
  obtain ⟨hlimit, _, hstays, _⟩ := connections_are_accounted_for Scenario.crowded_reachable
  obtain ⟨_, _, _, _, _, hcounts, _⟩ := connections_are_accounted_for Scenario.boarding_reachable
  refine ⟨hlimit, by decide +kernel, hstays true fun hparting => ?_, hcounts 1⟩
  obtain ⟨c, k, hcode, _⟩ := hparting
  have hidle : (Scenario.crowded.threads true).Idle := Place.idle_of_finished (by decide +kernel)
  exact absurd (hidle.symm.trans hcode) (by simp)

end PoolLb
