import PoolLb.SessionRun

/-!
# The books of a worker

A worker takes part in five accounts: the shared ledger of queued bytes, the connection slots
of the process and its own, the leases of the rate limiter and the connections of each backend.
Every session has its share in each account, and the books are in order when each account is
the sum of the shares of the sessions in the table.

Session code changes the shares of its own session and the accounts by the same amount, move
by move.  So the books of a worker stay in order when the session it has worked on is stored
back, whatever the reaction was.
-/

namespace PoolLb

open Interaction Handler Tally

/-- The accounts a worker keeps for its sessions. -/
inductive Account where
  /-- Bytes in the shared ledger. -/
  | queued
  /-- Slots of `Stats::active_connections`. -/
  | slot
  /-- The worker's own `active_connections`. -/
  | workerSlot
  /-- One lease of the rate limiter. -/
  | lease (number : Nat)
  /-- A session counted in `active_connections` of a backend. -/
  | backend (ref session : Nat)

/-- What the worker holds in an account. -/
def Outside.book (w : Outside) : Account → Nat
  | .queued => w.held
  | .slot => w.slots
  | .workerSlot => w.workerActive
  | .lease number => w.leases.count number
  | .backend ref session => w.entered.count (ref, session)

/-- The session is counted at this backend. -/
def Session.CountedAt (s : Session) (ref session : Nat) : Prop :=
  s.backendCounted = true ∧ s.id = session ∧ s.backend.map Backend.ref = some ref

instance (s : Session) (ref session : Nat) : Decidable (s.CountedAt ref session) :=
  inferInstanceAs (Decidable (_ ∧ _ ∧ _))

/-- What a session has in an account. -/
def Session.share (s : Session) : Account → Nat
  | .queued => s.queuedBytes
  | .slot => 1
  | .workerSlot => 1
  | .lease number => if s.admission = some number then 1 else 0
  | .backend ref session => if s.CountedAt ref session then 1 else 0

variable {json : Glaze} {c c' : Config} {s s' : Session} {w w' : Outside}

/-! ## Session code and the books -/

/-- The part of the worker that no session code touches. -/
structure Outside.SameRoll (w w' : Outside) : Prop where
  slots : w'.slots = w.slots
  workerActive : w'.workerActive = w.workerActive
  accepted : w'.accepted = w.accepted
  closed : w'.closed = w.closed
  leases : w'.leases = w.leases
  sessions : w'.sessions = w.sessions
  nextId : w'.nextId = w.nextId

theorem Outside.SameRoll.refl (w : Outside) : w.SameRoll w := ⟨rfl, rfl, rfl, rfl, rfl, rfl, rfl⟩

theorem Outside.SameRoll.trans {w'' : Outside} (h : w.SameRoll w') (h' : w'.SameRoll w'') :
    w.SameRoll w'' :=
  ⟨h'.slots.trans h.slots, h'.workerActive.trans h.workerActive, h'.accepted.trans h.accepted,
    h'.closed.trans h.closed, h'.leases.trans h.leases, h'.sessions.trans h.sessions,
    h'.nextId.trans h.nextId⟩

/-- No move touches the table, the ids or the counts of sessions. -/
theorem Move.sameRoll (h : Move json c c') : c.outside.SameRoll c'.outside := by
  cases h with
  | _ => exact ⟨rfl, rfl, rfl, rfl, rfl, rfl, rfl⟩

theorem Follows.sameRoll (h : Follows json c c') : c.outside.SameRoll c'.outside :=
  h.invariant (P := fun d => c.outside.SameRoll d.outside)
    (fun _ _ hmove hd => hd.trans hmove.sameRoll) (.refl _)

/-- The clock of a worker does not go back. -/
theorem Move.clock_le (h : Move json c c') : c.outside.clock ≤ c'.outside.clock := by
  cases h with
  | tick time hle => exact hle
  | _ => exact le_rfl

theorem Follows.clock_le (h : Follows json c c') : c.outside.clock ≤ c'.outside.clock :=
  h.invariant (P := fun d => c.outside.clock ≤ d.outside.clock)
    (fun _ _ hmove hd => hd.trans hmove.clock_le) le_rfl

/-- The lease of a session is not touched by its code. -/
theorem Move.admission (h : Move json c c') : c'.session.admission = c.session.admission := by
  cases h with
  | inert s h =>
      rw [h]
      rfl
  | _ => rfl

theorem Follows.admission (h : Follows json c c') : c'.session.admission = c.session.admission :=
  h.invariant (P := fun d => d.session.admission = c.session.admission)
    (fun _ _ hmove hd => hmove.admission.trans hd) rfl

/-- A counted session is counted once, at its own backend. -/
theorem Session.countedAt_iff {backend : Backend} (hcounted : s.backendCounted = true)
    (hbackend : s.backend = some backend) (ref session : Nat) :
    s.CountedAt ref session ↔ (backend.ref, s.id) = (ref, session) := by
  unfold Session.CountedAt
  rw [hbackend, Prod.mk.injEq, Option.map_some, Option.some.injEq]
  constructor
  · exact fun h => ⟨h.2.2, h.2.1⟩
  · exact fun h => ⟨hcounted, h.2, h.1⟩

theorem Session.share_backend_congr {ref session : Nat}
    (h : s'.CountedAt ref session ↔ s.CountedAt ref session) :
    s'.share (.backend ref session) = s.share (.backend ref session) := if_congr h rfl rfl

/-- A session that is not counted has no share of a backend. -/
theorem Session.share_backend_zero {ref session : Nat} (h : s.backendCounted = false) :
    s.share (.backend ref session) = 0 :=
  if_neg fun hcounted => Bool.false_ne_true (h.symm.trans hcounted.1)

/-- What a move enters at a backend is what the share of the session grows by. -/
theorem Move.entered {others : Nat} (h : Move json c c') (hsane : c.Sane others)
    (ref session : Nat) :
    c'.outside.book (.backend ref session) + c.session.share (.backend ref session) =
      c.outside.book (.backend ref session) + c'.session.share (.backend ref session) := by
  cases h with
  | inert s h =>
      have hsame : s.CountedAt ref session ↔ c.session.CountedAt ref session := by
        rw [h]
        exact Iff.rfl
      show _ + _ = _ + s.share (.backend ref session)
      rw [Session.share_backend_congr hsame]
      rfl
  | route backend hphase =>
      have huncounted : c.session.backendCounted = false := by
        by_contra hcounted
        rw [Bool.not_eq_false] at hcounted
        exact (hsane.opening_unbacked (.inl hphase)).1 (.inr (hsane.counted hcounted))
      have hchosen : (c.chose backend).session.share (.backend ref session) = 0 :=
        Session.share_backend_zero huncounted
      rw [hchosen, Session.share_backend_zero huncounted]
      rfl
  | finish socket backend hphase hstage hsocket hbackend =>
      have huncounted := hsane.uncounted hstage
      have hrelayed : (c.session.relayed backend).CountedAt ref session ↔
          (backend.ref, c.session.id) = (ref, session) :=
        Session.countedAt_iff (s := c.session.relayed backend) rfl hbackend ref session
      have hshare : (c.session.relayed backend).share (.backend ref session) =
          if (backend.ref, c.session.id) = (ref, session) then 1 else 0 := if_congr hrelayed rfl rfl
      show ((backend.ref, c.session.id) :: c.outside.entered).count (ref, session) + _ =
        _ + (c.session.relayed backend).share (.backend ref session)
      rw [hshare, Session.share_backend_zero huncounted, List.count_cons]
      simp only [beq_iff_eq]
      rfl
  | _ => rfl

/-- **Session code keeps the books**: what a move changes in an account it changes in the
share of the session. -/
theorem Move.booked {others : Nat} (h : Move json c c') (hsane : c.Sane others)
    (account : Account) :
    c'.outside.book account + c.session.share account =
      c.outside.book account + c'.session.share account := by
  cases account with
  | queued =>
      have hbefore := hsane.balanced
      have hafter := (h.sane hsane).balanced
      show c'.outside.held + c.session.queuedBytes = c.outside.held + c'.session.queuedBytes
      omega
  | slot => exact congrArg (· + 1) h.sameRoll.slots
  | workerSlot => exact congrArg (· + 1) h.sameRoll.workerActive
  | lease number =>
      show c'.outside.leases.count number + (if _ then 1 else 0) =
        c.outside.leases.count number + (if _ then 1 else 0)
      rw [h.sameRoll.leases, h.admission]
  | backend ref session => exact h.entered hsane ref session

theorem Follows.booked {others : Nat} (h : Follows json c c') (hsane : c.Sane others)
    (account : Account) :
    c'.outside.book account + c.session.share account =
      c.outside.book account + c'.session.share account := by
  have hall : c'.Sane others ∧ c'.outside.book account + c.session.share account =
      c.outside.book account + c'.session.share account := by
    refine h.invariant (P := fun d => d.Sane others ∧
      d.outside.book account + c.session.share account =
        c.outside.book account + d.session.share account) ?_ ⟨hsane, rfl⟩
    intro d d' hmove hd
    obtain ⟨hdsane, hdbooked⟩ := hd
    have hstep := hmove.booked hdsane account
    exact ⟨hmove.sane hdsane, by omega⟩
  exact hall.2

end PoolLb
