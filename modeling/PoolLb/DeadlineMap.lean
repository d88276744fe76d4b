import Mathlib.Algebra.Order.Floor.Semifield
import Mathlib.Data.Finset.Card
import Mathlib.Data.Rat.Floor
import PoolLb.TimerWheelDrain

/-!
# The timer wheel as a map of deadlines

What the wheel is for: a finite map from session ids to a generation and a due
tick.  Scheduling replaces the entry of an id, cancelling removes it, and
advancing returns and removes exactly the entries that have come due.  Nothing
of buckets, rotations or swaps is left.

The main theorem runs the wheel and the map side by side over an arbitrary
sequence of operations.  Clock values may stand still or go back.
-/

namespace PoolLb

/-- A finite map from session ids to `(generation, due tick)`, at a tick. -/
structure DeadlineMap where
  entry : Nat → Option (Nat × Nat)
  ids : Finset Nat
  currentTick : Nat
  mem_ids : ∀ id, id ∈ ids ↔ (entry id).isSome

/-- The operations of a timer. -/
inductive TimerOp where
  | schedule (sessionId generation deadline : Nat)
  | cancel (sessionId : Nat)
  | advance (now : Nat)
deriving DecidableEq, Repr

/-- The session whose entry the operation replaces or removes. -/
def TimerOp.target : TimerOp → Option Nat
  | .schedule id _ _ => some id
  | .cancel id => some id
  | .advance _ => none

namespace DeadlineMap

/-- Whole seconds, rounded up. -/
def secondsUp (time : Nat) : Nat := ⌈(time / kNanosecondsPerSecond : ℚ)⌉₊

/-- Whole seconds, rounded down. -/
def secondsDown (time : Nat) : Nat := ⌊(time / kNanosecondsPerSecond : ℚ)⌋₊

/-- The empty map at clock reading `now`. -/
def new (now : Nat) : DeadlineMap where
  entry := fun _ => none
  ids := ∅
  currentTick := secondsDown now
  mem_ids := by simp

/-- Replace the entry of `id`. -/
def schedule (m : DeadlineMap) (id generation deadline : Nat) : DeadlineMap where
  entry := Function.update m.entry id
    (some (generation, max (secondsUp deadline) (m.currentTick + 1)))
  ids := insert id m.ids
  currentTick := m.currentTick
  mem_ids := by
    intro j
    by_cases hj : j = id
    · simp [hj]
    · simp [hj, m.mem_ids]

/-- Remove the entry of `id`. -/
def cancel (m : DeadlineMap) (id : Nat) : DeadlineMap where
  entry := Function.update m.entry id none
  ids := m.ids.erase id
  currentTick := m.currentTick
  mem_ids := by
    intro j
    by_cases hj : j = id
    · simp [hj]
    · simp [hj, m.mem_ids]

/-- The entries that have come due at a tick. -/
def due (m : DeadlineMap) (tick : Nat) : Set TimerExpiry :=
  { x | ∃ dueTick, m.entry x.sessionId = some (x.generation, dueTick) ∧ dueTick ≤ tick }

/-- Remove the entries that have come due; the tick never goes back. -/
def advance (m : DeadlineMap) (now : Nat) : DeadlineMap where
  entry := fun id => (m.entry id).filter (fun e => secondsDown now < e.2)
  ids := m.ids.filter (fun id => ((m.entry id).filter (fun e => secondsDown now < e.2)).isSome)
  currentTick := max m.currentTick (secondsDown now)
  mem_ids := by
    intro j
    rw [Finset.mem_filter, m.mem_ids]
    cases hj : m.entry j <;> simp

/-- One operation on the map, with the set of entries it returns. -/
def perform (m : DeadlineMap) : TimerOp → DeadlineMap × Set TimerExpiry
  | .schedule id generation deadline => (m.schedule id generation deadline, ∅)
  | .cancel id => (m.cancel id, ∅)
  | .advance now => (m.advance now, m.due (secondsDown now))

/-- A sequence of operations on the map. -/
def run : DeadlineMap → List TimerOp → DeadlineMap × List (Set TimerExpiry)
  | m, [] => (m, [])
  | m, op :: ops => (((m.perform op).1.run ops).1, (m.perform op).2 :: ((m.perform op).1.run ops).2)

end DeadlineMap

namespace TimerWheel

/-- One operation on the wheel, with the list it returns. -/
def perform (wheel : TimerWheel) : TimerOp → TimerWheel × List TimerExpiry
  | .schedule id generation deadline => (wheel.schedule id generation deadline, [])
  | .cancel id => (wheel.cancel id, [])
  | .advance now => wheel.advance now

/-- A sequence of operations on the wheel. -/
def run : TimerWheel → List TimerOp → TimerWheel × List (List TimerExpiry)
  | wheel, [] => (wheel, [])
  | wheel, op :: ops =>
      (((wheel.perform op).1.run ops).1, (wheel.perform op).2 :: ((wheel.perform op).1.run ops).2)

/-- What the wheel holds for a session, read through its location. -/
def find (wheel : TimerWheel) (id : Nat) : Option (Nat × Nat) :=
  (wheel.locations.lookup id).bind fun loc =>
    ((wheel.buckets loc.bucket)[loc.index]?).map fun e => (e.expiry.generation, e.dueTick)

end TimerWheel

open TimerWheel

/-! ## Seconds -/

/-- The code rounds down to seconds. -/
theorem tickFloor_eq_secondsDown (time : Nat) : tickFloor time = DeadlineMap.secondsDown time := by
  unfold tickFloor DeadlineMap.secondsDown
  exact (Nat.floor_div_eq_div time kNanosecondsPerSecond).symm

/-- And up, where it does. -/
theorem tickAtOrAfter_eq_secondsUp (time : Nat) :
    tickAtOrAfter time = DeadlineMap.secondsUp time := by
  have hpos : (0 : ℚ) < kNanosecondsPerSecond := by norm_num [kNanosecondsPerSecond]
  have hle : ∀ n : Nat, DeadlineMap.secondsUp time ≤ n ↔ time ≤ n * kNanosecondsPerSecond := by
    intro n
    unfold DeadlineMap.secondsUp
    rw [Nat.ceil_le, div_le_iff₀ hpos]
    exact_mod_cast Iff.rfl
  apply Nat.le_antisymm
  · have h := (hle (DeadlineMap.secondsUp time)).mp le_rfl
    unfold tickAtOrAfter kNanosecondsPerSecond at *
    dsimp only
    split <;> omega
  · rw [hle]
    unfold tickAtOrAfter kNanosecondsPerSecond
    dsimp only
    split <;> omega

/-! ## The wheel represents a map -/

/-- The wheel and the map hold the same entries and stand at the same tick. -/
structure Represents (wheel : TimerWheel) (m : DeadlineMap) : Prop where
  consistent : wheel.Consistent
  tick : wheel.currentTick = m.currentTick
  entries : ∀ id generation dueTick, m.entry id = some (generation, dueTick) ↔
    wheel.Stored ⟨⟨id, generation⟩, dueTick⟩

/-- A lookup through the location index finds the stored entry. -/
theorem TimerWheel.Consistent.find_eq_some_iff {wheel : TimerWheel} (h : wheel.Consistent)
    (id generation dueTick : Nat) :
    wheel.find id = some (generation, dueTick) ↔ wheel.Stored ⟨⟨id, generation⟩, dueTick⟩ := by
  constructor
  · intro hfind
    obtain ⟨loc, hloc, hfind⟩ := Option.bind_eq_some_iff.mp hfind
    obtain ⟨e, he, heq⟩ := Option.map_eq_some_iff.mp hfind
    obtain ⟨e', he', hid⟩ := h.occupied id loc hloc
    have hsame : e' = e := Option.some.inj (he'.symm.trans he)
    subst hsame
    refine ⟨loc, ?_⟩
    rcases e' with ⟨⟨eid, egen⟩, edue⟩
    simp only [Prod.mk.injEq] at heq hid
    rw [← heq.1, ← heq.2, ← hid]
    exact he
  · intro hstored
    obtain ⟨loc, hat⟩ := hstored
    have hloc := h.located loc _ hat
    unfold TimerWheel.find
    rw [hloc, Option.bind_some, hat]
    rfl

/-- What the wheel finds is what the map has. -/
theorem Represents.find {wheel : TimerWheel} {m : DeadlineMap} (h : Represents wheel m)
    (id : Nat) : wheel.find id = m.entry id := by
  apply Option.ext
  intro e
  rcases e with ⟨generation, dueTick⟩
  rw [h.consistent.find_eq_some_iff, h.entries]

/-- `size()` is the size of the map. -/
theorem Represents.size {wheel : TimerWheel} {m : DeadlineMap} (h : Represents wheel m) :
    wheel.size = m.ids.card := by
  have hkeys : wheel.locations.keys.toFinset = m.ids := by
    apply Finset.ext
    intro id
    rw [List.mem_toFinset, ← AList.mem_keys, h.consistent.mem_locations, m.mem_ids,
      Option.isSome_iff_exists]
    constructor
    · intro hstored
      obtain ⟨⟨⟨eid, generation⟩, dueTick⟩, he, hid⟩ := hstored
      subst hid
      exact ⟨(generation, dueTick), (h.entries _ _ _).mpr he⟩
    · intro hentry
      obtain ⟨⟨generation, dueTick⟩, hentry⟩ := hentry
      exact ⟨_, (h.entries _ _ _).mp hentry, rfl⟩
  rw [← hkeys, List.toFinset_card_of_nodup wheel.locations.keys_nodup]
  rfl

/-- A new wheel is an empty map. -/
theorem represents_new (now : Nat) : Represents (TimerWheel.new now) (DeadlineMap.new now) where
  consistent := new_consistent now
  tick := tickFloor_eq_secondsDown now
  entries := by
    intro id generation dueTick
    simp [TimerWheel.new, DeadlineMap.new, Stored, At]

/-- **`schedule` replaces the entry of an id.** -/
theorem Represents.schedule {wheel : TimerWheel} {m : DeadlineMap} (h : Represents wheel m)
    (id generation deadline : Nat) :
    Represents (wheel.schedule id generation deadline) (m.schedule id generation deadline) where
  consistent := h.consistent.schedule id generation deadline
  tick := by
    rw [schedule_currentTick, h.tick]
    rfl
  entries := by
    intro j g d
    have hdue : dueTickOf wheel.currentTick deadline =
        max (DeadlineMap.secondsUp deadline) (m.currentTick + 1) := by
      rw [dueTickOf, tickAtOrAfter_eq_secondsUp, h.tick]
    rw [h.consistent.schedule_stored, hdue, ← h.entries]
    unfold DeadlineMap.schedule
    by_cases hj : j = id
    · subst hj
      simp [eq_comm]
    · simp [hj]

/-- **`cancel` removes it.** -/
theorem Represents.cancel {wheel : TimerWheel} {m : DeadlineMap} (h : Represents wheel m)
    (id : Nat) : Represents (wheel.cancel id) (m.cancel id) where
  consistent := h.consistent.cancel id
  tick := by
    rw [cancel_currentTick, h.tick]
    rfl
  entries := by
    intro j g d
    rw [h.consistent.cancel_stored, ← h.entries]
    unfold DeadlineMap.cancel
    by_cases hj : j = id
    · subst hj
      simp
    · simp [hj]

/-- `advance` returns the due entries, each once. -/
theorem Represents.advance {wheel : TimerWheel} {m : DeadlineMap} (h : Represents wheel m)
    (now : Nat) :
    Represents (wheel.advance now).1 (m.advance now) ∧
      ((wheel.advance now).2.map TimerExpiry.sessionId).Nodup ∧
      ∀ x, x ∈ (wheel.advance now).2 ↔ x ∈ m.due (DeadlineMap.secondsDown now) := by
  obtain ⟨hcol, htick⟩ := h.consistent.advance now
  have hnow := tickFloor_eq_secondsDown now
  -- an entry is due at the new tick exactly when it is due at the tick of `now`:
  -- none was due at the tick the wheel came from
  have hdue : ∀ e, wheel.Stored e →
      (e.dueTick ≤ (wheel.advance now).1.currentTick ↔
        e.dueTick ≤ DeadlineMap.secondsDown now) := by
    intro e he
    have hup := h.consistent.upcoming e he
    rw [htick, hnow]
    omega
  refine ⟨⟨hcol.consistent, ?_, ?_⟩, hcol.nodup, ?_⟩
  · rw [htick, hnow, h.tick]
    rfl
  · intro id generation dueTick
    rw [hcol.stored, ← h.entries]
    unfold DeadlineMap.advance
    dsimp only
    rw [Option.filter_eq_some_iff, decide_eq_true_iff]
    refine and_congr_right ?_
    intro hentry
    have hd := hdue _ ((h.entries _ _ _).mp hentry)
    dsimp only at hd ⊢
    omega
  · intro x
    rw [hcol.expired]
    constructor
    · intro hx
      obtain ⟨e, he, heq, hle⟩ := hx
      subst heq
      exact ⟨e.dueTick, (h.entries _ _ _).mpr he, (hdue e he).mp hle⟩
    · intro hx
      obtain ⟨dueTick, hentry, hle⟩ := hx
      have he := (h.entries _ _ _).mp hentry
      exact ⟨_, he, rfl, (hdue _ he).mpr hle⟩

/-- What one operation returns on the two sides. -/
def SameExpiries (out : List TimerExpiry) (dueSet : Set TimerExpiry) : Prop :=
  (out.map TimerExpiry.sessionId).Nodup ∧ ∀ x, x ∈ out ↔ x ∈ dueSet

/-- **One operation.** -/
theorem Represents.perform {wheel : TimerWheel} {m : DeadlineMap} (h : Represents wheel m)
    (op : TimerOp) :
    Represents (wheel.perform op).1 (m.perform op).1 ∧
      SameExpiries (wheel.perform op).2 (m.perform op).2 := by
  cases op with
  | schedule id generation deadline =>
      exact ⟨h.schedule id generation deadline, List.nodup_nil, by simp [TimerWheel.perform,
        DeadlineMap.perform]⟩
  | cancel id =>
      exact ⟨h.cancel id, List.nodup_nil, by simp [TimerWheel.perform, DeadlineMap.perform]⟩
  | advance now => exact h.advance now

/-- **Any sequence of operations.** -/
theorem Represents.run {wheel : TimerWheel} {m : DeadlineMap} (h : Represents wheel m)
    (ops : List TimerOp) :
    Represents (wheel.run ops).1 (m.run ops).1 ∧
      List.Forall₂ SameExpiries (wheel.run ops).2 (m.run ops).2 := by
  induction ops generalizing wheel m with
  | nil => exact ⟨h, List.Forall₂.nil⟩
  | cons op ops ih =>
      obtain ⟨hnext, hout⟩ := h.perform op
      obtain ⟨hlast, houts⟩ := ih hnext
      exact ⟨hlast, List.Forall₂.cons hout houts⟩

/-! ## What the map promises -/

/-- Bookkeeping of the schedules that no later operation has replaced or
cancelled, as `(generation, deadline)`. -/
def TimerOp.record (last : Nat → Option (Nat × Nat)) : TimerOp → Nat → Option (Nat × Nat)
  | .schedule id generation deadline => Function.update last id (some (generation, deadline))
  | .cancel id => Function.update last id none
  | .advance _ => last

/-- The standing schedule of each session after a sequence of operations. -/
def lastScheduled (ops : List TimerOp) : Nat → Option (Nat × Nat) :=
  ops.foldl TimerOp.record (fun _ => none)

/-- Every entry of the map stems from a standing schedule and is not due
before its deadline. -/
def DeadlineMap.Tracks (m : DeadlineMap) (last : Nat → Option (Nat × Nat)) : Prop :=
  ∀ id generation dueTick, m.entry id = some (generation, dueTick) →
    ∃ deadline, last id = some (generation, deadline) ∧ secondsUp deadline ≤ dueTick

/-- The map remembers the last operation on each id. -/
theorem DeadlineMap.Tracks.perform {m : DeadlineMap} {last : Nat → Option (Nat × Nat)}
    (h : m.Tracks last) (op : TimerOp) : (m.perform op).1.Tracks (op.record last) := by
  intro id generation dueTick hentry
  cases op with
  | schedule j g deadline =>
      by_cases hj : id = j
      · subst hj
        simp only [DeadlineMap.perform, DeadlineMap.schedule, Function.update_self,
          Option.some.injEq, Prod.mk.injEq] at hentry
        refine ⟨deadline, by simp [TimerOp.record, hentry.1], ?_⟩
        omega
      · simp only [DeadlineMap.perform, DeadlineMap.schedule, Function.update_of_ne hj] at hentry
        simpa [TimerOp.record, Function.update_of_ne hj] using h id generation dueTick hentry
  | cancel j =>
      by_cases hj : id = j
      · subst hj
        simp [DeadlineMap.perform, DeadlineMap.cancel] at hentry
      · simp only [DeadlineMap.perform, DeadlineMap.cancel, Function.update_of_ne hj] at hentry
        simpa [TimerOp.record, Function.update_of_ne hj] using h id generation dueTick hentry
  | advance now =>
      exact h id generation dueTick (Option.filter_eq_some_iff.mp hentry).1

theorem DeadlineMap.Tracks.run {m : DeadlineMap} {last : Nat → Option (Nat × Nat)}
    (h : m.Tracks last) (ops : List TimerOp) :
    (m.run ops).1.Tracks (ops.foldl TimerOp.record last) := by
  induction ops generalizing m last with
  | nil => exact h
  | cons op ops ih => exact ih (h.perform op)

/-- An operation on other sessions keeps an entry or returns it. -/
theorem DeadlineMap.perform_keeps_or_returns {m : DeadlineMap} {id generation dueTick : Nat}
    (hentry : m.entry id = some (generation, dueTick)) {op : TimerOp}
    (hop : op.target ≠ some id) :
    (m.perform op).1.entry id = some (generation, dueTick) ∨
      (⟨id, generation⟩ : TimerExpiry) ∈ (m.perform op).2 := by
  cases op with
  | schedule j g deadline =>
      have hj : id ≠ j := fun h => hop (congrArg some h.symm)
      exact Or.inl (by simpa [DeadlineMap.perform, DeadlineMap.schedule, hj] using hentry)
  | cancel j =>
      have hj : id ≠ j := fun h => hop (congrArg some h.symm)
      exact Or.inl (by simpa [DeadlineMap.perform, DeadlineMap.cancel, hj] using hentry)
  | advance now =>
      by_cases hdue : dueTick ≤ secondsDown now
      · exact Or.inr ⟨dueTick, hentry, hdue⟩
      · refine Or.inl (Option.filter_eq_some_iff.mpr ⟨hentry, ?_⟩)
        simpa using Nat.lt_of_not_le hdue

/-- **A timer is never lost**: it is still there, or it was returned. -/
theorem DeadlineMap.run_keeps_or_returns {m : DeadlineMap} {id generation dueTick : Nat}
    (hentry : m.entry id = some (generation, dueTick)) {ops : List TimerOp}
    (hops : ∀ op ∈ ops, op.target ≠ some id) :
    (m.run ops).1.entry id = some (generation, dueTick) ∨
      ∃ out ∈ (m.run ops).2, (⟨id, generation⟩ : TimerExpiry) ∈ out := by
  induction ops generalizing m with
  | nil => exact Or.inl hentry
  | cons op ops ih =>
      rcases m.perform_keeps_or_returns hentry (hops op List.mem_cons_self) with hkept | hout
      · rcases ih hkept (fun o ho => hops o (List.mem_cons_of_mem _ ho)) with hlast | hlater
        · exact Or.inl hlast
        · obtain ⟨out, hmem, hx⟩ := hlater
          exact Or.inr ⟨out, List.mem_cons_of_mem _ hmem, hx⟩
      · exact Or.inr ⟨_, List.mem_cons_self, hout⟩

/-- **The timer wheel refines the map of deadlines.**  After any sequence of
operations the wheel answers lookups as the map does, has its size, and has
returned the same entries at every step, each once.  So whatever a further
`advance` returns is a standing schedule whose deadline has passed, and a
schedule that is left standing is returned by the time its due tick has come. -/
theorem timerWheel_refines_deadlineMap (start : Nat) (ops : List TimerOp) :
    let wheel := (TimerWheel.new start).run ops
    let map := (DeadlineMap.new start).run ops
    (∀ id, wheel.1.find id = map.1.entry id) ∧
    wheel.1.currentTick = map.1.currentTick ∧
    wheel.1.size = map.1.ids.card ∧
    List.Forall₂ SameExpiries wheel.2 map.2 ∧
    (∀ now, ∀ x ∈ (wheel.1.advance now).2, ∃ deadline,
      lastScheduled ops x.sessionId = some (x.generation, deadline) ∧ deadline ≤ now) ∧
    (∀ id generation deadline rest now, (∀ op ∈ rest, op.target ≠ some id) →
      max (DeadlineMap.secondsUp deadline) (wheel.1.currentTick + 1) ≤
        DeadlineMap.secondsDown now →
      let later := (wheel.1.schedule id generation deadline).run rest
      (∃ out ∈ later.2, (⟨id, generation⟩ : TimerExpiry) ∈ out) ∨
        (⟨id, generation⟩ : TimerExpiry) ∈ (later.1.advance now).2) := by
  dsimp only
  obtain ⟨hrep, houts⟩ := (represents_new start).run ops
  refine ⟨hrep.find, hrep.tick, hrep.size, houts, ?_, ?_⟩
  · intro now x hx
    obtain ⟨dueTick, hentry, hle⟩ := ((hrep.advance now).2.2 x).mp hx
    have htracks : ((DeadlineMap.new start).run ops).1.Tracks (lastScheduled ops) :=
      DeadlineMap.Tracks.run (by intro id g d h; cases h) ops
    obtain ⟨deadline, hlast, hdue⟩ := htracks _ _ _ hentry
    refine ⟨deadline, hlast, ?_⟩
    -- rounding up the deadline and down the clock keeps their order
    rw [← tickAtOrAfter_eq_secondsUp] at hdue
    rw [← tickFloor_eq_secondsDown] at hle
    unfold tickAtOrAfter at hdue
    unfold tickFloor at hle
    unfold kNanosecondsPerSecond at *
    dsimp only at hdue
    split at hdue <;> omega
  · intro id generation deadline rest now hrest hdue
    obtain ⟨hlater, houts'⟩ := (hrep.schedule id generation deadline).run rest
    have hentry : (((DeadlineMap.new start).run ops).1.schedule id generation deadline).entry id =
        some (generation, max (DeadlineMap.secondsUp deadline)
          (((DeadlineMap.new start).run ops).1.currentTick + 1)) := by
      simp [DeadlineMap.schedule]
    rcases DeadlineMap.run_keeps_or_returns hentry hrest with hkept | hout
    · right
      rw [(hlater.advance now).2.2]
      exact ⟨_, hkept, by rw [← hrep.tick]; exact hdue⟩
    · left
      obtain ⟨out, hmem, hx⟩ := hout
      obtain ⟨i, hi, hget⟩ := List.getElem_of_mem hmem
      have hi' : i < (((TimerWheel.new start).run ops).1.schedule id generation deadline |>.run
          rest).2.length := by
        rw [houts'.length_eq]
        exact hi
      have hsame := List.forall₂_iff_get.mp houts'
      refine ⟨_, List.getElem_mem hi', ?_⟩
      have hget' := hsame.2 i hi' hi
      rw [List.get_eq_getElem, List.get_eq_getElem, hget] at hget'
      exact (hget'.2 _).mpr hx

end PoolLb
