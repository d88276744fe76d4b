import Mathlib.Order.Bounds.Basic
import PoolLb.Config
import PoolLb.Interleaving

/-!
# The ledger of queued bytes

`Stats::try_reserve_queued_bytes` and `Stats::release_queued_bytes`
(`src/core/stats.cpp`), step by atomic step.  A reservation reads the limit,
then raises `queued_bytes` in a retry loop, then raises `queued_bytes_high_water`
to the value it has written, in another one; `publish` may store a new limit at
any moment, and a weak compare-exchange may fail for no reason.

The record beside the atomics keeps every value that was in `queued_bytes`, every
limit there was to read, and for each reservation the value it wrote with the limit
it had read.
-/

namespace PoolLb

open Interleaving

/-- The atomics of `Stats` for queued bytes, and the record. -/
structure QueueStats where
  queuedBytes : Nat := 0
  queuedBytesHighWater : Nat := 0
  queuedBytesLimit : Nat
  values : List Nat := [0]
  limits : List Nat
  commits : List (Nat × Nat) := []

/-- Where a thread stands in `try_reserve_queued_bytes`; the names of the numbers
are those of the source. -/
inductive ReservePlace where
  | idle
  /-- Before the load of the limit. -/
  | entered (bytes : Nat)
  /-- Before the first load of `queued_bytes`. -/
  | limited (bytes maximum : Nat)
  /-- At the head of the outer loop. -/
  | trying (bytes maximum current : Nat)
  /-- Before the load of the high-water mark. -/
  | raising (bytes replacement : Nat)
  /-- At the head of the inner loop. -/
  | lifting (bytes replacement highWater : Nat)
  | returned (bytes : Nat) (result : Bool)

/-- No call is in progress. -/
def ReservePlace.AtRest : ReservePlace → Prop
  | .idle | .returned _ _ => True
  | _ => False

/-- A thread: its place, what it has reserved and released so far, and what it had
reserved when its call began. -/
structure Reserver where
  place : ReservePlace := .idle
  reserved : Nat := 0
  released : Nat := 0
  before : Nat := 0

namespace QueueStats

/-- A write to `queued_bytes`. -/
def store (stats : QueueStats) (value : Nat) : QueueStats :=
  { stats with queuedBytes := value, values := value :: stats.values }

end QueueStats

/-- One atomic step of a thread.  A thread gives back only what it has reserved. -/
inductive ReserveStep : QueueStats → Reserver → QueueStats → Reserver → Prop where
  | call (stats : QueueStats) (r : Reserver) (bytes : Nat) (hrest : r.place.AtRest) :
      ReserveStep stats r stats { r with place := .entered bytes, before := r.reserved }
  | loadLimit (stats : QueueStats) (r : Reserver) {bytes : Nat} (hplace : r.place = .entered bytes) :
      ReserveStep stats r stats { r with place := .limited bytes stats.queuedBytesLimit }
  | tooLarge (stats : QueueStats) (r : Reserver) {bytes maximum : Nat}
      (hplace : r.place = .limited bytes maximum) (hlarge : bytes > maximum) :
      ReserveStep stats r stats { r with place := .returned bytes false }
  | loadQueued (stats : QueueStats) (r : Reserver) {bytes maximum : Nat}
      (hplace : r.place = .limited bytes maximum) (hsmall : bytes ≤ maximum) :
      ReserveStep stats r stats { r with place := .trying bytes maximum stats.queuedBytes }
  | full (stats : QueueStats) (r : Reserver) {bytes maximum current : Nat}
      (hplace : r.place = .trying bytes maximum current) (hfull : ¬ current ≤ maximum - bytes) :
      ReserveStep stats r stats { r with place := .returned bytes false }
  | swap (stats : QueueStats) (r : Reserver) {bytes maximum current : Nat}
      (hplace : r.place = .trying bytes maximum current) (hfits : current ≤ maximum - bytes)
      (hsame : stats.queuedBytes = current) :
      ReserveStep stats r
        { stats.store ((current + bytes) % kWordSize) with
          commits := ((current + bytes) % kWordSize, maximum) :: stats.commits }
        { r with
          place := .raising bytes ((current + bytes) % kWordSize)
          reserved := r.reserved + bytes }
  | retry (stats : QueueStats) (r : Reserver) {bytes maximum current : Nat}
      (hplace : r.place = .trying bytes maximum current) (hfits : current ≤ maximum - bytes) :
      ReserveStep stats r stats { r with place := .trying bytes maximum stats.queuedBytes }
  | loadHighWater (stats : QueueStats) (r : Reserver) {bytes replacement : Nat}
      (hplace : r.place = .raising bytes replacement) :
      ReserveStep stats r stats
        { r with place := .lifting bytes replacement stats.queuedBytesHighWater }
  | enough (stats : QueueStats) (r : Reserver) {bytes replacement highWater : Nat}
      (hplace : r.place = .lifting bytes replacement highWater)
      (hhigh : ¬ highWater < replacement) :
      ReserveStep stats r stats { r with place := .returned bytes true }
  | lift (stats : QueueStats) (r : Reserver) {bytes replacement highWater : Nat}
      (hplace : r.place = .lifting bytes replacement highWater) (hlow : highWater < replacement)
      (hsame : stats.queuedBytesHighWater = highWater) :
      ReserveStep stats r { stats with queuedBytesHighWater := replacement }
        { r with place := .returned bytes true }
  | liftAgain (stats : QueueStats) (r : Reserver) {bytes replacement highWater : Nat}
      (hplace : r.place = .lifting bytes replacement highWater) (hlow : highWater < replacement) :
      ReserveStep stats r stats
        { r with place := .lifting bytes replacement stats.queuedBytesHighWater }
  | release (stats : QueueStats) (r : Reserver) (bytes : Nat) (hrest : r.place.AtRest)
      (howned : r.released + bytes ≤ r.reserved) :
      ReserveStep stats r (stats.store ((stats.queuedBytes + (kWordSize - bytes)) % kWordSize))
        { r with released := r.released + bytes }
  | publish (stats : QueueStats) (r : Reserver) (limit : Nat) (hrest : r.place.AtRest)
      (hword : limit < kWordSize) :
      ReserveStep stats r
        { stats with queuedBytesLimit := limit, limits := limit :: stats.limits } r

/-- Nothing is queued, and no call was made yet. -/
def ledgerStart (T : Type) (limit : Nat) : System T QueueStats Reserver where
  memory := { queuedBytesLimit := limit, limits := [limit] }
  threads _ := {}

/-! ## What a thread knows -/

namespace ReservePlace

/-- The value a thread has written to `queued_bytes` and not yet compared with the
high-water mark. -/
def pending : ReservePlace → Nat
  | .raising _ replacement => replacement
  | .lifting _ replacement _ => replacement
  | _ => 0

/-- What a thread has reserved since its call began. -/
def gained : ReservePlace → Nat
  | .raising bytes _ => bytes
  | .lifting bytes _ _ => bytes
  | .returned bytes true => bytes
  | _ => 0

/-- What the numbers a thread holds are good for. -/
def Knows (stats : QueueStats) : ReservePlace → Prop
  | .limited _ maximum => maximum ∈ stats.limits
  | .trying bytes maximum _ => bytes ≤ maximum ∧ maximum ∈ stats.limits
  | .raising _ replacement => replacement ∈ stats.values
  | .lifting _ replacement highWater =>
      replacement ∈ stats.values ∧ highWater ≤ stats.queuedBytesHighWater
  | _ => True

theorem Knows.mono {stats stats' : QueueStats} {place : ReservePlace} (h : place.Knows stats)
    (hlimits : stats.limits ⊆ stats'.limits) (hvalues : stats.values ⊆ stats'.values)
    (hhigh : stats.queuedBytesHighWater ≤ stats'.queuedBytesHighWater) : place.Knows stats' := by
  cases place with
  | limited bytes maximum => exact hlimits h
  | trying bytes maximum current => exact ⟨h.1, hlimits h.2⟩
  | raising bytes replacement => exact hvalues h
  | lifting bytes replacement highWater => exact ⟨hvalues h.1, h.2.trans hhigh⟩
  | _ => trivial

/-- Without a call nothing is pending. -/
theorem AtRest.pending_eq {place : ReservePlace} (h : place.AtRest) : place.pending = 0 := by
  cases place with
  | idle => rfl
  | returned => rfl
  | _ => exact h.elim

end ReservePlace

/-- What a thread owns has come from its own calls. -/
structure Reserver.Honest (r : Reserver) : Prop where
  covered : r.released ≤ r.reserved
  gained : ¬ r.place = .idle → r.reserved = r.before + r.place.gained

variable {T : Type} [Fintype T] {sys sys' : System T QueueStats Reserver} {stats : QueueStats}
  {r : Reserver} {thread : T}

/-- **The invariant of the ledger.** -/
structure Balanced (sys : System T QueueStats Reserver) : Prop where
  counted : sys.memory.queuedBytes + sys.total Reserver.released = sys.total Reserver.reserved
  honest : ∀ thread, (sys.threads thread).Honest
  knows : ∀ thread, (sys.threads thread).place.Knows sys.memory
  current : sys.memory.queuedBytes ∈ sys.memory.values
  limit : sys.memory.queuedBytesLimit ∈ sys.memory.limits
  words : ∀ limit ∈ sys.memory.limits, limit < kWordSize
  bounded : ∀ value ∈ sys.memory.values, ∃ limit ∈ sys.memory.limits, value ≤ limit
  commits : ∀ commit ∈ sys.memory.commits, commit.1 ≤ commit.2 ∧ commit.2 ∈ sys.memory.limits
  reached : sys.memory.queuedBytesHighWater ∈ sys.memory.values
  marked : ∀ value ∈ sys.memory.values, value ≤ sys.memory.queuedBytesHighWater ∨
    ∃ thread, value ≤ (sys.threads thread).place.pending

theorem balanced_start {limit : Nat} (hword : limit < kWordSize) :
    Balanced (ledgerStart T limit) where
  counted := by simp [ledgerStart, System.total]
  honest _ := ⟨le_rfl, fun h => absurd rfl h⟩
  knows _ := trivial
  current := List.mem_singleton.mpr rfl
  limit := List.mem_singleton.mpr rfl
  words found hfound := by
    rw [List.mem_singleton.mp hfound]
    exact hword
  bounded value hvalue := by
    rw [List.mem_singleton.mp hvalue]
    exact ⟨limit, List.mem_singleton.mpr rfl, Nat.zero_le _⟩
  commits commit hcommit := by cases hcommit
  reached := List.mem_singleton.mpr rfl
  marked value hvalue := .inl (List.mem_singleton.mp hvalue).le

variable [DecidableEq T]

/-- Every value is still covered, by the mark or by the thread that has to compare
its value with it. -/
theorem Balanced.marked_update (h : Balanced sys)
    (hhigh : sys.memory.queuedBytesHighWater ≤ stats.queuedBytesHighWater)
    (hpending : (sys.threads thread).place.pending ≤ stats.queuedBytesHighWater ∨
      (sys.threads thread).place.pending ≤ r.place.pending)
    {value : Nat} (hvalue : value ∈ sys.memory.values) :
    value ≤ stats.queuedBytesHighWater ∨
      ∃ u, value ≤ (Function.update sys.threads thread r u).place.pending := by
  rcases h.marked value hvalue with hmark | ⟨u, hu⟩
  · exact .inl (hmark.trans hhigh)
  · by_cases hown : u = thread
    · subst hown
      rcases hpending with hpending | hpending
      · exact .inl (hu.trans hpending)
      · refine .inr ⟨u, ?_⟩
        rw [Function.update_self]
        exact hu.trans hpending
    · refine .inr ⟨u, ?_⟩
      rw [Function.update_of_ne hown]
      exact hu

/-- A step that takes from the counter what the thread gives back, and adds to it
what the thread reserves. -/
theorem Balanced.counted_update (h : Balanced sys) (stats : QueueStats) (thread : T) (r : Reserver)
    (hflow : stats.queuedBytes + r.released + (sys.threads thread).reserved =
      sys.memory.queuedBytes + (sys.threads thread).released + r.reserved) :
    stats.queuedBytes +
        System.total ⟨stats, Function.update sys.threads thread r⟩ Reserver.released =
      System.total ⟨stats, Function.update sys.threads thread r⟩ Reserver.reserved := by
  have hcounted := h.counted
  have hreserved := total_update sys stats thread r Reserver.reserved
  have hreleased := total_update sys stats thread r Reserver.released
  omega

/-- The parts of the invariant that one thread's step touches through the thread. -/
theorem Balanced.threads_update (h : Balanced sys) (stats : QueueStats) (thread : T)
    (hhonest : r.Honest) (hknows : r.place.Knows stats) (hlimits : sys.memory.limits ⊆ stats.limits)
    (hvalues : sys.memory.values ⊆ stats.values)
    (hhigh : sys.memory.queuedBytesHighWater ≤ stats.queuedBytesHighWater) (u : T) :
    (Function.update sys.threads thread r u).Honest ∧
      (Function.update sys.threads thread r u).place.Knows stats := by
  by_cases hown : u = thread
  · subst hown
    rw [Function.update_self]
    exact ⟨hhonest, hknows⟩
  · rw [Function.update_of_ne hown]
    exact ⟨h.honest u, (h.knows u).mono hlimits hvalues hhigh⟩

/-- A step that leaves the atomics alone. -/
theorem Balanced.stay (h : Balanced sys) (hreserved : r.reserved = (sys.threads thread).reserved)
    (hreleased : r.released = (sys.threads thread).released) (hhonest : r.Honest)
    (hknows : r.place.Knows sys.memory)
    (hpending : (sys.threads thread).place.pending ≤ sys.memory.queuedBytesHighWater ∨
      (sys.threads thread).place.pending ≤ r.place.pending) :
    Balanced ⟨sys.memory, Function.update sys.threads thread r⟩ := by
  have hthreads := h.threads_update sys.memory thread hhonest hknows (List.Subset.refl _)
    (List.Subset.refl _) le_rfl
  exact {
    counted := h.counted_update sys.memory thread r (by omega)
    honest := fun u => (hthreads u).1
    knows := fun u => (hthreads u).2
    current := h.current
    limit := h.limit
    words := h.words
    bounded := h.bounded
    commits := h.commits
    reached := h.reached
    marked := fun value hvalue => h.marked_update le_rfl hpending hvalue }

/-- A value that is at most one that was there before. -/
theorem Balanced.stored_below (h : Balanced sys) (thread : T) (r : Reserver) {value known : Nat}
    (hknown : known ∈ sys.memory.values) (hle : value ≤ known)
    (hpending : (sys.threads thread).place.pending ≤ sys.memory.queuedBytesHighWater ∨
      (sys.threads thread).place.pending ≤ r.place.pending) :
    (∃ limit ∈ sys.memory.limits, value ≤ limit) ∧
      (value ≤ sys.memory.queuedBytesHighWater ∨
        ∃ u, value ≤ (Function.update sys.threads thread r u).place.pending) := by
  obtain ⟨limit, hlimit, hbound⟩ := h.bounded known hknown
  refine ⟨⟨limit, hlimit, hle.trans hbound⟩, ?_⟩
  have hmarked : known ≤ sys.memory.queuedBytesHighWater ∨
      ∃ u, known ≤ (Function.update sys.threads thread r u).place.pending :=
    h.marked_update le_rfl hpending hknown
  rcases hmarked with hmark | ⟨u, hu⟩
  · exact .inl (hle.trans hmark)
  · exact .inr ⟨u, hle.trans hu⟩

/-- A successful compare-exchange on `queued_bytes`. -/
theorem Balanced.swap (h : Balanced sys) {bytes maximum current : Nat}
    (hplace : (sys.threads thread).place = .trying bytes maximum current)
    (hfits : current ≤ maximum - bytes) (hsame : sys.memory.queuedBytes = current) :
    Balanced
      ⟨{ sys.memory.store ((current + bytes) % kWordSize) with
          commits := ((current + bytes) % kWordSize, maximum) :: sys.memory.commits },
        Function.update sys.threads thread { sys.threads thread with
          place := .raising bytes ((current + bytes) % kWordSize)
          reserved := (sys.threads thread).reserved + bytes }⟩ := by
  have hknows := h.knows thread
  rw [hplace] at hknows
  obtain ⟨hsmall, hmaximum⟩ := hknows
  have hword := h.words maximum hmaximum
  -- the replacement is within the limit that was read, so it does not wrap
  have hmod : (current + bytes) % kWordSize = current + bytes := Nat.mod_eq_of_lt (by omega)
  rw [hmod]
  have hgained : (sys.threads thread).reserved = (sys.threads thread).before := by
    have hgained := (h.honest thread).gained (by simp [hplace])
    rwa [hplace] at hgained
  let r : Reserver := { sys.threads thread with
    place := .raising bytes (current + bytes)
    reserved := (sys.threads thread).reserved + bytes }
  let stats : QueueStats := { sys.memory.store (current + bytes) with
    commits := (current + bytes, maximum) :: sys.memory.commits }
  have hhonest : r.Honest := by
    refine ⟨(h.honest thread).covered.trans (Nat.le_add_right _ _), fun _ => ?_⟩
    exact congrArg (· + bytes) hgained
  have hthreads := h.threads_update stats thread hhonest List.mem_cons_self (List.Subset.refl _)
    (List.subset_cons_self _ _) le_rfl
  have hpending : (sys.threads thread).place.pending ≤ r.place.pending := by
    rw [hplace]
    exact Nat.zero_le _
  have hflow : current + bytes + (sys.threads thread).released + (sys.threads thread).reserved =
      sys.memory.queuedBytes + (sys.threads thread).released +
        ((sys.threads thread).reserved + bytes) := by omega
  exact {
    counted := h.counted_update stats thread r hflow
    honest := fun u => (hthreads u).1
    knows := fun u => (hthreads u).2
    current := List.mem_cons_self
    limit := h.limit
    words := h.words
    bounded := fun value hvalue => by
      rcases List.mem_cons.mp hvalue with rfl | hvalue
      · exact ⟨maximum, hmaximum, by omega⟩
      · exact h.bounded value hvalue
    commits := fun commit hcommit => by
      rcases List.mem_cons.mp hcommit with rfl | hcommit
      · exact ⟨by dsimp only; omega, hmaximum⟩
      · exact h.commits commit hcommit
    reached := List.mem_cons_of_mem _ h.reached
    marked := fun value hvalue => by
      rcases List.mem_cons.mp hvalue with rfl | hvalue
      · exact .inr ⟨thread, by simp [ReservePlace.pending]⟩
      · exact h.marked_update le_rfl (.inr hpending) hvalue }

/-- The counter covers what a thread owns: the other threads own the rest. -/
theorem Balanced.covers (h : Balanced sys) {bytes : Nat}
    (howned : (sys.threads thread).released + bytes ≤ (sys.threads thread).reserved) :
    bytes ≤ sys.memory.queuedBytes := by
  let r : Reserver := { sys.threads thread with released := (sys.threads thread).released + bytes }
  have hcounted := h.counted
  have hsum := total_update sys sys.memory thread r Reserver.reserved
  have hsum' := total_update sys sys.memory thread r Reserver.released
  have hreserved : r.reserved = (sys.threads thread).reserved := rfl
  have hreleased : r.released = (sys.threads thread).released + bytes := rfl
  have hothers : System.total ⟨sys.memory, Function.update sys.threads thread r⟩
      Reserver.released ≤ System.total ⟨sys.memory, Function.update sys.threads thread r⟩
        Reserver.reserved := by
    apply Finset.sum_le_sum
    intro u _
    by_cases hown : u = thread
    · subst hown
      simpa using howned
    · simpa [hown] using (h.honest u).covered
  omega

/-- `release_queued_bytes`. -/
theorem Balanced.release (h : Balanced sys) {bytes : Nat}
    (howned : (sys.threads thread).released + bytes ≤ (sys.threads thread).reserved) :
    Balanced
      ⟨sys.memory.store ((sys.memory.queuedBytes + (kWordSize - bytes)) % kWordSize),
        Function.update sys.threads thread { sys.threads thread with
          released := (sys.threads thread).released + bytes }⟩ := by
  let r : Reserver := { sys.threads thread with released := (sys.threads thread).released + bytes }
  obtain ⟨limit, hlimit, hbound⟩ := h.bounded _ h.current
  have hword := h.words limit hlimit
  have hcover := h.covers howned
  have hmod : (sys.memory.queuedBytes + (kWordSize - bytes)) % kWordSize =
      sys.memory.queuedBytes - bytes := by
    have hsplit : sys.memory.queuedBytes + (kWordSize - bytes) =
        (sys.memory.queuedBytes - bytes) + kWordSize := by omega
    rw [hsplit, Nat.add_mod_right, Nat.mod_eq_of_lt (by omega)]
  rw [hmod]
  have hhonest : r.Honest := ⟨howned, (h.honest thread).gained⟩
  let stats : QueueStats := sys.memory.store (sys.memory.queuedBytes - bytes)
  have hknows : r.place.Knows stats :=
    (h.knows thread).mono (List.Subset.refl _) (List.subset_cons_self _ _) le_rfl
  have hthreads := h.threads_update stats thread hhonest hknows (List.Subset.refl _)
    (List.subset_cons_self _ _) le_rfl
  have hflow : sys.memory.queuedBytes - bytes + ((sys.threads thread).released + bytes) +
      (sys.threads thread).reserved = sys.memory.queuedBytes + (sys.threads thread).released +
        (sys.threads thread).reserved := by omega
  have hbelow := h.stored_below thread r h.current (Nat.sub_le sys.memory.queuedBytes bytes)
    (.inr le_rfl)
  exact {
    counted := h.counted_update stats thread r hflow
    honest := fun u => (hthreads u).1
    knows := fun u => (hthreads u).2
    current := List.mem_cons_self
    limit := h.limit
    words := h.words
    bounded := fun value hvalue => by
      rcases List.mem_cons.mp hvalue with rfl | hvalue
      · exact hbelow.1
      · exact h.bounded value hvalue
    commits := h.commits
    reached := List.mem_cons_of_mem _ h.reached
    marked := fun value hvalue => by
      rcases List.mem_cons.mp hvalue with rfl | hvalue
      · exact hbelow.2
      · exact (h.stored_below thread r hvalue le_rfl (.inr le_rfl)).2 }

/-- A successful compare-exchange on the high-water mark. -/
theorem Balanced.lift (h : Balanced sys) {bytes replacement highWater : Nat}
    (hplace : (sys.threads thread).place = .lifting bytes replacement highWater)
    (hlow : highWater < replacement) (hsame : sys.memory.queuedBytesHighWater = highWater) :
    Balanced
      ⟨{ sys.memory with queuedBytesHighWater := replacement },
        Function.update sys.threads thread
          { sys.threads thread with place := .returned bytes true }⟩ := by
  let r : Reserver := { sys.threads thread with place := .returned bytes true }
  let stats : QueueStats := { sys.memory with queuedBytesHighWater := replacement }
  have hknows := h.knows thread
  rw [hplace] at hknows
  have hgained := (h.honest thread).gained (by simp [hplace])
  rw [hplace] at hgained
  have hhonest : r.Honest := ⟨(h.honest thread).covered, fun _ => hgained⟩
  have hhigh : sys.memory.queuedBytesHighWater ≤ stats.queuedBytesHighWater := by
    show _ ≤ replacement
    omega
  have hthreads := h.threads_update stats thread hhonest trivial (List.Subset.refl _)
    (List.Subset.refl _) hhigh
  have hpending : (sys.threads thread).place.pending ≤ stats.queuedBytesHighWater := by
    rw [hplace]
    exact le_rfl
  exact {
    counted := h.counted_update stats thread r rfl
    honest := fun u => (hthreads u).1
    knows := fun u => (hthreads u).2
    current := h.current
    limit := h.limit
    words := h.words
    bounded := h.bounded
    commits := h.commits
    reached := hknows.1
    marked := fun value hvalue => h.marked_update hhigh (.inl hpending) hvalue }

/-- `publish` stores a limit. -/
theorem Balanced.publish (h : Balanced sys) (thread : T) {limit : Nat} (hword : limit < kWordSize) :
    Balanced
      ⟨{ sys.memory with queuedBytesLimit := limit, limits := limit :: sys.memory.limits },
        Function.update sys.threads thread (sys.threads thread)⟩ := by
  rw [Function.update_eq_self]
  have hgrow : sys.memory.limits ⊆ limit :: sys.memory.limits := List.subset_cons_self _ _
  exact {
    counted := h.counted
    honest := h.honest
    knows := fun u => (h.knows u).mono hgrow (List.Subset.refl _) le_rfl
    current := h.current
    limit := List.mem_cons_self
    words := fun found hfound => by
      rcases List.mem_cons.mp hfound with rfl | hfound
      · exact hword
      · exact h.words found hfound
    bounded := fun value hvalue => by
      obtain ⟨found, hfound, hle⟩ := h.bounded value hvalue
      exact ⟨found, hgrow hfound, hle⟩
    commits := fun commit hcommit => by
      obtain ⟨hle, hfound⟩ := h.commits commit hcommit
      exact ⟨hle, hgrow hfound⟩
    reached := h.reached
    marked := h.marked }

/-- **Every step keeps the ledger balanced.** -/
theorem Balanced.step (h : Balanced sys) (hstep : Step ReserveStep sys sys') : Balanced sys' := by
  obtain ⟨thread, hact⟩ := hstep
  have hhonest := h.honest thread
  have hknows := h.knows thread
  have hgained := hhonest.gained
  -- a thread between two calls has nothing to compare; inside a call, its place says what it has
  cases hact with
  | call bytes hrest =>
      exact h.stay rfl rfl ⟨hhonest.covered, fun _ => rfl⟩ trivial
        (.inr (hrest.pending_eq.le.trans (Nat.zero_le _)))
  | loadLimit hplace =>
      rw [hplace] at hgained
      exact h.stay rfl rfl ⟨hhonest.covered, fun _ => hgained (by simp)⟩ h.limit
        (.inr (by rw [hplace]; exact le_rfl))
  | tooLarge hplace | full hplace =>
      rw [hplace] at hgained
      exact h.stay rfl rfl ⟨hhonest.covered, fun _ => hgained (by simp)⟩ trivial
        (.inr (by rw [hplace]; exact le_rfl))
  | loadQueued hplace hsmall =>
      rw [hplace] at hgained hknows
      exact h.stay rfl rfl ⟨hhonest.covered, fun _ => hgained (by simp)⟩ ⟨hsmall, hknows⟩
        (.inr (by rw [hplace]; exact le_rfl))
  | retry hplace =>
      rw [hplace] at hgained hknows
      exact h.stay rfl rfl ⟨hhonest.covered, fun _ => hgained (by simp)⟩ hknows
        (.inr (by rw [hplace]; exact le_rfl))
  | swap hplace hfits hsame => exact h.swap hplace hfits hsame
  | loadHighWater hplace =>
      rw [hplace] at hgained hknows
      exact h.stay rfl rfl ⟨hhonest.covered, fun _ => hgained (by simp)⟩ ⟨hknows, le_rfl⟩
        (.inr (by rw [hplace]; exact le_rfl))
  | enough hplace hhigh =>
      rw [hplace] at hgained hknows
      refine h.stay rfl rfl ⟨hhonest.covered, fun _ => hgained (by simp)⟩ trivial (.inl ?_)
      rw [hplace]
      exact (not_lt.mp hhigh).trans hknows.2
  | lift hplace hlow hsame => exact h.lift hplace hlow hsame
  | liftAgain hplace =>
      rw [hplace] at hgained hknows
      exact h.stay rfl rfl ⟨hhonest.covered, fun _ => hgained (by simp)⟩ ⟨hknows.1, le_rfl⟩
        (.inr (by rw [hplace]; exact le_rfl))
  | release bytes hrest howned => exact h.release howned
  | publish limit hrest hword => exact h.publish thread hword

/-- The invariant holds in every run. -/
theorem balanced_of_reaches {limit : Nat} (hword : limit < kWordSize)
    (h : Reaches ReserveStep (ledgerStart T limit) sys) : Balanced sys :=
  h.invariant (fun _ _ hstep hI => hI.step hstep) (balanced_start hword)

/-- **Byte reservations are linearizable.**  However the steps of any number of
threads interleave: `queued_bytes` is what was reserved less what was released, as
natural numbers; each reservation wrote a value within the limit it had read; so
no value was ever above the largest limit there was to read; a call that returned
`false` has reserved nothing and one that returned `true` its bytes, once; and while
no call is in progress the high-water mark is the largest value there ever was. -/
theorem reservations_linearizable {limit : Nat} (hword : limit < kWordSize)
    (h : Reaches ReserveStep (ledgerStart T limit) sys) :
    sys.memory.queuedBytes + sys.total Reserver.released = sys.total Reserver.reserved ∧
      sys.memory.queuedBytes < kWordSize ∧
      (∀ commit ∈ sys.memory.commits, commit.1 ≤ commit.2 ∧ commit.2 ∈ sys.memory.limits) ∧
      (∀ value ∈ sys.memory.values, ∃ limit ∈ sys.memory.limits, value ≤ limit) ∧
      (∀ thread bytes result, (sys.threads thread).place = .returned bytes result →
        (sys.threads thread).reserved =
          (sys.threads thread).before + if result then bytes else 0) ∧
      ((∀ thread, (sys.threads thread).place.AtRest) →
        IsGreatest {value | value ∈ sys.memory.values} sys.memory.queuedBytesHighWater) := by
  have hbalanced := balanced_of_reaches hword h
  refine ⟨hbalanced.counted, ?_, hbalanced.commits, hbalanced.bounded, ?_, ?_⟩
  · obtain ⟨found, hfound, hle⟩ := hbalanced.bounded _ hbalanced.current
    exact hle.trans_lt (hbalanced.words found hfound)
  · intro thread bytes result hplace
    have hgained := (hbalanced.honest thread).gained (by simp [hplace])
    rw [hgained, hplace]
    cases result with
    | false => rfl
    | true => rfl
  · intro hrest
    refine ⟨hbalanced.reached, fun value hvalue => ?_⟩
    rcases hbalanced.marked value hvalue with hle | ⟨thread, hle⟩
    · exact hle
    · rw [(hrest thread).pending_eq] at hle
      exact hle.trans (Nat.zero_le _)

/-- Two threads find nothing queued under a limit of eight.  One reserves its five bytes
first; the other, whose compare-exchange then fails, is refused its six; and two of the five
are given back. -/
theorem reservations_linearizable_five_less_two :
    ∃ sys : System Bool QueueStats Reserver, Reaches ReserveStep (ledgerStart Bool 8) sys ∧
      sys.memory.queuedBytes = 3 ∧ sys.memory.queuedBytesHighWater = 5 ∧
      (sys.threads false).place = .returned 6 false ∧ (sys.threads false).reserved = 0 ∧
      sys.memory.queuedBytes + sys.total Reserver.released = sys.total Reserver.reserved ∧
      IsGreatest {value | value ∈ sys.memory.values} 5 := by
  have hread := ((((((Relation.ReflTransGen.refl (r := Step ReserveStep)
    (a := ledgerStart Bool 8)).tail
    (.act true (.call _ _ 5 trivial))).tail (.act false (.call _ _ 6 trivial))).tail
    (.act true (.loadLimit _ _ rfl))).tail (.act false (.loadLimit _ _ rfl))).tail
    (.act true (.loadQueued _ _ rfl (by decide)))).tail
    (.act false (.loadQueued _ _ rfl (by decide)))
  have hraced := ((hread.tail
    (.act true (.swap _ _ rfl (by decide) rfl))).tail
    (.act false (.retry _ _ rfl (by decide)))).tail
    (.act false (.full _ _ rfl (by decide)))
  have hrun := ((hraced.tail
    (.act true (.loadHighWater _ _ rfl))).tail
    (.act true (.lift _ _ rfl (by decide) rfl))).tail
    (.act true (.release _ _ 2 trivial (by decide)))
  obtain ⟨hcounted, _, _, _, hreturned, hgreatest⟩ := reservations_linearizable (by decide) hrun
  refine ⟨_, hrun, rfl, rfl, rfl, hreturned false 6 false rfl, hcounted, hgreatest ?_⟩
  intro thread
  cases thread with
  | false => trivial
  | true => trivial

end PoolLb
