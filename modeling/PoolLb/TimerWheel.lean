import Mathlib.Data.List.AList
import Mathlib.Data.List.Nodup
import Mathlib.Tactic.Common

/-!
# The timer wheel of a reactor

A ring of one-second buckets (`src/net/timer_wheel.cpp`).  Each live session
owns at most one entry; `locations` records the bucket and the slot of that
entry, so that `cancel` can remove it by moving the last entry of the bucket
into its place.  `advance` drains one bucket per elapsed tick, hands out the
entries that are due and puts back those that belong to a later rotation.

`Consistent` is the representation invariant: slots and locations name each
other exactly, every entry lies in the bucket of its tick, and no entry is
overdue.  This file shows that `cancel`, with its swap, keeps it and removes
exactly one session's entry.

Clock readings are nanoseconds since the epoch of the steady clock, which is
never negative.
-/

namespace PoolLb

/-- Nanoseconds in a second, the unit of the clock readings below. -/
def kNanosecondsPerSecond : Nat := 1000000000

/-- What the wheel hands back for an expired entry. -/
structure TimerExpiry where
  sessionId : Nat
  generation : Nat
deriving DecidableEq, Repr

namespace TimerWheel

/-- Number of buckets of the ring. -/
def kBucketCount : Nat := 4096

/-- A scheduled deadline. -/
structure Entry where
  expiry : TimerExpiry
  dueTick : Nat
deriving DecidableEq, Repr

/-- Where the entry of a session is stored. -/
structure Location where
  bucket : Nat
  index : Nat
deriving DecidableEq, Repr

end TimerWheel

open TimerWheel

/-- The wheel.  The buckets are indexed by residues modulo `kBucketCount`. -/
structure TimerWheel where
  buckets : Nat → List Entry
  locations : AList (fun _ : Nat => Location)
  currentTick : Nat

namespace TimerWheel

/-- `tick_floor`: whole seconds elapsed at a clock reading. -/
def tickFloor (time : Nat) : Nat := time / kNanosecondsPerSecond

/-- `tick_at_or_after`: the first whole second not before a clock reading. -/
def tickAtOrAfter (time : Nat) : Nat :=
  let wholeSeconds := time / kNanosecondsPerSecond
  if wholeSeconds * kNanosecondsPerSecond < time then wholeSeconds + 1 else wholeSeconds

/-- A fresh wheel at clock reading `now`. -/
def new (now : Nat) : TimerWheel where
  buckets := fun _ => []
  locations := ∅
  currentTick := tickFloor now

/-- `size()`. -/
def size (wheel : TimerWheel) : Nat := wheel.locations.keys.length

/-- Replace the contents of one bucket. -/
def setBucket (wheel : TimerWheel) (bucket : Nat) (entries : List Entry) : TimerWheel :=
  { wheel with buckets := fun b => if b = bucket then entries else wheel.buckets b }

/-- `insert`: append the entry to the bucket of its tick. -/
def insert (wheel : TimerWheel) (entry : Entry) : TimerWheel :=
  let bucketIndex := entry.dueTick % kBucketCount
  let bucket := wheel.buckets bucketIndex
  { wheel.setBucket bucketIndex (bucket ++ [entry]) with
    locations := wheel.locations.insert entry.expiry.sessionId
      { bucket := bucketIndex, index := bucket.length } }

/-- `cancel`: swap the entry with the last one of its bucket and pop it. -/
def cancel (wheel : TimerWheel) (sessionId : Nat) : TimerWheel :=
  match wheel.locations.lookup sessionId with
  | none => wheel
  | some location =>
      let bucket := wheel.buckets location.bucket
      let last := bucket.length - 1
      match (if location.index ≠ last then bucket[last]? else none) with
      | some moved =>
          let locations :=
            match wheel.locations.lookup moved.expiry.sessionId with
            | some _ => wheel.locations.insert moved.expiry.sessionId location
            | none => wheel.locations
          { wheel.setBucket location.bucket (bucket.set location.index moved).dropLast with
            locations := locations.erase sessionId }
      | none =>
          { wheel.setBucket location.bucket bucket.dropLast with
            locations := wheel.locations.erase sessionId }

/-- `schedule`: replace whatever entry the session had. -/
def schedule (wheel : TimerWheel) (sessionId generation deadline : Nat) : TimerWheel :=
  let wheel := wheel.cancel sessionId
  wheel.insert
    { expiry := { sessionId := sessionId, generation := generation }
      dueTick := max (tickAtOrAfter deadline) (wheel.currentTick + 1) }

/-- One entry of the bucket being drained: it has expired, or it is put back. -/
def drainEntry (state : TimerWheel × List TimerExpiry) (entry : Entry) :
    TimerWheel × List TimerExpiry :=
  let wheel := { state.1 with locations := state.1.locations.erase entry.expiry.sessionId }
  if entry.dueTick ≤ wheel.currentTick then (wheel, state.2 ++ [entry.expiry])
  else (wheel.insert entry, state.2)

/-- One iteration of the loop of `advance`: the next tick and its bucket. -/
def drainTick (state : TimerWheel × List TimerExpiry) : TimerWheel × List TimerExpiry :=
  let wheel := { state.1 with currentTick := state.1.currentTick + 1 }
  let bucketIndex := wheel.currentTick % kBucketCount
  (wheel.buckets bucketIndex).foldl drainEntry (wheel.setBucket bucketIndex [], state.2)

/-- The loop of `advance`, one iteration per tick still to go. -/
def drainTicks : Nat → TimerWheel × List TimerExpiry → TimerWheel × List TimerExpiry
  | 0, state => state
  | ticks + 1, state => drainTicks ticks (drainTick state)

/-- `advance`: move the wheel to `now` and collect what has expired. -/
def advance (wheel : TimerWheel) (now : Nat) : TimerWheel × List TimerExpiry :=
  drainTicks (tickFloor now - wheel.currentTick) (wheel, [])

/-! ## The representation invariant -/

/-- The entry `e` is stored at the location `loc`. -/
def At (wheel : TimerWheel) (loc : Location) (e : Entry) : Prop :=
  (wheel.buckets loc.bucket)[loc.index]? = some e

/-- The entry `e` is stored somewhere. -/
def Stored (wheel : TimerWheel) (e : Entry) : Prop := ∃ loc, wheel.At loc e

/-- Slots and locations name each other exactly, entries lie in the bucket of
their tick, and none is overdue. -/
structure Consistent (wheel : TimerWheel) : Prop where
  located : ∀ loc e, wheel.At loc e → wheel.locations.lookup e.expiry.sessionId = some loc
  occupied : ∀ id loc, wheel.locations.lookup id = some loc →
    ∃ e, wheel.At loc e ∧ e.expiry.sessionId = id
  placed : ∀ loc e, wheel.At loc e → loc.bucket = e.dueTick % kBucketCount
  upcoming : ∀ e, wheel.Stored e → wheel.currentTick < e.dueTick

/-- A consistent wheel stores one entry per session. -/
theorem Consistent.unique {wheel : TimerWheel} (h : wheel.Consistent) {e e' : Entry}
    (he : wheel.Stored e) (he' : wheel.Stored e')
    (hid : e.expiry.sessionId = e'.expiry.sessionId) : e = e' := by
  obtain ⟨loc, hloc⟩ := he
  obtain ⟨loc', hloc'⟩ := he'
  have hl := h.located loc e hloc
  rw [hid, h.located loc' e' hloc', Option.some.injEq] at hl
  subst hl
  exact Option.some.inj (hloc.symm.trans hloc')

/-- A session has a location exactly when an entry of it is stored. -/
theorem Consistent.mem_locations {wheel : TimerWheel} (h : wheel.Consistent) (id : Nat) :
    id ∈ wheel.locations ↔ ∃ e, wheel.Stored e ∧ e.expiry.sessionId = id := by
  rw [← AList.lookup_isSome, Option.isSome_iff_exists]
  constructor
  · rintro ⟨loc, hloc⟩
    obtain ⟨e, he, hid⟩ := h.occupied id loc hloc
    exact ⟨e, ⟨loc, he⟩, hid⟩
  · rintro ⟨e, ⟨loc, he⟩, rfl⟩
    exact ⟨loc, h.located loc e he⟩

/-- A new wheel is empty. -/
theorem new_consistent (now : Nat) : (new now).Consistent := by
  constructor <;> simp [new, At, Stored]

/-! ## Inserting -/

/-- Slots after an insertion: the old ones, and one new at the end. -/
theorem insert_at {wheel : TimerWheel} {entry e : Entry} {loc : Location} :
    (wheel.insert entry).At loc e ↔
      wheel.At loc e ∨ (e = entry ∧ loc =
        { bucket := entry.dueTick % kBucketCount
          index := (wheel.buckets (entry.dueTick % kBucketCount)).length }) := by
  rcases loc with ⟨b, i⟩
  by_cases hb : b = entry.dueTick % kBucketCount
  · subst hb
    simp only [At, insert, setBucket, if_true, List.getElem?_append, Location.mk.injEq, true_and]
    split
    · rename_i hlt
      exact ⟨Or.inl, fun h => h.elim id (fun h => absurd h.2 (Nat.ne_of_lt hlt))⟩
    · rename_i hge
      have hnone : (wheel.buckets (entry.dueTick % kBucketCount))[i]? = none :=
        List.getElem?_eq_none (Nat.not_lt.mp hge)
      rw [hnone, List.getElem?_singleton]
      split
      · constructor
        · intro h
          exact Or.inr ⟨(Option.some.inj h).symm, by omega⟩
        · rintro (h | ⟨rfl, -⟩)
          · cases h
          · rfl
      · constructor
        · intro h; cases h
        · rintro (h | ⟨-, h⟩)
          · cases h
          · omega
  · simp [At, insert, setBucket, hb]

/-- An insertion adds its entry. -/
theorem insert_stored {wheel : TimerWheel} {entry e : Entry} :
    (wheel.insert entry).Stored e ↔ wheel.Stored e ∨ e = entry := by
  simp only [Stored, insert_at]
  constructor
  · rintro ⟨loc, h | ⟨rfl, -⟩⟩
    · exact Or.inl ⟨loc, h⟩
    · exact Or.inr rfl
  · rintro (⟨loc, h⟩ | rfl)
    · exact ⟨loc, Or.inl h⟩
    · exact ⟨_, Or.inr ⟨rfl, rfl⟩⟩

@[simp] theorem insert_currentTick (wheel : TimerWheel) (entry : Entry) :
    (wheel.insert entry).currentTick = wheel.currentTick := rfl

/-! ## Cancelling -/

@[simp] theorem cancel_currentTick (wheel : TimerWheel) (id : Nat) :
    (wheel.cancel id).currentTick = wheel.currentTick := by
  unfold cancel
  split
  · rfl
  · dsimp only
    split <;> rfl

/-- The slots of a bucket from which slot `i` has been removed by moving the
last entry into it. -/
private theorem removed_getElem? {entries : List Entry} {i j : Nat} {moved e : Entry}
    (hlen : i < entries.length) :
    (entries.set i moved).dropLast[j]? = some e ↔
      j < entries.length - 1 ∧ ((j = i ∧ e = moved) ∨ (j ≠ i ∧ entries[j]? = some e)) := by
  rw [List.getElem?_dropLast, List.length_set]
  by_cases hj : j < entries.length - 1
  · rw [if_pos hj, List.getElem?_set]
    by_cases hij : i = j
    · subst hij
      simp [hlen, hj, eq_comm]
    · simp [hij, hj, Ne.symm hij]
  · simp [hj]

/-- Both branches of `cancel` do the same: with `moved` the last entry of the
bucket, slot `location.index` receives `moved`, the bucket shrinks by one, and
the location of `moved` follows it. -/
private theorem Consistent.cancel_shape {wheel : TimerWheel} (h : wheel.Consistent)
    {id : Nat} {location : Location} (hloc : wheel.locations.lookup id = some location) :
    ∃ moved,
      wheel.At ⟨location.bucket, (wheel.buckets location.bucket).length - 1⟩ moved ∧
      location.index < (wheel.buckets location.bucket).length ∧
      (∀ b, (wheel.cancel id).buckets b =
        if b = location.bucket then ((wheel.buckets b).set location.index moved).dropLast
        else wheel.buckets b) ∧
      ∀ j, (wheel.cancel id).locations.lookup j =
        if j = id then none
        else if j = moved.expiry.sessionId then some location
        else wheel.locations.lookup j := by
  obtain ⟨entry, hentry, hid⟩ := h.occupied id location hloc
  have hlen : location.index < (wheel.buckets location.bucket).length :=
    (List.getElem?_eq_some_iff.mp hentry).1
  obtain ⟨moved, hmoved⟩ : ∃ moved,
      (wheel.buckets location.bucket)[(wheel.buckets location.bucket).length - 1]? =
        some moved :=
    ⟨_, List.getElem?_eq_getElem (by omega)⟩
  refine ⟨moved, hmoved, hlen, ?_⟩
  by_cases hlast : location.index = (wheel.buckets location.bucket).length - 1
  · -- the entry is already the last one, so it is itself the entry that moves
    have hself : moved = entry := by
      rw [← hlast] at hmoved
      exact Option.some.inj (hmoved.symm.trans hentry)
    subst hself
    have hset : (wheel.buckets location.bucket).set location.index moved =
        wheel.buckets location.bucket := by
      obtain ⟨hlt, heq⟩ := List.getElem?_eq_some_iff.mp hentry
      rw [← heq]
      exact List.set_getElem_self hlt
    constructor
    · intro b
      by_cases hb : b = location.bucket
      · subst hb
        simp only [if_true, hset]
        simp [cancel, hloc, hlast, setBucket]
      · simp [cancel, hloc, hlast, setBucket, hb]
    · intro j
      by_cases hj : j = id
      · subst hj
        simp [cancel, hloc, hlast]
      · simp [cancel, hloc, hlast, hj, hid, AList.lookup_erase_ne hj]
  · have hpresent := h.located
      ⟨location.bucket, (wheel.buckets location.bucket).length - 1⟩ moved hmoved
    constructor
    · intro b
      by_cases hb : b = location.bucket
      · subst hb
        simp [cancel, hloc, hlast, hmoved, setBucket]
      · simp [cancel, hloc, hlast, hmoved, setBucket, hb]
    · intro j
      by_cases hj : j = id
      · subst hj
        simp [cancel, hloc, hlast, hmoved]
      · rw [if_neg hj]
        simp only [cancel, hloc, ne_eq, hlast, not_false_eq_true, if_true, hmoved, hpresent,
          AList.lookup_erase_ne hj]
        by_cases hjm : j = moved.expiry.sessionId
        · subst hjm
          simp
        · rw [if_neg hjm, AList.lookup_insert_ne hjm]

/-- An entry lies in one slot only. -/
theorem Consistent.at_inj {wheel : TimerWheel} (h : wheel.Consistent) {loc loc' : Location}
    {e : Entry} (he : wheel.At loc e) (he' : wheel.At loc' e) : loc = loc' :=
  Option.some.inj ((h.located loc e he).symm.trans (h.located loc' e he'))

/-- The entry of a session is the one in the slot of its location. -/
theorem Consistent.sessionId_eq_iff {wheel : TimerWheel} (h : wheel.Consistent) {id : Nat}
    {location loc : Location} {e : Entry} (hloc : wheel.locations.lookup id = some location)
    (he : wheel.At loc e) : e.expiry.sessionId = id ↔ loc = location := by
  constructor
  · intro hid
    have hl := h.located loc e he
    rw [hid, hloc] at hl
    exact (Option.some.inj hl).symm
  · intro hl
    obtain ⟨entry, hentry, hid⟩ := h.occupied id location hloc
    rw [← hl] at hentry
    rw [Option.some.inj (he.symm.trans hentry), hid]

/-- The slots of the bucket in which `cancel` frees one, with `moved` its last entry. -/
private theorem Consistent.cancel_slot {wheel : TimerWheel} (h : wheel.Consistent)
    {id b freed : Nat} (hloc : wheel.locations.lookup id = some ⟨b, freed⟩) {moved : Entry}
    (hmoved : wheel.At ⟨b, (wheel.buckets b).length - 1⟩ moved)
    (hlen : freed < (wheel.buckets b).length) (i : Nat) (e : Entry) :
    ((wheel.buckets b).set freed moved).dropLast[i]? = some e ↔
      e.expiry.sessionId ≠ id ∧
        ((e = moved ∧ i = freed) ∨ (e ≠ moved ∧ wheel.At ⟨b, i⟩ e)) := by
  rw [removed_getElem? hlen]
  constructor
  · intro hslot
    obtain ⟨hlt, ⟨hi, he⟩ | ⟨hi, hat⟩⟩ := hslot
    · subst hi he
      refine ⟨fun hid => ?_, .inl ⟨rfl, rfl⟩⟩
      have hlast := congrArg Location.index ((h.sessionId_eq_iff hloc hmoved).mp hid)
      exact Nat.ne_of_lt hlt hlast.symm
    · have hat : wheel.At ⟨b, i⟩ e := hat
      refine ⟨fun hid => ?_, .inr ⟨fun he => ?_, hat⟩⟩
      · exact hi (congrArg Location.index ((h.sessionId_eq_iff hloc hat).mp hid))
      · subst he
        exact Nat.ne_of_lt hlt (congrArg Location.index (h.at_inj hat hmoved))
  · intro hslot
    obtain ⟨hid, ⟨he, hi⟩ | ⟨he, hat⟩⟩ := hslot
    · subst hi he
      refine ⟨?_, .inl ⟨rfl, rfl⟩⟩
      -- the freed slot is not the last one, whose entry is of another session
      have hne : i ≠ (wheel.buckets b).length - 1 := by
        intro hlast
        exact hid ((h.sessionId_eq_iff hloc hmoved).mpr (by rw [hlast]))
      omega
    · have hbound : i < (wheel.buckets b).length := (List.getElem?_eq_some_iff.mp hat).1
      have hne : i ≠ (wheel.buckets b).length - 1 := by
        intro hlast
        rw [← hlast] at hmoved
        exact he (Option.some.inj (hat.symm.trans hmoved))
      refine ⟨by omega, .inr ⟨fun hi => ?_, hat⟩⟩
      exact hid ((h.sessionId_eq_iff hloc hat).mpr (by rw [hi]))

/-- **Slots after `cancel`**: the entries of the other sessions stay where they
were, except that the last one of the bucket moves to the freed slot. -/
private theorem Consistent.cancel_at {wheel : TimerWheel} (h : wheel.Consistent)
    {id : Nat} {location : Location} (hloc : wheel.locations.lookup id = some location)
    {moved : Entry}
    (hmoved : wheel.At
      ⟨location.bucket, (wheel.buckets location.bucket).length - 1⟩ moved)
    (hlen : location.index < (wheel.buckets location.bucket).length)
    (hbuckets : ∀ b, (wheel.cancel id).buckets b =
        if b = location.bucket then ((wheel.buckets b).set location.index moved).dropLast
        else wheel.buckets b) (loc : Location) (e : Entry) :
    (wheel.cancel id).At loc e ↔
      e.expiry.sessionId ≠ id ∧
        ((e = moved ∧ loc = location) ∨ (e ≠ moved ∧ wheel.At loc e)) := by
  obtain ⟨b, i⟩ := loc
  obtain ⟨freedBucket, freed⟩ := location
  by_cases hb : b = freedBucket
  · subst hb
    have hslot := h.cancel_slot hloc hmoved hlen i e
    simp only [At, hbuckets, if_true, Location.mk.injEq, true_and] at hslot ⊢
    exact hslot
  · have hsame : (wheel.cancel id).At ⟨b, i⟩ e ↔ wheel.At ⟨b, i⟩ e := by
      simp only [At, hbuckets, if_neg hb]
    rw [hsame]
    constructor
    · intro hat
      refine ⟨fun hid => ?_, .inr ⟨fun he => ?_, hat⟩⟩
      · exact hb (congrArg Location.bucket ((h.sessionId_eq_iff hloc hat).mp hid))
      · subst he
        exact hb (congrArg Location.bucket (h.at_inj hat hmoved))
    · intro hcase
      obtain ⟨_, ⟨_, hl⟩ | ⟨_, hat⟩⟩ := hcase
      · exact absurd (congrArg Location.bucket hl) hb
      · exact hat

/-- **What `cancel` leaves behind**: the entries of the other sessions. -/
theorem Consistent.cancel_stored {wheel : TimerWheel} (h : wheel.Consistent) (id : Nat)
    (e : Entry) :
    (wheel.cancel id).Stored e ↔ wheel.Stored e ∧ e.expiry.sessionId ≠ id := by
  cases hloc : wheel.locations.lookup id with
  | none =>
      have hsame : wheel.cancel id = wheel := by simp [cancel, hloc]
      rw [hsame]
      refine ⟨fun he => ⟨he, ?_⟩, fun he => he.1⟩
      rintro rfl
      obtain ⟨loc, hat⟩ := he
      rw [h.located loc e hat] at hloc
      cases hloc
  | some location =>
      obtain ⟨moved, hmoved, hlen, hbuckets, -⟩ := h.cancel_shape hloc
      have hat := h.cancel_at hloc hmoved hlen hbuckets
      constructor
      · rintro ⟨loc, he⟩
        obtain ⟨hne, ⟨rfl, -⟩ | ⟨-, he⟩⟩ := (hat loc e).mp he
        · exact ⟨⟨_, hmoved⟩, hne⟩
        · exact ⟨⟨loc, he⟩, hne⟩
      · rintro ⟨⟨loc, he⟩, hne⟩
        by_cases hm : e = moved
        · exact ⟨location, (hat _ _).mpr ⟨hne, Or.inl ⟨hm, rfl⟩⟩⟩
        · exact ⟨loc, (hat _ _).mpr ⟨hne, Or.inr ⟨hm, he⟩⟩⟩

/-- **`cancel` keeps slots and locations in step.** -/
theorem Consistent.cancel {wheel : TimerWheel} (h : wheel.Consistent) (id : Nat) :
    (wheel.cancel id).Consistent := by
  cases hloc : wheel.locations.lookup id with
  | none =>
      have hsame : wheel.cancel id = wheel := by simp [TimerWheel.cancel, hloc]
      rwa [hsame]
  | some location =>
      obtain ⟨moved, hmoved, hlen, hbuckets, hlookup⟩ := h.cancel_shape hloc
      have hat := h.cancel_at hloc hmoved hlen hbuckets
      constructor
      · intro loc e he
        obtain ⟨hne, ⟨rfl, rfl⟩ | ⟨hm, he⟩⟩ := (hat loc e).mp he
        · rw [hlookup, if_neg hne, if_pos rfl]
        · rw [hlookup, if_neg hne, if_neg, h.located loc e he]
          exact fun hid => hm (h.unique ⟨loc, he⟩ ⟨_, hmoved⟩ hid)
      · intro j loc hj
        rw [hlookup] at hj
        by_cases hjid : j = id
        · simp [hjid] at hj
        · rw [if_neg hjid] at hj
          by_cases hjm : j = moved.expiry.sessionId
          · subst hjm
            rw [if_pos rfl, Option.some.injEq] at hj
            exact ⟨moved, (hat _ _).mpr ⟨hjid, Or.inl ⟨rfl, hj.symm⟩⟩, rfl⟩
          · rw [if_neg hjm] at hj
            obtain ⟨e, he, rfl⟩ := h.occupied j loc hj
            refine ⟨e, (hat _ _).mpr ⟨hjid, Or.inr ⟨?_, he⟩⟩, rfl⟩
            rintro rfl
            exact hjm rfl
      · intro loc e he
        obtain ⟨-, ⟨rfl, rfl⟩ | ⟨-, he⟩⟩ := (hat loc e).mp he
        · have hplaced := h.placed _ _ hmoved
          exact hplaced
        · exact h.placed loc e he
      · intro e he
        rw [cancel_currentTick]
        exact h.upcoming e ((h.cancel_stored id e).mp he).1

end TimerWheel

end PoolLb
