import PoolLb.TimerWheel

/-!
# Draining the timer wheel

`advance` takes the bucket of each elapsed tick out of the ring, hands out the
entries that are due and inserts the others again, into the very bucket being
drained.  While this goes on the entries still to be looked at are in no
bucket and their locations dangle: `Draining` is the invariant of that loop,
and `Consistent` is the case where nothing is left.  `Collected` is the
invariant of the loop over the ticks, from which `Consistent.advance` follows
for any number of rotations.
-/

namespace PoolLb

namespace TimerWheel

/-! ## The invariant of the drain loop -/

/-- The state of the drain loop: `rest` are the entries taken out of the bucket
and not looked at yet.  Their locations still stand, dangling. -/
structure Draining (wheel : TimerWheel) (rest : List Entry) : Prop where
  located : ∀ loc e, wheel.At loc e → wheel.locations.lookup e.expiry.sessionId = some loc
  occupied : ∀ id loc, wheel.locations.lookup id = some loc →
    (∃ e, wheel.At loc e ∧ e.expiry.sessionId = id) ∨ ∃ e ∈ rest, e.expiry.sessionId = id
  placed : ∀ loc e, wheel.At loc e → loc.bucket = e.dueTick % kBucketCount
  upcoming : ∀ e, wheel.Stored e → wheel.currentTick < e.dueTick
  apart : ∀ e ∈ rest, ∀ e', wheel.Stored e' → e'.expiry.sessionId ≠ e.expiry.sessionId
  nodup : (rest.map (fun e => e.expiry.sessionId)).Nodup

/-- Outside the loop nothing is left to look at. -/
theorem Consistent.draining {wheel : TimerWheel} (h : wheel.Consistent) :
    wheel.Draining [] where
  located := h.located
  occupied := fun id loc hid => Or.inl (h.occupied id loc hid)
  placed := h.placed
  upcoming := h.upcoming
  apart := by simp
  nodup := List.nodup_nil

/-- With nothing left to look at, the loop has restored the invariant. -/
theorem Draining.done {wheel : TimerWheel} (h : wheel.Draining []) : wheel.Consistent where
  located := h.located
  occupied := fun id loc hid => (h.occupied id loc hid).resolve_right (by simp)
  placed := h.placed
  upcoming := h.upcoming

/-- Forgetting the location of the next entry of the loop. -/
private theorem Draining.forget {wheel : TimerWheel} {entry : Entry} {rest : List Entry}
    (h : wheel.Draining (entry :: rest)) :
    ({ wheel with locations := wheel.locations.erase entry.expiry.sessionId } :
      TimerWheel).Draining rest where
  located := by
    intro loc e he
    rw [AList.lookup_erase_ne (h.apart entry List.mem_cons_self e ⟨loc, he⟩)]
    exact h.located loc e he
  occupied := by
    intro id loc hid
    have hne : id ≠ entry.expiry.sessionId := by
      rintro rfl
      simp at hid
    rw [AList.lookup_erase_ne hne] at hid
    rcases h.occupied id loc hid with hat | ⟨e, he, rfl⟩
    · exact Or.inl hat
    · rcases List.mem_cons.mp he with rfl | he
      · exact absurd rfl hne
      · exact Or.inr ⟨e, he, rfl⟩
  placed := h.placed
  upcoming := h.upcoming
  apart := fun e he => h.apart e (List.mem_cons_of_mem _ he)
  nodup := (List.nodup_cons.mp h.nodup).2

/-- Putting an entry back keeps the loop invariant. -/
private theorem Draining.insert {wheel : TimerWheel} {entry : Entry} {rest : List Entry}
    (h : wheel.Draining rest)
    (hfresh : ∀ e, wheel.Stored e → e.expiry.sessionId ≠ entry.expiry.sessionId)
    (hrest : ∀ e ∈ rest, entry.expiry.sessionId ≠ e.expiry.sessionId)
    (hdue : wheel.currentTick < entry.dueTick) : (wheel.insert entry).Draining rest where
  located := by
    intro loc e he
    rcases insert_at.mp he with he | ⟨rfl, rfl⟩
    · have hne := hfresh e ⟨loc, he⟩
      simpa [TimerWheel.insert, AList.lookup_insert_ne hne] using h.located loc e he
    · simp [TimerWheel.insert]
  occupied := by
    intro id loc hid
    by_cases heq : id = entry.expiry.sessionId
    · subst heq
      refine Or.inl ⟨entry, insert_at.mpr (Or.inr ⟨rfl, ?_⟩), rfl⟩
      simpa [TimerWheel.insert, eq_comm] using hid
    · have hold : wheel.locations.lookup id = some loc := by
        simpa [TimerWheel.insert, AList.lookup_insert_ne heq] using hid
      rcases h.occupied id loc hold with ⟨e, he, hide⟩ | hr
      · exact Or.inl ⟨e, insert_at.mpr (Or.inl he), hide⟩
      · exact Or.inr hr
  placed := by
    intro loc e he
    rcases insert_at.mp he with he | ⟨rfl, rfl⟩
    · exact h.placed loc e he
    · rfl
  upcoming := by
    intro e he
    rcases insert_stored.mp he with he | rfl
    · exact h.upcoming e he
    · exact hdue
  apart := by
    intro e he e' he'
    rcases insert_stored.mp he' with he' | rfl
    · exact h.apart e he e' he'
    · exact hrest e he
  nodup := h.nodup

/-! ## Scheduling -/

/-- An entry of a session without one may be inserted. -/
theorem Consistent.insert {wheel : TimerWheel} (h : wheel.Consistent) {entry : Entry}
    (hfresh : ∀ e, wheel.Stored e → e.expiry.sessionId ≠ entry.expiry.sessionId)
    (hdue : wheel.currentTick < entry.dueTick) : (wheel.insert entry).Consistent :=
  (h.draining.insert hfresh (by simp) hdue).done

/-- The tick at which an entry with this deadline falls due when it is
scheduled on a wheel standing at `currentTick`. -/
def dueTickOf (currentTick deadline : Nat) : Nat :=
  max (tickAtOrAfter deadline) (currentTick + 1)

@[simp] theorem schedule_currentTick (wheel : TimerWheel) (id generation deadline : Nat) :
    (wheel.schedule id generation deadline).currentTick = wheel.currentTick := by
  simp [schedule]

/-- **What `schedule` leaves behind**: the new entry and those of the other
sessions. -/
theorem Consistent.schedule_stored {wheel : TimerWheel} (h : wheel.Consistent)
    (id generation deadline : Nat) (e : Entry) :
    (wheel.schedule id generation deadline).Stored e ↔
      (wheel.Stored e ∧ e.expiry.sessionId ≠ id) ∨
        e = ⟨⟨id, generation⟩, dueTickOf wheel.currentTick deadline⟩ := by
  simp [TimerWheel.schedule, insert_stored, h.cancel_stored, dueTickOf]

/-- **`schedule` keeps slots and locations in step.** -/
theorem Consistent.schedule {wheel : TimerWheel} (h : wheel.Consistent)
    (id generation deadline : Nat) : (wheel.schedule id generation deadline).Consistent := by
  unfold TimerWheel.schedule
  refine (h.cancel id).insert ?_ ?_
  · intro e he
    exact ((h.cancel_stored id e).mp he).2
  · exact Nat.lt_of_lt_of_le (Nat.lt_succ_self _) (Nat.le_max_right _ _)

/-! ## Advancing -/

/-- **One iteration of the drain loop.** -/
theorem Draining.drainEntry {wheel : TimerWheel} {entry : Entry} {rest : List Entry}
    (h : wheel.Draining (entry :: rest)) (expired : List TimerExpiry) :
    (drainEntry (wheel, expired) entry).1.Draining rest ∧
    (TimerWheel.drainEntry (wheel, expired) entry).1.currentTick = wheel.currentTick ∧
    (∀ e, (TimerWheel.drainEntry (wheel, expired) entry).1.Stored e ↔
      wheel.Stored e ∨ (e = entry ∧ wheel.currentTick < e.dueTick)) ∧
    (TimerWheel.drainEntry (wheel, expired) entry).2 =
      expired ++ if entry.dueTick ≤ wheel.currentTick then [entry.expiry] else [] := by
  by_cases hdue : entry.dueTick ≤ wheel.currentTick
  · have hstate : TimerWheel.drainEntry (wheel, expired) entry =
        ({ wheel with locations := wheel.locations.erase entry.expiry.sessionId },
          expired ++ [entry.expiry]) := by
      simp [TimerWheel.drainEntry, hdue]
    rw [hstate, if_pos hdue]
    refine ⟨h.forget, rfl, ?_, rfl⟩
    intro e
    refine ⟨Or.inl, ?_⟩
    rintro (he | ⟨rfl, hlt⟩)
    · exact he
    · omega
  · have hstate : TimerWheel.drainEntry (wheel, expired) entry =
        (({ wheel with locations := wheel.locations.erase entry.expiry.sessionId } :
          TimerWheel).insert entry, expired) := by
      simp [TimerWheel.drainEntry, hdue]
    rw [hstate, if_neg hdue, List.append_nil]
    refine ⟨?_, rfl, ?_, rfl⟩
    · refine h.forget.insert ?_ ?_ (Nat.lt_of_not_le hdue)
      · exact fun e he => h.apart entry List.mem_cons_self e he
      · intro e he heq
        have hnot := (List.nodup_cons.mp h.nodup).1
        exact hnot (List.mem_map.mpr ⟨e, he, heq.symm⟩)
    · intro e
      rw [insert_stored]
      refine or_congr Iff.rfl ⟨?_, And.left⟩
      rintro rfl
      exact ⟨rfl, Nat.lt_of_not_le hdue⟩

/-- **The drain loop**: of the entries taken out, those that are due are handed
out and the others are stored again. -/
theorem Draining.foldl {rest : List Entry} :
    ∀ {wheel : TimerWheel}, wheel.Draining rest → ∀ expired : List TimerExpiry,
      (rest.foldl TimerWheel.drainEntry (wheel, expired)).1.Consistent ∧
      (rest.foldl TimerWheel.drainEntry (wheel, expired)).1.currentTick =
        wheel.currentTick ∧
      (∀ e, (rest.foldl TimerWheel.drainEntry (wheel, expired)).1.Stored e ↔
        wheel.Stored e ∨ (e ∈ rest ∧ wheel.currentTick < e.dueTick)) ∧
      (rest.foldl TimerWheel.drainEntry (wheel, expired)).2 =
        expired ++ (rest.filter (fun e => e.dueTick ≤ wheel.currentTick)).map Entry.expiry := by
  induction rest with
  | nil =>
      intro wheel h expired
      exact ⟨h.done, rfl, by simp, by simp⟩
  | cons entry rest ih =>
      intro wheel h expired
      obtain ⟨hdrain, htick, hstored, hexpired⟩ := h.drainEntry expired
      rw [List.foldl_cons]
      generalize TimerWheel.drainEntry (wheel, expired) entry = next at *
      obtain ⟨hcons, htick', hstored', hexpired'⟩ := ih hdrain next.2
      refine ⟨hcons, htick'.trans htick, ?_, ?_⟩
      · intro e
        rw [hstored', hstored, htick, List.mem_cons]
        tauto
      · rw [hexpired', hexpired, htick, List.filter_cons]
        by_cases hdue : entry.dueTick ≤ wheel.currentTick <;> simp [hdue]

/-- The wheel at the start of an iteration of `advance`, one tick later and
with the bucket of that tick taken out. -/
private theorem Consistent.openBucket {wheel : TimerWheel} (h : wheel.Consistent) :
    (({ wheel with currentTick := wheel.currentTick + 1 } : TimerWheel).setBucket
      ((wheel.currentTick + 1) % kBucketCount) []).Draining
      (wheel.buckets ((wheel.currentTick + 1) % kBucketCount)) := by
  have hat : ∀ loc e,
      (({ wheel with currentTick := wheel.currentTick + 1 } : TimerWheel).setBucket
        ((wheel.currentTick + 1) % kBucketCount) []).At loc e ↔
      loc.bucket ≠ (wheel.currentTick + 1) % kBucketCount ∧ wheel.At loc e := by
    intro loc e
    by_cases hb : loc.bucket = (wheel.currentTick + 1) % kBucketCount <;>
      simp [At, setBucket, hb]
  have hbucket : ∀ e, e ∈ wheel.buckets ((wheel.currentTick + 1) % kBucketCount) ↔
      ∃ i, wheel.At ⟨(wheel.currentTick + 1) % kBucketCount, i⟩ e := by
    intro e
    exact List.mem_iff_getElem?
  constructor
  · intro loc e he
    exact h.located loc e ((hat loc e).mp he).2
  · intro id loc hid
    obtain ⟨e, he, hide⟩ := h.occupied id loc hid
    by_cases hb : loc.bucket = (wheel.currentTick + 1) % kBucketCount
    · refine Or.inr ⟨e, (hbucket e).mpr ⟨loc.index, ?_⟩, hide⟩
      rwa [← hb]
    · exact Or.inl ⟨e, (hat loc e).mpr ⟨hb, he⟩, hide⟩
  · intro loc e he
    exact h.placed loc e ((hat loc e).mp he).2
  · rintro e ⟨loc, he⟩
    obtain ⟨hb, he⟩ := (hat loc e).mp he
    have hdue := h.upcoming e ⟨loc, he⟩
    have hplaced := h.placed loc e he
    show wheel.currentTick + 1 < e.dueTick
    refine Nat.lt_of_le_of_ne hdue ?_
    intro heq
    exact hb (by rw [hplaced, ← heq])
  · rintro e he e' ⟨loc, he'⟩ heq
    obtain ⟨hb, he'⟩ := (hat loc e').mp he'
    obtain ⟨i, he⟩ := (hbucket e).mp he
    have hl := h.located loc e' he'
    rw [heq, h.located _ _ he, Option.some.injEq] at hl
    exact hb (by rw [← hl])
  · refine List.Nodup.map_on ?_ ?_
    · intro e he e' he' heq
      obtain ⟨i, hi⟩ := (hbucket e).mp he
      obtain ⟨j, hj⟩ := (hbucket e').mp he'
      exact h.unique ⟨_, hi⟩ ⟨_, hj⟩ heq
    · rw [List.nodup_iff_getElem?_ne_getElem?]
      intro i j hij hj heq
      obtain ⟨e, he⟩ : ∃ e,
          (wheel.buckets ((wheel.currentTick + 1) % kBucketCount))[j]? = some e :=
        ⟨_, List.getElem?_eq_getElem hj⟩
      have hi := h.located ⟨(wheel.currentTick + 1) % kBucketCount, i⟩ e (heq.trans he)
      rw [h.located ⟨(wheel.currentTick + 1) % kBucketCount, j⟩ e he] at hi
      have : j = i := by simpa using hi
      omega

/-- Taking the bucket out loses no entry. -/
private theorem openBucket_stored (wheel : TimerWheel) (e : Entry) :
    (({ wheel with currentTick := wheel.currentTick + 1 } : TimerWheel).setBucket
      ((wheel.currentTick + 1) % kBucketCount) []).Stored e ∨
      e ∈ wheel.buckets ((wheel.currentTick + 1) % kBucketCount) ↔ wheel.Stored e := by
  rw [List.mem_iff_getElem?]
  constructor
  · rintro (⟨loc, he⟩ | ⟨i, he⟩)
    · by_cases hb : loc.bucket = (wheel.currentTick + 1) % kBucketCount
      · simp [At, setBucket, hb] at he
      · exact ⟨loc, by simpa [At, setBucket, hb] using he⟩
    · exact ⟨⟨_, i⟩, he⟩
  · rintro ⟨⟨b, i⟩, he⟩
    by_cases hb : b = (wheel.currentTick + 1) % kBucketCount
    · subst hb
      exact Or.inr ⟨i, he⟩
    · exact Or.inl ⟨⟨b, i⟩, by simpa [At, setBucket, hb] using he⟩

/-- **One tick of the wheel**: it keeps the entries due after the new tick and
hands out each of the others. -/
theorem Consistent.drainTick {wheel : TimerWheel} (h : wheel.Consistent)
    (expired : List TimerExpiry) :
    ∃ due : List Entry,
      (drainTick (wheel, expired)).1.Consistent ∧
      (TimerWheel.drainTick (wheel, expired)).1.currentTick = wheel.currentTick + 1 ∧
      (∀ e, (TimerWheel.drainTick (wheel, expired)).1.Stored e ↔
        wheel.Stored e ∧ wheel.currentTick + 1 < e.dueTick) ∧
      (TimerWheel.drainTick (wheel, expired)).2 = expired ++ due.map Entry.expiry ∧
      (∀ e, e ∈ due ↔ wheel.Stored e ∧ e.dueTick ≤ wheel.currentTick + 1) ∧
      (due.map (fun e => e.expiry.sessionId)).Nodup := by
  have hopen := h.openBucket
  obtain ⟨hcons, htick, hstored, hexpired⟩ := hopen.foldl expired
  refine ⟨_, hcons, htick, ?_, hexpired, ?_, ?_⟩
  · intro e
    rw [← openBucket_stored wheel e]
    refine (hstored e).trans ⟨?_, ?_⟩
    · rintro (he | he)
      · exact ⟨Or.inl he, hopen.upcoming e he⟩
      · exact ⟨Or.inr he.1, he.2⟩
    · rintro ⟨he | he, hlt⟩
      · exact Or.inl he
      · exact Or.inr ⟨he, hlt⟩
  · intro e
    rw [← openBucket_stored wheel e, List.mem_filter, decide_eq_true_iff]
    refine ⟨fun he => ⟨Or.inr he.1, he.2⟩, ?_⟩
    rintro ⟨he | he, hle⟩
    · exact absurd (hopen.upcoming e he) (Nat.not_lt.mpr hle)
    · exact ⟨he, hle⟩
  · exact hopen.nodup.sublist (List.Sublist.map _ List.filter_sublist)

/-- What the loop of `advance` has achieved when it stands at some tick: it
keeps the entries due later, and has handed out each of the others once. -/
structure Collected (start : TimerWheel) (state : TimerWheel × List TimerExpiry) : Prop where
  consistent : state.1.Consistent
  stored : ∀ e, state.1.Stored e ↔ start.Stored e ∧ state.1.currentTick < e.dueTick
  expired : ∀ x, x ∈ state.2 ↔
    ∃ e, start.Stored e ∧ e.expiry = x ∧ e.dueTick ≤ state.1.currentTick
  nodup : (state.2.map TimerExpiry.sessionId).Nodup

theorem Consistent.collected {wheel : TimerWheel} (h : wheel.Consistent) :
    Collected wheel (wheel, []) where
  consistent := h
  stored := fun e => ⟨fun he => ⟨he, h.upcoming e he⟩, And.left⟩
  expired := by
    intro x
    refine ⟨fun hx => absurd hx List.not_mem_nil, ?_⟩
    rintro ⟨e, he, -, hle⟩
    exact absurd (h.upcoming e he) (Nat.not_lt.mpr hle)
  nodup := List.nodup_nil

/-- **One iteration of the loop of `advance`.** -/
theorem Collected.drainTick {start : TimerWheel} {state : TimerWheel × List TimerExpiry}
    (hstart : start.Consistent) (h : Collected start state) :
    Collected start (drainTick state) ∧
      (TimerWheel.drainTick state).1.currentTick = state.1.currentTick + 1 := by
  obtain ⟨wheel, expired⟩ := state
  obtain ⟨due, hcons, htick, hstored, hexpired, hdue, hnodup⟩ :=
    h.consistent.drainTick expired
  refine ⟨⟨hcons, ?_, ?_, ?_⟩, htick⟩
  · intro e
    rw [hstored, h.stored, htick]
    constructor
    · rintro ⟨⟨he, -⟩, hlt⟩
      exact ⟨he, hlt⟩
    · rintro ⟨he, hlt⟩
      exact ⟨⟨he, Nat.lt_of_succ_lt hlt⟩, hlt⟩
  · intro x
    rw [hexpired, List.mem_append, h.expired, htick, List.mem_map]
    constructor
    · rintro (⟨e, he, hx, hle⟩ | ⟨e, he, hx⟩)
      · exact ⟨e, he, hx, Nat.le_succ_of_le hle⟩
      · obtain ⟨he, hle⟩ := (hdue e).mp he
        exact ⟨e, ((h.stored e).mp he).1, hx, hle⟩
    · rintro ⟨e, he, hx, hle⟩
      by_cases hnow : e.dueTick ≤ wheel.currentTick
      · exact Or.inl ⟨e, he, hx, hnow⟩
      · exact Or.inr ⟨e, (hdue e).mpr
          ⟨(h.stored e).mpr ⟨he, Nat.lt_of_not_le hnow⟩, hle⟩, hx⟩
  · rw [hexpired, List.map_append, List.map_map]
    refine h.nodup.append hnodup ?_
    -- an entry handed out earlier is stored no longer, and ids are unique
    intro id hid hid'
    obtain ⟨x, hx, rfl⟩ := List.mem_map.mp hid
    obtain ⟨e, he, rfl, hle⟩ := (h.expired x).mp hx
    obtain ⟨e', he', heq⟩ := List.mem_map.mp hid'
    have hst := (h.stored e').mp ((hdue e').mp he').1
    have : e' = e := hstart.unique hst.1 he heq
    subst this
    exact absurd hst.2 (Nat.not_lt.mpr hle)

theorem Collected.drainTicks {start : TimerWheel} (hstart : start.Consistent) (ticks : Nat) :
    ∀ {state : TimerWheel × List TimerExpiry}, Collected start state →
      Collected start (drainTicks ticks state) ∧
        (TimerWheel.drainTicks ticks state).1.currentTick = state.1.currentTick + ticks := by
  induction ticks with
  | zero => exact fun h => ⟨h, rfl⟩
  | succ ticks ih =>
      intro state h
      obtain ⟨hnext, htick⟩ := h.drainTick hstart
      obtain ⟨hlast, htick'⟩ := ih hnext
      refine ⟨hlast, htick'.trans ?_⟩
      rw [htick]
      omega

/-- **`advance`**: the wheel moves to the tick of `now`, never back, keeps
exactly the entries due later and hands out each of the others once. -/
theorem Consistent.advance {wheel : TimerWheel} (h : wheel.Consistent) (now : Nat) :
    Collected wheel (wheel.advance now) ∧
      (TimerWheel.advance wheel now).1.currentTick = max wheel.currentTick (tickFloor now) := by
  obtain ⟨hcol, htick⟩ :=
    Collected.drainTicks h (tickFloor now - wheel.currentTick) h.collected
  refine ⟨hcol, htick.trans ?_⟩
  show wheel.currentTick + (tickFloor now - wheel.currentTick) = _
  omega

end TimerWheel

end PoolLb
