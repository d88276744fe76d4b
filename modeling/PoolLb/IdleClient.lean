import PoolLb.LeasePinning
import PoolLb.TokenConformance

/-!
# Two states of one client that answer alike

The buckets of a client are read only after `refill`, so two states can differ and yet
give the same answers for ever (`Alike`).  A client that was not seen for the retention
time is `Full`: its buckets will read as those of a new client, if each of them refills
within that time.  `Orderly` is what the calls on a client maintain and what this rests
on: no bucket was brought up to date after the client was last seen, and none is in debt.
-/

namespace PoolLb.RateLimiter

open Interaction Tally TokenLevel

/-! ## One client in two runs -/

/-- What a bucket will read if it is brought up to date at `now`. -/
def balance (limits : LimitsConfig) (kind : BucketKind) (state : ClientState) (now : Nat) : ℚ :=
  (kind.level state).tokensAt (perNanosecond (kind.rate limits)) (kind.burst limits) now

/-- From `time` on the two states answer alike. -/
structure Alike (limits : LimitsConfig) (time : Nat) (left right : ClientState) : Prop where
  active : left.active = right.active
  balance : ∀ kind now, time ≤ now → balance limits kind left now = balance limits kind right now

/-- From `time` on the state is that of a new client. -/
structure Full (limits : LimitsConfig) (time : Nat) (state : ClientState) : Prop where
  idle : state.active = 0
  balance : ∀ kind now, time ≤ now → balance limits kind state now = kind.burst limits

/-- What holds of a state that was called on in the order of the clock up to `time`. -/
structure Orderly (limits : LimitsConfig) (time : Nat) (state : ClientState) : Prop where
  inRange : ∀ kind : BucketKind, (kind.level state).InRange (kind.burst limits)
  touched : ∀ kind : BucketKind, (kind.level state).updatedAt ≠ 0
  updated : ∀ kind : BucketKind, (kind.level state).updatedAt ≤ state.lastSeen
  seen : state.lastSeen ≤ time

/-- Every bucket refills, and does so within the retention time. -/
structure Refills (limits : LimitsConfig) : Prop where
  rate : ∀ kind : BucketKind, 0 ≤ kind.rate limits
  covered : ∀ kind : BucketKind,
    (kind.burst limits : ℚ) ≤ kind.rate limits * limits.clientStateRetentionSeconds

variable {limits : LimitsConfig} {time time' now address : Nat} {state left right : ClientState}
  {call : ClientCall}

theorem Alike.mono (h : Alike limits time left right) (hle : time ≤ time') :
    Alike limits time' left right where
  active := h.active
  balance kind now hnow := h.balance kind now (hle.trans hnow)

theorem Full.mono (h : Full limits time state) (hle : time ≤ time') : Full limits time' state where
  idle := h.idle
  balance kind now hnow := h.balance kind now (hle.trans hnow)

/-- A bucket that was full stays full. -/
theorem balance_of_full (hrates : Refills limits) {kind : BucketKind}
    (htokens : (kind.level state).tokens = kind.burst limits)
    (hle : (kind.level state).updatedAt ≤ now) : balance limits kind state now = kind.burst limits := by
  unfold balance Level.tokensAt
  split
  · rfl
  · have helapsed : (0 : ℚ) ≤ (now : ℚ) - (kind.level state).updatedAt := by
      have hcast : ((kind.level state).updatedAt : ℚ) ≤ now := by exact_mod_cast hle
      linarith
    have hgain := mul_nonneg helapsed (perNanosecond_nonneg (hrates.rate kind))
    rw [htokens]
    exact min_eq_left (by linarith)

/-- The buckets of a new client hold their bursts. -/
theorem level_fresh (limits : LimitsConfig) (kind : BucketKind) (now address : Nat) :
    kind.level (freshNode limits now address).state = ⟨kind.burst limits, now⟩ := by
  cases kind <;> rfl

/-- A new client is full. -/
theorem full_fresh (hrates : Refills limits) (now address : Nat) :
    Full limits now (freshNode limits now address).state where
  idle := rfl
  balance kind later hlater := by
    apply balance_of_full hrates
    · rw [level_fresh]
    · rw [level_fresh]
      exact hlater

/-- A state with the buckets of a new client is in order. -/
theorem orderly_fresh (limits : LimitsConfig) (address : Nat) (hnow : now ≠ 0)
    (hseen : state.lastSeen = now)
    (hlevel : ∀ kind : BucketKind, kind.level state = kind.level (freshNode limits now address).state) :
    Orderly limits now state where
  inRange kind := by
    rw [hlevel, level_fresh]
    exact ⟨Nat.cast_nonneg _, le_refl _⟩
  touched kind := by
    rw [hlevel, level_fresh]
    exact hnow
  updated kind := by
    rw [hlevel, level_fresh, hseen]
  seen := hseen.le

/-- Two full states answer alike. -/
theorem Full.alike (h : Full limits time left) (h' : Full limits time right) :
    Alike limits time left right where
  active := h.idle.trans h'.idle.symm
  balance kind now hnow := (h.balance kind now hnow).trans (h'.balance kind now hnow).symm

/-- What answers like a full state is full. -/
theorem Alike.full (h : Alike limits time left right) (hleft : Full limits time left) :
    Full limits time right where
  idle := h.active.symm.trans hleft.idle
  balance kind now hnow := (h.balance kind now hnow).symm.trans (hleft.balance kind now hnow)

/-- **A forgotten client is full.** -/
theorem Orderly.full_of_forgotten (h : Orderly limits time state) (hrefills : Refills limits)
    (hforgotten : forgotten now limits.clientStateRetentionSeconds state = true) :
    Full limits now state := by
  simp only [forgotten, decide_eq_true_eq] at hforgotten
  obtain ⟨hidle, hlong⟩ := hforgotten
  refine ⟨hidle, fun kind later hlater => ?_⟩
  unfold PoolLb.RateLimiter.balance Level.tokensAt
  rw [if_neg (h.touched kind)]
  have hupdated := h.updated kind
  -- the time that has passed, in nanoseconds
  have helapsed : (limits.clientStateRetentionSeconds : ℚ) * kNanosecondsPerSecond ≤
      (later : ℚ) - (kind.level state).updatedAt := by
    have hint : limits.clientStateRetentionSeconds * kNanosecondsPerSecond ≤
        (later : Int) - (kind.level state).updatedAt := by omega
    exact_mod_cast hint
  have hpaid := mul_le_mul_of_nonneg_right helapsed (perNanosecond_nonneg (hrefills.rate kind))
  have hscale : (limits.clientStateRetentionSeconds : ℚ) * kNanosecondsPerSecond *
      perNanosecond (kind.rate limits) = kind.rate limits * limits.clientStateRetentionSeconds := by
    have hne : (kNanosecondsPerSecond : ℚ) ≠ 0 := by
      unfold kNanosecondsPerSecond
      norm_num
    unfold perNanosecond
    field_simp
  have hcovered := hrefills.covered kind
  have htokens := (h.inRange kind).1
  exact min_eq_left (by linarith)

/-! ### One call in two runs -/

/-- The tests of `acquire` come out alike. -/
theorem Alike.verdict (h : Alike limits time left right) (hnow : time ≤ now) (granted : Bool) :
    verdictWith limits granted (left.arrive now limits) =
      verdictWith limits granted (right.arrive now limits) := by
  have htokens : (left.arrive now limits).connectionBucket.tokens =
      (right.arrive now limits).connectionBucket.tokens := by
    simp only [ClientState.arrive, refill_tokens]
    exact h.balance .connections now hnow
  have hactive : (left.arrive now limits).active = (right.arrive now limits).active := h.active
  unfold verdictWith
  rw [htokens, hactive]

/-- **The same call has the same success.** -/
theorem Alike.success (h : Alike limits time left right)
    (htime : ∀ now, call.time = some now → time ≤ now) :
    (call.run limits left).1 = (call.run limits right).1 := by
  cases call with
  | release => rfl
  | acquire now granted =>
      have hverdict := h.verdict (htime now rfl) granted
      simp only [ClientCall.run, hverdict]
      split <;> rfl
  | consumeTraffic now bytes messages =>
      have hmessages := h.balance .messages now (htime now rfl)
      have hbytes := h.balance .bytes now (htime now rfl)
      unfold PoolLb.RateLimiter.balance at hmessages hbytes
      simp only [ClientCall.run, consumeTraffic, refill_tokens]
      simp only [BucketKind.level, BucketKind.bucket, BucketKind.rate, BucketKind.burst]
        at hmessages hbytes
      rw [hmessages, hbytes]
      split <;> rfl

theorem ClientCall.view_congr {kind : BucketKind}
    (h : (call.run limits left).1 = (call.run limits right).1) :
    call.view limits kind left = call.view limits kind right := by
  cases call <;> cases kind <;> simp only [ClientCall.view, h]

/-- After the same call both count the same leases. -/
theorem Alike.active_next (h : Alike limits time left right)
    (hsuccess : (call.run limits left).1 = (call.run limits right).1) :
    (call.next limits left).active = (call.next limits right).active := by
  have hactive := h.active
  unfold ClientCall.next
  cases call with
  | release =>
      simp only [ClientCall.run, RateLimiter.release, hactive]
      split <;> simp [hactive]
  | acquire now granted =>
      simp only [ClientCall.run] at hsuccess ⊢
      split at hsuccess <;> split at hsuccess <;>
        simp_all [ClientState.admitted, ClientState.arrive]
  | consumeTraffic now bytes messages =>
      simp only [ClientCall.run, consumeTraffic]
      split <;> split <;> exact hactive

/-- **One call** keeps two states alike, and gets one answer. -/
theorem Alike.next (h : Alike limits time left right)
    (htime : ∀ now, call.time = some now → time ≤ now) :
    Alike limits time (call.next limits left) (call.next limits right) := by
  have hsuccess := h.success htime
  refine ⟨h.active_next hsuccess, fun kind now hnow => ?_⟩
  have hmeters := clientCall_meters limits kind
  have hview := @ClientCall.view_congr _ _ _ _ kind hsuccess
  unfold PoolLb.RateLimiter.balance
  cases hleft : call.view limits kind left with
  | none =>
      rw [hmeters.skip _ _ hleft, hmeters.skip _ _ (hview.symm.trans hleft)]
      exact h.balance kind now hnow
  | some c =>
      have hread := h.balance kind c.now (htime c.now (ClientCall.view_spec hleft).1)
      rw [(hmeters.call _ _ c hleft).1, (hmeters.call _ _ c (hview.symm.trans hleft)).1]
      unfold Level.after
      unfold PoolLb.RateLimiter.balance at hread
      rw [hread]

/-- A call with a time is when the client was last seen. -/
theorem ClientCall.lastSeen_next (call : ClientCall) (limits : LimitsConfig)
    (state : ClientState) :
    (call.next limits state).lastSeen = call.time.getD state.lastSeen := by
  unfold ClientCall.next
  cases call with
  | release =>
      simp only [ClientCall.run, RateLimiter.release]
      split <;> rfl
  | acquire now granted =>
      simp only [ClientCall.run]
      split <;> rfl
  | consumeTraffic now bytes messages =>
      simp only [ClientCall.run, RateLimiter.consumeTraffic]
      split <;> rfl

/-- A call that is not from the past keeps a state orderly. -/
theorem Orderly.next (h : Orderly limits time state) (hrefills : Refills limits)
    (htime : ∀ now, call.time = some now → time ≤ now ∧ now ≠ 0 ∧ now ≤ time')
    (hle : time ≤ time') : Orderly limits time' (call.next limits state) := by
  have hbucket : ∀ kind : BucketKind, kind.level (call.next limits state) = kind.level state ∨
      ∃ c, call.time = some c.now ∧ 0 ≤ c.amount ∧
        c.Honest (perNanosecond (kind.rate limits)) (kind.burst limits) (kind.level state) ∧
        kind.level (call.next limits state) =
          (kind.level state).after (perNanosecond (kind.rate limits)) (kind.burst limits) c := by
    intro kind
    have hmeters := clientCall_meters limits kind
    cases hview : call.view limits kind state with
    | none => exact .inl (hmeters.skip _ _ hview)
    | some c =>
        obtain ⟨hafter, hhonest⟩ := hmeters.call _ _ c hview
        obtain ⟨hnow, hamount⟩ := ClientCall.view_spec hview
        exact .inr ⟨c, hnow, hamount, hhonest, hafter⟩
  have hseen : state.lastSeen ≤ (call.next limits state).lastSeen := by
    rw [ClientCall.lastSeen_next]
    cases hcall : call.time with
    | none => exact le_refl _
    | some now => exact h.seen.trans (htime now hcall).1
  refine ⟨fun kind => ?_, fun kind => ?_, fun kind => ?_, ?_⟩
  · rcases hbucket kind with hsame | ⟨c, hnow, hamount, hhonest, hafter⟩
    · rw [hsame]
      exact h.inRange kind
    · rw [hafter]
      exact (h.inRange kind).after (perNanosecond_nonneg (hrefills.rate kind)) (Nat.cast_nonneg _)
        ((h.updated kind).trans (h.seen.trans (htime _ hnow).1)) hhonest hamount
  · rcases hbucket kind with hsame | ⟨c, hnow, _, _, hafter⟩
    · rw [hsame]
      exact h.touched kind
    · rw [hafter]
      exact (htime _ hnow).2.1
  · rcases hbucket kind with hsame | ⟨c, hnow, _, _, hafter⟩
    · rw [hsame]
      exact (h.updated kind).trans hseen
    · rw [hafter, ClientCall.lastSeen_next, hnow]
      exact le_refl _
  · rw [ClientCall.lastSeen_next]
    cases hcall : call.time with
    | none => exact h.seen.trans hle
    | some now => exact (htime now hcall).2.2

end PoolLb.RateLimiter
