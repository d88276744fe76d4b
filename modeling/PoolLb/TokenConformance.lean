import PoolLb.SequentialLimiter
import PoolLb.Session
import PoolLb.TokenLevel

/-!
# The token buckets keep their rates

Five buckets of two implementations: the connections, messages and bytes of a client
in the rate limiter, and the messages and bytes of a session in the reactor.  Workers
read the clock before they take the lock of a shard, so the readings reach a client's
buckets in any order.

Each implementation is a machine with buckets in the sense of `TokenLevel.Meters`: an
`acquire` calls on the connection bucket alone, `consume_traffic` on the other two
together.  The bounds are then those of `TokenLevel`, bucket by bucket.
-/

namespace PoolLb

open TokenLevel

/-- The gain of a bucket in a nanosecond. -/
def perNanosecond (ratePerSecond : ℚ) : ℚ := ratePerSecond / kNanosecondsPerSecond

namespace RateLimiter

/-- A call for one client whose entry is there.  `granted` is the answer of the
process-wide rate, should `acquire` ask for it. -/
inductive ClientCall where
  | acquire (now : Nat) (granted : Bool)
  | consumeTraffic (now bytes messages : Nat)
  | release
deriving DecidableEq

/-- The tests of `acquire`, for a given answer of the process-wide rate. -/
def verdictWith (limits : LimitsConfig) (granted : Bool) (state : ClientState) :
    AdmissionResult :=
  if state.active ≥ limits.maxConnectionsPerIp then .concurrentLimit
  else if state.connectionBucket.tokens < 1 then .rateLimit
  else if granted then .accepted
  else .globalRateLimit

/-- What a call does to the state of the client, and whether it succeeds. -/
def ClientCall.run (limits : LimitsConfig) (state : ClientState) :
    ClientCall → Bool × ClientState
  | .acquire now granted =>
      let arrived := state.arrive now limits
      if verdictWith limits granted arrived = .accepted then (true, arrived.admitted)
      else (false, arrived)
  | .consumeTraffic now bytes messages =>
      RateLimiter.consumeTraffic state bytes messages limits now
  | .release => (true, RateLimiter.release state)

/-- The state of the client after a call. -/
def ClientCall.next (limits : LimitsConfig) (state : ClientState) (call : ClientCall) :
    ClientState := (call.run limits state).2

open Interaction in
/-- **`acquire` on a client that is tracked is a `ClientCall`.** -/
theorem acquire_known {shard : Shard} {key : ClientKey} {node : ClientNode}
    {limits : LimitsConfig} {now : Nat} {atomics : LimiterAtomics}
    (hnode : (shard.pruned limits now).clients.lookup key = some node) :
    Ensures sequential atomics (acquire key limits now shard) (fun result _ =>
      let call := ClientCall.acquire now (globalConforms limits atomics.theoreticalArrival now)
      (result.1.result = .accepted ↔ (call.run limits node.state).1 = true) ∧
        result.2.clients.lookup key = some { node with state := call.next limits node.state }) := by
  apply (acquire_sequential (.inl (by rw [hnode]; rfl))).mono
  intro result atomics' h
  obtain ⟨found, inserted, hfound, hdecided⟩ := h
  have hold : found = node ∧ inserted = false := by
    rcases hfound with ⟨hlook, hold⟩ | ⟨hnone, _⟩
    · exact ⟨Option.some.inj (hlook.symm.trans hnode), hold⟩
    · rw [hnode] at hnone
      cases hnone
  obtain ⟨hsame, hold⟩ := hold
  subst hsame hold
  have hjudged : result.1.result = verdictWith limits
      (globalConforms limits atomics.theoreticalArrival now)
      (found.state.arrive now limits) := hdecided.judged
  simp only [ClientCall.next, ClientCall.run]
  rw [hdecided.own, ← hjudged]
  cases hresult : result.1.result with
  | accepted => exact ⟨⟨fun _ => rfl, fun _ => rfl⟩, rfl⟩
  | concurrentLimit => simp [entryAfter]
  | rateLimit => simp [entryAfter]
  | globalRateLimit => simp [entryAfter]
  | sourceCapacity => simp [entryAfter]

/-- The buckets of a client. -/
inductive BucketKind where
  | connections
  | messages
  | bytes
deriving DecidableEq

namespace BucketKind

def bucket : BucketKind → ClientState → TokenBucket
  | .connections, state => state.connectionBucket
  | .messages, state => state.messageBucket
  | .bytes, state => state.byteBucket

def rate : BucketKind → LimitsConfig → ℚ
  | .connections, limits => limits.connectionsPerSecondPerIp
  | .messages, limits => limits.messagesPerSecondPerIp
  | .bytes, limits => limits.bytesPerSecondPerIp

def burst : BucketKind → LimitsConfig → Nat
  | .connections, limits => limits.connectionBurstPerIp
  | .messages, limits => limits.messageBurstPerIp
  | .bytes, limits => limits.byteBurstPerIp

def level (kind : BucketKind) (state : ClientState) : Level where
  tokens := (kind.bucket state).tokens
  updatedAt := (kind.bucket state).updatedAt

end BucketKind

/-- The call on a bucket that a call for the client makes. -/
def ClientCall.view (limits : LimitsConfig) (kind : BucketKind) (state : ClientState)
    (call : ClientCall) : Option Call :=
  match kind, call with
  | .connections, .acquire now _ => some ⟨now, 1, (call.run limits state).1⟩
  | .messages, .consumeTraffic now _ messages =>
      some ⟨now, messages, (call.run limits state).1⟩
  | .bytes, .consumeTraffic now bytes _ => some ⟨now, bytes, (call.run limits state).1⟩
  | _, _ => none

variable {limits : LimitsConfig} {kind : BucketKind} {state : ClientState} {now : Nat}

/-- **`refill` computes the level of a bucket at the time of the call.** -/
theorem refill_tokens (bucket : TokenBucket) (now : Nat) (rate : ℚ) (burst : Nat) :
    (refill bucket now rate burst).tokens =
      Level.tokensAt (perNanosecond rate) burst ⟨bucket.tokens, bucket.updatedAt⟩ now := by
  have hscale : ((now : ℚ) - bucket.updatedAt) / kNanosecondsPerSecond * rate =
      ((now : ℚ) - bucket.updatedAt) * perNanosecond rate := by
    unfold perNanosecond
    ring
  simp only [refill, Level.tokensAt, hscale]

/-- A bucket that was refilled and from which a call took its amount or nothing. -/
theorem level_after_refill (bucket : TokenBucket) (now : Nat) (rate : ℚ) (burst : Nat)
    (amount : ℚ) (taken : Bool) :
    (⟨(refill bucket now rate burst).tokens - if taken then amount else 0, now⟩ : Level) =
      Level.after (perNanosecond rate) burst ⟨bucket.tokens, bucket.updatedAt⟩
        ⟨now, amount, taken⟩ := by
  rw [refill_tokens]
  rfl

/-- `acquire` on the connection bucket. -/
theorem acquire_connections (limits : LimitsConfig) (state : ClientState) (now : Nat)
    (granted : Bool) :
    let call : Call := ⟨now, 1, ((ClientCall.acquire now granted).run limits state).1⟩
    BucketKind.level .connections ((ClientCall.acquire now granted).next limits state) =
        (BucketKind.level .connections state).after
          (perNanosecond limits.connectionsPerSecondPerIp) limits.connectionBurstPerIp call ∧
      call.Honest (perNanosecond limits.connectionsPerSecondPerIp) limits.connectionBurstPerIp
        (BucketKind.level .connections state) := by
  unfold ClientCall.next ClientCall.run
  dsimp only
  by_cases haccepted : verdictWith limits granted (state.arrive now limits) = .accepted
  · rw [if_pos haccepted]
    constructor
    · exact level_after_refill state.connectionBucket now _ _ 1 true
    · intro _
      -- an accepted client has passed the test of the bucket
      have htokens : ¬ (state.arrive now limits).connectionBucket.tokens < 1 := by
        intro hless
        unfold verdictWith at haccepted
        rw [if_pos hless] at haccepted
        split at haccepted
        · cases haccepted
        · cases haccepted
      have hrefill := refill_tokens state.connectionBucket now limits.connectionsPerSecondPerIp
        limits.connectionBurstPerIp
      exact (not_lt.mp htokens).trans (le_of_eq hrefill)
  · rw [if_neg haccepted]
    constructor
    · have hlevel := level_after_refill state.connectionBucket now
        limits.connectionsPerSecondPerIp limits.connectionBurstPerIp 1 false
      rw [if_neg Bool.false_ne_true, sub_zero] at hlevel
      exact hlevel
    · intro htaken
      cases htaken

/-- `consume_traffic` refused: both buckets are refilled and no more. -/
theorem consumeTraffic_refused {bytes messages : Nat}
    (h : (consumeTraffic state bytes messages limits now).1 = false) :
    (consumeTraffic state bytes messages limits now).2.messageBucket =
        refill state.messageBucket now limits.messagesPerSecondPerIp limits.messageBurstPerIp ∧
      (consumeTraffic state bytes messages limits now).2.byteBucket =
        refill state.byteBucket now limits.bytesPerSecondPerIp limits.byteBurstPerIp := by
  unfold consumeTraffic at h ⊢
  dsimp only at h ⊢
  split at h
  · rename_i hshort
    rw [if_pos hshort]
    exact ⟨rfl, rfl⟩
  · cases h

/-- `consume_traffic` that succeeds: both buckets had enough, and both are charged. -/
theorem consumeTraffic_charged {bytes messages : Nat}
    (h : (consumeTraffic state bytes messages limits now).1 = true) :
    (messages : ℚ) ≤ (refill state.messageBucket now limits.messagesPerSecondPerIp
        limits.messageBurstPerIp).tokens ∧
      (bytes : ℚ) ≤ (refill state.byteBucket now limits.bytesPerSecondPerIp
        limits.byteBurstPerIp).tokens ∧
      (consumeTraffic state bytes messages limits now).2.messageBucket =
        ⟨(refill state.messageBucket now limits.messagesPerSecondPerIp
          limits.messageBurstPerIp).tokens - messages, now⟩ ∧
      (consumeTraffic state bytes messages limits now).2.byteBucket =
        ⟨(refill state.byteBucket now limits.bytesPerSecondPerIp
          limits.byteBurstPerIp).tokens - bytes, now⟩ := by
  unfold consumeTraffic at h ⊢
  dsimp only at h ⊢
  split at h
  · cases h
  · rename_i henough
    rw [if_neg henough]
    obtain ⟨hbytes, hmessages⟩ := not_or.mp henough
    exact ⟨not_lt.mp hmessages, not_lt.mp hbytes, rfl, rfl⟩

/-- A bucket that `consume_traffic` has refilled, and charged if it succeeded. -/
theorem level_of_traffic {bucket bucket' : TokenBucket} {rate : ℚ} {burst amount : Nat}
    {success : Bool}
    (hrefused : success = false → bucket' = refill bucket now rate burst)
    (hcharged : success = true → (amount : ℚ) ≤ (refill bucket now rate burst).tokens ∧
      bucket' = ⟨(refill bucket now rate burst).tokens - amount, now⟩) :
    (⟨bucket'.tokens, bucket'.updatedAt⟩ : Level) =
        Level.after (perNanosecond rate) burst ⟨bucket.tokens, bucket.updatedAt⟩
          ⟨now, amount, success⟩ ∧
      Call.Honest (perNanosecond rate) burst ⟨bucket.tokens, bucket.updatedAt⟩
        ⟨now, amount, success⟩ := by
  rw [← level_after_refill]
  cases success with
  | false =>
      refine ⟨?_, fun htaken => by cases htaken⟩
      rw [hrefused rfl, if_neg Bool.false_ne_true, sub_zero]
      rfl
  | true =>
      obtain ⟨henough, hbucket⟩ := hcharged rfl
      refine ⟨by rw [hbucket]; rfl, fun _ => ?_⟩
      rw [refill_tokens] at henough
      exact henough

/-- **The rate limiter's buckets are token buckets.** -/
theorem clientCall_meters (limits : LimitsConfig) (kind : BucketKind) :
    Meters (perNanosecond (kind.rate limits)) (kind.burst limits) (ClientCall.next limits)
      (ClientCall.view limits kind) kind.level where
  skip state call h := by
    cases call with
    | release =>
        show kind.level (RateLimiter.release state) = kind.level state
        unfold RateLimiter.release
        split
        · cases kind <;> rfl
        · rfl
    | acquire now granted =>
        unfold ClientCall.next ClientCall.run
        dsimp only
        cases kind with
        | connections => cases h
        | messages => split <;> rfl
        | bytes => split <;> rfl
    | consumeTraffic now bytes messages =>
        cases kind with
        | connections =>
            unfold ClientCall.next ClientCall.run consumeTraffic
            dsimp only
            split <;> rfl
        | messages => cases h
        | bytes => cases h
  call state call c h := by
    cases call with
    | release => cases kind <;> cases h
    | acquire now granted =>
        cases kind with
        | connections =>
            cases h
            exact acquire_connections limits state now granted
        | messages => cases h
        | bytes => cases h
    | consumeTraffic now bytes messages =>
        cases kind with
        | connections => cases h
        | messages =>
            cases h
            apply level_of_traffic
            · exact fun hrefused => (consumeTraffic_refused hrefused).1
            · intro hcharged
              have hspec := consumeTraffic_charged hcharged
              exact ⟨hspec.1, hspec.2.2.1⟩
        | bytes =>
            cases h
            apply level_of_traffic
            · exact fun hrefused => (consumeTraffic_refused hrefused).2
            · intro hcharged
              have hspec := consumeTraffic_charged hcharged
              exact ⟨hspec.2.1, hspec.2.2.2⟩

/-- The clock reading of a call. -/
def ClientCall.time : ClientCall → Option Nat
  | .acquire now _ => some now
  | .consumeTraffic now _ _ => some now
  | .release => none

/-- The calls on one bucket that a sequence of calls for the client makes. -/
def bucketCalls (limits : LimitsConfig) (kind : BucketKind) (state : ClientState)
    (calls : List ClientCall) : List Call :=
  trace (ClientCall.next limits) (ClientCall.view limits kind) state calls

/-- A call on a bucket is at the time of the call, for no negative amount. -/
theorem ClientCall.view_spec {call : ClientCall} {c : Call}
    (h : call.view limits kind state = some c) : call.time = some c.now ∧ 0 ≤ c.amount := by
  cases call with
  | release => cases kind <;> cases h
  | acquire now granted =>
      cases kind <;> cases h
      exact ⟨rfl, zero_le_one⟩
  | consumeTraffic now bytes messages =>
      cases kind <;> cases h <;> exact ⟨rfl, Nat.cast_nonneg _⟩

/-- A fresh client that is called on in the order of the clock. -/
theorem bucketCalls_ordered {created : Nat} {calls : List ClientCall}
    (hordered : (created :: calls.filterMap ClientCall.time).Pairwise (· ≤ ·)) :
    (created :: (bucketCalls limits kind state calls).map Call.now).Pairwise (· ≤ ·) := by
  have hsublist : ∀ (calls : List ClientCall) (state : ClientState),
      ((bucketCalls limits kind state calls).map Call.now).Sublist
        (calls.filterMap ClientCall.time) := by
    intro calls
    induction calls with
    | nil => exact fun _ => .slnil
    | cons call rest ih =>
        intro state
        have hrest := ih (call.next limits state)
        unfold bucketCalls at hrest ⊢
        rw [trace_cons, List.map_append]
        cases hview : call.view limits kind state with
        | none =>
            cases htime : call.time with
            | none => simpa [List.filterMap_cons, htime] using hrest
            | some time => simpa [List.filterMap_cons, htime] using hrest.cons time
        | some c =>
            have htime := (ClientCall.view_spec hview).1
            simpa [List.filterMap_cons, htime] using hrest
  exact hordered.sublist ((hsublist calls state).cons_cons created)

end RateLimiter

/-! ## The buckets of a session -/

/-- A call of `consume_session_traffic`. -/
structure SessionTraffic where
  now : Nat
  bytes : Nat
  messages : Nat

/-- A session under a fixed configuration. -/
abbrev SessionUnder (runtime : RuntimeSnapshot) := { s : Session // s.runtime = runtime }

namespace SessionTraffic

variable {runtime : RuntimeSnapshot}

/-- The traffic of a session leaves its configuration. -/
theorem runtime_eq (s : Session) (bytes messages now : Nat) :
    (s.consumeSessionTraffic bytes messages now).2.runtime = s.runtime := by
  unfold Session.consumeSessionTraffic
  dsimp only
  split <;> rfl

/-- The session after a call. -/
def next (s : SessionUnder runtime) (call : SessionTraffic) : SessionUnder runtime :=
  ⟨(s.val.consumeSessionTraffic call.bytes call.messages call.now).2,
    (runtime_eq s.val call.bytes call.messages call.now).trans s.property⟩

/-- Whether a call succeeds. -/
def succeeds (s : SessionUnder runtime) (call : SessionTraffic) : Bool :=
  (s.val.consumeSessionTraffic call.bytes call.messages call.now).1

/-- The call on the message bucket. -/
def viewMessages (s : SessionUnder runtime) (call : SessionTraffic) : Option Call :=
  some ⟨call.now, call.messages, call.succeeds s⟩

/-- The call on the byte bucket. -/
def viewBytes (s : SessionUnder runtime) (call : SessionTraffic) : Option Call :=
  some ⟨call.now, call.bytes, call.succeeds s⟩

def messageLevel (s : SessionUnder runtime) : Level := ⟨s.val.messageTokens, s.val.trafficUpdatedAt⟩

def byteLevel (s : SessionUnder runtime) : Level := ⟨s.val.byteTokens, s.val.trafficUpdatedAt⟩

/-- **The refill of a session computes the level of its bucket.** -/
theorem refillTokens_eq (s : Session) (tokens rate : ℚ) (burst now : Nat) :
    s.refillTokens tokens rate burst now =
      Level.tokensAt (perNanosecond rate) burst ⟨tokens, s.trafficUpdatedAt⟩ now := by
  have hscale : ((now : ℚ) - s.trafficUpdatedAt) / kNanosecondsPerSecond * rate =
      ((now : ℚ) - s.trafficUpdatedAt) * perNanosecond rate := by
    unfold perNanosecond
    ring
  simp only [Session.refillTokens, Level.tokensAt, hscale]

/-- **The session's buckets are token buckets**, charged together or not at all. -/
theorem consumeSessionTraffic_spec (s : SessionUnder runtime) (call : SessionTraffic) :
    (messageLevel (next s call) =
        (messageLevel s).after (perNanosecond runtime.limits.messagesPerSecondPerConnection)
          runtime.limits.messageBurstPerConnection ⟨call.now, call.messages, call.succeeds s⟩ ∧
      Call.Honest (perNanosecond runtime.limits.messagesPerSecondPerConnection)
        runtime.limits.messageBurstPerConnection (messageLevel s)
        ⟨call.now, call.messages, call.succeeds s⟩) ∧
    (byteLevel (next s call) =
        (byteLevel s).after (perNanosecond runtime.limits.bytesPerSecondPerConnection)
          runtime.limits.byteBurstPerConnection ⟨call.now, call.bytes, call.succeeds s⟩ ∧
      Call.Honest (perNanosecond runtime.limits.bytesPerSecondPerConnection)
        runtime.limits.byteBurstPerConnection (byteLevel s)
        ⟨call.now, call.bytes, call.succeeds s⟩) := by
  obtain ⟨s, hs⟩ := s
  subst hs
  unfold messageLevel byteLevel next succeeds Level.after Call.Honest
  dsimp only
  rw [← refillTokens_eq, ← refillTokens_eq]
  unfold Session.consumeSessionTraffic
  dsimp only
  split
  · simp [Session.limits]
  · rename_i henough
    obtain ⟨hmessages, hbytes⟩ := not_or.mp henough
    exact ⟨⟨rfl, fun _ => not_lt.mp hmessages⟩, ⟨rfl, fun _ => not_lt.mp hbytes⟩⟩

/-- The message bucket of a session is a metered bucket. -/
theorem messages_meters (runtime : RuntimeSnapshot) :
    Meters (perNanosecond runtime.limits.messagesPerSecondPerConnection)
      runtime.limits.messageBurstPerConnection next viewMessages
      (@messageLevel runtime) where
  skip _ _ h := by cases h
  call s call c h := by
    cases h
    exact (consumeSessionTraffic_spec s call).1

/-- So is its byte bucket. -/
theorem bytes_meters (runtime : RuntimeSnapshot) :
    Meters (perNanosecond runtime.limits.bytesPerSecondPerConnection)
      runtime.limits.byteBurstPerConnection next viewBytes
      (@byteLevel runtime) where
  skip _ _ h := by cases h
  call s call c h := by
    cases h
    exact (consumeSessionTraffic_spec s call).2

end SessionTraffic

/-! ## The bounds -/

open RateLimiter

/-- `acquire` refused: the connection bucket is refilled and no more. -/
theorem RateLimiter.acquireCall_refused {limits : LimitsConfig} {state : ClientState} {now : Nat}
    {granted : Bool} (h : ((ClientCall.acquire now granted).run limits state).1 = false) :
    ((ClientCall.acquire now granted).next limits state).connectionBucket =
      refill state.connectionBucket now limits.connectionsPerSecondPerIp
        limits.connectionBurstPerIp := by
  unfold ClientCall.next
  unfold ClientCall.run at h ⊢
  dsimp only at h ⊢
  split at h
  · cases h
  · rename_i hrefused
    rw [if_neg hrefused]
    rfl

/-- `consume_session_traffic` refused: both buckets are refilled and no more. -/
theorem SessionTraffic.refused {s : Session} {bytes messages now : Nat}
    (h : (s.consumeSessionTraffic bytes messages now).1 = false) :
    (s.consumeSessionTraffic bytes messages now).2.messageTokens =
        s.refillTokens s.messageTokens s.limits.messagesPerSecondPerConnection
          s.limits.messageBurstPerConnection now ∧
      (s.consumeSessionTraffic bytes messages now).2.byteTokens =
        s.refillTokens s.byteTokens s.limits.bytesPerSecondPerConnection
          s.limits.byteBurstPerConnection now := by
  unfold Session.consumeSessionTraffic at h ⊢
  dsimp only at h ⊢
  split at h
  · rename_i hshort
    rw [if_pos hshort]
    exact ⟨rfl, rfl⟩
  · cases h

/-- A rate that is not negative per second is none per nanosecond. -/
theorem perNanosecond_nonneg {rate : ℚ} (h : 0 ≤ rate) : 0 ≤ perNanosecond rate :=
  div_nonneg h (Nat.cast_nonneg _)

/-- **No bucket of a client grants more than its rate and its burst**, in whatever order the
readings of the clock come. -/
theorem RateLimiter.client_buckets_bounded (limits : LimitsConfig) (kind : BucketKind)
    (state : ClientState) (calls : List ClientCall)
    (htimes : ∀ call ∈ calls, call.time ≠ some 0) :
    Bounded (perNanosecond (kind.rate limits)) (kind.burst limits)
      (bucketCalls limits kind state calls) := by
  apply (clientCall_meters limits kind).bounded
  intro call hcall
  obtain ⟨s, i, hmem, hview⟩ := mem_trace hcall
  have htime := (ClientCall.view_spec hview).1
  intro hzero
  rw [hzero] at htime
  exact htimes i hmem htime

/-- In order, its level stays between zero and the burst. -/
theorem RateLimiter.client_buckets_inRange (limits : LimitsConfig) (kind : BucketKind)
    (created address : Nat) (calls : List ClientCall) (hrate : 0 ≤ kind.rate limits)
    (hordered : (created :: calls.filterMap ClientCall.time).Pairwise (· ≤ ·)) :
    (kind.level (calls.foldl (ClientCall.next limits)
      (freshNode limits created address).state)).InRange (kind.burst limits) := by
  have hmeters := clientCall_meters limits kind
  have hburst : (0 : ℚ) ≤ kind.burst limits := Nat.cast_nonneg _
  have hfresh : kind.level (freshNode limits created address).state =
      ⟨kind.burst limits, created⟩ := by
    cases kind <;> rfl
  rw [hmeters.bucket_eq]
  apply inRange_of_ordered (perNanosecond_nonneg hrate) hburst
  · rw [hfresh]
    exact ⟨hburst, le_refl _⟩
  · exact hmeters.honest _ _
  · intro call hcall
    obtain ⟨_, _, _, hview⟩ := mem_trace hcall
    exact (ClientCall.view_spec hview).2
  · rw [hfresh]
    exact bucketCalls_ordered hordered

namespace SessionTraffic

variable {runtime : RuntimeSnapshot} {view : SessionUnder runtime → SessionTraffic → Option Call}

/-- Every call of `consume_session_traffic` is a call on each of the two buckets. -/
def Watches (view : SessionUnder runtime → SessionTraffic → Option Call) : Prop :=
  ∀ s call, ∃ c, view s call = some c ∧ c.now = call.now ∧ 0 ≤ c.amount

/-- Every call of a session asks for its messages. -/
theorem watches_messages : Watches (@viewMessages runtime) :=
  fun _ _ => ⟨_, rfl, rfl, Nat.cast_nonneg _⟩

/-- And for its bytes. -/
theorem watches_bytes : Watches (@viewBytes runtime) :=
  fun _ _ => ⟨_, rfl, rfl, Nat.cast_nonneg _⟩

/-- The calls on a bucket are at the times of the calls. -/
theorem Watches.times (h : Watches view) (s : SessionUnder runtime) (calls : List SessionTraffic) :
    (trace next view s calls).map Call.now = calls.map SessionTraffic.now := by
  induction calls generalizing s with
  | nil => rfl
  | cons call rest ih =>
      obtain ⟨c, hview, hnow, _⟩ := h s call
      rw [trace_cons, hview, Option.toList_some, List.singleton_append, List.map_cons, ih,
        List.map_cons, hnow]

/-- They ask for no negative amount. -/
theorem Watches.amounts (h : Watches view) {s : SessionUnder runtime}
    {calls : List SessionTraffic} : ∀ c ∈ trace next view s calls, 0 ≤ c.amount := by
  intro c hc
  obtain ⟨s', call, _, hview⟩ := mem_trace hc
  obtain ⟨found, hfound, _, hamount⟩ := h s' call
  rw [hview] at hfound
  cases hfound
  exact hamount

/-- A bucket that is watched so grants no more than its rate and its burst. -/
theorem Watches.bounded {gain burst : ℚ} {bucket : SessionUnder runtime → Level}
    (h : Watches view) (hmeters : Meters gain burst next view bucket)
    (s : SessionUnder runtime) (calls : List SessionTraffic)
    (htimes : ∀ call ∈ calls, call.now ≠ 0) : Bounded gain burst (trace next view s calls) := by
  apply hmeters.bounded
  intro c hc
  have hmem : c.now ∈ calls.map SessionTraffic.now := by
    rw [← h.times s calls]
    exact List.mem_map_of_mem hc
  obtain ⟨call, hcall, hnow⟩ := List.mem_map.mp hmem
  rw [← hnow]
  exact htimes call hcall

/-- In order, its level stays between zero and the burst. -/
theorem Watches.inRange {rate burst : ℚ} {bucket : SessionUnder runtime → Level}
    (h : Watches view) (hmeters : Meters (perNanosecond rate) burst next view bucket)
    (hrate : 0 ≤ rate) (hburst : 0 ≤ burst) {s : SessionUnder runtime}
    (hstart : bucket s = ⟨0, 0⟩) {calls : List SessionTraffic}
    (hordered : (calls.map SessionTraffic.now).Pairwise (· ≤ ·)) :
    (bucket (calls.foldl next s)).InRange burst := by
  rw [hmeters.bucket_eq]
  apply inRange_of_ordered (perNanosecond_nonneg hrate) hburst
  · rw [hstart]
    exact ⟨le_refl _, hburst⟩
  · exact hmeters.honest _ _
  · exact h.amounts
  · rw [hstart, h.times, List.pairwise_cons]
    exact ⟨fun _ _ => Nat.zero_le _, hordered⟩

end SessionTraffic

open SessionTraffic

/-- **The token buckets keep their rates.**  For every bucket of a client and of a session,
from any state and with clock readings in any order: a run of calls takes no more than the
burst and what the clock has paid in, from the first call of the run on that bucket, or
from any time that no call on it precedes, to the last that took something.  A refused
call takes nothing.  A fresh client or session that is called on in the order of the clock
has its levels between empty and full. -/
theorem token_buckets_conform (limits : LimitsConfig) (runtime : RuntimeSnapshot) :
    (∀ (kind : BucketKind) state (calls : List ClientCall),
      (∀ call ∈ calls, call.time ≠ some 0) →
        Bounded (perNanosecond (kind.rate limits)) (kind.burst limits)
          (bucketCalls limits kind state calls)) ∧
    (∀ (s : SessionUnder runtime) (calls : List SessionTraffic), (∀ call ∈ calls, call.now ≠ 0) →
      Bounded (perNanosecond runtime.limits.messagesPerSecondPerConnection)
          runtime.limits.messageBurstPerConnection (trace next viewMessages s calls) ∧
        Bounded (perNanosecond runtime.limits.bytesPerSecondPerConnection)
          runtime.limits.byteBurstPerConnection (trace next viewBytes s calls)) ∧
    (∀ state now granted, ((ClientCall.acquire now granted).run limits state).1 = false →
      ((ClientCall.acquire now granted).next limits state).connectionBucket =
        refill state.connectionBucket now limits.connectionsPerSecondPerIp
          limits.connectionBurstPerIp) ∧
    (∀ state bytes messages now, (consumeTraffic state bytes messages limits now).1 = false →
      (consumeTraffic state bytes messages limits now).2.messageBucket =
          refill state.messageBucket now limits.messagesPerSecondPerIp
            limits.messageBurstPerIp ∧
        (consumeTraffic state bytes messages limits now).2.byteBucket =
          refill state.byteBucket now limits.bytesPerSecondPerIp limits.byteBurstPerIp) ∧
    (∀ (s : Session) bytes messages now, (s.consumeSessionTraffic bytes messages now).1 = false →
      (s.consumeSessionTraffic bytes messages now).2.messageTokens =
          s.refillTokens s.messageTokens s.limits.messagesPerSecondPerConnection
            s.limits.messageBurstPerConnection now ∧
        (s.consumeSessionTraffic bytes messages now).2.byteTokens =
          s.refillTokens s.byteTokens s.limits.bytesPerSecondPerConnection
            s.limits.byteBurstPerConnection now) ∧
    (∀ (kind : BucketKind) created address (calls : List ClientCall), 0 ≤ kind.rate limits →
      (created :: calls.filterMap ClientCall.time).Pairwise (· ≤ ·) →
        (kind.level (calls.foldl (ClientCall.next limits)
          (freshNode limits created address).state)).InRange (kind.burst limits)) ∧
    (∀ (s : SessionUnder runtime) (calls : List SessionTraffic),
      0 ≤ runtime.limits.messagesPerSecondPerConnection →
      0 ≤ runtime.limits.bytesPerSecondPerConnection →
      s.val.messageTokens = 0 → s.val.byteTokens = 0 → s.val.trafficUpdatedAt = 0 →
      (calls.map SessionTraffic.now).Pairwise (· ≤ ·) →
        (messageLevel (calls.foldl next s)).InRange runtime.limits.messageBurstPerConnection ∧
          (byteLevel (calls.foldl next s)).InRange runtime.limits.byteBurstPerConnection) := by
  refine ⟨client_buckets_bounded limits, ?_, fun _ _ _ => acquireCall_refused,
    fun _ _ _ _ => consumeTraffic_refused, fun _ _ _ _ => SessionTraffic.refused,
    client_buckets_inRange limits, ?_⟩
  · intro s calls htimes
    exact ⟨watches_messages.bounded (messages_meters runtime) s calls htimes,
      watches_bytes.bounded (bytes_meters runtime) s calls htimes⟩
  · intro s calls hmessageRate hbyteRate hmessages hbytes hupdated hordered
    have hmessageStart : messageLevel s = ⟨0, 0⟩ := by
      unfold messageLevel
      rw [hmessages, hupdated]
    have hbyteStart : byteLevel s = ⟨0, 0⟩ := by
      unfold byteLevel
      rw [hbytes, hupdated]
    exact ⟨watches_messages.inRange (messages_meters runtime) hmessageRate (Nat.cast_nonneg _)
        hmessageStart hordered,
      watches_bytes.inRange (bytes_meters runtime) hbyteRate (Nat.cast_nonneg _) hbyteStart
        hordered⟩

/-- A session that has just been accepted. -/
def quietSession : SessionUnder {} := ⟨{ id := 1, client := 7, runtime := {}, proxyHeader := {} }, rfl⟩

/-- Two connections and two messages at one moment, under the default limits. -/
theorem token_buckets_conform_two_calls :
    charged (bucketCalls {} .connections (freshNode {} 1000000000 1).state
        [.acquire 1000000000 true, .acquire 1000000000 true]) = 2 ∧
      charged (bucketCalls {} .connections (freshNode {} 1000000000 1).state
        [.acquire 1000000000 true, .acquire 1000000000 true]) ≤
          (512 : Nat) + ((1000000000 : Nat) - (1000000000 : Nat) : ℚ) * perNanosecond 16 ∧
      (BucketKind.level .connections ([ClientCall.acquire 1000000000 true].foldl
        (ClientCall.next {}) (freshNode {} 1000000000 1).state)).InRange (512 : Nat) ∧
      charged (trace next viewMessages quietSession [⟨1000000000, 80, 1⟩, ⟨1000000000, 80, 1⟩]) ≤
          (2048 : Nat) + ((1000000000 : Nat) - (1000000000 : Nat) : ℚ) * perNanosecond 1024 ∧
      (messageLevel ([⟨1000000000, 80, 1⟩].foldl next quietSession)).InRange (2048 : Nat) := by
  obtain ⟨hclient, hsession, _, _, _, hclientRange, hsessionRange⟩ := token_buckets_conform {} {}
  refine ⟨by decide +kernel, ?_, ?_, ?_, ?_⟩
  · exact (hclient .connections _ _ (by decide) 1000000000 (by decide +kernel)).1 1000000000
      (by decide +kernel)
  · exact hclientRange .connections 1000000000 1 _ (by decide +kernel) (by decide)
  · exact ((hsession quietSession _ (by decide)).1 1000000000 (by decide +kernel)).1 1000000000
      (by decide +kernel)
  · exact (hsessionRange quietSession _ (by decide +kernel) (by decide +kernel) rfl rfl rfl
      (by decide)).1

/-- **A run may start with a call on another bucket.**  Traffic is accounted for at a hundred
seconds, and then a connection at one second: the connection bucket has been called on once,
at the time of its only charge, and the window from the start of the run to that charge
has a negative length. -/
theorem token_buckets_mixed_run :
    let calls := [ClientCall.consumeTraffic 100000000000 0 0, .acquire 1000000000 true]
    calls.head?.bind ClientCall.time = some 100000000000 ∧
      lastCharge (bucketCalls {} .connections (freshNode {} 1000000000 1).state calls) =
        some 1000000000 ∧
      ¬ charged (bucketCalls {} .connections (freshNode {} 1000000000 1).state calls) ≤
        (512 : Nat) + ((1000000000 : Nat) - (100000000000 : Nat) : ℚ) * perNanosecond 16 := by
  refine ⟨rfl, by decide +kernel, by decide +kernel⟩

end PoolLb
