import PoolLb.Config
import PoolLb.Endpoint
import PoolLb.Interaction
import PoolLb.Tally
import PoolLb.TimerWheel

/-!
# Admission control per client address

`RateLimiter` (`src/net/rate_limiter.cpp`) keeps one `ClientState` per client
key in 64 shards.  A section of code that holds the mutex of a shard works on
that shard alone; what it does to the process-wide atomics (the number of
tracked clients, the arrival time of the global rate) and what it asks of the
allocator are calls to the outside.

The clients of a shard are nodes of a `std::unordered_map`.  A lease refers to
its `ClientState` by the address of the node, which stays the same until the
node is erased, so a node here carries its address.  Token counts are `double`
in the source and rationals here; clock readings are nanoseconds.
-/

namespace PoolLb

open Interaction Tally

/-- `AdmissionResult`. -/
inductive AdmissionResult where
  | accepted
  | concurrentLimit
  | rateLimit
  | globalRateLimit
  | sourceCapacity
deriving DecidableEq, Repr

namespace RateLimiter

/-- `TokenBucket`. -/
structure TokenBucket where
  tokens : ℚ := 0
  updatedAt : Nat := 0
deriving DecidableEq

/-- `ClientState`. -/
structure ClientState where
  connectionBucket : TokenBucket := {}
  messageBucket : TokenBucket := {}
  byteBucket : TokenBucket := {}
  active : Nat := 0
  lastSeen : Nat := 0
deriving DecidableEq

/-- A node of the client map: the state and the address where it lives. -/
structure ClientNode where
  address : Nat
  state : ClientState
deriving DecidableEq

/-- `Shard`, without its mutex. -/
structure Shard where
  clients : Table ClientKey ClientNode := ∅
  lastPruned : Nat := 0

def kShardCount : Nat := 64

def kPruneInterval : Nat := 60 * kNanosecondsPerSecond

/-- What a section under a shard mutex asks of the outside: the atomics shared
by all shards, and the address of a new node.  `taken` are the addresses of the
nodes the shard holds at that moment. -/
inductive LimiterCall where
  | reserveTrackingSlot (maximum : Nat)
  | releaseTracked (count : Nat)
  | consumeGlobalConnection (now : Nat) (limits : LimitsConfig)
  | allocate (taken : List Nat)

@[reducible] def LimiterCall.Answer : LimiterCall → Type
  | .reserveTrackingSlot _ => Bool
  | .releaseTracked _ => Unit
  | .consumeGlobalConnection _ _ => Bool
  | .allocate _ => Nat

abbrev limiterCalls : Signature := ⟨LimiterCall, LimiterCall.Answer⟩

/-- Code that runs under the mutex of one shard. -/
abbrev Section (α : Type) := Prog limiterCalls α

/-- `reserve_tracking_slot`: whether the tracked clients were below `maximum`. -/
abbrev reserveTrackingSlot (maximum : Nat) : Section Bool :=
  call (S := limiterCalls) (.reserveTrackingSlot maximum)

/-- `tracked_clients_.fetch_sub(count)`. -/
abbrev releaseTracked (count : Nat) : Section Unit :=
  call (S := limiterCalls) (.releaseTracked count)

/-- `consume_global_connection`. -/
abbrev consumeGlobalConnection (now : Nat) (limits : LimitsConfig) : Section Bool :=
  call (S := limiterCalls) (.consumeGlobalConnection now limits)

/-- The address of a new node. -/
abbrev allocate (taken : List Nat) : Section Nat := call (S := limiterCalls) (.allocate taken)

/-- `shard_index_for`. -/
def shardIndexFor (key : ClientKey) : Nat := (clientKeyHash key).toNat % kShardCount

/-- `refill`. -/
def refill (bucket : TokenBucket) (now : Nat) (ratePerSecond : ℚ) (burst : Nat) : TokenBucket where
  tokens :=
    if bucket.updatedAt = 0 then burst
    else
      let elapsed : ℚ := ((now : ℚ) - bucket.updatedAt) / kNanosecondsPerSecond
      min burst (bucket.tokens + elapsed * ratePerSecond)
  updatedAt := now

/-- The test of `prune`: nobody holds a lease and nobody was seen for long. -/
def forgotten (now : Nat) (retentionSeconds : Int) (state : ClientState) : Bool :=
  state.active = 0 ∧
    (now : Int) - state.lastSeen > retentionSeconds * kNanosecondsPerSecond

/-- `prune`. -/
def prune (shard : Shard) (now : Nat) (retentionSeconds : Int) : Section Shard := do
  let clients := keep (fun _ node => !forgotten now retentionSeconds node.state) shard.clients
  releaseTracked (shard.clients.entries.length - clients.entries.length)
  pure { shard with clients := clients }

/-- The candidate `evict_oldest_inactive` has found so far. -/
def oldestInactive (oldest : Option (ClientKey × ClientNode)) (key : ClientKey)
    (node : ClientNode) : Option (ClientKey × ClientNode) :=
  if node.state.active ≠ 0 then oldest
  else
    match oldest with
    | none => some (key, node)
    | some (_, found) => if node.state.lastSeen < found.state.lastSeen then some (key, node)
        else oldest

/-- `evict_oldest_inactive`. -/
def evictOldestInactive (shard : Shard) : Section (Bool × Shard) :=
  match shard.clients.entries.foldl (fun oldest e => oldestInactive oldest e.1 e.2) none with
  | none => pure (false, shard)
  | some (key, _) => do
      releaseTracked 1
      pure (true, { shard with clients := shard.clients.erase key })

/-- The first lines of `acquire` after taking the mutex. -/
def pruneIfDue (limits : LimitsConfig) (now : Nat) (shard : Shard) : Section Shard :=
  if shard.lastPruned = 0 ∨ shard.lastPruned + kPruneInterval ≤ now then do
    let shard ← prune shard now limits.clientStateRetentionSeconds
    pure { shard with lastPruned := now }
  else pure shard

/-- Make room for a client the shard does not know: a free tracking slot, or
the slot of the oldest idle client.  `false` means `SourceCapacity`. -/
def makeRoom (key : ClientKey) (limits : LimitsConfig) (shard : Shard) : Section (Bool × Shard) :=
  if (shard.clients.lookup key).isSome then pure (true, shard)
  else do
    if ← reserveTrackingSlot limits.maxTrackedClientIps then
      pure (true, shard)
    else
      let (evicted, shard) ← evictOldestInactive shard
      if evicted then
        let reserved ← reserveTrackingSlot limits.maxTrackedClientIps
        pure (reserved, shard)
      else pure (false, shard)

/-- The node of a client that was not tracked. -/
def freshNode (limits : LimitsConfig) (now address : Nat) : ClientNode where
  address := address
  state :=
    { connectionBucket := { tokens := limits.connectionBurstPerIp, updatedAt := now }
      messageBucket := { tokens := limits.messageBurstPerIp, updatedAt := now }
      byteBucket := { tokens := limits.byteBurstPerIp, updatedAt := now } }

/-- `try_emplace`: the node of the client, new or not. -/
def tryEmplace (key : ClientKey) (limits : LimitsConfig) (now : Nat) (shard : Shard) :
    Section (ClientNode × Bool) :=
  match shard.clients.lookup key with
  | some node => pure (node, false)
  | none => do
      let address ← allocate (shard.clients.entries.map fun e => e.2.address)
      pure (freshNode limits now address, true)

/-- The outcome of `acquire`: the address in the lease, if there is one. -/
structure Admission where
  result : AdmissionResult
  lease : Option Nat := none

/-- Write the state of a client back to its node. -/
def Shard.setState (shard : Shard) (key : ClientKey) (node : ClientNode) (state : ClientState) :
    Shard :=
  { shard with clients := shard.clients.insert key { node with state := state } }

/-- The state of a client that tries to connect, before the decision. -/
def ClientState.arrive (state : ClientState) (now : Nat) (limits : LimitsConfig) : ClientState :=
  { state with
    lastSeen := now
    connectionBucket := refill state.connectionBucket now limits.connectionsPerSecondPerIp
      limits.connectionBurstPerIp }

/-- The state of a client that was admitted. -/
def ClientState.admitted (state : ClientState) : ClientState :=
  { state with
    connectionBucket := { state.connectionBucket with
      tokens := state.connectionBucket.tokens - 1 }
    active := state.active + 1 }

/-- The decision of `acquire` once the client has a node in the shard. -/
def decideAdmission (key : ClientKey) (limits : LimitsConfig) (now : Nat) (node : ClientNode)
    (inserted : Bool) (shard : Shard) : Section (Admission × Shard) :=
  if node.state.active ≥ limits.maxConnectionsPerIp then
    pure ({ result := .concurrentLimit }, shard)
  else if node.state.connectionBucket.tokens < 1 then
    pure ({ result := .rateLimit }, shard)
  else do
    if ← consumeGlobalConnection now limits then
      pure ({ result := .accepted, lease := some node.address },
        shard.setState key node node.state.admitted)
    else if inserted then
      releaseTracked 1
      pure ({ result := .globalRateLimit }, { shard with clients := shard.clients.erase key })
    else pure ({ result := .globalRateLimit }, shard)

/-- `acquire` with room for the client. -/
def admitWithRoom (key : ClientKey) (limits : LimitsConfig) (now : Nat) (shard : Shard) :
    Section (Admission × Shard) := do
  let (node, inserted) ← tryEmplace key limits now shard
  let arrived := node.state.arrive now limits
  decideAdmission key limits now { node with state := arrived } inserted
    (shard.setState key node arrived)

/-- `acquire` after its prune. -/
def admitAfterPrune (key : ClientKey) (limits : LimitsConfig) (now : Nat) (shard : Shard) :
    Section (Admission × Shard) := do
  let (room, shard) ← makeRoom key limits shard
  if room then admitWithRoom key limits now shard
  else pure ({ result := .sourceCapacity }, shard)

/-- `acquire`, from the moment it holds the mutex of the client's shard. -/
def acquire (key : ClientKey) (limits : LimitsConfig) (now : Nat) (shard : Shard) :
    Section (Admission × Shard) := do
  let shard ← pruneIfDue limits now shard
  admitAfterPrune key limits now shard

/-- Follow the pointer of a lease: the node that lives at an address. -/
def Shard.nodeAt (shard : Shard) (address : Nat) : Option (ClientKey × ClientNode) :=
  (shard.clients.entries.find? fun e => e.2.address = address).map fun e => (e.1, e.2)

/-- `consume_traffic`, on the state its lease points to. -/
def consumeTraffic (state : ClientState) (bytes messages : Nat) (limits : LimitsConfig)
    (now : Nat) : Bool × ClientState :=
  let state := { state with
    lastSeen := now
    byteBucket := refill state.byteBucket now limits.bytesPerSecondPerIp limits.byteBurstPerIp
    messageBucket := refill state.messageBucket now limits.messagesPerSecondPerIp
      limits.messageBurstPerIp }
  if state.byteBucket.tokens < (bytes : ℚ) ∨ state.messageBucket.tokens < (messages : ℚ) then
    (false, state)
  else
    (true, { state with
      byteBucket := { state.byteBucket with tokens := state.byteBucket.tokens - bytes }
      messageBucket := { state.messageBucket with
        tokens := state.messageBucket.tokens - messages } })

/-- `release`, on the state its lease points to. -/
def release (state : ClientState) : ClientState :=
  if state.active > 0 then { state with active := state.active - 1 } else state

end RateLimiter

end PoolLb
