import PoolLb.ShardSection

/-!
# `acquire`, write by write

`acquire` as a `Section` hands the shard back at its end, which is all that a
thread waiting for the mutex can see.  The number of entries of a shard, and the
count of tracked clients that should cover it, change in the middle: an entry is
erased before its slot is given back, and a slot is taken before its entry is
inserted.  Here every write to the shard is a call of its own, in the order of the
source, and `try_emplace` may throw.

`withoutWrites_acquireInPlace` is the link to `acquire`: without the writes, and
without the exception, it is the same code.
-/

namespace PoolLb.RateLimiter

open Interaction Tally

/-- What the code under a shard mutex does to memory that others see. -/
inductive SectionCall where
  | limiter (call : LimiterCall)
  /-- A write to the shard. -/
  | store (shard : Shard)
  /-- The insertion of `try_emplace`; `false` if it throws. -/
  | emplace (shard : Shard)

@[reducible] def SectionCall.Answer : SectionCall → Type
  | .limiter call => call.Answer
  | .store _ => Unit
  | .emplace _ => Bool

abbrev sectionCalls : Signature := ⟨SectionCall, SectionCall.Answer⟩

/-- Code under a shard mutex whose writes are calls. -/
abbrev InPlace (α : Type) := Prog sectionCalls α

namespace InPlace

abbrev limiter (c : LimiterCall) : InPlace c.Answer := call (S := sectionCalls) (.limiter c)

abbrev store (shard : Shard) : InPlace Unit := call (S := sectionCalls) (.store shard)

abbrev emplace (shard : Shard) : InPlace Bool := call (S := sectionCalls) (.emplace shard)

end InPlace

/-- `prune`, if it is due. -/
def pruneInPlace (limits : LimitsConfig) (now : Nat) (shard : Shard) : InPlace Shard :=
  if shard.lastPruned = 0 ∨ shard.lastPruned + kPruneInterval ≤ now then do
    let kept := { shard with
      clients := keep (fun _ node => !forgotten now limits.clientStateRetentionSeconds node.state)
        shard.clients }
    InPlace.store kept
    InPlace.limiter (.releaseTracked (shard.clients.entries.length - kept.clients.entries.length))
    let pruned := { kept with lastPruned := now }
    InPlace.store pruned
    pure pruned
  else pure shard

/-- `evict_oldest_inactive`. -/
def evictInPlace (shard : Shard) : InPlace (Bool × Shard) :=
  match shard.clients.entries.foldl (fun oldest e => oldestInactive oldest e.1 e.2) none with
  | none => pure (false, shard)
  | some (key, _) => do
      let left := { shard with clients := shard.clients.erase key }
      InPlace.store left
      InPlace.limiter (.releaseTracked 1)
      pure (true, left)

/-- A tracking slot for a client the shard does not know. -/
def makeRoomInPlace (key : ClientKey) (limits : LimitsConfig) (shard : Shard) :
    InPlace (Bool × Shard) :=
  if (shard.clients.lookup key).isSome then pure (true, shard)
  else do
    if ← InPlace.limiter (.reserveTrackingSlot limits.maxTrackedClientIps) then
      pure (true, shard)
    else
      let (evicted, shard) ← evictInPlace shard
      if evicted then
        let reserved ← InPlace.limiter (.reserveTrackingSlot limits.maxTrackedClientIps)
        pure (reserved, shard)
      else pure (false, shard)

/-- `try_emplace` and its handler, which gives the slot back: nothing if it throws. -/
def tryEmplaceInPlace (key : ClientKey) (limits : LimitsConfig) (now : Nat) (shard : Shard) :
    InPlace (Option (ClientNode × Bool)) :=
  match shard.clients.lookup key with
  | some node => pure (some (node, false))
  | none => do
      let address ← InPlace.limiter (.allocate (shard.clients.entries.map fun e => e.2.address))
      let node := freshNode limits now address
      if ← InPlace.emplace (shard.setState key node node.state) then
        pure (some (node, true))
      else
        InPlace.limiter (.releaseTracked 1)
        pure none

/-- The decision of `acquire` once the client has a node in the shard. -/
def decideInPlace (key : ClientKey) (limits : LimitsConfig) (now : Nat) (node : ClientNode)
    (inserted : Bool) (shard : Shard) : InPlace (Admission × Shard) :=
  if node.state.active ≥ limits.maxConnectionsPerIp then
    pure ({ result := .concurrentLimit }, shard)
  else if node.state.connectionBucket.tokens < 1 then
    pure ({ result := .rateLimit }, shard)
  else do
    if ← InPlace.limiter (.consumeGlobalConnection now limits) then
      InPlace.store (shard.setState key node node.state.admitted)
      pure ({ result := .accepted, lease := some node.address },
        shard.setState key node node.state.admitted)
    else if inserted then
      let left := { shard with clients := shard.clients.erase key }
      InPlace.store left
      InPlace.limiter (.releaseTracked 1)
      pure ({ result := .globalRateLimit }, left)
    else pure ({ result := .globalRateLimit }, shard)

/-- `acquire` under the mutex of the client's shard; nothing if it throws. -/
def acquireInPlace (key : ClientKey) (limits : LimitsConfig) (now : Nat) (shard : Shard) :
    InPlace (Option (Admission × Shard)) := do
  let shard ← pruneInPlace limits now shard
  let (room, shard) ← makeRoomInPlace key limits shard
  if room then
    match ← tryEmplaceInPlace key limits now shard with
    | none => pure none
    | some (node, inserted) =>
        let arrived := node.state.arrive now limits
        InPlace.store (shard.setState key node arrived)
        let result ← decideInPlace key limits now { node with state := arrived } inserted
          (shard.setState key node arrived)
        pure (some result)
  else pure (some ({ result := .sourceCapacity }, shard))

/-! ## The same code -/

/-- The code without its writes, when nothing throws. -/
def withoutWrites {α : Type} : InPlace α → Section α
  | .ret a => .ret a
  | .ask (.limiter c) next => .ask c fun r => withoutWrites (next r)
  | .ask (.store _) next => withoutWrites (next ())
  | .ask (.emplace _) next => withoutWrites (next true)

variable {α β : Type} {key : ClientKey} {limits : LimitsConfig} {now : Nat} {shard : Shard}

@[simp] theorem withoutWrites_pure (a : α) : withoutWrites (pure a : InPlace α) = pure a := rfl

@[simp] theorem withoutWrites_bind (p : InPlace α) (f : α → InPlace β) :
    withoutWrites (p >>= f) = withoutWrites p >>= fun a => withoutWrites (f a) := by
  induction p with
  | ret a => rfl
  | ask c next ih =>
      cases c with
      | limiter c => exact congrArg (Prog.ask c) (funext fun r => ih r)
      | store shard => exact ih ()
      | emplace shard => exact ih true

/-- The prune, without its writes. -/
theorem withoutWrites_pruneInPlace :
    withoutWrites (pruneInPlace limits now shard) = pruneIfDue limits now shard := by
  unfold pruneInPlace pruneIfDue
  split <;> rfl

/-- The eviction, without its writes. -/
theorem withoutWrites_evictInPlace :
    withoutWrites (evictInPlace shard) = evictOldestInactive shard := by
  unfold evictInPlace evictOldestInactive
  cases shard.clients.entries.foldl (fun oldest e => oldestInactive oldest e.1 e.2) none <;> rfl

/-- Making room, without the writes of the eviction. -/
theorem withoutWrites_makeRoomInPlace :
    withoutWrites (makeRoomInPlace key limits shard) = makeRoom key limits shard := by
  unfold makeRoomInPlace makeRoom
  split
  · rfl
  · rw [withoutWrites_bind]
    apply congrArg (Prog.ask _)
    funext reserved
    cases reserved with
    | true => rfl
    | false =>
        show withoutWrites (evictInPlace shard >>= _) = evictOldestInactive shard >>= _
        rw [withoutWrites_bind, withoutWrites_evictInPlace]
        congr 1
        funext result
        obtain ⟨evicted, left⟩ := result
        cases evicted <;> rfl

/-- The decision, without its writes. -/
theorem withoutWrites_decideInPlace {node : ClientNode} {inserted : Bool} :
    withoutWrites (decideInPlace key limits now node inserted shard) =
      decideAdmission key limits now node inserted shard := by
  unfold decideInPlace decideAdmission
  split
  · rfl
  · split
    · rfl
    · apply congrArg (Prog.ask _)
      funext granted
      cases granted with
      | true => rfl
      | false => cases inserted <;> rfl

/-- `try_emplace`, where the insertion does not throw. -/
theorem withoutWrites_tryEmplaceInPlace :
    withoutWrites (tryEmplaceInPlace key limits now shard) =
      tryEmplace key limits now shard >>= fun found => pure (some found) := by
  unfold tryEmplaceInPlace tryEmplace
  cases shard.clients.lookup key <;> rfl

/-- **Without its writes `acquireInPlace` is `acquire`.** -/
theorem withoutWrites_acquireInPlace :
    withoutWrites (acquireInPlace key limits now shard) =
      acquire key limits now shard >>= fun result => pure (some result) := by
  unfold acquireInPlace acquire admitAfterPrune
  rw [withoutWrites_bind, withoutWrites_pruneInPlace, Prog.bind_assoc]
  congr 1
  funext pruned
  rw [withoutWrites_bind, withoutWrites_makeRoomInPlace, Prog.bind_assoc]
  congr 1
  funext result
  obtain ⟨room, found⟩ := result
  cases room with
  | false => rfl
  | true =>
      show withoutWrites (tryEmplaceInPlace key limits now found >>= _) =
        (tryEmplace key limits now found >>= _) >>= _
      rw [withoutWrites_bind, withoutWrites_tryEmplaceInPlace, Prog.bind_assoc, Prog.bind_assoc]
      congr 1
      funext result
      obtain ⟨node, inserted⟩ := result
      show withoutWrites (decideInPlace key limits now _ inserted _ >>= _) = _
      rw [withoutWrites_bind, withoutWrites_decideInPlace]
      rfl

end PoolLb.RateLimiter
