import PoolLb.ServiceConfig

/-!
# Routing

Pools and backends as one routing snapshot holds them, and the choice of a
backend (`src/routing/router.cpp`).  A `BackendState` is a shared object; here
it is its identity `ref` with the fields that never change after construction.
Its health flag and its load are atomics: `select_backend` reads them as it
scans, and what it reads is the argument `view`.
-/

namespace PoolLb

/-- The immutable part of a `BackendState`, and which object it is. -/
structure Backend where
  ref : Nat
  socketAddresses : List SocketAddress
  sendProxyV2 : Bool := true
  name : String := ""
  pool : String := ""
  configuredAddress : String := ""
  configuredHealthAddress : String := ""
  healthSocketAddresses : List SocketAddress := []
deriving DecidableEq, Repr

/-- `PoolState`. -/
structure PoolState where
  backends : List Backend := []
  name : String := ""
deriving DecidableEq, Repr

/-- `RoutingTable`. -/
structure RoutingTable where
  failover : Bool := true
  upstreamSourceAddresses : List SocketAddress := []
  pools : List PoolState := []
  activePoolIndex : Nat := 0
  activePool : String := ""
  health : HealthConfig := {}
deriving DecidableEq, Repr

/-- The backends of a table, in order. -/
def RoutingTable.backends (table : RoutingTable) : List Backend :=
  table.pools.flatMap PoolState.backends

/-- What a scan reads of the mutable state of a backend. -/
structure BackendReading where
  healthy : Bool
  activeConnections : Nat
deriving DecidableEq, Repr

/-- The readings of one scan, by the identity of the backend. -/
abbrev BackendView := Nat → BackendReading

namespace Router

/-- The candidate `choose_from_pool` has selected so far, with its load. -/
def preferLess (view : BackendView) (selected : Option (Backend × Nat)) (candidate : Backend) :
    Option (Backend × Nat) :=
  if ¬ (view candidate.ref).healthy then selected
  else
    let load := (view candidate.ref).activeConnections
    match selected with
    | none => some (candidate, load)
    | some (_, selectedLoad) => if load < selectedLoad then some (candidate, load) else selected

/-- `choose_from_pool`: the pool, read from `sequence` on and around. -/
def chooseFromPool (view : BackendView) (pool : PoolState) (sequence : Nat) : Option Backend :=
  let offset := sequence % pool.backends.length
  ((pool.backends.rotate offset).foldl (preferLess view) none).map Prod.fst

/-- `select_backend`. -/
def selectBackend (view : BackendView) (table : RoutingTable) (sequence : Nat) : Option Backend :=
  let active := (table.pools[table.activePoolIndex]?).bind fun pool =>
    chooseFromPool view pool sequence
  match active with
  | some backend => some backend
  | none =>
      if ¬ table.failover then none
      else (table.pools.eraseIdx table.activePoolIndex).findSome? fun pool =>
        chooseFromPool view pool sequence

/-- `pool_has_healthy_backend`. -/
def poolHasHealthyBackend (view : BackendView) (pool : PoolState) : Bool :=
  pool.backends.any fun backend => (view backend.ref).healthy

/-- `has_routable_backend`. -/
def hasRoutableBackend (view : BackendView) (table : RoutingTable) : Bool :=
  if (table.pools[table.activePoolIndex]?).any (poolHasHealthyBackend view) then true
  else if ¬ table.failover then false
  else table.pools.zipIdx.any fun (pool, poolIndex) =>
    poolIndex ≠ table.activePoolIndex ∧ poolHasHealthyBackend view pool

end Router

end PoolLb
