import PoolLb.ServiceCalls

/-!
# Building a routing table

`make_routing_table` (`src/routing/router.cpp`) looks up every host of a configuration.
A backend that was in the previous table, under the same name and with the same options,
is carried over as the object it was if its addresses are the same, or if the lookup
fails; otherwise a new object takes its place.
-/

namespace PoolLb

open Interaction Handler

variable {σ : Type}

namespace Router

/-- The test of `carried_over_backend`: the options are those of the configuration. -/
def unchanged (config : BackendConfig) (poolName : String) (backend : Backend) : Bool :=
  backend.name = config.name ∧ backend.pool = poolName ∧
    backend.configuredAddress = config.address ∧
    backend.configuredHealthAddress = config.healthAddress ∧
    backend.sendProxyV2 = config.sendProxyV2

/-- `carried_over_backend`. -/
def carriedOverBackend (previous : Option RoutingTable) (config : BackendConfig)
    (poolName : String) : Option Backend :=
  previous.bind fun table => table.backends.find? (unchanged config poolName)

/-- `resolve_endpoints(parse_endpoint(address))`. -/
def resolveHost (address : String) (lookup : Endpoint → Lookup) :
    Setup σ (List SocketAddress) := do
  let endpoint ← ofExcept (parseEndpoint address)
  let answer ← ask (S := serviceCalls) (.getaddrinfo (lookup endpoint))
  ofExcept (resolveAddresses endpoint.host answer)

/-- The `try` block of `resolve_backend`: the addresses and the health addresses. -/
def resolveHosts (config : BackendConfig) (poolName : String) :
    Setup σ (List SocketAddress × List SocketAddress) := do
  let addresses ← resolveHost config.address (.mining poolName config.name)
  if config.healthAddress = "" then pure (addresses, [])
  else do
    let healthAddresses ← resolveHost config.healthAddress (.health poolName config.name)
    pure (addresses, healthAddresses)

/-- The object is still that of these addresses. -/
def sameRoute (addresses healthAddresses : List SocketAddress) (backend : Backend) : Bool :=
  sameAddresses backend.socketAddresses addresses ∧
    sameAddresses backend.healthSocketAddresses healthAddresses

/-- A new `BackendState`. -/
def makeBackend (config : BackendConfig) (poolName : String)
    (addresses healthAddresses : List SocketAddress) (ref : Nat) : Backend where
  ref := ref
  name := config.name
  pool := poolName
  configuredAddress := config.address
  socketAddresses := addresses
  configuredHealthAddress := config.healthAddress
  healthSocketAddresses := healthAddresses
  sendProxyV2 := config.sendProxyV2

/-- `resolve_backend`. -/
def resolveBackend (carriedOver : Option Backend) (config : BackendConfig) (poolName : String) :
    Setup σ Backend := do
  match ← attempt (resolveHosts config poolName) with
  | .error text =>
      match carriedOver with
      | none => stop text
      | some backend => pure backend
  | .ok (addresses, healthAddresses) =>
      match carriedOver.filter (sameRoute addresses healthAddresses) with
      | some backend => pure backend
      | none => do
          let ref ← ask (S := serviceCalls) .newBackend
          pure (makeBackend config poolName addresses healthAddresses ref)

/-- `has_compatible_source`. -/
def hasCompatibleSource (sources destinations : List SocketAddress) : Bool :=
  destinations.any fun destination =>
    sources.any fun source => source.family = destination.family

/-- One backend of `make_routing_table`. -/
def routeBackend (previous : Option RoutingTable) (sources : List SocketAddress)
    (poolName : String) (config : BackendConfig) : Setup σ Backend := do
  let backend ← resolveBackend (carriedOverBackend previous config poolName) config poolName
  if sources ≠ [] ∧ ¬ hasCompatibleSource sources backend.socketAddresses then
    stop ("backend " ++ poolName ++ "/" ++ config.name ++
      " has no family-compatible upstream source address")
  else pure backend

/-- One pool of `make_routing_table`. -/
def routePool (previous : Option RoutingTable) (sources : List SocketAddress)
    (config : PoolConfig) : Setup σ PoolState := do
  let backends ← each (routeBackend previous sources config.name) config.backends
  pure { name := config.name, backends := backends }

/-- One upstream source address. -/
def routeSource (host : String) : Setup σ SocketAddress := do
  let answer ← ask (S := serviceCalls) (.getaddrinfo (.source host))
  ofExcept (resolveNumericBindHost host answer)

/-- The index that the loop of `make_routing_table` leaves: of the last pool of the name. -/
def activePoolIndex (name : String) (pools : List PoolConfig) : Nat :=
  pools.zipIdx.foldl (fun index entry => if entry.1.name = name then entry.2 else index) 0

/-- `make_routing_table`. -/
def makeRoutingTable (config : ServiceConfig) (previous : Option RoutingTable) :
    Setup σ RoutingTable := do
  let sources ← each routeSource config.upstreamSourceAddresses
  let pools ← each (routePool previous sources) config.pools
  pure
    { activePool := config.activePool
      failover := config.failover
      health := config.health
      upstreamSourceAddresses := sources
      pools := pools
      activePoolIndex := activePoolIndex config.activePool config.pools }

/-! ## What it does -/

/-- The addresses of a host, from the answer of the resolver. -/
def hostOutcome (around : Surroundings) (address : String) (lookup : Endpoint → Lookup) :
    Except String (List SocketAddress) := do
  let endpoint ← parseEndpoint address
  resolveAddresses endpoint.host (around.resolver (lookup endpoint))

/-- The outcome of the lookup of the mining host. -/
def miningOutcome (around : Surroundings) (poolName : String) (config : BackendConfig) :
    Except String (List SocketAddress) :=
  hostOutcome around config.address (.mining poolName config.name)

/-- The outcome of the lookup of the health host; there are no addresses if there is no host. -/
def healthOutcome (around : Surroundings) (poolName : String) (config : BackendConfig) :
    Except String (List SocketAddress) :=
  if config.healthAddress = "" then .ok []
  else hostOutcome around config.healthAddress (.health poolName config.name)

/-- What becomes of one backend: the object that is in the table, and the heap. -/
inductive Routed (around : Surroundings) (previous : Option RoutingTable) (poolName : String)
    (config : BackendConfig) : BackendHeap → Backend → BackendHeap → Prop where
  /-- A lookup failed, and the last known addresses are kept. -/
  | unresolved {heap : BackendHeap} {backend : Backend} {text : String}
      (hcarried : carriedOverBackend previous config poolName = some backend)
      (hfailed : miningOutcome around poolName config = .error text ∨
        healthOutcome around poolName config = .error text) :
      Routed around previous poolName config heap backend heap
  /-- The addresses are the same. -/
  | same {heap : BackendHeap} {backend : Backend} {addresses healthAddresses : List SocketAddress}
      (hcarried : carriedOverBackend previous config poolName = some backend)
      (hmining : miningOutcome around poolName config = .ok addresses)
      (hhealth : healthOutcome around poolName config = .ok healthAddresses)
      (hsame : sameRoute addresses healthAddresses backend = true) :
      Routed around previous poolName config heap backend heap
  /-- A new object. -/
  | fresh {heap : BackendHeap} {addresses healthAddresses : List SocketAddress}
      (hmining : miningOutcome around poolName config = .ok addresses)
      (hhealth : healthOutcome around poolName config = .ok healthAddresses)
      (hmoved : ∀ backend, carriedOverBackend previous config poolName = some backend →
        sameRoute addresses healthAddresses backend = false) :
      Routed around previous poolName config heap
        (makeBackend config poolName addresses healthAddresses heap.allocated) heap.grown

variable {around : Surroundings} {previous : Option RoutingTable} {poolName : String}
  {config : BackendConfig} {s : σ} {w w' : Ambient}

/-- Resolving a host gives its outcome and changes nothing. -/
theorem resolveHost_holds (address : String) (lookup : Endpoint → Lookup) :
    Holds (ambient around) s w (resolveHost address lookup)
      (fun addresses s' w' => (s' = s ∧ w' = w) ∧
        hostOutcome around address lookup = .ok addresses)
      (fun text s' w' => (s' = s ∧ w' = w) ∧
        hostOutcome around address lookup = .error text) := by
  unfold resolveHost hostOutcome
  apply Holds.bind (Q := fun endpoint s' w' => (s' = s ∧ w' = w) ∧
    parseEndpoint address = .ok endpoint)
  · apply holds_ofExcept
    · intro endpoint hparsed
      exact ⟨⟨rfl, rfl⟩, hparsed⟩
    · intro text hparsed
      rw [hparsed]
      exact ⟨⟨rfl, rfl⟩, rfl⟩
  · intro endpoint s' w' h
    obtain ⟨⟨hs, hw⟩, hparsed⟩ := h
    subst hs hw
    rw [hparsed]
    refine ⟨trivial, fun answer hanswer => ?_⟩
    have hanswer : answer = around.resolver (lookup endpoint) := hanswer
    apply holds_ofExcept
    · intro addresses haddresses
      rw [hanswer] at haddresses
      exact ⟨⟨rfl, rfl⟩, haddresses⟩
    · intro text htext
      rw [hanswer] at htext
      exact ⟨⟨rfl, rfl⟩, htext⟩

/-- Both hosts have to resolve. -/
theorem resolveHosts_holds :
    Holds (ambient around) s w (resolveHosts config poolName)
      (fun result s' w' => (s' = s ∧ w' = w) ∧
        miningOutcome around poolName config = .ok result.1 ∧
        healthOutcome around poolName config = .ok result.2)
      (fun text s' w' => (s' = s ∧ w' = w) ∧
        (miningOutcome around poolName config = .error text ∨
          healthOutcome around poolName config = .error text)) := by
  unfold resolveHosts
  apply Holds.bind ((resolveHost_holds _ _).mono (fun _ _ _ h => h) fun text s' w' h =>
    ⟨h.1, .inl h.2⟩)
  intro addresses s' w' h
  obtain ⟨⟨hs, hw⟩, hmining⟩ := h
  subst hs hw
  split
  · rename_i hnone
    exact ⟨⟨rfl, rfl⟩, hmining, if_pos hnone⟩
  · rename_i hsome
    have houtcome : healthOutcome around poolName config =
        hostOutcome around config.healthAddress (.health poolName config.name) := if_neg hsome
    apply Holds.bind ((resolveHost_holds _ _).mono (fun _ _ _ h => h) fun text s' w' h =>
      ⟨h.1, .inr (houtcome.trans h.2)⟩)
    intro healthAddresses s' w' h
    exact ⟨h.1, hmining, houtcome.trans h.2⟩

/-- **`resolve_backend`.** -/
theorem resolveBackend_holds :
    Holds (ambient around) s w
      (resolveBackend (carriedOverBackend previous config poolName) config poolName)
      (fun backend s' w' => s' = s ∧ Routed around previous poolName config w.heap backend w'.heap ∧
        w' = { w with heap := w'.heap })
      (fun _ s' w' => s' = s ∧ w' = w) := by
  unfold resolveBackend
  apply Holds.bind (Q := fun outcome s' w' => (s' = s ∧ w' = w) ∧
    match outcome with
    | .ok result => miningOutcome around poolName config = .ok result.1 ∧
        healthOutcome around poolName config = .ok result.2
    | .error text => miningOutcome around poolName config = .error text ∨
        healthOutcome around poolName config = .error text)
  · exact holds_attempt resolveHosts_holds
  · intro outcome s' w' h
    obtain ⟨⟨hs, hw⟩, houtcome⟩ := h
    subst hs hw
    cases outcome with
    | error text =>
        cases hcarried : carriedOverBackend previous config poolName with
        | none => exact ⟨rfl, rfl⟩
        | some backend => exact ⟨rfl, .unresolved hcarried houtcome, rfl⟩
    | ok result =>
        obtain ⟨addresses, healthAddresses⟩ := result
        obtain ⟨hmining, hhealth⟩ := houtcome
        dsimp only
        cases hkept : (carriedOverBackend previous config poolName).filter
            (sameRoute addresses healthAddresses) with
        | some backend =>
            obtain ⟨hcarried, hsame⟩ := Option.filter_eq_some_iff.mp hkept
            exact ⟨rfl, .same hcarried hmining hhealth hsame, rfl⟩
        | none =>
            refine ⟨trivial, fun ref href => ?_⟩
            have href : ref = w'.heap.allocated := href
            rw [href]
            refine ⟨rfl, .fresh hmining hhealth fun backend hcarried => ?_, rfl⟩
            rw [hcarried, Option.filter_eq_none_iff] at hkept
            exact Bool.eq_false_iff.mpr (hkept backend rfl)

/-- Routing adds one object at most. -/
theorem Routed.grew {heap heap' : BackendHeap} {backend : Backend}
    (h : Routed around previous poolName config heap backend heap') : heap.Grew heap' := by
  cases h with
  | unresolved => exact .refl heap
  | same => exact .refl heap
  | fresh => exact heap.grew_grown

/-- What one backend of `make_routing_table` does. -/
def RoutedFrom (around : Surroundings) (previous : Option RoutingTable)
    (sources : List SocketAddress) (poolName : String) (config : BackendConfig) (w : Ambient)
    (backend : Backend) (w' : Ambient) : Prop :=
  Routed around previous poolName config w.heap backend w'.heap ∧
    (sources ≠ [] → hasCompatibleSource sources backend.socketAddresses = true) ∧
    w' = { w with heap := w'.heap }

/-- What one pool does. -/
def RoutedPool (around : Surroundings) (previous : Option RoutingTable)
    (sources : List SocketAddress) (config : PoolConfig) (w : Ambient) (pool : PoolState)
    (w' : Ambient) : Prop :=
  pool.name = config.name ∧
    Chain (RoutedFrom around previous sources config.name) config.backends w pool.backends w'

theorem RoutedFrom.later {sources : List SocketAddress} {backend : Backend}
    (h : RoutedFrom around previous sources poolName config w backend w') :
    Ambient.Later w w' := ⟨h.1.grew, h.2.2⟩

theorem RoutedPool.later {sources : List SocketAddress} {config : PoolConfig} {pool : PoolState}
    (h : RoutedPool around previous sources config w pool w') : Ambient.Later w w' :=
  h.2.le Ambient.Later Ambient.Later.refl (fun _ _ _ => Ambient.Later.trans) fun _ _ _ _ =>
    RoutedFrom.later

variable {sources : List SocketAddress} {w₀ : Ambient}

/-- The state is what it was, and the world a later one. -/
abbrev Untouched (s₀ : σ) (w₀ : Ambient) (s : σ) (w : Ambient) : Prop :=
  s = s₀ ∧ Ambient.Later w₀ w

/-- **One backend**: the object that is carried over, or a new one. -/
theorem routeBackend_holds {s₀ : σ} (h : Untouched s₀ w₀ s w) :
    Holds (ambient around) s w (routeBackend previous sources poolName config)
      (fun backend s' w' => Untouched s₀ w₀ s' w' ∧
        RoutedFrom around previous sources poolName config w backend w')
      (fun _ => Untouched s₀ w₀) := by
  obtain ⟨hs, hlater⟩ := h
  subst hs
  unfold routeBackend
  apply Holds.bind (resolveBackend_holds.mono (fun _ _ _ h => h) fun _ s' w' h => ?_)
  · intro backend s' w' h
    obtain ⟨hs, hrouted, hw⟩ := h
    have hnext : Ambient.Later w₀ w' := hlater.trans ⟨hrouted.grew, hw⟩
    split
    · exact ⟨hs, hnext⟩
    · rename_i hcompatible
      refine ⟨⟨hs, hnext⟩, hrouted, fun hsources => ?_, hw⟩
      by_contra hnot
      exact hcompatible ⟨hsources, hnot⟩
  · obtain ⟨hs, hw⟩ := h
    rw [hs, hw]
    exact ⟨rfl, hlater⟩

/-- The backends of a pool, one after the other. -/
theorem routePool_holds {s₀ : σ} {config : PoolConfig} (h : Untouched s₀ w₀ s w) :
    Holds (ambient around) s w (routePool previous sources config)
      (fun pool s' w' => Untouched s₀ w₀ s' w' ∧
        RoutedPool around previous sources config w pool w')
      (fun _ => Untouched s₀ w₀) := by
  unfold routePool
  apply Holds.bind (Holds.each (fun _ _ _ _ h => routeBackend_holds h) h)
  intro backends s' w' h
  exact ⟨h.1, rfl, h.2⟩

/-- A source address is looked up, and nothing is changed. -/
theorem routeSource_holds {s₀ : σ} {host : String} (h : Untouched s₀ w₀ s w) :
    Holds (ambient around) s w (routeSource host)
      (fun _ s' w' => Untouched s₀ w₀ s' w' ∧ w' = w) (fun _ => Untouched s₀ w₀) := by
  unfold routeSource
  refine ⟨trivial, fun answer _ => ?_⟩
  apply holds_ofExcept
  · intro address _
    exact ⟨h, rfl⟩
  · intro text _
    exact h

/-- What `make_routing_table` makes of a configuration. -/
structure Routes (around : Surroundings) (config : ServiceConfig) (previous : Option RoutingTable)
    (w : Ambient) (table : RoutingTable) (w' : Ambient) : Prop where
  activePool : table.activePool = config.activePool
  failover : table.failover = config.failover
  health : table.health = config.health
  activePoolIndex : table.activePoolIndex = activePoolIndex config.activePool config.pools
  sources : table.upstreamSourceAddresses.length = config.upstreamSourceAddresses.length
  pools : Chain (RoutedPool around previous table.upstreamSourceAddresses) config.pools w
    table.pools w'

/-- **`make_routing_table`.**  Whatever happens, the objects that were there are not
touched; if it succeeds, every backend is routed in its place. -/
theorem makeRoutingTable_holds {config : ServiceConfig} :
    Holds (ambient around) s w (makeRoutingTable config previous)
      (fun table s' w' => Untouched s w s' w' ∧ Routes around config previous w table w')
      (fun _ => Untouched s w) := by
  unfold makeRoutingTable
  have hsources : Holds (ambient around) s w (each routeSource config.upstreamSourceAddresses)
      (fun sources s' w' => Untouched s w s' w' ∧
        Chain (fun _ w _ w' => w' = w) config.upstreamSourceAddresses w sources w')
      (fun _ => Untouched s w) :=
    Holds.each (fun _ _ _ _ h => routeSource_holds h) ⟨rfl, Ambient.Later.refl w⟩
  apply hsources.bind
  intro sources s₁ w₁ h
  obtain ⟨h₁, hsources⟩ := h
  have hstill : w₁ = w := Chain.eq_of_still hsources
  apply Holds.bind (Holds.each (fun _ _ _ _ h => routePool_holds h) h₁)
  intro pools s₂ w₂ h
  obtain ⟨h₂, hpools⟩ := h
  rw [hstill] at hpools
  exact ⟨h₂, rfl, rfl, rfl, rfl, hsources.length_eq, hpools⟩

end Router

end PoolLb
