import PoolLb.Config
import PoolLb.Endpoint
import PoolLb.PendingBuffer

/-!
# The service configuration

`Config` of `src/core/config.hpp`, the checks of `validate` and the changes that
need a restart (`src/core/config.cpp`).  The YAML reader is a library; what it
makes of a text is a `ServiceConfig` here, before `validate` has seen it.
-/

namespace PoolLb

/-- `ListenerConfig`. -/
structure ListenerConfig where
  name : String := ""
  address : String := ""
  tls : Bool := false
  certificateFile : String := ""
  privateKeyFile : String := ""
deriving DecidableEq

/-- `BackendConfig`. -/
structure BackendConfig where
  name : String := ""
  address : String := ""
  healthAddress : String := ""
  sendProxyV2 : Bool := true
deriving DecidableEq

/-- `PoolConfig`. -/
structure PoolConfig where
  name : String := ""
  backends : List BackendConfig := []
deriving DecidableEq

/-- `HealthConfig`, with the defaults of the source. -/
structure HealthConfig where
  intervalSeconds : Int := 2
  connectTimeoutMilliseconds : Int := 3000
  riseChecks : Int := 1
  fallChecks : Int := 3
deriving DecidableEq, Repr

/-- `Config`. -/
structure ServiceConfig where
  listeners : List ListenerConfig := []
  pools : List PoolConfig := []
  activePool : String := ""
  failover : Bool := true
  upstreamSourceAddresses : List String := []
  apiAddress : String := "127.0.0.1:7778"
  ioWorkers : Int := 0
  health : HealthConfig := {}
  limits : LimitsConfig := {}
  protocol : ProtocolConfig := {}
deriving DecidableEq

def kMaximumUpstreamSourceAddresses : Nat := 64

namespace ServiceConfig

/-- The text of a method name in an error. -/
def methodText (method : Bytes) : String :=
  String.ofList (method.map fun byte => Char.ofNat byte.toNat)

/-- The bytes of `mining.`. -/
def miningNamespace : Bytes := [109, 105, 110, 105, 110, 103, 46]

/-- The loop of `validate_method_list`; `unique` are the methods before. -/
def validateMethods (name : String) : List Bytes → List Bytes → Checked
  | [], _ => .ok ()
  | method :: rest, unique => do
      if ¬ miningNamespace.isPrefixOf method ∨ method.length ≤ miningNamespace.length ∨
          method.length > kMaximumProtocolMethodBytes then
        .error (name ++ " entries must use the mining.* namespace and be at most " ++
          toString kMaximumProtocolMethodBytes ++ " bytes")
      if ¬ method.all fun byte => 0x20 ≤ byte ∧ byte ≤ 0x7e then
        .error (name ++ " entries must contain printable ASCII only")
      if method ∈ unique then
        .error (name ++ " must not contain duplicates: " ++ methodText method)
      validateMethods name rest (method :: unique)

/-- `validate_method_list`. -/
def validateMethodList (methods : List Bytes) (name : String) : Checked := do
  if methods.length > kMaximumAdditionalProtocolMethods then
    .error (name ++ " must contain at most " ++ toString kMaximumAdditionalProtocolMethods ++
      " entries")
  validateMethods name methods []

/-- The loop of `validate_upstream_source_addresses`.  `numericKey` is
`numeric_address_key`, which asks `inet_pton`. -/
def validateSources (numericKey : String → Option Bytes) : List String → List Bytes → Checked
  | [], _ => .ok ()
  | address :: rest, unique => do
      if address = "" then .error "upstream_source_addresses entries must not be empty"
      match numericKey address with
      | none => .error ("upstream_source_addresses entries must be numeric IPv4 or IPv6 " ++
          "addresses without ports: " ++ address)
      | some key =>
          if key ∈ unique then
            .error ("upstream_source_addresses must contain unique addresses: " ++ address)
          validateSources numericKey rest (key :: unique)

/-- `validate_upstream_source_addresses`. -/
def validateUpstreamSourceAddresses (numericKey : String → Option Bytes)
    (addresses : List String) : Checked := do
  if addresses.length > kMaximumUpstreamSourceAddresses then
    .error ("upstream_source_addresses must contain at most " ++
      toString kMaximumUpstreamSourceAddresses ++ " entries")
  validateSources numericKey addresses []

/-- A text that must parse as an endpoint. -/
def requireEndpoint (address : String) : Checked := do
  let _ ← parseEndpoint address

/-- The loop of `validate` over the listeners, with the names and addresses before. -/
def validateListeners : List ListenerConfig → List String → List String → Checked
  | [], _, _ => .ok ()
  | listener :: rest, names, addresses => do
      if listener.name = "" ∨ listener.name ∈ names then
        .error "listener names must be non-empty and unique"
      requireEndpoint listener.address
      if listener.address ∈ addresses then
        .error ("listener addresses must be unique: " ++ listener.address)
      if listener.tls ∧ (listener.certificateFile = "" ∨ listener.privateKeyFile = "") then
        .error ("TLS listener " ++ listener.name ++
          " requires certificate_file and private_key_file")
      validateListeners rest (listener.name :: names) (listener.address :: addresses)

/-- The loop of `validate` over the backends of a pool. -/
def validateBackends : List BackendConfig → List String → Checked
  | [], _ => .ok ()
  | backend :: rest, names => do
      if backend.name = "" ∨ backend.name ∈ names then
        .error "backend names must be non-empty and globally unique"
      requireEndpoint backend.address
      if backend.healthAddress ≠ "" then requireEndpoint backend.healthAddress
      validateBackends rest (backend.name :: names)

/-- The names that a pool adds to those before. -/
def backendNames (pool : PoolConfig) (names : List String) : List String :=
  (pool.backends.map BackendConfig.name).reverse ++ names

/-- The loop of `validate` over the pools. -/
def validatePools : List PoolConfig → List String → List String → Checked
  | [], _, _ => .ok ()
  | pool :: rest, poolNames, names => do
      if pool.name = "" ∨ pool.name ∈ poolNames then
        .error "pool names must be non-empty and unique"
      if pool.backends = [] then
        .error ("pool " ++ pool.name ++ " must contain at least one backend")
      validateBackends pool.backends names
      validatePools rest (pool.name :: poolNames) (backendNames pool names)

/-- The checks of `validate` on the health options. -/
def validateHealth (health : HealthConfig) : Checked := do
  requirePositiveInt health.intervalSeconds "health.interval_seconds"
  requirePositiveInt health.connectTimeoutMilliseconds "health.connect_timeout_milliseconds"
  requirePositiveInt health.riseChecks "health.rise_checks"
  requirePositiveInt health.fallChecks "health.fall_checks"

/-- Every method that may open a session must be allowed. -/
def requireAllowed (allowed : List Bytes) : List Bytes → Checked
  | [] => .ok ()
  | method :: rest => do
      if method ∉ allowed then
        .error ("protocol.additional_initial_methods entry is not present in " ++
          "protocol.additional_allowed_methods: " ++ methodText method)
      requireAllowed allowed rest

/-- The checks of `validate` on the protocol options. -/
def validateProtocol (protocol : ProtocolConfig) : Checked := do
  if protocol.maxJsonDepth < 2 ∨ protocol.maxJsonDepth > 128 then
    .error "protocol.max_json_depth must be in [2, 128]"
  validateMethodList protocol.additionalAllowedMethods "protocol.additional_allowed_methods"
  validateMethodList protocol.additionalInitialMethods "protocol.additional_initial_methods"
  requireAllowed protocol.additionalAllowedMethods protocol.additionalInitialMethods

/-- `validate`. -/
def validate (numericKey : String → Option Bytes) (config : ServiceConfig) : Checked := do
  if config.listeners = [] then .error "listeners must contain at least one entry"
  if config.pools = [] then .error "pools must contain at least one entry"
  if config.activePool = "" then .error "active_pool must not be empty"
  validateListeners config.listeners [] []
  validatePools config.pools [] []
  if config.activePool ∉ config.pools.map PoolConfig.name then
    .error ("active_pool does not name a configured pool: " ++ config.activePool)
  validateUpstreamSourceAddresses numericKey config.upstreamSourceAddresses
  requireEndpoint config.apiAddress
  if config.ioWorkers < 0 ∨ config.ioWorkers > 256 then
    .error "io_workers must be in [0, 256]"
  validateHealth config.health
  validateLimits config.limits
  validateProtocol config.protocol

/-- What `restart_required_changes` compares of two listeners. -/
def sameTopology (current candidate : ListenerConfig) : Bool :=
  current.name = candidate.name ∧ current.address = candidate.address ∧
    current.tls = candidate.tls

/-- `std::ranges::equal` of two lists under a test. -/
def equalBy {α : Type} (test : α → α → Bool) : List α → List α → Bool
  | [], [] => true
  | a :: as, b :: bs => test a b && equalBy test as bs
  | _, _ => false

/-- `restart_required_changes`. -/
def restartRequiredChanges (config replacement : ServiceConfig) : List String :=
  (if equalBy sameTopology config.listeners replacement.listeners then [] else ["listeners"]) ++
    (if config.apiAddress ≠ replacement.apiAddress then ["api_address"] else []) ++
    (if config.ioWorkers ≠ replacement.ioWorkers then ["io_workers"] else [])

/-- The backends of a configuration, with the names of their pools, in order. -/
def backends (config : ServiceConfig) : List (String × BackendConfig) :=
  config.pools.flatMap fun pool => pool.backends.map fun backend => (pool.name, backend)

/-! ## What `validate` lets through -/

/-- Backends that pass have distinct names, none of them seen before. -/
theorem validateBackends_ok {backends : List BackendConfig} {names : List String}
    (h : validateBackends backends names = .ok ()) :
    (backends.map BackendConfig.name).Nodup ∧
      ∀ name ∈ backends.map BackendConfig.name, name ∉ names := by
  induction backends generalizing names with
  | nil => simp
  | cons backend rest ih =>
      simp only [validateBackends, Checked.bind_ok, Checked.test_ok] at h
      obtain ⟨hname, _, hrest⟩ := h
      have hrest : validateBackends rest (backend.name :: names) = .ok () := by
        split at hrest
        · exact (Checked.bind_ok.mp hrest).2
        · exact hrest
      obtain ⟨hnodup, hnew⟩ := ih hrest
      rw [List.map_cons, List.nodup_cons, List.forall_mem_cons]
      refine ⟨⟨fun hmem => ?_, hnodup⟩, fun hmem => hname (.inr hmem), fun name hmem hold => ?_⟩
      · exact hnew _ hmem List.mem_cons_self
      · exact hnew name hmem (List.mem_cons_of_mem _ hold)

/-- Pools that pass have distinct names, and so have all their backends. -/
theorem validatePools_ok {pools : List PoolConfig} {poolNames names : List String}
    (h : validatePools pools poolNames names = .ok ()) :
    ((pools.map PoolConfig.name).Nodup ∧ ∀ name ∈ pools.map PoolConfig.name, name ∉ poolNames) ∧
      ((pools.flatMap PoolConfig.backends).map BackendConfig.name).Nodup ∧
        ∀ name ∈ (pools.flatMap PoolConfig.backends).map BackendConfig.name, name ∉ names := by
  induction pools generalizing poolNames names with
  | nil => simp
  | cons pool rest ih =>
      simp only [validatePools, Checked.bind_ok, Checked.test_ok] at h
      obtain ⟨hname, _, hbackends, hrest⟩ := h
      obtain ⟨⟨hpools, hpoolNew⟩, hnames, hnameNew⟩ := ih hrest
      obtain ⟨hown, hownNew⟩ := validateBackends_ok hbackends
      have hapart : ∀ name ∈ (rest.flatMap PoolConfig.backends).map BackendConfig.name,
          name ∉ pool.backends.map BackendConfig.name ∧ name ∉ names := by
        intro name hmem
        have hnew := hnameNew name hmem
        simp only [backendNames, List.mem_append, List.mem_reverse, not_or] at hnew
        exact hnew
      refine ⟨⟨?_, ?_⟩, ?_, ?_⟩
      · rw [List.map_cons, List.nodup_cons]
        exact ⟨fun hmem => hpoolNew _ hmem List.mem_cons_self, hpools⟩
      · rw [List.map_cons, List.forall_mem_cons]
        exact ⟨fun hmem => hname (.inr hmem),
          fun name hmem hold => hpoolNew name hmem (List.mem_cons_of_mem _ hold)⟩
      · rw [List.flatMap_cons, List.map_append, List.nodup_append]
        refine ⟨hown, hnames, fun name hmem other hother hsame => ?_⟩
        exact (hapart other hother).1 (hsame ▸ hmem)
      · rw [List.flatMap_cons, List.map_append]
        intro name hmem
        rcases List.mem_append.mp hmem with hfirst | hlater
        · exact hownNew name hfirst
        · exact (hapart name hlater).2

/-- A configuration that `validate` has passed. -/
structure Accepted (numericKey : String → Option Bytes) (config : ServiceConfig) : Prop where
  validated : validate numericKey config = .ok ()

/-- **An accepted configuration has distinct names and an active pool.** -/
theorem Accepted.names {numericKey : String → Option Bytes} {config : ServiceConfig}
    (h : config.Accepted numericKey) :
    (config.pools.map PoolConfig.name).Nodup ∧
      ((config.pools.flatMap PoolConfig.backends).map BackendConfig.name).Nodup ∧
      config.activePool ∈ config.pools.map PoolConfig.name := by
  have hvalid := h.validated
  simp only [validate, Checked.bind_ok, Checked.test_ok] at hvalid
  obtain ⟨_, _, _, _, hpools, hactive, _⟩ := hvalid
  obtain ⟨⟨hnames, _⟩, hbackends, _⟩ := validatePools_ok hpools
  exact ⟨hnames, hbackends, not_not.mp hactive⟩

end ServiceConfig

end PoolLb
