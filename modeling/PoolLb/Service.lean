import PoolLb.RoutingRefresh

/-!
# The main thread

`main` (`src/main.cpp`) with the parts of `EdgeServer` (`src/net/server.cpp`) and
`ServiceState` (`src/core/service_state.hpp`) that it calls: start-up, the reload on
SIGHUP, the refresh of the addresses and the poll of the TLS material.  The reactors,
the health monitor and the HTTP server run in other threads and are not here.
-/

namespace PoolLb

open Interaction Handler

/-- An `SSL_CTX`, with the files it was loaded from and the versions they had. -/
structure TlsContext where
  ref : Nat
  certificateFile : String
  privateKeyFile : String
  certificate : Nat
  privateKey : Nat
deriving DecidableEq

/-- `TlsCertificateStatus`. -/
structure TlsCertificateStatus where
  listenerName : String
  expiryTimestampSeconds : Int
deriving DecidableEq

/-- `RuntimeSnapshot` with the whole configuration.  A session reads less of it. -/
structure PublishedRuntime where
  config : ServiceConfig
  routing : RoutingTable

/-- The variables of `main`, and what it alone writes of the shared state. -/
structure Service where
  config : ServiceConfig := {}
  /-- `ServiceState::runtime`, empty until the first `publish`. -/
  runtime : Option PublishedRuntime := none
  queuedBytesLimit : Nat := 0
  listenerTemplates : List SocketAddress := []
  /-- The slots of the `TlsContextStore`. -/
  tlsContexts : List (Option TlsContext) := []
  tlsCertificates : List TlsCertificateStatus := []
  tlsReloadSuccesses : Nat := 0
  tlsReloadFailures : Nat := 0
  tlsFingerprint : String := ""
  nextAddressRefresh : Nat := 0
  nextTlsPoll : Nat := 0

abbrev MainM := Setup Service

def kAddressRefreshInterval : Nat := 300000000000
def kTlsMaterialPollInterval : Nat := 30000000000
def kDescriptorHeadroom : Nat := 4096

namespace Service

/-! ## TLS -/

/-- `create_server_context`. -/
def createServerContext (certificateFile privateKeyFile : String) : MainM TlsContext := do
  match ← ask (S := serviceCalls) .newContext with
  | none => stop "cannot create OpenSSL server context"
  | some ref =>
      match ← ask (S := serviceCalls) (.useCertificateChainFile certificateFile) with
      | none => stop ("cannot load TLS certificate chain: " ++ certificateFile)
      | some certificate =>
          match ← ask (S := serviceCalls) (.usePrivateKeyFile privateKeyFile) with
          | none => stop ("cannot load TLS private key: " ++ privateKeyFile)
          | some privateKey =>
              let matching : Bool ←
                ask (S := serviceCalls) (.checkPrivateKey certificate privateKey)
              if matching then
                pure { ref := ref, certificateFile := certificateFile,
                       privateKeyFile := privateKeyFile, certificate := certificate,
                       privateKey := privateKey }
              else stop "TLS certificate and private key do not match"

/-- One listener of `load_tls_contexts`: its slot, and its status if it has one. -/
def loadTlsContext (listener : ListenerConfig) :
    MainM (Option TlsContext × Option TlsCertificateStatus) := do
  if listener.tls then do
    let context ← createServerContext listener.certificateFile listener.privateKeyFile
    match ← ask (S := serviceCalls) (.certificateExpiry context.certificate) with
    | .error text => stop text
    | .ok expiry =>
        pure (some context, some { listenerName := listener.name, expiryTimestampSeconds := expiry })
  else pure (none, none)

/-- `load_tls_contexts`. -/
def loadTlsContexts (config : ServiceConfig) :
    MainM (List (Option TlsContext) × List TlsCertificateStatus) := do
  let loaded ← each loadTlsContext config.listeners
  pure (loaded.map Prod.fst, loaded.filterMap Prod.snd)

/-- `TlsContextStore::publish`. -/
def publishContexts (contexts : List (Option TlsContext)) : MainM Unit := do
  let s ← current
  if s.tlsContexts ≠ [] ∧ s.tlsContexts.length ≠ contexts.length then
    stop "TLS listener topology changed during context publication"
  else modify fun s => { s with tlsContexts := contexts }

/-- The `try` block of `reload_tls`. -/
def replaceTls (config : ServiceConfig) : MainM Unit := do
  let (contexts, certificates) ← loadTlsContexts config
  let s ← current
  if contexts.length ≠ s.listenerTemplates.length then
    stop "listener topology changed during TLS reload"
  else do
    publishContexts contexts
    modify fun s => { s with
      tlsCertificates := certificates
      tlsReloadSuccesses := s.tlsReloadSuccesses + 1 }

/-- `EdgeServer::reload_tls`. -/
def reloadTls (config : ServiceConfig) : MainM Unit := do
  if config.listeners.countP ListenerConfig.tls = 0 then pure ()
  else
    match ← attempt (replaceTls config) with
    | .ok () => pure ()
    | .error text => do
        modify fun s => { s with tlsReloadFailures := s.tlsReloadFailures + 1 }
        stop text

/-- The files of the TLS listeners, in the order of `tls_material_fingerprint`. -/
def tlsFiles (config : ServiceConfig) : List String :=
  (config.listeners.filter ListenerConfig.tls).flatMap fun listener =>
    [listener.certificateFile, listener.privateKeyFile]

/-- What one file adds to the fingerprint. -/
def fingerprintPart (file : String) : Option (Int × Int) → String
  | some (modified, size) => file ++ ":" ++ toString modified ++ ":" ++ toString size ++ ";"
  | none => file ++ ":missing;"

/-- One file of `tls_material_fingerprint`. -/
def fingerprintFile (file : String) : MainM String := do
  let info ← ask (S := serviceCalls) (.stat file)
  pure (fingerprintPart file info)

/-- `tls_material_fingerprint`. -/
def tlsMaterialFingerprint (config : ServiceConfig) : MainM String := do
  let parts ← each fingerprintFile (tlsFiles config)
  pure (parts.foldl (· ++ ·) "")

/-! ## Configuration and routes -/

section

variable (numericKey : String → Option Bytes)

/-- `Config::from_file`. -/
def fromFile : MainM ServiceConfig := do
  let config ← ofExcept (← ask (S := serviceCalls) .readConfig)
  ofExcept (config.validate numericKey)
  pure config

/-- `validate_file_descriptor_limit`. -/
def validateFileDescriptorLimit (config : ServiceConfig) : MainM Unit := do
  match ← ask (S := serviceCalls) .getrlimit with
  | none => stop "cannot read RLIMIT_NOFILE"
  | some limit =>
      if config.limits.maxConnections > (kWordSize - 1 - kDescriptorHeadroom) / 2 then
        stop "limits.max_connections is too large"
      else
        let required := config.limits.maxConnections * 2 + kDescriptorHeadroom
        if limit.any fun soft => soft < required then
          stop ("RLIMIT_NOFILE is " ++ toString (limit.getD 0) ++ " but at least " ++
            toString required ++ " is required for " ++ toString config.limits.maxConnections ++
            " sessions")
        else pure ()

/-- `ServiceState::publish`. -/
def publish (config : ServiceConfig) (routing : RoutingTable) : MainM Unit :=
  modify fun s => { s with
    queuedBytesLimit := config.limits.maxQueuedBytes
    runtime := some { config := config, routing := routing } }

/-- The `try` block of the reload. -/
def replaceConfiguration : MainM Unit := do
  let replacement ← fromFile numericKey
  validateFileDescriptorLimit replacement
  let s ← current
  if s.config.restartRequiredChanges replacement ≠ [] then pure ()
  else do
    let routing ← Router.makeRoutingTable replacement (s.runtime.map PublishedRuntime.routing)
    reloadTls replacement
    publish replacement routing
    modify fun s => { s with config := replacement }

/-- The reload on SIGHUP; an error is logged. -/
def reload : MainM Unit := do
  let _ ← attempt (replaceConfiguration numericKey)
  pure ()

/-- The periodic refresh of the addresses; an error is logged. -/
def refreshAddresses : MainM Unit := do
  let s ← current
  let _ ← attempt do
    let refreshed ← Router.makeRoutingTable s.config (s.runtime.map PublishedRuntime.routing)
    publish s.config refreshed
  pure ()

/-- The poll of the TLS material. -/
def pollTls : MainM Unit := do
  let s ← current
  let fingerprint ← tlsMaterialFingerprint s.config
  if fingerprint ≠ s.tlsFingerprint then
    match ← attempt (reloadTls s.config) with
    | .ok () => modify fun s => { s with tlsFingerprint := fingerprint }
    | .error _ => pure ()
  else pure ()

/-- The refresh and the poll, where they are due. -/
def refreshDue (now : Nat) : MainM Unit := do
  let s ← current
  if s.nextAddressRefresh ≤ now then do
    modify fun s => { s with nextAddressRefresh := now + kAddressRefreshInterval }
    refreshAddresses
  else pure ()

def pollDue (now : Nat) : MainM Unit := do
  let s ← current
  if s.nextTlsPoll ≤ now then do
    modify fun s => { s with nextTlsPoll := now + kTlsMaterialPollInterval }
    pollTls
  else pure ()

/-- The reload, where it was requested. -/
def reloadDue : MainM Unit := do
  let requested : Bool ← ask (S := serviceCalls) .reloadRequested
  if requested then reload numericKey else pure ()

/-- One round of the loop of `main`. -/
def mainRound : MainM Unit := do
  reloadDue numericKey
  let now : Nat ← ask (S := serviceCalls) .now
  refreshDue now
  pollDue now

/-! ## Start-up -/

/-- The address of one listener. -/
def resolveListener (listener : ListenerConfig) : MainM SocketAddress := do
  match ← Router.resolveHost listener.address (.listener listener.name) with
  -- there is an address, or the lookup has failed
  | [] => stop ("no usable address for " ++ listener.address)
  | address :: _ => pure address

/-- The constructor of `EdgeServer`. -/
def makeEdgeServer (config : ServiceConfig) : MainM Unit := do
  let templates ← each resolveListener config.listeners
  modify fun s => { s with listenerTemplates := templates }
  let (contexts, certificates) ← loadTlsContexts config
  publishContexts contexts
  modify fun s => { s with tlsCertificates := certificates }

/-- `main` until its loop. -/
def start : MainM Unit := do
  let config ← fromFile numericKey
  validateFileDescriptorLimit config
  let routing ← Router.makeRoutingTable config none
  modify fun s => { s with config := config }
  publish config routing
  makeEdgeServer config
  let fingerprint ← tlsMaterialFingerprint config
  let started : Nat ← ask (S := serviceCalls) .now
  let now : Nat ← ask (S := serviceCalls) .now
  modify fun s => { s with
    tlsFingerprint := fingerprint
    nextAddressRefresh := started + kAddressRefreshInterval
    nextTlsPoll := now + kTlsMaterialPollInterval }

end

end Service

end PoolLb
