import PoolLb.Interaction
import PoolLb.ServiceCalls
import PoolLb.Text
import PoolLb.Validator

/-!
# Health checks

`HealthMonitor` (`src/routing/health_monitor.cpp`) probes every backend in turn, over
HTTP if it has a health address and by a plain connection otherwise, and moves its
health flag with some inertia.  `run_health_check` (`src/main.cpp`) is the probe of the
container.  Times are in nanoseconds; one socket is open at a time, so the calls do not
name it.  The loops that the source ends only by an answer of the outside have a number
of rounds, and no result if it is used up.
-/

namespace PoolLb

open Interaction

namespace Health

/-- What `poll` waits for. -/
inductive PollEvents where
  | input
  | output
deriving DecidableEq, Repr

/-- What `send` returns. -/
inductive SendResult where
  | sent (count : Nat)
  /-- `EAGAIN`, `EWOULDBLOCK` or `EINTR`. -/
  | retry
  | failed
deriving DecidableEq, Repr

/-- What `recv` returns. -/
inductive RecvResult where
  | received (bytes : Bytes)
  | closed
  /-- `EAGAIN` or `EWOULDBLOCK`. -/
  | again
  /-- `EINTR`. -/
  | interrupted
  | failed
deriving DecidableEq, Repr

inductive ProbeCall where
  | now
  | stopRequested
  /-- `connect_tcp`, with its timeout in milliseconds. -/
  | connectTcp (address : SocketAddress) (timeoutMilliseconds : Nat)
  /-- `wait_fd`. -/
  | waitFd (events : PollEvents) (deadline : Nat)
  | send (bytes : Bytes)
  | recv (capacity : Nat)
deriving DecidableEq

def ProbeCall.Answer : ProbeCall → Type
  | .now => Nat
  | .stopRequested => Bool
  | .connectTcp _ _ => Bool
  | .waitFd _ _ => Bool
  | .send _ => SendResult
  | .recv _ => RecvResult

def probeCalls : Signature := ⟨ProbeCall, ProbeCall.Answer⟩

def ask (c : ProbeCall) : Prog probeCalls c.Answer := @call probeCalls c

def kHealthRequest : Bytes :=
  ascii "GET /health HTTP/1.1\r\nHost: pool-backend\r\nConnection: close\r\n\r\n"

def kMaximumStatusLineBytes : Nat := 512

def kStatusLineTerminatorBytes : Nat := 2

/-- The size of the buffer for a response. -/
def kResponseBytes : Nat := kMaximumStatusLineBytes + kStatusLineTerminatorBytes

def kCrlf : Bytes := [kCarriageReturn, kNewline]

/-- `healthy_status`. -/
def healthyStatus (response : Bytes) : Option Bool :=
  match Text.findWord kCrlf response with
  | none => none
  | some lineEnd =>
      let statusLine := response.take lineEnd
      some ((ascii "HTTP/1.1 200 ").isPrefixOf statusLine ||
        (ascii "HTTP/1.0 200 ").isPrefixOf statusLine)

/-- `timeout_until`, in milliseconds. -/
def timeoutUntil (deadline now : Nat) : Nat :=
  if now ≥ deadline then 0 else (deadline - now + 999999) / 1000000

/-- `send_health_request`. -/
def sendHealthRequest (deadline : Nat) : Nat → Bytes → Prog probeCalls (Option Bool)
  | 0, _ => pure none
  | rounds + 1, remaining =>
      if remaining = [] then pure (some true)
      else do
        let ready : Bool ← ask (.waitFd .output deadline)
        if ¬ ready then pure (some false)
        else
          let result : SendResult ← ask (.send remaining)
          match result with
          | .sent count =>
              if count > 0 then sendHealthRequest deadline rounds (remaining.drop count)
              else pure (some false)
          | .retry => sendHealthRequest deadline rounds remaining
          | .failed => pure (some false)

/-- `read_healthy_status`, with what has been received. -/
def readHealthyStatus (deadline : Nat) : Nat → Bytes → Prog probeCalls (Option Bool)
  | 0, _ => pure none
  | rounds + 1, response =>
      if response.length ≥ kResponseBytes then pure (some false)
      else do
        let result : RecvResult ← ask (.recv (kResponseBytes - response.length))
        match result with
        | .received bytes =>
            match healthyStatus (response ++ bytes) with
            | some status => pure (some status)
            | none => readHealthyStatus deadline rounds (response ++ bytes)
        | .closed => pure (some false)
        | .interrupted => readHealthyStatus deadline rounds response
        | .failed => pure (some false)
        | .again =>
            let ready : Bool ← ask (.waitFd .input deadline)
            if ready then readHealthyStatus deadline rounds response
            else
              -- A server may close immediately after its response.
              let final : RecvResult ← ask (.recv (kResponseBytes - response.length))
              match final with
              | .received bytes => pure (some ((healthyStatus (response ++ bytes)).getD false))
              | _ => pure (some false)

/-- `check_http_address`. -/
def checkHttpAddress (rounds : Nat) (address : SocketAddress) (deadline : Nat) :
    Prog probeCalls (Option Bool) := do
  let now : Nat ← ask .now
  let timeout := timeoutUntil deadline now
  if timeout = 0 then pure (some false)
  else
    let connected : Bool ← ask (.connectTcp address timeout)
    if ¬ connected then pure (some false)
    else
      match ← sendHealthRequest deadline rounds kHealthRequest with
      | none => pure none
      | some false => pure (some false)
      | some true => readHealthyStatus deadline rounds []

/-- `check_tcp_address`. -/
def checkTcpAddress (address : SocketAddress) (deadline : Nat) : Prog probeCalls (Option Bool) := do
  let now : Nat ← ask .now
  let timeout := timeoutUntil deadline now
  if timeout = 0 then pure (some false)
  else
    let connected : Bool ← ask (.connectTcp address timeout)
    pure (some connected)

/-- The loop of `check_backend` over the addresses that are left. -/
def tryAddresses (rounds : Nat) (useHttp : Bool) (overallDeadline : Nat) :
    List SocketAddress → Prog probeCalls (Option Bool)
  | [] => pure (some false)
  | address :: rest => do
      let stop : Bool ← ask .stopRequested
      if stop then pure (some false)
      else
        let now : Nat ← ask .now
        if now ≥ overallDeadline then pure (some false)
        else
          let attemptDeadline := now + (overallDeadline - now) / (rest.length + 1)
          match ← if useHttp then checkHttpAddress rounds address attemptDeadline
              else checkTcpAddress address attemptDeadline with
          | none => pure none
          | some true => pure (some true)
          | some false => tryAddresses rounds useHttp overallDeadline rest

/-- A value of an `int` after an atomic addition. -/
def wrapInt (value : Int) : Int := Int.bmod value (2 ^ 32)

/-- The second half of `check_backend`: the atomics of the backend. -/
def recordCheck (config : HealthConfig) (backend : BackendCounters) (reachable : Bool) :
    BackendCounters :=
  if reachable then
    let successes := wrapInt (backend.consecutiveSuccesses + 1)
    { backend with
      consecutiveFailures := 0
      consecutiveSuccesses := successes
      healthy := if ¬ backend.healthy ∧ successes ≥ config.riseChecks then true
        else backend.healthy }
  else
    let failures := wrapInt (backend.consecutiveFailures + 1)
    { backend with
      consecutiveSuccesses := 0
      consecutiveFailures := failures
      healthy := if backend.healthy ∧ failures ≥ config.fallChecks then false
        else backend.healthy }

/-- What a check leaves behind, and how it came out. -/
structure CheckResult where
  reachable : Bool
  counters : BackendCounters
  addressSequence : Nat

/-- `check_backend`, with the `address_sequence_` of the monitor. -/
def checkBackend (rounds : Nat) (backend : Backend) (config : HealthConfig)
    (counters : BackendCounters) (addressSequence : Nat) : Prog probeCalls (Option CheckResult) := do
  let useHttp : Bool := backend.healthSocketAddresses ≠ []
  let addresses := if useHttp then backend.healthSocketAddresses else backend.socketAddresses
  let now : Nat ← ask .now
  let overallDeadline := now + config.connectTimeoutMilliseconds.toNat * 1000000
  match ← tryAddresses rounds useHttp overallDeadline
      (addresses.rotate (addressSequence % addresses.length)) with
  | none => pure none
  | some reachable =>
      pure (some
        { reachable
          counters := recordCheck config counters reachable
          addressSequence := if addresses = [] then addressSequence else addressSequence + 1 })

/-! ## The probe of the container -/

def kHealthCheckTimeout : Nat := 3000000000

def kCheckRequest : Bytes :=
  ascii "GET /healthz HTTP/1.1\r\nHost: localhost\r\nConnection: close\r\n\r\n"

/-- The size of the buffer of `run_health_check`. -/
def kCheckResponseBytes : Nat := 64

/-- The first address that can be connected to. -/
def connectFirst (deadline : Nat) : List SocketAddress → Prog probeCalls Bool
  | [] => pure false
  | candidate :: rest => do
      let now : Nat ← ask .now
      if now ≥ deadline then pure false
      else
        let connected : Bool ← ask (.connectTcp candidate (timeoutUntil deadline now))
        if connected then pure true else connectFirst deadline rest

/-- The loop of `run_health_check` that sends the request. -/
def sendCheckRequest (deadline : Nat) : Nat → Bytes → Prog probeCalls (Option Bool)
  | 0, _ => pure none
  | rounds + 1, remaining =>
      if remaining = [] then pure (some true)
      else do
        let ready : Bool ← ask (.waitFd .output deadline)
        if ¬ ready then pure (some false)
        else
          let result : SendResult ← ask (.send remaining)
          match result with
          | .sent count => sendCheckRequest deadline rounds (remaining.drop count)
          | .retry => sendCheckRequest deadline rounds remaining
          | .failed => pure (some false)

/-- The last part of `run_health_check`: one read decides. -/
def readCheckResponse (deadline : Nat) : Prog probeCalls Bool := do
  let ready : Bool ← ask (.waitFd .input deadline)
  if ¬ ready then pure false
  else
    let result : RecvResult ← ask (.recv kCheckResponseBytes)
    match result with
    | .received bytes => pure ((ascii "HTTP/1.1 200 ").isPrefixOf bytes)
    | _ => pure false

/-- `run_health_check`, from the resolved addresses. -/
def runHealthCheck (rounds : Nat) (addresses : List SocketAddress) :
    Prog probeCalls (Option Bool) := do
  let start : Nat ← ask .now
  let deadline := start + kHealthCheckTimeout
  let connected ← connectFirst deadline addresses
  if ¬ connected then pure (some false)
  else
    match ← sendCheckRequest deadline rounds kCheckRequest with
    | none => pure none
    | some false => pure (some false)
    | some true =>
        let healthy ← readCheckResponse deadline
        pure (some healthy)

end Health

end PoolLb
