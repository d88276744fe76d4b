import Mathlib.Data.Rat.Defs
import Mathlib.Algebra.Order.Ring.Rat
import Mathlib.Tactic.Common

/-!
# Limits and protocol options

The part of the service configuration that the reactor, the rate limiter and
the validator read (`src/core/config.hpp`), and the checks of
`src/core/config.cpp` on it.  Rates are `double` in the source; `validate`
only lets finite ones through, so they are rationals here.
-/

namespace PoolLb

/-- One past the largest value of `std::size_t` and `std::uint64_t`. -/
def kWordSize : Nat := 2 ^ 64

/-- `LimitsConfig`, with the defaults of the source. -/
structure LimitsConfig where
  maxConnections : Nat := 100000
  maxConnectionsPerIp : Nat := 1024
  connectionsPerSecondPerIp : ℚ := 16
  connectionBurstPerIp : Nat := 512
  globalConnectionsPerSecond : ℚ := 5000
  globalConnectionBurst : Nat := 20000
  ipv6PrefixBits : Int := 64
  maxTrackedClientIps : Nat := 262144
  clientStateRetentionSeconds : Int := 300
  messagesPerSecondPerConnection : ℚ := 1024
  messageBurstPerConnection : Nat := 2048
  bytesPerSecondPerConnection : ℚ := 262144
  byteBurstPerConnection : Nat := 524288
  messagesPerSecondPerIp : ℚ := 32768
  messageBurstPerIp : Nat := 65536
  bytesPerSecondPerIp : ℚ := 4194304
  byteBurstPerIp : Nat := 16777216
  maxMessagesPerReadyEvent : Nat := 2048
  maxLineBytes : Nat := 16384
  maxBufferBytes : Nat := 262144
  maxQueuedBytes : Nat := 268435456
  tlsHandshakeTimeoutSeconds : Int := 10
  firstMessageTimeoutSeconds : Int := 15
  upstreamConnectTimeoutMilliseconds : Int := 15000
  idleTimeoutSeconds : Int := 3600
deriving DecidableEq

/-- `ProtocolConfig`, with the defaults of the source. -/
structure ProtocolConfig where
  allowUnknownMiningMethods : Bool := true
  additionalAllowedMethods : List (List UInt8) := []
  additionalInitialMethods : List (List UInt8) := []
  maxJsonDepth : Int := 32
deriving DecidableEq

def kMaximumAdditionalProtocolMethods : Nat := 64

def kMaximumProtocolMethodBytes : Nat := 128

/-- A failed check, with the text of the `ConfigError`. -/
abbrev Checked := Except String Unit

/-- `require_positive` for a `std::size_t`. -/
def requirePositiveSize (value : Nat) (name : String) : Checked :=
  if value = 0 then .error (name ++ " must be greater than zero") else .ok ()

/-- `require_positive` for an `int`. -/
def requirePositiveInt (value : Int) (name : String) : Checked :=
  if value ≤ 0 then .error (name ++ " must be greater than zero") else .ok ()

/-- `require_positive` for a `double`. -/
def requirePositiveRate (value : ℚ) (name : String) : Checked :=
  if value ≤ 0 then .error (name ++ " must be finite and greater than zero") else .ok ()

/-- The checks of `validate` on the limits, in the order of the source. -/
def validateLimits (limits : LimitsConfig) : Checked := do
  requirePositiveSize limits.maxConnections "limits.max_connections"
  requirePositiveSize limits.maxConnectionsPerIp "limits.max_connections_per_ip"
  requirePositiveRate limits.connectionsPerSecondPerIp "limits.connections_per_second_per_ip"
  requirePositiveSize limits.connectionBurstPerIp "limits.connection_burst_per_ip"
  requirePositiveRate limits.globalConnectionsPerSecond "limits.global_connections_per_second"
  requirePositiveSize limits.globalConnectionBurst "limits.global_connection_burst"
  if limits.ipv6PrefixBits < 1 ∨ limits.ipv6PrefixBits > 128 then
    .error "limits.ipv6_prefix_bits must be in [1, 128]"
  requirePositiveSize limits.maxTrackedClientIps "limits.max_tracked_client_ips"
  requirePositiveInt limits.clientStateRetentionSeconds "limits.client_state_retention_seconds"
  requirePositiveRate limits.messagesPerSecondPerConnection
    "limits.messages_per_second_per_connection"
  requirePositiveSize limits.messageBurstPerConnection "limits.message_burst_per_connection"
  requirePositiveRate limits.bytesPerSecondPerConnection "limits.bytes_per_second_per_connection"
  requirePositiveSize limits.byteBurstPerConnection "limits.byte_burst_per_connection"
  requirePositiveRate limits.messagesPerSecondPerIp "limits.messages_per_second_per_ip"
  requirePositiveSize limits.messageBurstPerIp "limits.message_burst_per_ip"
  requirePositiveRate limits.bytesPerSecondPerIp "limits.bytes_per_second_per_ip"
  requirePositiveSize limits.byteBurstPerIp "limits.byte_burst_per_ip"
  requirePositiveSize limits.maxMessagesPerReadyEvent "limits.max_messages_per_ready_event"
  requirePositiveSize limits.maxLineBytes "limits.max_line_bytes"
  if limits.maxBufferBytes < limits.maxLineBytes then
    .error "limits.max_buffer_bytes must be at least limits.max_line_bytes"
  if limits.maxQueuedBytes < limits.maxBufferBytes then
    .error "limits.max_queued_bytes must be at least limits.max_buffer_bytes"
  requirePositiveInt limits.tlsHandshakeTimeoutSeconds "limits.tls_handshake_timeout_seconds"
  requirePositiveInt limits.firstMessageTimeoutSeconds "limits.first_message_timeout_seconds"
  requirePositiveInt limits.upstreamConnectTimeoutMilliseconds
    "limits.upstream_connect_timeout_milliseconds"
  requirePositiveInt limits.idleTimeoutSeconds "limits.idle_timeout_seconds"

/-- Limits as the running service holds them: `validate` has passed and the
sizes fit their machine type. -/
structure LimitsConfig.Accepted (limits : LimitsConfig) : Prop where
  validated : validateLimits limits = .ok ()
  queued_fits : limits.maxQueuedBytes < kWordSize

/-- Two checks pass if both do. -/
theorem Checked.bind_ok {check : Checked} {next : Unit → Checked} :
    (check >>= next) = .ok () ↔ check = .ok () ∧ next () = .ok () := by
  cases check with
  | error text => simp [bind, Except.bind]
  | ok value => simp [bind, Except.bind]

/-- A test that fails with a text, between other checks. -/
theorem Checked.test_ok {condition : Prop} [Decidable condition] {text : String}
    {next : Unit → Checked} {rest : Checked} :
    (if condition then .error text >>= next else rest) = .ok () ↔
      ¬ condition ∧ rest = .ok () := by
  by_cases h : condition
  · simp [h, bind, Except.bind]
  · simp [h]

/-- What `validate` says about the sizes of the queues. -/
theorem LimitsConfig.Accepted.sizes {limits : LimitsConfig} (h : limits.Accepted) :
    limits.maxLineBytes ≤ limits.maxBufferBytes ∧ limits.maxBufferBytes < kWordSize := by
  have hvalid := h.validated
  have hfits := h.queued_fits
  simp only [validateLimits, Checked.bind_ok, Checked.test_ok] at hvalid
  omega

/-- The default limits pass their own checks. -/
theorem default_limits_accepted : LimitsConfig.Accepted {} where
  validated := by rfl
  queued_fits := by decide

end PoolLb
