import PoolLb.Endpoint
import PoolLb.PendingBuffer

/-!
# The PROXY protocol header

`make_proxy_v2_header` (`src/net/proxy_protocol.cpp`) tells the pool who the
miner is.  The source writes into a fixed array of 52 bytes and keeps a length;
the header here is the bytes written so far, and `length_le` says that they
always fit.
-/

namespace PoolLb

def kMaximumProxyV2HeaderBytes : Nat := 52

/-- `kSignature`. -/
def kProxySignature : Bytes :=
  [0x0d, 0x0a, 0x0d, 0x0a, 0x00, 0x0d, 0x0a, 0x51, 0x55, 0x49, 0x54, 0x0a]

/-- The empty header fits. -/
theorem no_header_fits : ([] : Bytes).length ≤ kMaximumProxyV2HeaderBytes := Nat.zero_le _

/-- `ProxyV2Header`, as its `view()`. -/
structure ProxyV2Header where
  view : Bytes := []
  length_le : view.length ≤ kMaximumProxyV2HeaderBytes := by first | exact no_header_fits | decide
deriving DecidableEq

/-- The last four bytes of a mapped address. -/
def mappedIpv4 (address : Vector UInt8 16) : Bytes := address.toList.drop 12

/-- `append_ipv4`, after the signature and the command. -/
def proxyIpv4 (source destination : Bytes) (sourcePort destinationPort : Vector UInt8 2) : Bytes :=
  [0x11, 0, 12] ++ source ++ destination ++ sourcePort.toList ++ destinationPort.toList

/-- The address block of the header. -/
def proxyAddresses : SockAddr → SockAddr → Bytes
  | .inet source sourcePort, .inet destination destinationPort =>
      proxyIpv4 source.toList destination.toList sourcePort destinationPort
  | .inet6 source sourcePort, .inet6 destination destinationPort =>
      if isIpv4Mapped source ∧ isIpv4Mapped destination then
        proxyIpv4 (mappedIpv4 source) (mappedIpv4 destination) sourcePort destinationPort
      else
        [0x21, 0, 36] ++ source.toList ++ destination.toList ++ sourcePort.toList ++
          destinationPort.toList
  | _, _ => [0x00, 0, 0]

/-- The longest address block is that of IPv6. -/
theorem length_proxyAddresses_le (source destination : SockAddr) :
    (proxyAddresses source destination).length ≤ 39 := by
  unfold proxyAddresses
  split
  · simp [proxyIpv4]
  · split
    · simp [proxyIpv4, mappedIpv4]
    · simp
  · decide

/-- `make_proxy_v2_header`. -/
def makeProxyV2Header (source destination : SockAddr) : ProxyV2Header where
  view := kProxySignature ++ [0x21] ++ proxyAddresses source destination
  length_le := by
    have := length_proxyAddresses_le source destination
    simp only [List.length_append]
    have hsignature : kProxySignature.length = 12 := rfl
    simp only [hsignature, List.length_singleton, kMaximumProxyV2HeaderBytes]
    omega

end PoolLb
