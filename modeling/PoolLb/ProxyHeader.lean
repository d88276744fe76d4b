import PoolLb.Memory
import PoolLb.ProxyProtocol
import PoolLb.ProxyV2

/-!
# The header a pool reads

`make_proxy_v2_header` fills a fixed array from its start on, with a length of one
byte.  Here the function is written with these copies, each of which may leave the
array; none does, and the array holds the bytes of `makeProxyV2Header`.  A receiver
that follows the specification reads them as one header, which covers exactly these
bytes and names the two ends of the miner's connection.
-/

namespace PoolLb

namespace ProxyHeader

/-- `ProxyV2Header` in memory. -/
structure Storage where
  storage : Bytes := List.replicate kMaximumProxyV2HeaderBytes 0
  length : UInt8 := 0

/-- A function that writes into a header; `none` if it leaves the array. -/
abbrev Writer := Storage → Option Storage

/-- `append`. -/
def append (source : Bytes) : Writer := fun output => do
  let storage ← Memory.store output.storage output.length.toNat source
  return { storage, length := (output.length.toNat + source.length).toUInt8 }

/-- `push`. -/
def push (value : UInt8) : Writer := fun output => do
  let storage ← Memory.store output.storage output.length.toNat [value]
  return { storage, length := output.length + 1 }

/-- `append_port`; the port is in network byte order. -/
def appendPort (networkPort : Vector UInt8 2) : Writer := append networkPort.toList

/-- One writer after another. -/
def andThen (first second : Writer) : Writer := fun output => (first output).bind second

/-- `append_ipv4`. -/
def appendIpv4 (source destination : Bytes) (sourcePort destinationPort : Vector UInt8 2) :
    Writer :=
  andThen (push 0x11) <| andThen (push 0) <| andThen (push 12) <| andThen (append source) <|
    andThen (append destination) <| andThen (appendPort sourcePort) (appendPort destinationPort)

/-- The branches of `make_proxy_v2_header`. -/
def appendAddresses : SockAddr → SockAddr → Writer
  | .inet source sourcePort, .inet destination destinationPort =>
      appendIpv4 source.toList destination.toList sourcePort destinationPort
  | .inet6 source sourcePort, .inet6 destination destinationPort =>
      if isIpv4Mapped source ∧ isIpv4Mapped destination then
        appendIpv4 (mappedIpv4 source) (mappedIpv4 destination) sourcePort destinationPort
      else
        andThen (push 0x21) <| andThen (push 0) <| andThen (push 36) <|
          andThen (append source.toList) <| andThen (append destination.toList) <|
            andThen (appendPort sourcePort) (appendPort destinationPort)
  | _, _ => andThen (push 0x00) <| andThen (push 0) (push 0)

/-- `make_proxy_v2_header`. -/
def makeProxyV2Header (source destination : SockAddr) : Option Storage :=
  andThen (append kProxySignature) (andThen (push 0x21) (appendAddresses source destination)) {}

/-! ## What is written -/

/-- The array holds `bytes`, and the length says so. -/
structure Holds (output : Storage) (bytes : Bytes) : Prop where
  whole : output.storage.length = kMaximumProxyV2HeaderBytes
  count : output.length.toNat = bytes.length
  start : output.storage.take bytes.length = bytes

/-- A writer adds `bytes` behind what is there, if they fit. -/
def Adds (writer : Writer) (bytes : Bytes) : Prop :=
  ∀ output before, Holds output before →
    before.length + bytes.length ≤ kMaximumProxyV2HeaderBytes →
    ∃ written, writer output = some written ∧ Holds written (before ++ bytes)

/-- A copy behind what is there. -/
theorem Holds.store {output : Storage} {before bytes : Bytes} (h : Holds output before)
    (hfits : before.length + bytes.length ≤ kMaximumProxyV2HeaderBytes) :
    ∃ storage, Memory.store output.storage output.length.toNat bytes = some storage ∧
      storage.length = kMaximumProxyV2HeaderBytes ∧
      storage.take (before ++ bytes).length = before ++ bytes := by
  have hroom : output.length.toNat + bytes.length ≤ output.storage.length := by
    rw [h.count, h.whole]
    exact hfits
  have hstore := Memory.store_of_fits hroom
  refine ⟨_, hstore, (Memory.length_of_store hstore).trans h.whole, ?_⟩
  rw [h.count, h.start]
  exact List.take_left

/-- A copy of some bytes adds them, as long as they fit. -/
theorem adds_append (bytes : Bytes) : Adds (append bytes) bytes := by
  intro output before h hfits
  obtain ⟨storage, hstore, hwhole, hstart⟩ := h.store hfits
  have hlength : (output.length.toNat + bytes.length).toUInt8.toNat = (before ++ bytes).length := by
    rw [List.length_append, ← h.count]
    have hsmall : output.length.toNat + bytes.length < 256 := by
      rw [h.count]
      exact Nat.lt_of_le_of_lt hfits (by decide)
    exact Nat.mod_eq_of_lt hsmall
  refine ⟨⟨storage, (output.length.toNat + bytes.length).toUInt8⟩, ?_, ⟨hwhole, hlength, hstart⟩⟩
  simp only [append, hstore, bind, Option.bind, pure]

/-- A single byte is added. -/
theorem adds_push (value : UInt8) : Adds (push value) [value] := by
  intro output before h hfits
  obtain ⟨storage, hstore, hwhole, hstart⟩ := h.store hfits
  have hlength : (output.length + 1).toNat = (before ++ [value]).length := by
    have hsmall : output.length.toNat + 1 < 256 := by
      rw [h.count]
      exact Nat.lt_of_le_of_lt hfits (by decide)
    rw [List.length_append, ← h.count]
    exact Nat.mod_eq_of_lt hsmall
  refine ⟨⟨storage, output.length + 1⟩, ?_, ⟨hwhole, hlength, hstart⟩⟩
  simp only [push, hstore, bind, Option.bind, pure]

/-- What is added first, and then what is added next. -/
theorem Adds.andThen {first second : Writer} {bytes more : Bytes} (hfirst : Adds first bytes)
    (hsecond : Adds second more) : Adds (andThen first second) (bytes ++ more) := by
  intro output before h hfits
  rw [List.length_append] at hfits
  obtain ⟨middle, hrun, hmiddle⟩ := hfirst output before h (by omega)
  obtain ⟨written, hrun', hwritten⟩ := hsecond middle _ hmiddle (by
    rw [List.length_append]
    omega)
  refine ⟨written, ?_, by rw [← List.append_assoc]; exact hwritten⟩
  unfold ProxyHeader.andThen
  rw [hrun]
  exact hrun'

/-- The block of two IPv4 addresses and their ports. -/
theorem adds_appendIpv4 (source destination : Bytes) (sourcePort destinationPort : Vector UInt8 2) :
    Adds (appendIpv4 source destination sourcePort destinationPort)
      (proxyIpv4 source destination sourcePort destinationPort) := by
  have hadds := (adds_push 0x11).andThen <| (adds_push 0).andThen <| (adds_push 12).andThen <|
    (adds_append source).andThen <| (adds_append destination).andThen <|
      (adds_append sourcePort.toList).andThen (adds_append destinationPort.toList)
  have hbytes : proxyIpv4 source destination sourcePort destinationPort =
      [0x11] ++ ([0] ++ ([12] ++ (source ++ (destination ++
        (sourcePort.toList ++ destinationPort.toList))))) := by simp [proxyIpv4]
  rw [hbytes]
  exact hadds

/-- The block of two IPv6 addresses and their ports. -/
theorem adds_appendIpv6 (source destination : Vector UInt8 16)
    (sourcePort destinationPort : Vector UInt8 2) :
    Adds (appendAddresses (.inet6 source sourcePort) (.inet6 destination destinationPort))
      (proxyAddresses (.inet6 source sourcePort) (.inet6 destination destinationPort)) := by
  unfold appendAddresses proxyAddresses
  dsimp only
  by_cases hmapped : isIpv4Mapped source = true ∧ isIpv4Mapped destination = true
  · rw [if_pos hmapped, if_pos hmapped]
    exact adds_appendIpv4 _ _ _ _
  · have hadds := (adds_push 0x21).andThen <| (adds_push 0).andThen <| (adds_push 36).andThen <|
      (adds_append source.toList).andThen <| (adds_append destination.toList).andThen <|
        (adds_append sourcePort.toList).andThen (adds_append destinationPort.toList)
    have hbytes : [0x21, 0, 36] ++ source.toList ++ destination.toList ++ sourcePort.toList ++
        destinationPort.toList = [0x21] ++ ([0] ++ ([36] ++ (source.toList ++
          (destination.toList ++ (sourcePort.toList ++ destinationPort.toList))))) := by simp
    rw [if_neg hmapped, if_neg hmapped, hbytes]
    exact hadds

/-- The empty block of other families. -/
theorem adds_unspec : Adds (andThen (push 0x00) <| andThen (push 0) (push 0)) [0x00, 0, 0] :=
  (adds_push 0x00).andThen ((adds_push 0).andThen (adds_push 0))

/-- **The address block**, by the families of the two ends. -/
theorem adds_appendAddresses (source destination : SockAddr) :
    Adds (appendAddresses source destination) (proxyAddresses source destination) := by
  cases source with
  | inet source sourcePort =>
      cases destination with
      | inet destination destinationPort => exact adds_appendIpv4 _ _ _ _
      | inet6 | other => exact adds_unspec
  | inet6 source sourcePort =>
      cases destination with
      | inet6 destination destinationPort => exact adds_appendIpv6 _ _ _ _
      | inet | other => exact adds_unspec
  | other => exact adds_unspec

/-- The copies stay in the array, and it holds the header of the model. -/
theorem makeProxyV2Header_holds (source destination : SockAddr) :
    ∃ output, makeProxyV2Header source destination = some output ∧
      Holds output (PoolLb.makeProxyV2Header source destination).view := by
  have hadds := (adds_append kProxySignature).andThen
    ((adds_push 0x21).andThen (adds_appendAddresses source destination))
  have hempty : Holds {} [] := ⟨rfl, rfl, rfl⟩
  have hview : (PoolLb.makeProxyV2Header source destination).view =
      [] ++ (kProxySignature ++ ([0x21] ++ proxyAddresses source destination)) := by
    simp [PoolLb.makeProxyV2Header]
  have hfits := (PoolLb.makeProxyV2Header source destination).length_le
  rw [hview, List.nil_append] at hfits
  rw [hview]
  exact hadds {} [] hempty (by simpa using hfits)

/-! ## What is read -/

/-- A port in network byte order is a number. -/
def portNumber (port : Vector UInt8 2) : Nat := ProxyV2.number port.toList

/-- What a pool is to learn about a connection: the IPv4 addresses if both ends have one,
also mapped ones of IPv6; the IPv6 addresses of every other pair of them; else nothing. -/
def reported : SockAddr → SockAddr → ProxyV2.Addresses
  | .inet source sourcePort, .inet destination destinationPort =>
      .ipv4 source.toList destination.toList (portNumber sourcePort) (portNumber destinationPort)
  | .inet6 source sourcePort, .inet6 destination destinationPort =>
      if isIpv4Mapped source ∧ isIpv4Mapped destination then
        .ipv4 (source.toList.drop 12) (destination.toList.drop 12) (portNumber sourcePort)
          (portNumber destinationPort)
      else
        .ipv6 source.toList destination.toList (portNumber sourcePort)
          (portNumber destinationPort)
  | _, _ => .unspec

/-- A receiver learns `addresses` from the part of a header behind the command. -/
def Reads (written : Bytes) (addresses : ProxyV2.Addresses) : Prop :=
  ∃ transport, ∀ payload : Bytes,
    ProxyV2.decode (kProxySignature ++ [0x21] ++ written ++ payload) =
      some ({ command := .proxy, transport, addresses, length := written.length - 3,
              extensions := [] }, payload)

/-- A receiver reads the two IPv4 ends. -/
theorem reads_ipv4 {source destination : Bytes} (hsource : source.length = 4)
    (hdestination : destination.length = 4) (sourcePort destinationPort : Vector UInt8 2) :
    Reads (proxyIpv4 source destination sourcePort destinationPort)
      (.ipv4 source destination (portNumber sourcePort) (portNumber destinationPort)) := by
  have hports := ProxyV2.readEndpoints_append hsource hdestination
    (show sourcePort.toList.length = 2 by simp) (show destinationPort.toList.length = 2 by simp)
  have hlength : (source ++ destination ++ sourcePort.toList ++ destinationPort.toList).length =
      12 := by simp [hsource, hdestination]
  refine ⟨.stream, fun payload => ?_⟩
  have hread := @ProxyV2.decode_frame 0x21 0x11 0 12 _ .proxy .stream _ _ rfl rfl rfl
    hlength.symm (congrArg (Option.map _) hports) payload
  have hshape : proxyIpv4 source destination sourcePort destinationPort =
      [0x11, 0, 12] ++ (source ++ destination ++ sourcePort.toList ++ destinationPort.toList) := by
    simp [proxyIpv4]
  rw [hshape, List.length_append, hlength, ← List.append_assoc (kProxySignature ++ [0x21])]
  rw [hlength] at hread
  exact hread

/-- A receiver reads the two IPv6 ends. -/
theorem reads_ipv6 (source destination : Vector UInt8 16)
    (sourcePort destinationPort : Vector UInt8 2) :
    Reads ([0x21, 0, 36] ++ source.toList ++ destination.toList ++ sourcePort.toList ++
        destinationPort.toList)
      (.ipv6 source.toList destination.toList (portNumber sourcePort)
        (portNumber destinationPort)) := by
  have hports := @ProxyV2.readEndpoints_append 16 source.toList destination.toList
    sourcePort.toList destinationPort.toList (by simp) (by simp) (by simp) (by simp)
  have hlength : (source.toList ++ destination.toList ++ sourcePort.toList ++
      destinationPort.toList).length = 36 := by simp
  refine ⟨.stream, fun payload => ?_⟩
  have hread := @ProxyV2.decode_frame 0x21 0x21 0 36 _ .proxy .stream _ _ rfl rfl rfl
    hlength.symm (congrArg (Option.map _) hports) payload
  have hshape : [0x21, 0, 36] ++ source.toList ++ destination.toList ++ sourcePort.toList ++
      destinationPort.toList =
        [0x21, 0, 36] ++ (source.toList ++ destination.toList ++ sourcePort.toList ++
          destinationPort.toList) := by
    simp
  rw [hshape, List.length_append, hlength, ← List.append_assoc (kProxySignature ++ [0x21])]
  rw [hlength] at hread
  exact hread

/-- A receiver learns nothing of other families. -/
theorem reads_unspec : Reads [0x00, 0, 0] .unspec :=
  ⟨.unspec, fun payload =>
    @ProxyV2.decode_frame 0x21 0x00 0 0 [] .proxy .unspec .unspec [] rfl rfl rfl rfl rfl payload⟩

/-- **A receiver reads what is reported of the two ends.** -/
theorem reads_proxyAddresses (source destination : SockAddr) :
    Reads (proxyAddresses source destination) (reported source destination) := by
  cases source with
  | inet source sourcePort =>
      cases destination with
      | inet destination destinationPort => exact reads_ipv4 (by simp) (by simp) _ _
      | inet6 | other => exact reads_unspec
  | inet6 source sourcePort =>
      cases destination with
      | inet6 destination destinationPort =>
          unfold proxyAddresses reported
          dsimp only
          by_cases hmapped : isIpv4Mapped source = true ∧ isIpv4Mapped destination = true
          · rw [if_pos hmapped, if_pos hmapped]
            exact reads_ipv4 (by simp [mappedIpv4]) (by simp [mappedIpv4]) _ _
          · rw [if_neg hmapped, if_neg hmapped]
            exact reads_ipv6 source destination sourcePort destinationPort
      | inet | other => exact reads_unspec
  | other => exact reads_unspec

/-- **The header decodes back.**  No copy leaves the 52 bytes, and a receiver reads what was
written, before any payload, as one header of the PROXY command that covers exactly the
written bytes, leaves the payload and names the ends of the connection. -/
theorem proxy_header_decodes (source destination : SockAddr) :
    ∃ output, makeProxyV2Header source destination = some output ∧
      output.storage.length = kMaximumProxyV2HeaderBytes ∧
      output.length.toNat ≤ kMaximumProxyV2HeaderBytes ∧
      output.storage.take output.length.toNat =
        (PoolLb.makeProxyV2Header source destination).view ∧
      ∃ transport, ∀ payload : Bytes,
        ProxyV2.decode (output.storage.take output.length.toNat ++ payload) =
          some ({ command := .proxy, transport, addresses := reported source destination,
                  length := output.length.toNat - 16, extensions := [] }, payload) := by
  obtain ⟨output, hrun, hholds⟩ := makeProxyV2Header_holds source destination
  obtain ⟨transport, hread⟩ := reads_proxyAddresses source destination
  have hbytes : output.storage.take output.length.toNat =
      (PoolLb.makeProxyV2Header source destination).view := by
    rw [hholds.count]
    exact hholds.start
  have hbound := (PoolLb.makeProxyV2Header source destination).length_le
  have hlength : (proxyAddresses source destination).length - 3 = output.length.toNat - 16 := by
    rw [hholds.count]
    simp only [PoolLb.makeProxyV2Header, List.length_append]
    have hsignature : kProxySignature.length = 12 := rfl
    rw [hsignature, List.length_singleton]
    omega
  refine ⟨output, hrun, hholds.whole, by rw [hholds.count]; exact hbound, hbytes, transport, ?_⟩
  intro payload
  rw [hbytes, ← hlength]
  exact hread payload

end ProxyHeader

end PoolLb
