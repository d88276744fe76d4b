import Mathlib.Tactic.Common

/-!
# Socket addresses and client keys

Addresses as the kernel reports them, the texts of endpoints and what the
resolver makes of them, and the key under which the rate limiter accounts a peer
(`src/net/endpoint.cpp`): the IPv4 address, also when it comes mapped into IPv6,
or the leading bits of the IPv6 address.
-/

namespace PoolLb

/-- The address families the source tells apart. -/
inductive AddressFamily where
  | inet
  | inet6
  | unspec
deriving DecidableEq, Repr

/-- A `sockaddr_storage`, by family.  Ports are in network byte order. -/
inductive SockAddr where
  | inet (address : Vector UInt8 4) (port : Vector UInt8 2)
  | inet6 (address : Vector UInt8 16) (port : Vector UInt8 2)
  | other
deriving DecidableEq, Repr

/-- `SocketAddress`: a resolved address together with its family. -/
structure SocketAddress where
  value : List UInt8
  family : AddressFamily
deriving DecidableEq, Repr

/-- `Endpoint`. -/
structure Endpoint where
  host : String
  port : Nat
deriving DecidableEq, Repr

/-- The digits of a port, as `std::from_chars` reads all of them. -/
def parsePort (text : List Char) : Option Nat :=
  if text.all Char.isDigit then
    some (text.foldl (fun value digit => value * 10 + (digit.toNat - '0'.toNat)) 0)
  else none

/-- Host and port of an address text, before they are looked at. -/
def splitEndpoint (address : String) : Except String (List Char × List Char) :=
  let text := address.toList
  if text.head? = some '[' then
    match text.findIdx? (· = ']') with
    | none => .error ("invalid bracketed endpoint: " ++ address)
    | some close =>
        if text[close + 1]? = some ':' then .ok ((text.take close).drop 1, text.drop (close + 2))
        else .error ("invalid bracketed endpoint: " ++ address)
  else
    match text.findIdx? (· = ':') with
    | none => .error ("endpoint has no port: " ++ address)
    | some colon =>
        if ':' ∈ text.drop (colon + 1) then
          .error ("IPv6 endpoints must use brackets: " ++ address)
        else .ok (text.take colon, text.drop (colon + 1))

/-- `parse_endpoint`. -/
def parseEndpoint (address : String) : Except String Endpoint := do
  let (host, portText) ← splitEndpoint address
  if host = [] ∨ portText = [] then
    .error ("endpoint requires a host and port: " ++ address)
  else
    match parsePort portText with
    | none => .error ("invalid endpoint port: " ++ address)
    | some port =>
        if port = 0 ∨ port > 65535 then .error ("invalid endpoint port: " ++ address)
        else .ok { host := String.ofList host, port := port }

/-- One entry of the list that `getaddrinfo` returns; the address has `ai_addrlen` bytes. -/
structure AddrInfo where
  family : AddressFamily
  address : List UInt8
deriving DecidableEq, Repr

/-- The size of a `sockaddr_storage`. -/
def kSockaddrStorageBytes : Nat := 128

/-- `same_address`. -/
def sameAddress (left right : SocketAddress) : Bool :=
  left.family = right.family ∧ left.value.length = right.value.length ∧ left.value = right.value

/-- `same_addresses`; the addresses are compared as `is_permutation` does. -/
def sameAddresses (left right : List SocketAddress) : Bool :=
  left.length = right.length ∧ left.isPerm right

/-- The address of an entry, unless the loop of `resolve_addresses` skips it. -/
def AddrInfo.usable (entry : AddrInfo) : Option SocketAddress :=
  if (entry.family ≠ .inet ∧ entry.family ≠ .inet6) ∨
      entry.address.length > kSockaddrStorageBytes then none
  else some { value := entry.address, family := entry.family }

/-- One round of the loop: an address is added if it is not there yet. -/
def addUsable (addresses : List SocketAddress) (entry : AddrInfo) : List SocketAddress :=
  match entry.usable with
  | none => addresses
  | some address =>
      if addresses.any fun prior => sameAddress prior address then addresses
      else addresses ++ [address]

/-- The addresses that `resolve_addresses` keeps. -/
def usableAddresses (entries : List AddrInfo) : List SocketAddress :=
  entries.foldl addUsable []

/-- `resolve_addresses`, from the answer of `getaddrinfo`. -/
def resolveAddresses (host : String) (answer : Except String (List AddrInfo)) :
    Except String (List SocketAddress) :=
  match answer with
  | .error text => .error ("cannot resolve " ++ host ++ ": " ++ text)
  | .ok entries =>
      if usableAddresses entries = [] then .error ("no usable address for " ++ host)
      else .ok (usableAddresses entries)

/-- The tests of `resolve_numeric_bind_host`.  The IPv4 address is at byte 4 of a
`sockaddr_in`, the IPv6 address at byte 8 of a `sockaddr_in6`. -/
def usableSource (address : SocketAddress) : Bool :=
  match address.family with
  | .inet =>
      let bytes := (address.value.drop 4).take 4
      bytes ≠ [0, 0, 0, 0] ∧ bytes ≠ [255, 255, 255, 255] ∧
        ¬ bytes.head?.any fun first => 224 ≤ first ∧ first < 240
  | .inet6 =>
      let bytes := (address.value.drop 8).take 16
      bytes ≠ List.replicate 16 0 ∧ bytes.head? ≠ some 255
  | .unspec => false

/-- `resolve_numeric_bind_host`, from the answer of `getaddrinfo`. -/
def resolveNumericBindHost (host : String) (answer : Except String (List AddrInfo)) :
    Except String SocketAddress := do
  match ← resolveAddresses host answer with
  | [] => .error ("no usable address for " ++ host)
  | address :: _ =>
      if usableSource address then .ok address
      else .error ("unusable outbound source address: " ++ host)

/-- `ClientAddressFamily`. -/
inductive ClientAddressFamily where
  | unknown
  | ipv4
  | ipv6
deriving DecidableEq, Repr

/-- The value of the enumerator, as it enters the hash. -/
def ClientAddressFamily.code : ClientAddressFamily → UInt8
  | .unknown => 0
  | .ipv4 => 1
  | .ipv6 => 2

/-- `ClientKey`. -/
structure ClientKey where
  address : Vector UInt8 16 := Vector.replicate 16 0
  prefixBits : UInt8 := 0
  family : ClientAddressFamily := .unknown
deriving DecidableEq, Repr

def kFnvOffsetBasis : UInt64 := 1469598103934665603

def kFnvPrime : UInt64 := 1099511628211

/-- `hash_byte`. -/
def hashByte (hash : UInt64) (byte : UInt8) : UInt64 :=
  (hash ^^^ byte.toUInt64) * kFnvPrime

/-- `ClientKeyHash`. -/
def clientKeyHash (key : ClientKey) : UInt64 :=
  let hash := hashByte (hashByte kFnvOffsetBasis key.family.code) key.prefixBits
  let addressBytes := if key.family = .ipv4 then 4 else 16
  (key.address.toList.take addressBytes).foldl hashByte hash

/-- `IN6_IS_ADDR_V4MAPPED`. -/
def isIpv4Mapped (address : Vector UInt8 16) : Bool :=
  address.toList.take 12 = List.replicate 10 0 ++ [255, 255]

/-- The key of an IPv4 address: its four bytes, and zeros. -/
def ipv4Key (bytes : List UInt8) : ClientKey where
  address := Vector.ofFn fun i => bytes.getD i 0
  prefixBits := 32
  family := .ipv4

/-- One byte of an IPv6 key: kept, cut by the mask, or cleared. -/
def ipv6KeyByte (address : Vector UInt8 16) (prefixBits : Nat) (index : Fin 16) : UInt8 :=
  let completeBytes := prefixBits / 8
  let remainingBits := prefixBits % 8
  if index < completeBytes then address[index]
  else if index = completeBytes ∧ remainingBits ≠ 0 then
    address[index] &&& ((0xff : UInt32) <<< (8 - remainingBits).toUInt32).toUInt8
  else 0

/-- `client_rate_limit_key`. -/
def clientRateLimitKey (address : SockAddr) (ipv6PrefixBits : Nat) : ClientKey :=
  match address with
  | .inet v4 _ => ipv4Key v4.toList
  | .inet6 v6 _ =>
      if isIpv4Mapped v6 then ipv4Key (v6.toList.drop 12)
      else
        { address := Vector.ofFn (ipv6KeyByte v6 ipv6PrefixBits)
          prefixBits := ipv6PrefixBits.toUInt8
          family := .ipv6 }
  | .other => {}

/-! ## Addresses as sets -/

/-- `same_address` is equality. -/
theorem sameAddress_iff {left right : SocketAddress} :
    sameAddress left right = true ↔ left = right := by
  simp only [sameAddress, decide_eq_true_eq]
  constructor
  · intro h
    cases left
    cases right
    simp_all
  · intro h
    rw [h]
    exact ⟨rfl, rfl, rfl⟩

/-- `same_addresses` is equality up to order. -/
theorem sameAddresses_iff {left right : List SocketAddress} :
    sameAddresses left right = true ↔ left.Perm right := by
  simp only [sameAddresses, decide_eq_true_eq, List.isPerm_iff]
  exact ⟨fun h => h.2, fun h => ⟨h.length_eq, h⟩⟩

/-- An entry adds its address and no other. -/
theorem mem_addUsable {addresses : List SocketAddress} {entry : AddrInfo}
    {address : SocketAddress} :
    address ∈ addUsable addresses entry ↔ address ∈ addresses ∨ entry.usable = some address := by
  unfold addUsable
  cases entry.usable with
  | none => simp
  | some found =>
      dsimp only
      split
      · rename_i hprior
        obtain ⟨prior, hmem, hsame⟩ := List.any_eq_true.mp hprior
        have hprior : prior = found := sameAddress_iff.mp hsame
        constructor
        · exact .inl
        · intro h
          rcases h with hold | hnew
          · exact hold
          · rw [← Option.some.inj hnew, ← hprior]
            exact hmem
      · simp [eq_comm]

/-- It adds it only once. -/
theorem nodup_addUsable {addresses : List SocketAddress} (h : addresses.Nodup) (entry : AddrInfo) :
    (addUsable addresses entry).Nodup := by
  unfold addUsable
  split
  · exact h
  · rename_i address _
    split
    · exact h
    · rename_i hnew
      have hnot : address ∉ addresses := fun hmem =>
        hnew (List.any_eq_true.mpr ⟨address, hmem, sameAddress_iff.mpr rfl⟩)
      refine List.nodup_append.mpr ⟨h, List.pairwise_singleton _ _, ?_⟩
      intro prior hprior other hother hsame
      rw [List.mem_singleton.mp hother] at hsame
      exact hnot (hsame ▸ hprior)

/-- **The resolver's list becomes a set**: each usable address once. -/
theorem usableAddresses_spec (entries : List AddrInfo) :
    (usableAddresses entries).Nodup ∧ ∀ address, address ∈ usableAddresses entries ↔
      ∃ entry ∈ entries, entry.usable = some address := by
  have hrun : ∀ (entries : List AddrInfo) (start : List SocketAddress), start.Nodup →
      (entries.foldl addUsable start).Nodup ∧ ∀ address, address ∈ entries.foldl addUsable start ↔
        address ∈ start ∨ ∃ entry ∈ entries, entry.usable = some address := by
    intro entries
    induction entries with
    | nil =>
        intro start hstart
        exact ⟨hstart, fun address => by simp⟩
    | cons entry rest ih =>
        intro start hstart
        obtain ⟨hnodup, hmem⟩ := ih _ (nodup_addUsable hstart entry)
        refine ⟨hnodup, fun address => ?_⟩
        rw [List.foldl_cons, hmem, mem_addUsable]
        simp [or_assoc]
  obtain ⟨hnodup, hmem⟩ := hrun entries [] List.nodup_nil
  exact ⟨hnodup, fun address => by simpa [usableAddresses] using hmem address⟩

/-- **A host is resolved to distinct addresses.** -/
theorem resolveAddresses_nodup {host : String} {answer : Except String (List AddrInfo)}
    {addresses : List SocketAddress} (h : resolveAddresses host answer = .ok addresses) :
    addresses.Nodup := by
  unfold resolveAddresses at h
  split at h
  · cases h
  · split at h
    · cases h
    · cases h
      exact (usableAddresses_spec _).1

end PoolLb
