import Mathlib.Data.List.Basic
import Mathlib.Tactic.Common

/-!
# A reader of PROXY protocol headers, version 2

The binary header of the PROXY protocol as its specification describes it to a
receiver: a signature of twelve bytes, version and command, address family and
transport, the length of what follows in network byte order, and in that many bytes
the addresses and, behind them, extensions.  What follows the header is left.
-/

namespace ProxyV2

inductive Command where
  | local
  | proxy
deriving DecidableEq, Repr

inductive Transport where
  | unspec
  | stream
  | datagram
deriving DecidableEq, Repr

/-- The addresses of a connection; ports are numbers. -/
inductive Addresses where
  | unspec
  | ipv4 (source destination : List UInt8) (sourcePort destinationPort : Nat)
  | ipv6 (source destination : List UInt8) (sourcePort destinationPort : Nat)
  | unix (source destination : List UInt8)
deriving DecidableEq, Repr

structure Header where
  command : Command
  transport : Transport
  addresses : Addresses
  length : Nat
  extensions : List UInt8
deriving DecidableEq, Repr

def signature : List UInt8 := [0x0d, 0x0a, 0x0d, 0x0a, 0x00, 0x0d, 0x0a, 0x51, 0x55, 0x49, 0x54, 0x0a]

/-- A number in network byte order. -/
def number (bytes : List UInt8) : Nat := bytes.foldl (fun value byte => value * 256 + byte.toNat) 0

def readCommand : Nat → Option Command
  | 0 => some .local
  | 1 => some .proxy
  | _ => none

def readTransport : Nat → Option Transport
  | 0 => some .unspec
  | 1 => some .stream
  | 2 => some .datagram
  | _ => none

/-- Two addresses of `width` bytes and two ports, and what is behind them. -/
def readEndpoints (width : Nat) (body : List UInt8) :
    Option (List UInt8 × List UInt8 × Nat × Nat × List UInt8) :=
  if body.length < 2 * width + 4 then none
  else
    some (body.take width, (body.drop width).take width,
      number ((body.drop (2 * width)).take 2), number ((body.drop (2 * width + 2)).take 2),
      body.drop (2 * width + 4))

/-- The addresses of a family; for an unspecified one the body is skipped. -/
def readAddresses (family : Nat) (body : List UInt8) : Option (Addresses × List UInt8) :=
  match family with
  | 0 => some (.unspec, body)
  | 1 => (readEndpoints 4 body).map fun (source, destination, sourcePort, destinationPort, rest) =>
      (.ipv4 source destination sourcePort destinationPort, rest)
  | 2 => (readEndpoints 16 body).map fun (source, destination, sourcePort, destinationPort, rest) =>
      (.ipv6 source destination sourcePort destinationPort, rest)
  | 3 =>
      if body.length < 216 then none
      else some (.unix (body.take 108) ((body.drop 108).take 108), body.drop 216)
  | _ => none

/-- One header at the start of the input, and the input behind it. -/
def decode (input : List UInt8) : Option (Header × List UInt8) :=
  if input.take 12 ≠ signature then none
  else
    match input.drop 12 with
    | versionCommand :: familyTransport :: high :: low :: following =>
        let length := number [high, low]
        if versionCommand.toNat / 16 ≠ 2 ∨ following.length < length then none
        else do
          let command ← readCommand (versionCommand.toNat % 16)
          let transport ← readTransport (familyTransport.toNat % 16)
          let (addresses, extensions) ← readAddresses (familyTransport.toNat / 16)
            (following.take length)
          some ({ command, transport, addresses, length, extensions }, following.drop length)
    | _ => none

/-- Two addresses and two ports are read back. -/
theorem readEndpoints_append {width : Nat} {source destination sourcePort destinationPort : List UInt8}
    (hsource : source.length = width) (hdestination : destination.length = width)
    (hsourcePort : sourcePort.length = 2) (hdestinationPort : destinationPort.length = 2) :
    readEndpoints width (source ++ destination ++ sourcePort ++ destinationPort) =
      some (source, destination, number sourcePort, number destinationPort, []) := by
  have hlength : (source ++ destination ++ sourcePort ++ destinationPort).length =
      2 * width + 4 := by
    simp only [List.length_append]
    omega
  have hfirst : (source ++ destination ++ sourcePort ++ destinationPort).take width = source := by
    rw [List.append_assoc, List.append_assoc, List.take_left' hsource]
  have hsecond : ((source ++ destination ++ sourcePort ++ destinationPort).drop width).take width =
      destination := by
    rw [List.append_assoc, List.append_assoc, List.drop_left' hsource, List.take_left' hdestination]
  have hports : (source ++ destination ++ sourcePort ++ destinationPort).drop (2 * width) =
      sourcePort ++ destinationPort := by
    have hboth : (source ++ destination).length = 2 * width := by
      rw [List.length_append]
      omega
    rw [List.append_assoc _ sourcePort, List.drop_left' hboth]
  have hlast : (source ++ destination ++ sourcePort ++ destinationPort).drop (2 * width + 2) =
      destinationPort := by
    rw [← List.drop_drop, hports, List.drop_left' hsourcePort]
  have hend : (source ++ destination ++ sourcePort ++ destinationPort).drop (2 * width + 4) = [] :=
    List.drop_eq_nil_of_le (by omega)
  unfold readEndpoints
  rw [if_neg (by omega), hfirst, hsecond, hports, hlast, hend, List.take_left' hsourcePort,
    List.take_of_length_le (by omega)]

/-- A header whose length field covers its body is read, and what follows is left. -/
theorem decode_frame {versionCommand familyTransport high low : UInt8} {body : List UInt8}
    {command : Command} {transport : Transport} {addresses : Addresses} {extensions : List UInt8}
    (hversion : versionCommand.toNat / 16 = 2)
    (hcommand : readCommand (versionCommand.toNat % 16) = some command)
    (htransport : readTransport (familyTransport.toNat % 16) = some transport)
    (hlength : number [high, low] = body.length)
    (haddresses : readAddresses (familyTransport.toNat / 16) body = some (addresses, extensions))
    (payload : List UInt8) :
    decode (signature ++ [versionCommand] ++ [familyTransport, high, low] ++ body ++ payload) =
      some ({ command, transport, addresses, length := body.length, extensions }, payload) := by
  have hshape : signature ++ [versionCommand] ++ [familyTransport, high, low] ++ body ++ payload =
      signature ++ versionCommand :: familyTransport :: high :: low :: (body ++ payload) := by
    simp
  have htake : (signature ++
      versionCommand :: familyTransport :: high :: low :: (body ++ payload)).take 12 =
        signature := rfl
  have hdrop : (signature ++
      versionCommand :: familyTransport :: high :: low :: (body ++ payload)).drop 12 =
        versionCommand :: familyTransport :: high :: low :: (body ++ payload) := rfl
  have hfits : ¬ (versionCommand.toNat / 16 ≠ 2 ∨ (body ++ payload).length < body.length) := by
    rw [List.length_append]
    omega
  unfold decode
  rw [hshape, htake, hdrop, if_neg (not_not.mpr rfl)]
  dsimp only
  rw [hlength, if_neg hfits, List.take_left, List.drop_left, hcommand, htransport, haddresses]
  rfl

end ProxyV2
