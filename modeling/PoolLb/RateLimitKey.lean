import Mathlib.Data.List.Basic
import PoolLb.Memory
import PoolLb.RateLimiter

/-!
# What a rate limit key stands for

The limiter accounts a peer under `client_rate_limit_key`.  Two peers share a key if
they have one IPv4 address, in either spelling, or IPv6 addresses that agree on the
leading bits; otherwise they do not.  The masking of the source works on bytes, and
one lemma says which bits of a byte it keeps.

The function is also written with the array accesses of the source, each of which may
leave the array; none does.
-/

namespace PoolLb

/-! ## Classes of peers -/

/-- The IPv4 address of a peer, native or mapped. -/
def SockAddr.ipv4 : SockAddr → Option (List UInt8)
  | .inet v4 _ => some v4.toList
  | .inet6 v6 _ => if isIpv4Mapped v6 then some (v6.toList.drop 12) else none
  | .other => none

/-- The IPv6 address of a peer that is not a mapped IPv4 address. -/
def SockAddr.ipv6 : SockAddr → Option (Vector UInt8 16)
  | .inet6 v6 _ => if isIpv4Mapped v6 then none else some v6
  | _ => none

/-- One bit of an address, in network order. -/
def addressBit (address : Vector UInt8 16) (bit : Fin 128) : Bool :=
  (address.get ⟨bit / 8, by omega⟩).toBitVec.getMsbD (bit % 8)

/-- The peers that the limiter does not tell apart. -/
def SameSource (prefixBits : Nat) (left right : SockAddr) : Prop :=
  (∃ v4, left.ipv4 = some v4 ∧ right.ipv4 = some v4) ∨
  (∃ leftV6 rightV6, left.ipv6 = some leftV6 ∧ right.ipv6 = some rightV6 ∧
    ∀ bit : Fin 128, bit < prefixBits → addressBit leftV6 bit = addressBit rightV6 bit) ∨
  (left = .other ∧ right = .other)

namespace RateLimitKey

/-! ## The bits that the mask keeps -/

/-- The mask of a partial byte keeps its first bits. -/
theorem getMsbD_mask {remaining : Nat} (hremaining : remaining < 8) (hsome : remaining ≠ 0)
    {bit : Nat} (hbit : bit < 8) :
    (((0xff : UInt32) <<< (8 - remaining).toUInt32).toUInt8).toBitVec.getMsbD bit =
      decide (bit < remaining) := by
  have hall : ∀ remaining : Fin 8, remaining ≠ 0 → ∀ bit : Fin 8,
      (((0xff : UInt32) <<< (8 - remaining.val).toUInt32).toUInt8).toBitVec.getMsbD bit =
        decide (bit.val < remaining.val) := by decide +kernel
  exact hall ⟨remaining, hremaining⟩ (fun h => hsome (congrArg Fin.val h)) ⟨bit, hbit⟩

/-- A bit of a key is the bit of the address inside the leading bits, and zero behind them. -/
theorem getMsbD_ipv6KeyByte (address : Vector UInt8 16) (prefixBits : Nat) (index : Fin 16)
    {bit : Nat} (hbit : bit < 8) :
    (ipv6KeyByte address prefixBits index).toBitVec.getMsbD bit =
      (decide (8 * index.val + bit < prefixBits) && (address[index]).toBitVec.getMsbD bit) := by
  unfold ipv6KeyByte
  dsimp only
  split
  · rename_i hcomplete
    have hinside : 8 * index.val + bit < prefixBits := by omega
    rw [decide_eq_true hinside, Bool.true_and]
  · split
    · rename_i hpartial
      obtain ⟨hindex, hremaining⟩ := hpartial
      have hmask := getMsbD_mask (Nat.mod_lt prefixBits (by decide)) hremaining hbit
      rw [UInt8.toBitVec_and, BitVec.getMsbD_and, hmask, Bool.and_comm]
      congr 1
      refine decide_eq_decide.mpr ?_
      omega
    · rename_i hcomplete hpartial
      have houtside : ¬ 8 * index.val + bit < prefixBits := by
        by_cases hindex : index.val = prefixBits / 8
        · have hnone : prefixBits % 8 = 0 := by
            by_contra hsome
            exact hpartial ⟨hindex, hsome⟩
          omega
        · omega
      rw [decide_eq_false houtside, Bool.false_and]
      exact BitVec.getMsbD_zero

/-- The bytes of two keys agree if the addresses agree on the leading bits. -/
theorem ipv6KeyByte_eq_iff (left right : Vector UInt8 16) (prefixBits : Nat) :
    ipv6KeyByte left prefixBits = ipv6KeyByte right prefixBits ↔
      ∀ bit : Fin 128, bit < prefixBits → addressBit left bit = addressBit right bit := by
  constructor
  · intro h bit hbit
    have hbyte := congrFun h ⟨bit / 8, by omega⟩
    have hbits := congrArg (fun byte : UInt8 => byte.toBitVec.getMsbD (bit % 8)) hbyte
    rw [getMsbD_ipv6KeyByte _ _ _ (by omega), getMsbD_ipv6KeyByte _ _ _ (by omega)] at hbits
    have hinside : 8 * (bit.val / 8) + bit % 8 < prefixBits := by omega
    rw [decide_eq_true hinside, Bool.true_and, Bool.true_and] at hbits
    exact hbits
  · intro h
    funext index
    refine UInt8.toBitVec_inj.mp (BitVec.eq_of_getMsbD_eq ?_)
    intro bit hbit
    rw [getMsbD_ipv6KeyByte _ _ _ hbit, getMsbD_ipv6KeyByte _ _ _ hbit]
    by_cases hinside : 8 * index.val + bit < prefixBits
    · have hagree := h ⟨8 * index.val + bit, by omega⟩ hinside
      unfold addressBit at hagree
      have hbyte : (8 * index.val + bit) / 8 = index.val := by omega
      have hrest : (8 * index.val + bit) % 8 = bit := by omega
      simp only [hbyte, hrest] at hagree
      rw [decide_eq_true hinside, Bool.true_and, Bool.true_and]
      exact hagree
    · rw [decide_eq_false hinside, Bool.false_and, Bool.false_and]

/-! ## Equal keys -/

/-- The key of an IPv4 address has all its bytes. -/
theorem ipv4Key_inj {left right : List UInt8} (hleft : left.length = 4) (hright : right.length = 4)
    (h : ipv4Key left = ipv4Key right) : left = right := by
  have haddress : (ipv4Key left).address = (ipv4Key right).address := by rw [h]
  refine List.ext_getElem (by omega) ?_
  intro index hindex hindex'
  have hbyte := congrArg (fun address : Vector UInt8 16 => address[index]) haddress
  simpa [ipv4Key, hindex, hindex'] using hbyte

/-- An IPv4 address has four bytes, mapped or not. -/
theorem length_of_ipv4 {address : SockAddr} {v4 : List UInt8} (h : address.ipv4 = some v4) :
    v4.length = 4 := by
  cases address with
  | inet v4' port =>
      cases h
      simp
  | inet6 v6 port =>
      unfold SockAddr.ipv4 at h
      dsimp only at h
      split at h
      · cases h
        simp
      · cases h
  | other => cases h

/-- The key of a peer, by what it is: an IPv4 address, another IPv6 address, or neither. -/
theorem clientRateLimitKey_cases (address : SockAddr) (prefixBits : Nat) :
    (∃ v4, address.ipv4 = some v4 ∧ address.ipv6 = none ∧ address ≠ .other ∧
      clientRateLimitKey address prefixBits = ipv4Key v4) ∨
    (∃ v6, address.ipv4 = none ∧ address.ipv6 = some v6 ∧ address ≠ .other ∧
      clientRateLimitKey address prefixBits =
        { address := Vector.ofFn (ipv6KeyByte v6 prefixBits)
          prefixBits := prefixBits.toUInt8
          family := .ipv6 }) ∨
    (address.ipv4 = none ∧ address.ipv6 = none ∧ address = .other ∧
      clientRateLimitKey address prefixBits = {}) := by
  cases address with
  | inet v4 port => exact .inl ⟨v4.toList, rfl, rfl, nofun, rfl⟩
  | inet6 v6 port =>
      by_cases hmapped : isIpv4Mapped v6 = true
      · refine .inl ⟨v6.toList.drop 12, ?_, ?_, nofun, ?_⟩
        · simp only [SockAddr.ipv4, if_pos hmapped]
        · simp only [SockAddr.ipv6, if_pos hmapped]
        · simp only [clientRateLimitKey, if_pos hmapped]
      · refine .inr (.inl ⟨v6, ?_, ?_, nofun, ?_⟩)
        · simp only [SockAddr.ipv4, if_neg hmapped]
        · simp only [SockAddr.ipv6, if_neg hmapped]
        · simp only [clientRateLimitKey, if_neg hmapped]
  | other => exact .inr (.inr ⟨rfl, rfl, rfl, rfl⟩)

/-- Two vectors with equal entries. -/
theorem ofFn_inj {left right : Fin 16 → UInt8} (h : Vector.ofFn left = Vector.ofFn right) :
    left = right := by
  funext index
  have hbyte := congrArg (fun address : Vector UInt8 16 => address[index]) h
  simpa using hbyte

/-- Two peers have one key if they are of one class. -/
theorem clientRateLimitKey_eq_iff (left right : SockAddr) (prefixBits : Nat) :
    clientRateLimitKey left prefixBits = clientRateLimitKey right prefixBits ↔
      SameSource prefixBits left right := by
  unfold SameSource
  rcases clientRateLimitKey_cases left prefixBits with
    ⟨v4, hv4, hv6, hother, hkey⟩ | ⟨v6, hv4, hv6, hother, hkey⟩ | ⟨hv4, hv6, hother, hkey⟩ <;>
  rcases clientRateLimitKey_cases right prefixBits with
    ⟨v4', hv4', hv6', hother', hkey'⟩ | ⟨v6', hv4', hv6', hother', hkey'⟩ |
      ⟨hv4', hv6', hother', hkey'⟩ <;>
  rw [hkey, hkey', hv4, hv4', hv6, hv6']
  · constructor
    · intro h
      have hsame := ipv4Key_inj (length_of_ipv4 hv4) (length_of_ipv4 hv4') h
      exact .inl ⟨v4, rfl, by rw [hsame]⟩
    · intro h
      rcases h with ⟨v, hv, hv'⟩ | ⟨_, _, hnone, _⟩ | ⟨hnone, _⟩
      · rw [Option.some.inj hv, Option.some.inj hv']
      · cases hnone
      · exact absurd hnone hother
  · simp [ipv4Key, hother]
  · simp [ipv4Key, hother]
  · simp [ipv4Key, hother]
  · constructor
    · intro h
      have hbytes := ofFn_inj (congrArg ClientKey.address h)
      exact .inr (.inl ⟨v6, v6', rfl, rfl, (ipv6KeyByte_eq_iff v6 v6' prefixBits).mp hbytes⟩)
    · intro h
      rcases h with ⟨_, hnone, _⟩ | ⟨u, u', hu, hu', hbits⟩ | ⟨hnone, _⟩
      · cases hnone
      · cases hu
        cases hu'
        rw [(ipv6KeyByte_eq_iff v6 v6' prefixBits).mpr hbits]
      · exact absurd hnone hother
  · simp [hother]
  · simp [ipv4Key, hother']
  · simp [hother']
  · simp [hother, hother']

/-! ## The accesses of the source -/

/-- A `ClientKey` in memory. -/
abbrev RawKey := List UInt8 × UInt8 × ClientAddressFamily

def raw (key : ClientKey) : RawKey := (key.address.toList, key.prefixBits, key.family)

/-- `key.address` of a new key. -/
def kEmptyAddress : List UInt8 := List.replicate 16 0

/-- The last part of `client_rate_limit_key`: the bits behind the leading ones are cleared. -/
def clearBits (address : List UInt8) (ipv6PrefixBits : Nat) : Option (List UInt8) := do
  let completeBytes := ipv6PrefixBits / 8
  let remainingBits := ipv6PrefixBits % 8
  if remainingBits ≠ 0 then
    let mask := ((0xff : UInt32) <<< (8 - remainingBits).toUInt32).toUInt8
    let byte ← address[completeBytes]?
    let masked ← Memory.store address completeBytes [byte &&& mask]
    Memory.fill masked (completeBytes + 1) 0
  else Memory.fill address completeBytes 0

/-- `client_rate_limit_key`; `none` if an access leaves an array. -/
def clientRateLimitKey (address : SockAddr) (ipv6PrefixBits : Nat) : Option RawKey :=
  match address with
  | .inet v4 _ => do
      let bytes ← Memory.store kEmptyAddress 0 v4.toList
      return (bytes, 32, .ipv4)
  | .inet6 v6 _ =>
      if isIpv4Mapped v6 then do
        let v4 ← Memory.load v6.toList 12 4
        let bytes ← Memory.store kEmptyAddress 0 v4
        return (bytes, 32, .ipv4)
      else do
        let bytes ← Memory.store kEmptyAddress 0 v6.toList
        let cleared ← clearBits bytes ipv6PrefixBits
        return (cleared, ipv6PrefixBits.toUInt8, .ipv6)
  | .other => some (kEmptyAddress, 0, .unknown)

/-- The four bytes are copied to the start of the array. -/
theorem store_ipv4 {v4 : List UInt8} (hlength : v4.length = 4) :
    Memory.store kEmptyAddress 0 v4 = some (ipv4Key v4).address.toList := by
  have hfits : 0 + v4.length ≤ kEmptyAddress.length := by
    rw [hlength]
    decide
  obtain ⟨a, b, c, d, hv4⟩ : ∃ a b c d, v4 = [a, b, c, d] := List.length_eq_four.mp hlength
  rw [Memory.store_of_fits hfits, hv4]
  rfl

/-- Reading a byte of the sixteen. -/
theorem getElem?_toList (address : Vector UInt8 16) {index : Nat} (hindex : index < 16) :
    address.toList[index]? = some (address.get ⟨index, hindex⟩) := by
  simp [hindex, Vector.get]

/-- Sixteen bytes are the address of the key if each of them is the byte of the key. -/
theorem eq_keyBytes {address : Vector UInt8 16} {prefixBits : Nat} {cleared : List UInt8}
    (hlength : cleared.length = 16)
    (hbytes : ∀ (index : Nat) (hindex : index < 16),
      cleared[index]? = some (ipv6KeyByte address prefixBits ⟨index, hindex⟩)) :
    cleared = (Vector.ofFn (ipv6KeyByte address prefixBits)).toList := by
  refine List.ext_getElem? fun index => ?_
  by_cases hindex : index < 16
  · rw [hbytes index hindex, getElem?_toList _ hindex]
    exact congrArg some (Vector.getElem_ofFn hindex).symm
  · rw [List.getElem?_eq_none (by omega), List.getElem?_eq_none (by simp; omega)]

/-- Clearing the rest of the array stays within it. -/
theorem fill_of_le {cells : List UInt8} {start : Nat} (h : start ≤ cells.length) :
    ∃ filled, Memory.fill cells start 0 = some filled := by
  unfold Memory.fill
  rw [if_pos h]
  exact ⟨_, rfl⟩

/-- Up to 128 leading bits the cleared bytes are those of the key. -/
theorem clearBits_eq (address : Vector UInt8 16) {prefixBits : Nat} (hbits : prefixBits ≤ 128) :
    clearBits address.toList prefixBits =
      some (Vector.ofFn (ipv6KeyByte address prefixBits)).toList := by
  have hlength : address.toList.length = 16 := by simp
  unfold clearBits
  dsimp only
  by_cases hremaining : prefixBits % 8 ≠ 0
  · have hcomplete : prefixBits / 8 < 16 := by omega
    rw [if_pos hremaining, getElem?_toList address hcomplete]
    obtain ⟨masked, hmasked⟩ : ∃ masked, Memory.store address.toList (prefixBits / 8)
        [address.get ⟨prefixBits / 8, hcomplete⟩ &&&
          ((0xff : UInt32) <<< (8 - prefixBits % 8).toUInt32).toUInt8] = some masked :=
      ⟨_, Memory.store_of_fits (by rw [hlength, List.length_singleton]; omega)⟩
    have hmaskedLength := (Memory.length_of_store hmasked).trans hlength
    obtain ⟨cleared, hcleared⟩ := fill_of_le (show prefixBits / 8 + 1 ≤ masked.length by omega)
    simp only [bind, Option.bind, hmasked, hcleared]
    refine congrArg some (eq_keyBytes ((Memory.length_of_fill hcleared).trans hmaskedLength) ?_)
    intro index hindex
    rw [Memory.getElem?_of_fill hcleared (by omega)]
    unfold ipv6KeyByte
    dsimp only
    by_cases hbefore : index < prefixBits / 8
    · rw [if_pos (by omega), Memory.getElem?_of_store_of_lt hmasked hbefore,
        getElem?_toList address hindex, if_pos hbefore]
      rfl
    · by_cases hhere : index = prefixBits / 8
      · subst hhere
        have hbyte := Memory.getElem?_of_store_at hmasked (show 0 < 1 by decide)
        rw [if_pos (by omega), if_neg hbefore, if_pos ⟨rfl, hremaining⟩]
        exact hbyte
      · rw [if_neg (by omega), if_neg hbefore, if_neg (fun h => hhere h.1)]
  · obtain ⟨cleared, hcleared⟩ := fill_of_le (show prefixBits / 8 ≤ address.toList.length by omega)
    rw [if_neg hremaining, hcleared]
    refine congrArg some (eq_keyBytes ((Memory.length_of_fill hcleared).trans hlength) ?_)
    intro index hindex
    rw [Memory.getElem?_of_fill hcleared (by omega)]
    unfold ipv6KeyByte
    dsimp only
    by_cases hbefore : index < prefixBits / 8
    · rw [if_pos hbefore, getElem?_toList address hindex, if_pos hbefore]
      rfl
    · rw [if_neg hbefore, if_neg hbefore, if_neg (fun h => hremaining h.2)]

/-- No access of the source leaves its array, and what it writes is the key. -/
theorem clientRateLimitKey_eq_raw (address : SockAddr) {prefixBits : Nat}
    (hbits : prefixBits ≤ 128) :
    clientRateLimitKey address prefixBits =
      some (raw (PoolLb.clientRateLimitKey address prefixBits)) := by
  cases address with
  | inet v4 port =>
      simp only [clientRateLimitKey, store_ipv4 (show v4.toList.length = 4 by simp)]
      rfl
  | inet6 v6 port =>
      by_cases hmapped : isIpv4Mapped v6 = true
      · have hload : Memory.load v6.toList 12 4 = some (v6.toList.drop 12) := by
          unfold Memory.load
          rw [if_pos (by simp), List.take_of_length_le (by simp)]
        simp only [clientRateLimitKey, PoolLb.clientRateLimitKey, if_pos hmapped, hload,
          store_ipv4 (show (v6.toList.drop 12).length = 4 by simp), bind, Option.bind]
        rfl
      · have hcopy : Memory.store kEmptyAddress 0 v6.toList = some v6.toList :=
          Memory.store_all (by simp [kEmptyAddress])
        simp only [clientRateLimitKey, PoolLb.clientRateLimitKey, if_neg hmapped, hcopy,
          clearBits_eq v6 hbits, bind, Option.bind]
        rfl
  | other => rfl

/-- **Rate limit keys are the classes of peers.**  Two peers have one key exactly if they are
of one class, a class lands in one shard, and no access leaves the 16 bytes of an address. -/
theorem rate_limit_keys_exact (prefixBits : Nat) (hmost : prefixBits ≤ 128)
    (left right : SockAddr) :
    (PoolLb.clientRateLimitKey left prefixBits = PoolLb.clientRateLimitKey right prefixBits ↔
      SameSource prefixBits left right) ∧
    (PoolLb.clientRateLimitKey left prefixBits = PoolLb.clientRateLimitKey right prefixBits →
      clientKeyHash (PoolLb.clientRateLimitKey left prefixBits) =
        clientKeyHash (PoolLb.clientRateLimitKey right prefixBits)) ∧
    (SameSource prefixBits left right →
      RateLimiter.shardIndexFor (PoolLb.clientRateLimitKey left prefixBits) =
        RateLimiter.shardIndexFor (PoolLb.clientRateLimitKey right prefixBits)) ∧
    clientRateLimitKey left prefixBits =
      some (raw (PoolLb.clientRateLimitKey left prefixBits)) := by
  have hkeys := clientRateLimitKey_eq_iff left right prefixBits
  refine ⟨hkeys, fun h => by rw [h], ?_, clientRateLimitKey_eq_raw left hmost⟩
  intro hsame
  rw [hkeys.mpr hsame]

/-- The address of the documentation range, natively and mapped. -/
theorem rate_limit_keys_exact_mapped :
    RateLimiter.shardIndexFor (PoolLb.clientRateLimitKey (.inet #v[192, 0, 2, 1] #v[0, 80]) 56) =
      RateLimiter.shardIndexFor (PoolLb.clientRateLimitKey
        (.inet6 #v[0, 0, 0, 0, 0, 0, 0, 0, 0, 0, 255, 255, 192, 0, 2, 1] #v[1, 187]) 56) := by
  have hclass := rate_limit_keys_exact 56 (by decide)
    (.inet #v[192, 0, 2, 1] #v[0, 80])
    (.inet6 #v[0, 0, 0, 0, 0, 0, 0, 0, 0, 0, 255, 255, 192, 0, 2, 1] #v[1, 187])
  exact hclass.2.2.1 (hclass.1.mp (by decide +kernel))

end RateLimitKey

end PoolLb
