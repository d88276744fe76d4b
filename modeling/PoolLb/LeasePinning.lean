import Mathlib.Algebra.GroupWithZero.Nat
import Mathlib.Algebra.Order.BigOperators.Group.List
import Mathlib.Algebra.Order.Group.Nat
import Mathlib.Logic.Relation
import PoolLb.ShardSection

/-!
# Leases pin their client state

A `RateLimiter::Lease` is a raw pointer into the map of a shard.  It is handed
out by `acquire`, moved about, and given back by `reset` or by the destructor;
all the while other threads run sections on the same shard that erase nodes.
Here the limiter and every `Lease` object of the process make one system whose
steps are those operations, each atomic under the mutex of its shard.

The state pointer is followed through `Shard.nodeAt`.  Following a pointer to
an erased node, or releasing a node whose `active` is zero, raises `fault`,
which no step takes back.  Every lease that `acquire` hands out carries a
`Grant`: a ticket number and the client it was acquired for.  Grants are
bookkeeping of the proof; they travel with the lease, and a release records
the ticket.
-/

namespace PoolLb.RateLimiter

open Interaction Tally

/-- `RateLimiter::Lease`.  There is one limiter, so `limiter_` is null or not. -/
structure Lease where
  limiter : Bool := false
  shardIndex : Nat := 0
  state : Option Nat := none
deriving DecidableEq

/-- What an accepted `acquire` granted. -/
structure Grant where
  key : ClientKey
  ticket : Nat

/-- A `Lease` object, with the grant it holds. -/
structure Holder where
  lease : Lease := {}
  grant : Option Grant := none

/-- The limiter and the `Lease` objects of the process, each at its place in
memory. -/
structure Limiter where
  shards : Nat → Shard := fun _ => {}
  leases : Table Nat Holder := ∅
  granted : Nat := 0
  released : List Nat := []
  fault : Bool := false

namespace Limiter

def setShard (sys : Limiter) (index : Nat) (shard : Shard) : Limiter :=
  { sys with shards := Function.update sys.shards index shard }

/-- Work on the state a lease points to.  The work is at fault if the pointer
dangles or the state is not as `expected`. -/
def access (sys : Limiter) (lease : Lease) (expected : ClientState → Bool)
    (work : ClientState → ClientState) : Limiter :=
  match lease.state.bind (sys.shards lease.shardIndex).nodeAt with
  | none => { sys with fault := true }
  | some (key, node) =>
      if expected node.state then
        sys.setShard lease.shardIndex
          ((sys.shards lease.shardIndex).setState key node (work node.state))
      else { sys with fault := true }

/-- `RateLimiter::release`, which expects to find a lease to take off. -/
def release (sys : Limiter) (lease : Lease) : Limiter :=
  sys.access lease (fun state => state.active ≠ 0) RateLimiter.release

/-- `consume_traffic`. -/
def consumeTraffic (sys : Limiter) (lease : Lease) (bytes messages : Nat) (limits : LimitsConfig)
    (now : Nat) : Limiter :=
  if lease.limiter then
    sys.access lease (fun _ => true) fun state =>
      (RateLimiter.consumeTraffic state bytes messages limits now).2
  else sys

/-- `Lease::reset` of the object at `place`. -/
def reset (sys : Limiter) (place : Nat) (holder : Holder) : Limiter :=
  let sys := if holder.lease.limiter then sys.release holder.lease else sys
  { sys with
    leases := sys.leases.insert place
      { lease := { holder.lease with limiter := false, state := none } }
    released := (holder.grant.map Grant.ticket).toList ++ sys.released }

/-- The two `std::exchange` of a move: the lease in `holder`, at `source`,
goes to `target`. -/
def transfer (sys : Limiter) (source target : Nat) (holder : Holder) : Limiter :=
  { sys with
    leases := (sys.leases.insert source
      { lease := { holder.lease with limiter := false, state := none } }).insert target holder }

/-- `Lease::operator=(Lease&&)`. -/
def moveAssign (sys : Limiter) (source target : Nat) (holder old : Holder) : Limiter :=
  if source = target then sys else (sys.reset target old).transfer source target holder

/-- `~Lease`. -/
def destroy (sys : Limiter) (place : Nat) (holder : Holder) : Limiter :=
  let sys := sys.reset place holder
  { sys with leases := sys.leases.erase place }

/-- The lease in an `Admission`, constructed at `place`. -/
def admitted (sys : Limiter) (key : ClientKey) (place : Nat) (lease : Option Nat) (shard : Shard) :
    Limiter :=
  let sys := sys.setShard (shardIndexFor key) shard
  match lease with
  | none => { sys with leases := sys.leases.insert place {} }
  | some address =>
      { sys with
        leases := sys.leases.insert place
          { lease := { limiter := true, shardIndex := shardIndexFor key, state := some address }
            grant := some { key := key, ticket := sys.granted } }
        granted := sys.granted + 1 }

end Limiter

/-- One atomic step of some thread.  `used` are the limits with which `acquire`
is called in the run. -/
inductive LimiterStep (used : LimitsConfig → Prop) : Limiter → Limiter → Prop where
  | acquire {sys : Limiter} (key : ClientKey) {limits : LimitsConfig} (now place : Nat)
      {admission : Admission} {shard : Shard} (hused : used limits)
      (hfree : sys.leases.lookup place = none)
      (hrun : Runs limiterWorld () (acquire key limits now (sys.shards (shardIndexFor key)))
        (admission, shard) ()) :
      LimiterStep used sys (sys.admitted key place admission.lease shard)
  | consumeTraffic {sys : Limiter} {place : Nat} {holder : Holder} (bytes messages : Nat)
      (limits : LimitsConfig) (now : Nat) (hplace : sys.leases.lookup place = some holder) :
      LimiterStep used sys (sys.consumeTraffic holder.lease bytes messages limits now)
  | moveConstruct {sys : Limiter} {source target : Nat} {holder : Holder}
      (hsource : sys.leases.lookup source = some holder)
      (htarget : sys.leases.lookup target = none) :
      LimiterStep used sys (sys.transfer source target holder)
  | moveAssign {sys : Limiter} {source target : Nat} {holder old : Holder}
      (hsource : sys.leases.lookup source = some holder)
      (htarget : sys.leases.lookup target = some old) :
      LimiterStep used sys (sys.moveAssign source target holder old)
  | reset {sys : Limiter} {place : Nat} {holder : Holder}
      (hplace : sys.leases.lookup place = some holder) :
      LimiterStep used sys (sys.reset place holder)
  | destroy {sys : Limiter} {place : Nat} {holder : Holder}
      (hplace : sys.leases.lookup place = some holder) :
      LimiterStep used sys (sys.destroy place holder)

/-- The states a run can reach from a fresh limiter without leases. -/
def LimiterReaches (used : LimitsConfig → Prop) : Limiter → Prop :=
  Relation.ReflTransGen (LimiterStep used) {}

/-! ## Counting leases -/

/-- Whether a lease object holds a grant of a kind. -/
def Holder.weight (kind : Grant → Bool) (holder : Holder) : Nat :=
  if holder.grant.any kind then 1 else 0

/-- The number of lease objects that hold a grant of a kind. -/
def holders (kind : Grant → Bool) (leases : Table Nat Holder) : Nat :=
  tally (fun _ holder => holder.weight kind) leases

variable {kind : Grant → Bool} {leases : Table Nat Holder} {place source target : Nat}
  {holder old : Holder}

@[simp] theorem Holder.weight_empty (lease : Lease) :
    ({ lease := lease } : Holder).weight kind = 0 := rfl

/-- An empty lease object holds nothing of any kind. -/
theorem Holder.weight_of_none (h : holder.grant = none) : holder.weight kind = 0 := by
  simp [Holder.weight, h]

/-- One with a grant holds that grant. -/
theorem Holder.weight_of_some {grant : Grant} (h : holder.grant = some grant) :
    holder.weight kind = if kind grant then 1 else 0 := by
  simp [Holder.weight, h]

/-- An object at a free place is counted. -/
theorem holders_insert_new (kind : Grant → Bool) (holder : Holder)
    (h : leases.lookup place = none) :
    holders kind (leases.insert place holder) = holder.weight kind + holders kind leases := by
  unfold holders
  rw [tally_insert, tally_erase_of_lookup_none h]

/-- An object in the place of another takes its place in the count. -/
theorem holders_insert_old (kind : Grant → Bool) (holder : Holder)
    (h : leases.lookup place = some old) :
    holders kind (leases.insert place holder) + old.weight kind =
      holder.weight kind + holders kind leases := by
  unfold holders
  rw [tally_insert, tally_of_lookup h]
  omega

/-- Moving a grant to a place that holds none leaves every count alone. -/
theorem holders_transfer (hsource : leases.lookup source = some holder)
    (hne : source ≠ target)
    (htarget : ∀ old, leases.lookup target = some old → old.grant = none) (lease : Lease) :
    holders kind ((leases.insert source { lease := lease }).insert target holder) =
      holders kind leases := by
  have hfirst := holders_insert_old kind { lease := lease } hsource
  have hsame : (leases.insert source { lease := lease }).lookup target = leases.lookup target :=
    AList.lookup_insert_ne hne.symm
  cases hlook : leases.lookup target with
  | none =>
      rw [holders_insert_new kind holder (hsame.trans hlook)]
      simp only [Holder.weight_empty] at hfirst
      omega
  | some old =>
      have hsecond := holders_insert_old kind holder (hsame.trans hlook)
      have hold : old.weight kind = 0 := Holder.weight_of_none (htarget old hlook)
      simp only [Holder.weight_empty] at hfirst
      omega

/-- A grant that is held is counted. -/
theorem holders_pos {grant : Grant} (h : leases.lookup place = some holder)
    (hgrant : holder.grant = some grant) (hkind : kind grant = true) : 0 < holders kind leases := by
  have hle : holder.weight kind ≤ holders kind leases :=
    le_tally_of_lookup (f := fun _ holder => holder.weight kind) h
  have hone : holder.weight kind = 1 := by rw [Holder.weight_of_some hgrant, if_pos hkind]
  omega

/-! ## The invariant -/

/-- A lease object is empty, or points to the node of the client its grant was
made for. -/
def Holder.PointsInto (shards : Nat → Shard) (holder : Holder) : Prop :=
  match holder.grant with
  | none => holder.lease.limiter = false
  | some grant =>
      holder.lease.limiter = true ∧ holder.lease.shardIndex = shardIndexFor grant.key ∧
        ∃ node, (shards (shardIndexFor grant.key)).clients.lookup grant.key = some node ∧
          holder.lease.state = some node.address

/-- The leases and the counts of the limiter agree. -/
structure Pinned (sys : Limiter) : Prop where
  sound : sys.fault = false
  distinct : ∀ index, (sys.shards index).Distinct
  counted : ∀ key, (sys.shards (shardIndexFor key)).activeOf key =
    holders (fun grant => grant.key = key) sys.leases
  pinned : ∀ place holder, sys.leases.lookup place = some holder →
    holder.PointsInto sys.shards
  once : ∀ ticket, holders (fun grant => grant.ticket = ticket) sys.leases +
    sys.released.count ticket = if ticket < sys.granted then 1 else 0

variable {sys : Limiter} {shard : Shard} {key : ClientKey} {node : ClientNode} {index : Nat}

theorem pinned_initial : Pinned {} where
  sound := rfl
  distinct _ key node _ _ hlook := by
    simp at hlook
  counted _ := rfl
  pinned _ _ hlook := by
    simp at hlook
  once ticket := by simp [holders]

/-- The count of a client with a lease is positive, and its node is there. -/
theorem Pinned.exists_node (h : Pinned sys) {grant : Grant}
    (hplace : sys.leases.lookup place = some holder) (hgrant : holder.grant = some grant) :
    ∃ node, (sys.shards (shardIndexFor grant.key)).clients.lookup grant.key = some node ∧
      holder.lease = { limiter := true, shardIndex := shardIndexFor grant.key,
                       state := some node.address } ∧ 0 < node.state.active := by
  have hpoints := h.pinned place holder hplace
  simp only [Holder.PointsInto, hgrant] at hpoints
  obtain ⟨hlimiter, hindex, node, hnode, hstate⟩ := hpoints
  have hpos : 0 < holders (fun g => g.key = grant.key) sys.leases :=
    holders_pos hplace hgrant (by simp)
  rw [← h.counted grant.key, Shard.activeOf_of_lookup hnode] at hpos
  refine ⟨node, hnode, ?_, hpos⟩
  cases hlease : holder.lease with
  | mk limiter shardIndex state =>
      rw [hlease] at hlimiter hindex hstate
      simp only at hlimiter hindex hstate
      rw [hlimiter, hindex, hstate]

@[simp] theorem setShard_shards (j : Nat) : (sys.setShard index shard).shards j =
    if j = index then shard else sys.shards j := by
  simp [Limiter.setShard, Function.update_apply]

/-- Pointers survive whatever keeps the nodes they point to in place. -/
theorem Holder.PointsInto.of_kept {shards shards' : Nat → Shard}
    (h : holder.PointsInto shards)
    (hkept : ∀ grant node, holder.grant = some grant →
      (shards (shardIndexFor grant.key)).clients.lookup grant.key = some node →
      ∃ node', (shards' (shardIndexFor grant.key)).clients.lookup grant.key = some node' ∧
        node'.address = node.address) :
    holder.PointsInto shards' := by
  unfold Holder.PointsInto at h ⊢
  cases hgrant : holder.grant with
  | none => simpa only [hgrant] using h
  | some grant =>
      simp only [hgrant] at h ⊢
      obtain ⟨hlimiter, hindex, node, hnode, hstate⟩ := h
      obtain ⟨node', hnode', haddress⟩ := hkept grant node hgrant hnode
      exact ⟨hlimiter, hindex, node', hnode', by rw [hstate, haddress]⟩

/-- A section that no lease notices. -/
theorem Pinned.refresh (h : Pinned sys) (hrefresh : Refreshes (sys.shards index) shard) :
    Pinned (sys.setShard index shard) where
  sound := h.sound
  distinct j := by
    rw [setShard_shards]
    split
    · exact hrefresh.distinct (h.distinct index)
    · exact h.distinct j
  counted k := by
    refine Eq.trans ?_ (h.counted k)
    rw [setShard_shards]
    split
    · rename_i hindex
      rw [hindex, hrefresh.active k]
    · rfl
  pinned place holder hplace := by
    apply (h.pinned place holder hplace).of_kept
    intro grant node hgrant hnode
    obtain ⟨found, hfound, _, hpos⟩ := h.exists_node hplace hgrant
    have hsame : found = node := Option.some.inj (hfound.symm.trans hnode)
    rw [setShard_shards]
    split
    · rename_i hindex
      rw [hindex] at hnode
      exact hrefresh.pinned grant.key node hnode (hsame ▸ hpos)
    · exact ⟨node, hnode, rfl⟩
  once := h.once

/-- Changes of the table of lease objects alone. -/
theorem Pinned.rearrange (h : Pinned sys) {leases' : Table Nat Holder}
    (hcount : ∀ kind, holders kind leases' = holders kind sys.leases)
    (hpoints : ∀ place holder, leases'.lookup place = some holder →
      holder.PointsInto sys.shards) :
    Pinned { sys with leases := leases' } where
  sound := h.sound
  distinct := h.distinct
  counted k := (h.counted k).trans (hcount _).symm
  pinned := hpoints
  once ticket := by
    rw [hcount]
    exact h.once ticket

/-- An empty lease object points nowhere. -/
theorem Holder.pointsInto_empty (shards : Nat → Shard) (lease : Lease)
    (hlease : lease.limiter = false) : ({ lease := lease } : Holder).PointsInto shards := hlease

/-- An empty object may be placed anywhere free. -/
theorem Pinned.place_empty (h : Pinned sys) (hfree : sys.leases.lookup place = none) :
    Pinned { sys with leases := sys.leases.insert place {} } := by
  apply h.rearrange
  · intro kind
    rw [holders_insert_new kind {} hfree]
    simp [Holder.weight]
  · intro other found hfound
    rcases lookup_insert_cases hfound with ⟨_, hnew⟩ | ⟨_, hold⟩
    · rw [hnew]
      exact Holder.pointsInto_empty _ _ rfl
    · exact h.pinned other found hold

/-- **A move** changes the place of a grant and no count. -/
theorem Pinned.transfer (h : Pinned sys) (hsource : sys.leases.lookup source = some holder)
    (hne : source ≠ target)
    (htarget : ∀ old, sys.leases.lookup target = some old → old.grant = none) :
    Pinned (sys.transfer source target holder) := by
  apply h.rearrange
  · intro kind
    exact holders_transfer hsource hne htarget _
  · intro other found hfound
    rcases lookup_insert_cases hfound with ⟨_, hnew⟩ | ⟨_, hold⟩
    · rw [hnew]
      exact h.pinned source holder hsource
    · rcases lookup_insert_cases hold with ⟨_, hleft⟩ | ⟨_, hkept⟩
      · rw [hleft]
        exact Holder.pointsInto_empty _ _ rfl
      · exact h.pinned other found hkept

/-! ## Following the pointer -/

/-- Where addresses are distinct, the pointer of a node leads to it. -/
theorem Shard.Distinct.nodeAt (hd : shard.Distinct) (hnode : shard.clients.lookup key = some node) :
    shard.nodeAt node.address = some (key, node) := by
  have hmem : ⟨key, node⟩ ∈ shard.clients.entries := AList.mem_lookup_iff.mp hnode
  have hsome : (shard.clients.entries.find? fun e => e.2.address = node.address).isSome := by
    rw [List.find?_isSome]
    exact ⟨_, hmem, by simp⟩
  obtain ⟨e, he⟩ := Option.isSome_iff_exists.mp hsome
  have hlook : shard.clients.lookup e.1 = some e.2 :=
    AList.mem_lookup_iff.mpr (List.mem_of_find?_eq_some he)
  have haddress : e.2.address = node.address := by
    simpa using List.find?_some he
  have hkey : e.1 = key := hd e.1 e.2 key node hlook hnode haddress
  rw [hkey, hnode] at hlook
  simp only [Shard.nodeAt, he, Option.map_some]
  rw [hkey, ← Option.some.inj hlook]

/-- A live lease is never dangling: its work happens on the node of its own
client. -/
theorem Pinned.access_eq (h : Pinned sys) {grant : Grant} {expected : ClientState → Bool}
    (work : ClientState → ClientState)
    (hnode : (sys.shards (shardIndexFor grant.key)).clients.lookup grant.key = some node)
    (hexpected : expected node.state = true) :
    sys.access { limiter := true, shardIndex := shardIndexFor grant.key,
                 state := some node.address } expected work =
      sys.setShard (shardIndexFor grant.key)
        ((sys.shards (shardIndexFor grant.key)).setState grant.key node (work node.state)) := by
  have hat := (h.distinct (shardIndexFor grant.key)).nodeAt hnode
  simp [Limiter.access, hat, hexpected]

/-- `consume_traffic` writes buckets, which no count depends on. -/
theorem Pinned.consumeTraffic (h : Pinned sys) (bytes messages : Nat) (limits : LimitsConfig)
    (now : Nat) (hplace : sys.leases.lookup place = some holder) :
    Pinned (sys.consumeTraffic holder.lease bytes messages limits now) := by
  unfold Limiter.consumeTraffic
  cases hgrant : holder.grant with
  | none =>
      have hpoints := h.pinned place holder hplace
      simp only [Holder.PointsInto, hgrant] at hpoints
      rw [if_neg (by simp [hpoints])]
      exact h
  | some grant =>
      obtain ⟨node, hnode, hlease, _⟩ := h.exists_node hplace hgrant
      rw [hlease, if_pos rfl, h.access_eq _ hnode rfl]
      apply h.refresh
      apply Emplaced.refreshes (.inl hnode)
      unfold RateLimiter.consumeTraffic
      dsimp only
      split <;> rfl

/-! ## Adding and taking off a lease -/

/-- Pointers survive writing the state of an emplaced node. -/
theorem Holder.PointsInto.setState (h : holder.PointsInto sys.shards)
    (hnode : Emplaced (sys.shards (shardIndexFor key)) key node) (state : ClientState) :
    holder.PointsInto (sys.setShard (shardIndexFor key)
      ((sys.shards (shardIndexFor key)).setState key node state)).shards := by
  apply h.of_kept
  intro grant found _ hfound
  rw [setShard_shards]
  split
  · rename_i hindex
    rw [hindex] at hfound
    by_cases hkey : grant.key = key
    · subst hkey
      refine ⟨{ node with state := state }, by simp [Shard.setState], ?_⟩
      rcases hnode with hlook | ⟨hnone, _⟩
      · rw [hfound] at hlook
        rw [Option.some.inj hlook]
      · rw [hfound] at hnone
        cases hnone
    · exact ⟨found, by simp [Shard.setState, AList.lookup_insert_ne hkey, hfound], rfl⟩
  · exact ⟨found, hfound, rfl⟩

/-- **One client's count and the lease table change together.** -/
theorem Pinned.recount (h : Pinned sys)
    (hnode : Emplaced (sys.shards (shardIndexFor key)) key node) {state : ClientState}
    {leases' : Table Nat Holder} {granted' : Nat} {released' : List Nat}
    (hcount : ∀ k, holders (fun grant => grant.key = k) leases' =
      if k = key then state.active else holders (fun grant => grant.key = k) sys.leases)
    (hpoints : ∀ place holder, leases'.lookup place = some holder →
      holder.PointsInto (sys.setShard (shardIndexFor key)
        ((sys.shards (shardIndexFor key)).setState key node state)).shards)
    (honce : ∀ ticket, holders (fun grant => grant.ticket = ticket) leases' +
      released'.count ticket = if ticket < granted' then 1 else 0) :
    Pinned { sys.setShard (shardIndexFor key)
        ((sys.shards (shardIndexFor key)).setState key node state) with
      leases := leases', granted := granted', released := released' } where
  sound := h.sound
  distinct j := by
    rw [setShard_shards]
    split
    · apply (h.distinct (shardIndexFor key)).setState
      intro k other hother haddress
      rcases hnode with hlook | ⟨_, _, hfresh⟩
      · exact h.distinct _ k other key node hother hlook haddress
      · exact absurd haddress (hfresh k other hother)
    · exact h.distinct j
  counted k := by
    rw [hcount k]
    by_cases hk : k = key
    · subst hk
      rw [if_pos rfl, setShard_shards, if_pos rfl, Shard.activeOf_setState, if_pos rfl]
    · rw [if_neg hk, ← h.counted k, setShard_shards]
      split
      · rename_i hindex
        rw [Shard.activeOf_setState, if_neg hk, hindex]
      · rfl
  pinned := hpoints
  once := honce

/-- **Admission** puts one lease on the client's node and one lease object into
the world. -/
theorem Pinned.admitted (h : Pinned sys) {limits : LimitsConfig} {address : Nat}
    (hfree : sys.leases.lookup place = none)
    (hadmits : Admits limits (sys.shards (shardIndexFor key)) key address shard) :
    Pinned (sys.admitted key place (some address) shard) := by
  obtain ⟨node, state, hnode, haddress, _, hactive, hshard⟩ := hadmits
  unfold Limiter.admitted
  rw [hshard]
  apply h.recount hnode
  · intro k
    show holders _ (sys.leases.insert place _) = _
    rw [holders_insert_new _ _ hfree, Holder.weight_of_some rfl]
    by_cases hk : k = key
    · subst hk
      rw [if_pos rfl, if_pos (by simp), ← h.counted k, hnode.activeOf, hactive, Nat.add_comm]
    · rw [if_neg hk, if_neg (by simpa using Ne.symm hk), Nat.zero_add]
  · intro other found hfound
    rcases lookup_insert_cases hfound with ⟨_, hnew⟩ | ⟨_, hold⟩
    · rw [hnew]
      refine ⟨rfl, rfl, { node with state := state }, ?_, by rw [haddress]⟩
      simp [Shard.setState]
    · exact (h.pinned other found hold).setState hnode state
  · intro ticket
    show holders _ (sys.leases.insert place _) + _ = _
    rw [holders_insert_new _ _ hfree, Holder.weight_of_some rfl, Nat.add_assoc]
    show _ + (_ + sys.released.count ticket) = if ticket < sys.granted + 1 then 1 else 0
    rw [h.once ticket]
    by_cases hticket : sys.granted = ticket
    · subst hticket
      simp [Limiter.setShard]
    · have hlt : ticket < sys.granted + 1 ↔ ticket < sys.granted := by omega
      simp [Limiter.setShard, hticket, hlt]

/-- What `acquire` leaves behind, with the lease object it returns. -/
theorem Pinned.acquired (h : Pinned sys) {limits : LimitsConfig} {admission : Admission}
    (hfree : sys.leases.lookup place = none)
    (hspec : AcquireSpec limits (sys.shards (shardIndexFor key)) key (admission, shard)) :
    Pinned (sys.admitted key place admission.lease shard) := by
  unfold AcquireSpec at hspec
  cases hlease : admission.lease with
  | none =>
      simp only [hlease] at hspec
      exact (h.refresh hspec.2).place_empty hfree
  | some address =>
      simp only [hlease] at hspec
      obtain ⟨_, mid, hrefresh, hadmits⟩ := hspec
      have hmid := h.refresh hrefresh
      have hadmits' : Admits limits ((sys.setShard (shardIndexFor key) mid).shards
          (shardIndexFor key)) key address shard := by
        rw [setShard_shards, if_pos rfl]
        exact hadmits
      have hfree' : (sys.setShard (shardIndexFor key) mid).leases.lookup place = none := hfree
      have hdone := hmid.admitted hfree' hadmits'
      simpa [Limiter.admitted, Limiter.setShard] using hdone

/-- A release through a live lease is one on the node of its client. -/
theorem Pinned.release_eq (h : Pinned sys) {grant : Grant}
    (hnode : (sys.shards (shardIndexFor grant.key)).clients.lookup grant.key = some node)
    (hpos : 0 < node.state.active) :
    sys.release { limiter := true, shardIndex := shardIndexFor grant.key,
                  state := some node.address } =
      sys.setShard (shardIndexFor grant.key)
        ((sys.shards (shardIndexFor grant.key)).setState grant.key node
          (RateLimiter.release node.state)) :=
  h.access_eq _ hnode (by simpa using hpos.ne')

/-- **Release** takes off one lease, the one the object holds. -/
theorem Pinned.reset (h : Pinned sys) (hplace : sys.leases.lookup place = some holder) :
    Pinned (sys.reset place holder) := by
  unfold Limiter.reset
  have hpointers : ∀ shards : Nat → Shard, (∀ other found, sys.leases.lookup other = some found →
      found.PointsInto shards) → ∀ other found, (sys.leases.insert place
        { lease := { holder.lease with limiter := false, state := none } }).lookup other =
          some found → found.PointsInto shards := by
    intro shards hall other found hfound
    rcases lookup_insert_cases hfound with ⟨_, hnew⟩ | ⟨_, hold⟩
    · rw [hnew]
      exact Holder.pointsInto_empty _ _ rfl
    · exact hall other found hold
  have hweights : ∀ kind, holders kind (sys.leases.insert place
      { lease := { holder.lease with limiter := false, state := none } }) + holder.weight kind =
        holders kind sys.leases := by
    intro kind
    have hsum := holders_insert_old kind
      { lease := { holder.lease with limiter := false, state := none } } hplace
    rwa [Holder.weight_empty, Nat.zero_add] at hsum
  cases hgrant : holder.grant with
  | none =>
      have hpoints := h.pinned place holder hplace
      simp only [Holder.PointsInto, hgrant] at hpoints
      rw [if_neg (by simp [hpoints])]
      apply h.rearrange
      · intro kind
        rw [← hweights kind, Holder.weight_of_none hgrant, Nat.add_zero]
      · exact hpointers _ h.pinned
  | some grant =>
      obtain ⟨node, hnode, hlease, hpos⟩ := h.exists_node hplace hgrant
      have hreleased := h.release_eq hnode hpos
      rw [← hlease] at hreleased
      rw [if_pos (by rw [hlease]), hreleased]
      apply h.recount (.inl hnode)
      · intro k
        have hsum := hweights fun g => g.key = k
        rw [Holder.weight_of_some hgrant] at hsum
        by_cases hk : k = grant.key
        · subst hk
          rw [if_pos (by simp), ← h.counted grant.key, Shard.activeOf_of_lookup hnode] at hsum
          rw [if_pos rfl, RateLimiter.release, if_pos hpos]
          exact Nat.eq_sub_of_add_eq hsum
        · rw [if_neg (by simpa using Ne.symm hk)] at hsum
          rw [if_neg hk]
          exact hsum
      · apply hpointers
        intro other found hfound
        exact (h.pinned other found hfound).setState (.inl hnode) _
      · intro ticket
        have hsum := hweights fun g => g.ticket = ticket
        rw [Holder.weight_of_some hgrant] at hsum
        show holders _ (sys.leases.insert place _) + (grant.ticket :: sys.released).count ticket =
          if ticket < sys.granted then 1 else 0
        rw [← h.once ticket, ← hsum, List.count_cons]
        by_cases hticket : grant.ticket = ticket
        · simp [hticket]
          omega
        · simp [hticket]

/-- `reset` empties one object and leaves the others. -/
theorem reset_lookup (sys : Limiter) (place : Nat) (holder : Holder) (other : Nat) :
    (sys.reset place holder).leases.lookup other =
      if other = place then some { lease := { holder.lease with limiter := false, state := none } }
      else sys.leases.lookup other := by
  have hleases : (if holder.lease.limiter then sys.release holder.lease else sys).leases =
      sys.leases := by
    unfold Limiter.release Limiter.access
    split
    · split
      · rfl
      · split <;> rfl
    · rfl
  unfold Limiter.reset
  simp only [hleases]
  by_cases hother : other = place
  · subst hother
    simp
  · rw [if_neg hother, AList.lookup_insert_ne hother]

/-- **A move assignment** resets its target first, unless it is the source. -/
theorem Pinned.moveAssign (h : Pinned sys) (hsource : sys.leases.lookup source = some holder)
    (htarget : sys.leases.lookup target = some old) :
    Pinned (sys.moveAssign source target holder old) := by
  unfold Limiter.moveAssign
  split
  · exact h
  · rename_i hne
    apply (h.reset htarget).transfer _ hne
    · intro found hfound
      rw [reset_lookup, if_pos rfl] at hfound
      cases hfound
      rfl
    · rw [reset_lookup, if_neg hne, hsource]

/-- **The destructor** resets, and then the place is free. -/
theorem Pinned.destroy (h : Pinned sys) (hplace : sys.leases.lookup place = some holder) :
    Pinned (sys.destroy place holder) := by
  have hreset := h.reset hplace
  have hempty := (reset_lookup sys place holder place).trans (if_pos rfl)
  apply hreset.rearrange
  · intro kind
    have htally := tally_of_lookup (f := fun _ held => held.weight kind) hempty
    rw [Holder.weight_empty, Nat.zero_add] at htally
    exact htally.symm
  · intro other found hfound
    by_cases hother : other = place
    · rw [hother, AList.lookup_erase] at hfound
      cases hfound
    · rw [AList.lookup_erase_ne hother] at hfound
      exact hreset.pinned other found hfound

/-! ## Runs -/

variable {used : LimitsConfig → Prop} {sys' : Limiter}

theorem Pinned.step (h : Pinned sys) (hstep : LimiterStep used sys sys') : Pinned sys' := by
  cases hstep with
  | acquire key now place _ hfree hrun =>
      exact h.acquired hfree (acquire_ensures.sound hrun)
  | consumeTraffic bytes messages limits now hplace =>
      exact h.consumeTraffic bytes messages limits now hplace
  | moveConstruct hsource htarget =>
      apply h.transfer hsource
      · intro hsame
        rw [hsame, htarget] at hsource
        cases hsource
      · intro old hold
        rw [htarget] at hold
        cases hold
  | moveAssign hsource htarget => exact h.moveAssign hsource htarget
  | reset hplace => exact h.reset hplace
  | destroy hplace => exact h.destroy hplace

theorem pinned_of_reaches (h : LimiterReaches used sys) : Pinned sys := by
  induction h with
  | refl => exact pinned_initial
  | tail _ hstep ih => exact ih.step hstep

/-- No client has more than `maximum` leases counted. -/
def Capped (maximum : Nat) (sys : Limiter) : Prop :=
  ∀ index key, (sys.shards index).activeOf key ≤ maximum

variable {maximum : Nat}

/-- A shard within the bound may be written back. -/
theorem Capped.setShard (h : Capped maximum sys) (hshard : ∀ key, shard.activeOf key ≤ maximum) :
    Capped maximum (sys.setShard index shard) := by
  intro j key
  rw [setShard_shards]
  split
  · exact hshard key
  · exact h j key

/-- A node that a pointer leads to is in the map under its key. -/
theorem lookup_of_nodeAt {address : Nat} (h : shard.nodeAt address = some (key, node)) :
    shard.clients.lookup key = some node := by
  unfold Shard.nodeAt at h
  cases hfound : shard.clients.entries.find? fun e => e.2.address = address with
  | none =>
      rw [hfound] at h
      cases h
  | some e =>
      rw [hfound] at h
      cases h
      exact AList.mem_lookup_iff.mpr (List.mem_of_find?_eq_some hfound)

/-- Work through a lease that does not raise `active`, dangling or not. -/
theorem Capped.access (h : Capped maximum sys) (lease : Lease) (expected : ClientState → Bool)
    {work : ClientState → ClientState} (hwork : ∀ state, (work state).active ≤ state.active) :
    Capped maximum (sys.access lease expected work) := by
  unfold Limiter.access
  split
  · exact h
  · rename_i key node hat
    split
    · apply h.setShard
      intro k
      rw [Shard.activeOf_setState]
      split
      · obtain ⟨address, _, hnode⟩ := Option.bind_eq_some_iff.mp hat
        have hold := h lease.shardIndex key
        rw [Shard.activeOf_of_lookup (lookup_of_nodeAt hnode)] at hold
        exact (hwork node.state).trans hold
      · exact h lease.shardIndex k
    · exact h

/-- A release lowers a count at most. -/
theorem Capped.reset (h : Capped maximum sys) (place : Nat) (holder : Holder) :
    Capped maximum (sys.reset place holder) := by
  have hreleased : Capped maximum
      (if holder.lease.limiter then sys.release holder.lease else sys) := by
    split
    · apply h.access
      intro state
      unfold RateLimiter.release
      split
      · exact Nat.sub_le _ _
      · exact le_rfl
    · exact h
  exact hreleased

/-- A move changes no count. -/
theorem Capped.transfer (h : Capped maximum sys) (source target : Nat) (holder : Holder) :
    Capped maximum (sys.transfer source target holder) := h

/-- The destructor is a release at most. -/
theorem Capped.destroy (h : Capped maximum sys) (place : Nat) (holder : Holder) :
    Capped maximum (sys.destroy place holder) := h.reset place holder

/-- Only `acquire` raises a count, and it looks at the bound first. -/
theorem Capped.step (h : Capped maximum sys)
    (hused : ∀ limits, used limits → limits.maxConnectionsPerIp ≤ maximum)
    (hstep : LimiterStep used sys sys') : Capped maximum sys' := by
  cases hstep with
  | acquire key now place hlimits _ hrun =>
      have hspec := acquire_ensures.sound hrun
      rename_i limits admission shard _
      have hshard : ∀ k, shard.activeOf k ≤ maximum := by
        intro k
        unfold AcquireSpec at hspec
        split at hspec
        · exact (hspec.2.active k).le.trans (h _ k)
        · obtain ⟨_, mid, hrefresh, node, state, _, _, hbelow, hactive, heq⟩ := hspec
          simp only at heq
          rw [heq, Shard.activeOf_setState]
          split
          · have := hused limits hlimits
            omega
          · exact (hrefresh.active k).le.trans (h _ k)
      have hset : Capped maximum (sys.setShard (shardIndexFor key) shard) := h.setShard hshard
      unfold Limiter.admitted
      split
      · exact hset
      · exact hset
  | consumeTraffic bytes messages limits now hplace =>
      unfold Limiter.consumeTraffic
      split
      · apply h.access
        intro state
        unfold RateLimiter.consumeTraffic
        dsimp only
        split <;> exact le_rfl
      · exact h
  | moveConstruct hsource htarget => exact h.transfer _ _ _
  | moveAssign hsource htarget =>
      unfold Limiter.moveAssign
      split
      · exact h
      · exact (h.reset _ _).transfer _ _ _
  | reset hplace => exact h.reset _ _
  | destroy hplace => exact h.destroy _ _

theorem capped_of_reaches (h : LimiterReaches used sys)
    (hused : ∀ limits, used limits → limits.maxConnectionsPerIp ≤ maximum) :
    Capped maximum sys := by
  induction h with
  | refl =>
      intro index key
      exact Nat.zero_le _
  | tail _ hstep ih => exact ih.step hused hstep

/-- **Leases pin their client state.**  In every state of every run: no lease
was ever followed into an erased node and no release ever found `active` at
zero; a live lease points to the entry of its client in its shard's map, whose
`active` is the number of live leases on that client; every ticket ever granted
is held by exactly one lease object or was released exactly once, and not both;
and with constant limits no client exceeds `max_connections_per_ip`. -/
theorem leases_pin_client_state (h : LimiterReaches used sys) :
    sys.fault = false ∧
    (∀ place holder, sys.leases.lookup place = some holder → holder.lease.limiter = true →
      ∃ grant node, holder.grant = some grant ∧
        holder.lease.shardIndex = shardIndexFor grant.key ∧
        (sys.shards holder.lease.shardIndex).clients.lookup grant.key = some node ∧
        holder.lease.state = some node.address ∧
        node.state.active = holders (fun other => other.key = grant.key) sys.leases) ∧
    (∀ ticket, holders (fun grant => grant.ticket = ticket) sys.leases +
      sys.released.count ticket = if ticket < sys.granted then 1 else 0) ∧
    (∀ limits, (∀ other, used other → other = limits) →
      ∀ index key node, (sys.shards index).clients.lookup key = some node →
        node.state.active ≤ limits.maxConnectionsPerIp) := by
  have hpinned := pinned_of_reaches h
  refine ⟨hpinned.sound, ?_, hpinned.once, ?_⟩
  · intro place holder hplace hlive
    cases hgrant : holder.grant with
    | none =>
        have hpoints := hpinned.pinned place holder hplace
        simp only [Holder.PointsInto, hgrant] at hpoints
        rw [hpoints] at hlive
        cases hlive
    | some grant =>
        obtain ⟨node, hnode, hlease, _⟩ := hpinned.exists_node hplace hgrant
        have hcounted := hpinned.counted grant.key
        rw [Shard.activeOf_of_lookup hnode] at hcounted
        rw [hlease]
        exact ⟨grant, node, rfl, rfl, hnode, rfl, hcounted⟩
  · intro limits hconstant index key node hnode
    have hcapped : Capped limits.maxConnectionsPerIp sys := capped_of_reaches h (by
      intro other hother
      rw [hconstant other hother])
    rw [← Shard.activeOf_of_lookup hnode]
    exact hcapped index key

/-- Answers of an outside that refuses nothing. -/
def generous : (c : LimiterCall) → c.Answer
  | .reserveTrackingSlot _ => true
  | .releaseTracked _ => ()
  | .consumeGlobalConnection _ _ => true
  | .allocate taken => taken.sum + 1

/-- The answers are allowed; the fresh address is above all that are taken. -/
theorem generous_allowed (w : Unit) (c : LimiterCall) : limiterWorld.allows w c (generous c) := by
  cases c with
  | allocate taken =>
      intro hmem
      have hle : taken.sum + 1 ≤ taken.sum := List.single_le_sum (fun _ _ => Nat.zero_le _) _ hmem
      omega
  | reserveTrackingSlot maximum => trivial
  | releaseTracked count => trivial
  | consumeGlobalConnection now limits => trivial

/-- The first connection of a client, admitted at time 1 under the default limits. -/
def firstAdmission : Admission × Shard :=
  ((acquire {} {} 1 {}).play limiterWorld (fun _ => generous) ()).1

/-- The second connection of the same client, at time 2. -/
def secondAdmission : Admission × Shard :=
  ((acquire {} {} 2 firstAdmission.2).play limiterWorld (fun _ => generous) ()).1

/-- A lease of that client, whose node is at the address 1. -/
def ownLease (ticket : Nat) : Holder where
  lease := { limiter := true, shardIndex := shardIndexFor {}, state := some 1 }
  grant := some { key := {}, ticket := ticket }

def onceLeased : Limiter := ({} : Limiter).admitted {} 0 (some 1) firstAdmission.2

def twiceLeased : Limiter := onceLeased.admitted {} 1 (some 1) secondAdmission.2

/-- The second lease has moved to the place 2, and the first was reset. -/
def movedAndReset : Limiter := (twiceLeased.transfer 1 2 (ownLease 1)).reset 0 (ownLease 0)

/-- Two acquisitions, a move and a reset. -/
theorem reaches_movedAndReset : LimiterReaches (fun limits => limits = {}) movedAndReset := by
  have hfirst : LimiterStep (fun limits => limits = {}) {} onceLeased := by
    have hlease : firstAdmission.1.lease = some 1 := by decide +kernel
    have hstep : LimiterStep (fun limits => limits = {}) {}
        (({} : Limiter).admitted {} 0 firstAdmission.1.lease firstAdmission.2) :=
      .acquire {} 1 0 rfl rfl (runs_play (fun w c => generous_allowed w c) () _)
    rw [hlease] at hstep
    exact hstep
  have hsecond : LimiterStep (fun limits => limits = {}) onceLeased twiceLeased := by
    have hlease : secondAdmission.1.lease = some 1 := by decide +kernel
    have hshard : onceLeased.shards (shardIndexFor {}) = firstAdmission.2 := by
      simp [onceLeased, Limiter.admitted, Limiter.setShard]
    have hstep : LimiterStep (fun limits => limits = {}) onceLeased
        (onceLeased.admitted {} 1 secondAdmission.1.lease secondAdmission.2) := by
      refine .acquire {} 2 1 rfl rfl ?_
      rw [hshard]
      exact runs_play (fun w c => generous_allowed w c) () _
    rw [hlease] at hstep
    exact hstep
  exact (((Relation.ReflTransGen.single hfirst).tail hsecond).tail
    (.moveConstruct rfl rfl)).tail (.reset rfl)

/-- One client takes two leases, the second moves and the first is reset: the second still
finds the node, which counts one lease. -/
theorem leases_pin_client_state_first_client :
    movedAndReset.granted = 2 ∧ movedAndReset.released = [0] ∧ movedAndReset.fault = false ∧
      ∃ (holder : Holder) (node : ClientNode), movedAndReset.leases.lookup 2 = some holder ∧
        holder.lease.limiter = true ∧
        (movedAndReset.shards holder.lease.shardIndex).clients.lookup {} = some node ∧
        holder.lease.state = some node.address ∧ node.state.active = 1 := by
  have hlook : movedAndReset.leases.lookup 2 = some (ownLease 1) := reset_lookup _ _ _ 2
  have hcount : holders (fun other => other.key = {}) movedAndReset.leases = 1 := by
    decide +kernel
  obtain ⟨hsound, hpins, _⟩ := leases_pin_client_state reaches_movedAndReset
  obtain ⟨grant, node, hgrant, _, hnode, hstate, hactive⟩ := hpins 2 (ownLease 1) hlook rfl
  obtain rfl : { key := {}, ticket := 1 } = grant := Option.some.inj hgrant
  exact ⟨by decide +kernel, by decide +kernel, hsound, ownLease 1, node, hlook, rfl, hnode, hstate,
    hactive.trans hcount⟩

end PoolLb.RateLimiter
