import PoolLb.Interleaving
import PoolLb.ShardSteps

/-!
# The bound on tracked clients

Threads run `acquire` at the same time.  Each holds the mutex of one shard while it
is inside, and they share `tracked_clients_`, which they reach only by loads,
compare-exchanges and `fetch_sub`.  Between two of these the shard of a thread and
the count do not agree: an entry is gone and its slot not yet given back, or a slot is
taken and its entry not yet there.  What a thread owes that way is its debt.

`slotWorld` is the account one thread keeps of its own shard and its own debt; that
`acquire` never gives back more than it owes, and owes nothing at its end, is a
specification of the code alone.  `Covered` puts the accounts of all threads
together: the count is the entries of all shards and the debts of all threads.
-/

namespace PoolLb.RateLimiter

open Interaction Interleaving Tally

/-- The shard of a client, among the 64. -/
def shardOf (key : ClientKey) : Fin kShardCount :=
  ⟨shardIndexFor key, Nat.mod_lt _ (by decide)⟩

/-- The limiter as its threads share it. -/
structure Tracking where
  shards : Fin kShardCount → Shard := fun _ => {}
  locked : Fin kShardCount → Bool := fun _ => false
  trackedClients : Nat := 0

/-- The entries of all shard maps. -/
def Tracking.entries (memory : Tracking) : Nat := ∑ index, (memory.shards index).size

/-- The rest of a call of `acquire`. -/
abbrev AcquireRest := InPlace (Option (Admission × Shard))

/-- Where a thread stands in `acquire`. -/
inductive AcquirePlace where
  | idle
  /-- Before it has the mutex. -/
  | waiting (key : ClientKey) (limits : LimitsConfig) (now : Nat)
  /-- With the mutex of a shard, about to make the first call of `rest`. -/
  | inside (index : Fin kShardCount) (rest : AcquireRest)
  /-- In the loop of `reserve_tracking_slot`, with the count it has seen. -/
  | reserving (index : Fin kShardCount) (maximum seen : Nat) (next : Bool → AcquireRest)

/-- One atomic step of a thread. -/
inductive TrackStep (maximum : Nat) :
    Tracking → AcquirePlace → Tracking → AcquirePlace → Prop where
  | call (memory : Tracking) (key : ClientKey) (limits : LimitsConfig) (now : Nat)
      (hmaximum : limits.maxTrackedClientIps = maximum) :
      TrackStep maximum memory .idle memory (.waiting key limits now)
  | lock (memory : Tracking) (key : ClientKey) (limits : LimitsConfig) (now : Nat)
      (hfree : memory.locked (shardOf key) = false) :
      TrackStep maximum memory (.waiting key limits now)
        { memory with locked := Function.update memory.locked (shardOf key) true }
        (.inside (shardOf key) (acquireInPlace key limits now (memory.shards (shardOf key))))
  | store (memory : Tracking) (index : Fin kShardCount) (shard : Shard) (next : Unit → AcquireRest) :
      TrackStep maximum memory (.inside index (.ask (.store shard) next))
        { memory with shards := Function.update memory.shards index shard }
        (.inside index (next ()))
  | emplace (memory : Tracking) (index : Fin kShardCount) (shard : Shard)
      (next : Bool → AcquireRest) :
      TrackStep maximum memory (.inside index (.ask (.emplace shard) next))
        { memory with shards := Function.update memory.shards index shard }
        (.inside index (next true))
  | throw (memory : Tracking) (index : Fin kShardCount) (shard : Shard)
      (next : Bool → AcquireRest) :
      TrackStep maximum memory (.inside index (.ask (.emplace shard) next))
        memory (.inside index (next false))
  | fetchSub (memory : Tracking) (index : Fin kShardCount) (count : Nat)
      (next : Unit → AcquireRest) :
      TrackStep maximum memory (.inside index (.ask (.limiter (.releaseTracked count)) next))
        { memory with trackedClients := memory.trackedClients - count }
        (.inside index (next ()))
  | consumeGlobal (memory : Tracking) (index : Fin kShardCount) (now : Nat) (limits : LimitsConfig)
      (next : Bool → AcquireRest) (granted : Bool) :
      TrackStep maximum memory
        (.inside index (.ask (.limiter (.consumeGlobalConnection now limits)) next))
        memory (.inside index (next granted))
  | allocate (memory : Tracking) (index : Fin kShardCount) (taken : List Nat)
      (next : Nat → AcquireRest) (address : Nat) (hfresh : address ∉ taken) :
      TrackStep maximum memory (.inside index (.ask (.limiter (.allocate taken)) next))
        memory (.inside index (next address))
  | load (memory : Tracking) (index : Fin kShardCount) (most : Nat) (next : Bool → AcquireRest) :
      TrackStep maximum memory (.inside index (.ask (.limiter (.reserveTrackingSlot most)) next))
        memory (.reserving index most memory.trackedClients next)
  | full (memory : Tracking) (index : Fin kShardCount) (most seen : Nat)
      (next : Bool → AcquireRest) (hfull : ¬ seen < most) :
      TrackStep maximum memory (.reserving index most seen next)
        memory (.inside index (next false))
  | swap (memory : Tracking) (index : Fin kShardCount) (most seen : Nat)
      (next : Bool → AcquireRest) (hroom : seen < most) (hsame : memory.trackedClients = seen) :
      TrackStep maximum memory (.reserving index most seen next)
        { memory with trackedClients := seen + 1 } (.inside index (next true))
  /-- A compare-exchange that lost its race, or failed for no reason. -/
  | retry (memory : Tracking) (index : Fin kShardCount) (most seen : Nat)
      (next : Bool → AcquireRest) (hroom : seen < most) :
      TrackStep maximum memory (.reserving index most seen next)
        memory (.reserving index most memory.trackedClients next)
  | unlock (memory : Tracking) (index : Fin kShardCount) (result : Option (Admission × Shard)) :
      TrackStep maximum memory (.inside index (.ret result))
        { memory with locked := Function.update memory.locked index false } .idle
  /-- `release` and `consume_traffic` write the state of a client that is there. -/
  | touch (memory : Tracking) (index : Fin kShardCount) (key : ClientKey) (node : ClientNode)
      (state : ClientState) (hfree : memory.locked index = false)
      (hnode : (memory.shards index).clients.lookup key = some node) :
      TrackStep maximum memory .idle
        { memory with
          shards := Function.update memory.shards index
            ((memory.shards index).setState key node state) } .idle

/-- No client is tracked, and no call was made yet. -/
def trackStart (T : Type) : System T Tracking AcquirePlace where
  memory := {}
  threads _ := .idle

/-! ## The account of one thread -/

/-- What a thread inside a shard knows: its shard, and the slots the count still
holds for it beyond the entries there are. -/
structure Account where
  shard : Shard
  debt : Nat

/-- A write to the shard moves the difference to the debt. -/
def Account.write (account : Account) (shard : Shard) : Account where
  shard := shard
  debt := account.debt + account.shard.size - shard.size

def Account.reserved (account : Account) (granted : Bool) : Account where
  shard := account.shard
  debt := if granted then account.debt + 1 else account.debt

/-- The rules for one thread: entries are added only for slots it has, and only slots
it has are given back. -/
def slotWorld (maximum : Nat) : World sectionCalls Account where
  requires account c := match c with
    | .store shard => shard.size ≤ account.shard.size + account.debt
    | .emplace shard => shard.size ≤ account.shard.size + account.debt
    | .limiter (.releaseTracked count) => count ≤ account.debt
    | .limiter (.reserveTrackingSlot most) => most = maximum
    | .limiter _ => True
  allows _ _ _ := True
  after account c := match c with
    | .store shard => fun _ => account.write shard
    | .emplace shard => fun done => if done then account.write shard else account
    | .limiter (.releaseTracked count) => fun _ => { account with debt := account.debt - count }
    | .limiter (.reserveTrackingSlot _) => fun granted => account.reserved granted
    | .limiter _ => fun _ => account

section Account

variable {shard : Shard} {key : ClientKey} {node : ClientNode} {limits : LimitsConfig}
  {now maximum debt : Nat}

/-- **Erase, then give back**: the write makes the debt that the `fetch_sub` settles. -/
theorem giveBack_ensures {α : Type} {left : Shard} {count : Nat} {rest : InPlace α}
    {Q : α → Account → Prop} (hcount : left.size + count = shard.size)
    (hrest : Ensures (slotWorld maximum) ⟨left, 0⟩ rest Q) :
    Ensures (slotWorld maximum) ⟨shard, 0⟩
      (InPlace.store left >>= fun _ => InPlace.limiter (.releaseTracked count) >>= fun _ => rest)
      Q := by
  refine ⟨?_, fun _ _ => ⟨?_, fun _ _ => ?_⟩⟩
  · show left.size ≤ shard.size + 0
    omega
  · show count ≤ 0 + shard.size - left.size
    omega
  · have hdebt : 0 + shard.size - left.size - count = 0 := by omega
    show Ensures _ (Account.mk left (0 + shard.size - left.size - count)) _ _
    rw [hdebt]
    exact hrest

/-- A write that changes no entry. -/
theorem Account.write_same {left : Shard} (h : left.size = shard.size) :
    Account.write ⟨shard, 0⟩ left = ⟨left, 0⟩ := by
  apply congrArg (Account.mk _)
  show 0 + shard.size - left.size = 0
  omega

/-- `prune` gives back exactly the slots of the entries that it erases. -/
theorem pruneInPlace_ensures :
    Ensures (slotWorld maximum) ⟨shard, 0⟩ (pruneInPlace limits now shard)
      (fun pruned account => account = ⟨pruned, 0⟩) := by
  unfold pruneInPlace
  split
  · let test := fun (_ : ClientKey) (node : ClientNode) =>
      !forgotten now limits.clientStateRetentionSeconds node.state
    have hkept := shard.size_keep_le test shard.lastPruned
    apply giveBack_ensures
    · exact Nat.add_sub_cancel' hkept
    · exact ⟨Nat.le_add_right _ _, fun _ _ => Account.write_same rfl⟩
  · rfl

/-- An eviction gives back one slot for one entry. -/
theorem evictInPlace_ensures (hkey : shard.clients.lookup key = none) :
    Ensures (slotWorld maximum) ⟨shard, 0⟩ (evictInPlace shard)
      (fun result account => account = ⟨result.2, 0⟩ ∧ result.2.clients.lookup key = none) := by
  unfold evictInPlace
  split
  · exact ⟨rfl, hkey⟩
  · rename_i victim node hfound
    rcases oldestInactive_idle _ _ hfound with hnone | ⟨hmem, _⟩
    · cases hnone
    · have hlook : shard.clients.lookup victim = some node := AList.mem_lookup_iff.mpr hmem
      have hne : key ≠ victim := by
        intro h
        rw [h, hlook] at hkey
        cases hkey
      apply giveBack_ensures (Shard.size_erase hlook)
      exact ⟨rfl, (AList.lookup_erase_ne hne).trans hkey⟩

/-- With room there is a slot to spend exactly for a client the shard does not know. -/
theorem makeRoomInPlace_ensures (hmaximum : limits.maxTrackedClientIps = maximum) :
    Ensures (slotWorld maximum) ⟨shard, 0⟩ (makeRoomInPlace key limits shard)
      (fun result account => account = ⟨result.2,
        if result.1 = true ∧ result.2.clients.lookup key = none then 1 else 0⟩) := by
  unfold makeRoomInPlace
  split
  · rename_i hknown
    rw [Option.isSome_iff_ne_none] at hknown
    simp [hknown]
  · rename_i hunknown
    have hkey : shard.clients.lookup key = none := by simpa using hunknown
    refine ⟨hmaximum, fun reserved _ => ?_⟩
    cases reserved with
    | true => exact congrArg (Account.mk shard) (if_pos ⟨rfl, hkey⟩).symm
    | false =>
        apply (evictInPlace_ensures hkey).bind
        intro result account h
        obtain ⟨evicted, left⟩ := result
        obtain ⟨haccount, hleft⟩ := h
        subst haccount
        cases evicted with
        | false => rfl
        | true =>
            refine ⟨hmaximum, fun reserved _ => ?_⟩
            cases reserved with
            | true => exact congrArg (Account.mk left) (if_pos ⟨rfl, hleft⟩).symm
            | false => rfl

/-- The slot that was taken gets its entry, or is given back. -/
theorem tryEmplaceInPlace_ensures :
    Ensures (slotWorld maximum) ⟨shard, if shard.clients.lookup key = none then 1 else 0⟩
      (tryEmplaceInPlace key limits now shard)
      (fun found account => account.debt = 0 ∧ ∀ node inserted, found = some (node, inserted) →
        account.shard.size = (shard.setState key node (node.state.arrive now limits)).size) := by
  unfold tryEmplaceInPlace
  cases hlook : shard.clients.lookup key with
  | some node =>
      refine ⟨rfl, fun found inserted h => ?_⟩
      cases h
      exact (Shard.size_setState_known hlook _ _).symm
  | none =>
      rw [if_pos rfl]
      refine ⟨trivial, fun address _ => ⟨?_, fun done _ => ?_⟩⟩
      · exact (Shard.size_setState_new hlook _).le
      · cases done with
        | true =>
            refine ⟨?_, fun found inserted h => ?_⟩
            · show 1 + shard.size - (shard.setState key _ _).size = 0
              rw [Shard.size_setState_new hlook]
              omega
            · cases h
              exact (Shard.size_setState_new hlook _).trans (Shard.size_setState_new hlook _).symm
        | false => exact ⟨le_refl 1, fun _ _ => ⟨rfl, fun found inserted h => by cases h⟩⟩

/-- The rollback gives back the slot of its entry. -/
theorem decideInPlace_ensures {inserted : Bool} (hnode : shard.clients.lookup key = some node) :
    Ensures (slotWorld maximum) ⟨shard, 0⟩ (decideInPlace key limits now node inserted shard)
      (fun result account => account = ⟨result.2, 0⟩) := by
  unfold decideInPlace
  split
  · rfl
  · split
    · rfl
    · refine ⟨trivial, fun granted _ => ?_⟩
      cases granted with
      | true =>
          have hsize := Shard.size_setState_known hnode node node.state.admitted
          exact ⟨hsize.le, fun _ _ => Account.write_same hsize⟩
      | false =>
          cases inserted with
          | false => rfl
          | true => exact giveBack_ensures (Shard.size_erase hnode) rfl

/-- **`acquire` gives back what it took**: it never owes more than it has taken, at
its end it owes nothing, and the shard it leaves is the one it returns. -/
theorem acquireInPlace_ensures (hmaximum : limits.maxTrackedClientIps = maximum) :
    Ensures (slotWorld maximum) ⟨shard, 0⟩ (acquireInPlace key limits now shard)
      (fun result account => account.debt = 0 ∧ ∀ r, result = some r → account.shard = r.2) := by
  unfold acquireInPlace
  apply pruneInPlace_ensures.bind
  intro pruned account h
  subst h
  apply (makeRoomInPlace_ensures hmaximum).bind
  intro result account h
  obtain ⟨room, found⟩ := result
  subst h
  cases room with
  | false => exact ⟨by simp, fun r h => by cases h; rfl⟩
  | true =>
      simp only [true_and]
      apply tryEmplaceInPlace_ensures.bind
      intro emplaced account h
      obtain ⟨hdebt, hsize⟩ := h
      cases emplaced with
      | none => exact ⟨hdebt, fun r h => by cases h⟩
      | some result =>
          obtain ⟨node, inserted⟩ := result
          have hsize := hsize node inserted rfl
          refine ⟨?_, fun _ _ => ?_⟩
          · show (found.setState key node _).size ≤ account.shard.size + account.debt
            omega
          · have hwrite : account.write (found.setState key node (node.state.arrive now limits)) =
                ⟨found.setState key node (node.state.arrive now limits), 0⟩ := by
              apply congrArg (Account.mk _)
              omega
            show Ensures _ (account.write _) _ _
            rw [hwrite]
            apply (decideInPlace_ensures (by simp [Shard.setState])).bind
            intro result account h
            subst h
            exact ⟨rfl, fun r h => by cases h; rfl⟩

end Account

/-! ## All threads -/

/-- The shard whose mutex a thread holds. -/
def AcquirePlace.held : AcquirePlace → Option (Fin kShardCount)
  | .idle => none
  | .waiting _ _ _ => none
  | .inside index _ => some index
  | .reserving index _ _ _ => some index

/-- The thread keeps its account, with a given debt. -/
def AcquirePlace.Sound (maximum : Nat) (memory : Tracking) (debt : Nat) : AcquirePlace → Prop
  | .idle => debt = 0
  | .waiting _ limits _ => debt = 0 ∧ limits.maxTrackedClientIps = maximum
  | .inside index rest => memory.locked index = true ∧
      Ensures (slotWorld maximum) ⟨memory.shards index, debt⟩ rest (fun _ account => account.debt = 0)
  | .reserving index most _ next => memory.locked index = true ∧ most = maximum ∧
      ∀ granted, Ensures (slotWorld maximum)
        (Account.reserved ⟨memory.shards index, debt⟩ granted) (next granted)
        (fun _ account => account.debt = 0)

variable {T : Type} {memory memory' : Tracking} {place place' : AcquirePlace}
  {maximum debt debt' : Nat}

/-- A thread inside a shard has its mutex. -/
theorem AcquirePlace.Sound.locked {index : Fin kShardCount} (h : place.Sound maximum memory debt)
    (hheld : place.held = some index) : memory.locked index = true := by
  cases place with
  | idle => cases hheld
  | waiting key limits now => cases hheld
  | inside i rest =>
      cases hheld
      exact h.1
  | reserving i most seen next =>
      cases hheld
      exact h.1

/-- A thread does not notice what happens to other shards. -/
theorem AcquirePlace.Sound.frame (h : place.Sound maximum memory debt)
    (hsame : ∀ index, place.held = some index →
      memory'.shards index = memory.shards index ∧ memory'.locked index = memory.locked index) :
    place.Sound maximum memory' debt := by
  cases place with
  | idle => exact h
  | waiting key limits now => exact h
  | inside index rest =>
      obtain ⟨hshard, hlocked⟩ := hsame index rfl
      simp only [AcquirePlace.Sound, hshard, hlocked]
      exact h
  | reserving index most seen next =>
      obtain ⟨hshard, hlocked⟩ := hsame index rfl
      simp only [AcquirePlace.Sound, hshard, hlocked]
      exact h

/-- What a step does to the account of its thread and to everybody else's. -/
structure Settles (maximum : Nat) (memory : Tracking) (place : AcquirePlace) (debt : Nat)
    (memory' : Tracking) (place' : AcquirePlace) (debt' : Nat) : Prop where
  sound : place'.Sound maximum memory' debt'
  balance : debt ≤ memory.trackedClients →
    memory'.trackedClients + memory.entries + debt = memory.trackedClients + memory'.entries + debt'
  below : memory.trackedClients ≤ maximum → memory'.trackedClients ≤ maximum
  frame : ∀ index, memory.locked index = true → place.held ≠ some index →
    memory'.shards index = memory.shards index ∧ memory'.locked index = memory.locked index
  held : ∀ index, place'.held = some index →
    place.held = some index ∨ memory.locked index = false

/-- A write to one shard changes the sum by what it changes there. -/
theorem Tracking.entries_update (memory : Tracking) (index : Fin kShardCount) (shard : Shard) :
    ({ memory with shards := Function.update memory.shards index shard } : Tracking).entries +
        (memory.shards index).size =
      memory.entries + shard.size :=
  sum_update memory.shards index shard Shard.size

/-- The writes to a shard by the thread that holds it. -/
theorem Settles.written {index : Fin kShardCount} {shard : Shard} {rest next : AcquireRest}
    (hlocked : memory.locked index = true)
    (hrest : Ensures (slotWorld maximum) (Account.write ⟨memory.shards index, debt⟩ shard) next
      (fun _ account => account.debt = 0))
    (hsize : shard.size ≤ (memory.shards index).size + debt) :
    Settles maximum memory (.inside index rest) debt
      { memory with shards := Function.update memory.shards index shard } (.inside index next)
      (debt + (memory.shards index).size - shard.size) where
  sound := by
    refine ⟨hlocked, ?_⟩
    dsimp only
    rw [Function.update_self]
    exact hrest
  balance _ := by
    have hentries := memory.entries_update index shard
    dsimp only
    omega
  below h := h
  frame other _ hother := by
    have hne : other ≠ index := fun h => hother (congrArg some h.symm)
    exact ⟨Function.update_of_ne hne _ _, rfl⟩
  held other h := .inl h

/-- A step that leaves the memory as it is. -/
theorem Settles.private_step (hsound : place'.Sound maximum memory debt)
    (hheld : place'.held = place.held) :
    Settles maximum memory place debt memory place' debt where
  sound := hsound
  balance _ := rfl
  below h := h
  frame _ _ _ := ⟨rfl, rfl⟩
  held _ h := .inl (hheld ▸ h)

/-- **One step** of a thread settles its account. -/
theorem TrackStep.settles (hstep : TrackStep maximum memory place memory' place')
    (h : place.Sound maximum memory debt) :
    ∃ debt', Settles maximum memory place debt memory' place' debt' := by
  cases hstep with
  | call key limits now hmaximum => exact ⟨debt, .private_step ⟨h, hmaximum⟩ rfl⟩
  | lock key limits now hfree =>
      obtain ⟨hdebt, hmaximum⟩ := h
      subst hdebt
      refine ⟨0, ⟨Function.update_self _ _ _, ?_⟩, fun _ => rfl, fun h => h, ?_, ?_⟩
      · exact (acquireInPlace_ensures hmaximum).mono fun _ _ h => h.1
      · intro index hlocked _
        have hne : index ≠ shardOf key := by
          intro h
          rw [h, hfree] at hlocked
          cases hlocked
        exact ⟨rfl, Function.update_of_ne hne _ _⟩
      · intro index hindex
        cases hindex
        exact .inr hfree
  | store index shard next => exact ⟨_, .written h.1 (h.2.2 () trivial) h.2.1⟩
  | emplace index shard next => exact ⟨_, .written h.1 (h.2.2 true trivial) h.2.1⟩
  | throw index shard next => exact ⟨debt, .private_step ⟨h.1, h.2.2 false trivial⟩ rfl⟩
  | fetchSub index count next =>
      obtain ⟨hlocked, hcount, hnext⟩ := h
      refine ⟨debt - count, ⟨hlocked, hnext () trivial⟩, ?_, ?_, fun _ _ _ => ⟨rfl, rfl⟩,
        fun _ h => .inl h⟩
      · intro hdebt
        have hcount : count ≤ debt := hcount
        show memory.trackedClients - count + memory.entries + debt =
          memory.trackedClients + memory.entries + (debt - count)
        omega
      · intro hbelow
        exact Nat.le_trans (Nat.sub_le _ _) hbelow
  | consumeGlobal index now limits next granted =>
      exact ⟨debt, .private_step ⟨h.1, h.2.2 granted trivial⟩ rfl⟩
  | allocate index taken next address hfresh =>
      exact ⟨debt, .private_step ⟨h.1, h.2.2 address trivial⟩ rfl⟩
  | load index most next =>
      exact ⟨debt, .private_step ⟨h.1, h.2.1, fun granted => h.2.2 granted trivial⟩ rfl⟩
  | full index most seen next hfull =>
      exact ⟨debt, .private_step ⟨h.1, h.2.2 false⟩ rfl⟩
  | swap index most seen next hroom hsame =>
      obtain ⟨hlocked, hmost, hnext⟩ := h
      refine ⟨debt + 1, ⟨hlocked, hnext true⟩, ?_, ?_, fun _ _ _ => ⟨rfl, rfl⟩, fun _ h => .inl h⟩
      · intro _
        show seen + 1 + memory.entries + debt = memory.trackedClients + memory.entries + (debt + 1)
        omega
      · intro _
        show seen + 1 ≤ maximum
        omega
  | retry index most seen next hroom => exact ⟨debt, .private_step h rfl⟩
  | unlock index result =>
      have hdebt : debt = 0 := h.2
      subst hdebt
      refine ⟨0, rfl, fun _ => rfl, fun h => h, ?_, fun _ h => by cases h⟩
      intro other _ hother
      have hne : other ≠ index := fun h => hother (congrArg some h.symm)
      exact ⟨rfl, Function.update_of_ne hne _ _⟩
  | touch index key node state hfree hnode =>
      refine ⟨debt, h, ?_, fun h => h, ?_, fun _ h => .inl h⟩
      · intro _
        have hentries := memory.entries_update index
          ((memory.shards index).setState key node state)
        have hsize := Shard.size_setState_known hnode node state
        dsimp only
        omega
      · intro other hlocked _
        have hne : other ≠ index := by
          intro h
          rw [h, hfree] at hlocked
          cases hlocked
        exact ⟨Function.update_of_ne hne _ _, rfl⟩

/-- The count is the entries of the shards and the debts of the threads. -/
structure Covered [Fintype T] (maximum : Nat) (sys : System T Tracking AcquirePlace)
    (debts : T → Nat) : Prop where
  exclusive : ∀ thread other index, (sys.threads thread).held = some index →
    (sys.threads other).held = some index → thread = other
  sound : ∀ thread, (sys.threads thread).Sound maximum sys.memory (debts thread)
  balance : sys.memory.trackedClients = sys.memory.entries + ∑ thread, debts thread
  below : sys.memory.trackedClients ≤ maximum

variable [Fintype T] {sys sys' : System T Tracking AcquirePlace} {debts : T → Nat}

/-- The count covers the debt of every thread. -/
theorem Covered.debt_le (h : Covered maximum sys debts) (thread : T) :
    debts thread ≤ sys.memory.trackedClients := by
  have hsingle := Finset.single_le_sum (f := debts) (fun _ _ => Nat.zero_le _)
    (Finset.mem_univ thread)
  rw [h.balance]
  omega

variable [DecidableEq T]

/-- **One step** of any thread keeps the books. -/
theorem Covered.step (h : Covered maximum sys debts) (hstep : Step (TrackStep maximum) sys sys') :
    ∃ debts', Covered maximum sys' debts' := by
  obtain ⟨thread, hact⟩ := hstep
  rename_i memory place
  obtain ⟨debt, hsettles⟩ := hact.settles (h.sound thread)
  refine ⟨Function.update debts thread debt, ?_, ?_, ?_, hsettles.below h.below⟩
  · -- a shard that is entered was free, so nobody else is in it
    have hentered : ∀ other index, other ≠ thread → place.held = some index →
        (sys.threads other).held ≠ some index := by
      intro other index hne hplace hother
      rcases hsettles.held index hplace with hheld | hfree
      · exact hne (h.exclusive other thread index hother hheld)
      · rw [(h.sound other).locked hother] at hfree
        cases hfree
    intro first second index hfirst hsecond
    dsimp only at hfirst hsecond
    by_cases hf : first = thread
    · by_cases hs : second = thread
      · rw [hf, hs]
      · rw [hf, Function.update_self] at hfirst
        rw [Function.update_of_ne hs] at hsecond
        exact absurd hsecond (hentered second index hs hfirst)
    · rw [Function.update_of_ne hf] at hfirst
      by_cases hs : second = thread
      · rw [hs, Function.update_self] at hsecond
        exact absurd hfirst (hentered first index hf hsecond)
      · rw [Function.update_of_ne hs] at hsecond
        exact h.exclusive first second index hfirst hsecond
  · intro other
    dsimp only
    by_cases hother : other = thread
    · rw [hother, Function.update_self, Function.update_self]
      exact hsettles.sound
    · rw [Function.update_of_ne hother, Function.update_of_ne hother]
      apply (h.sound other).frame
      intro index hheld
      apply hsettles.frame index ((h.sound other).locked hheld)
      intro hthread
      exact hother (h.exclusive other thread index hheld hthread)
  · have hbalance := hsettles.balance (h.debt_le thread)
    have hsum := sum_update debts thread debt id
    have hbefore := h.balance
    dsimp only [id] at hsum ⊢
    omega

theorem covered_of_reaches (h : Reaches (TrackStep maximum) (trackStart T) sys) :
    ∃ debts, Covered maximum sys debts := by
  apply h.invariant (I := fun sys => ∃ debts, Covered maximum sys debts)
  · intro before after hstep hcovered
    obtain ⟨debts, hcovered⟩ := hcovered
    exact hcovered.step hstep
  · refine ⟨fun _ => 0, ?_, fun _ => rfl, ?_, Nat.zero_le _⟩
    · intro _ _ _ h
      cases h
    · simp [trackStart, Tracking.entries, Shard.size]

/-- A thread that holds no mutex owes nothing. -/
theorem AcquirePlace.Sound.settled (h : place.Sound maximum memory debt) (hheld : place.held = none) :
    debt = 0 := by
  cases place with
  | idle => exact h
  | waiting key limits now => exact h.1
  | inside index rest => cases hheld
  | reserving index most seen next => cases hheld

/-- **The bound on tracked clients.**  At every moment of every interleaving the
entries of the 64 shard maps are at most `tracked_clients_`, which is at most
`max_tracked_client_ips`; the two are equal whenever no thread is inside `acquire`;
and no `fetch_sub` takes more than is there. -/
theorem tracked_clients_bounded (maximum : Nat) (sys : System T Tracking AcquirePlace)
    (h : Reaches (TrackStep maximum) (trackStart T) sys) :
    sys.memory.entries ≤ sys.memory.trackedClients ∧
      sys.memory.trackedClients ≤ maximum ∧
      ((∀ thread, (sys.threads thread).held = none) →
        sys.memory.trackedClients = sys.memory.entries) ∧
      ∀ thread index count next,
        sys.threads thread = .inside index (.ask (.limiter (.releaseTracked count)) next) →
          count ≤ sys.memory.trackedClients := by
  obtain ⟨debts, hcovered⟩ := covered_of_reaches h
  have hbalance := hcovered.balance
  refine ⟨by omega, hcovered.below, ?_, ?_⟩
  · intro houtside
    have hzero : ∑ thread, debts thread = 0 :=
      Finset.sum_eq_zero fun thread _ => (hcovered.sound thread).settled (houtside thread)
    omega
  · intro thread index count next hplace
    have hsound := hcovered.sound thread
    rw [hplace] at hsound
    exact Nat.le_trans hsound.2.1 (hcovered.debt_le thread)

/-- Room for one client, and no connection for it. -/
def oneTracked : LimitsConfig := { maxTrackedClientIps := 1, maxConnectionsPerIp := 0 }

/-- A client of another shard than that of the default key. -/
def neighbour : ClientKey := { prefixBits := 1 }

/-- Two threads with clients of two shards have both seen the only slot free.  One takes it
and inserts its client; the compare-exchange of the other fails, and it finds the slot gone.
When both have returned, the client that was refused a connection is still tracked. -/
theorem tracked_clients_bounded_slot_taken :
    ∃ sys : System Bool Tracking AcquirePlace, Reaches (TrackStep 1) (trackStart Bool) sys ∧
      sys.memory.trackedClients = 1 ∧ sys.memory.entries = 1 ∧
      (∀ thread, (sys.threads thread).held = none) := by
  have hentered := (((Relation.ReflTransGen.refl (r := Step (TrackStep 1))
    (a := trackStart Bool)).tail
    (.act true (.call _ {} oneTracked 7 rfl))).tail
    (.act false (.call _ neighbour oneTracked 7 rfl))).tail
    (.act true (.lock _ {} oneTracked 7 rfl))
  have hpruned := ((((((hentered.tail
    (.act false (.lock _ neighbour oneTracked 7 (by decide +kernel)))).tail
    (.act true (.store _ (shardOf {}) _ _))).tail
    (.act false (.store _ (shardOf neighbour) _ _))).tail
    (.act true (.fetchSub _ (shardOf {}) 0 _))).tail
    (.act false (.fetchSub _ (shardOf neighbour) 0 _))).tail
    (.act true (.store _ (shardOf {}) _ _))).tail
    (.act false (.store _ (shardOf neighbour) _ _))
  have hraced := (((((hpruned.tail
    (.act true (.load _ (shardOf {}) 1 _))).tail
    (.act false (.load _ (shardOf neighbour) 1 _))).tail
    (.act true (.swap _ (shardOf {}) 1 0 _ (by decide) rfl))).tail
    (.act false (.retry _ (shardOf neighbour) 1 0 _ (by decide)))).tail
    (.act false (.full _ (shardOf neighbour) 1 1 _ (by decide)))).tail
    (.act false (.unlock _ (shardOf neighbour) _))
  have hrun := (((hraced.tail
    (.act true (.allocate _ (shardOf {}) [] _ 1 (by decide)))).tail
    (.act true (.emplace _ (shardOf {}) _ _))).tail
    (.act true (.store _ (shardOf {}) _ _))).tail
    (.act true (.unlock _ (shardOf {}) _))
  obtain ⟨_, _, hentries, _⟩ := tracked_clients_bounded 1 _ hrun
  refine ⟨_, hrun, rfl, (hentries ?_).symm, ?_⟩ <;>
  · intro thread
    cases thread with
    | false => rfl
    | true => rfl

end PoolLb.RateLimiter
