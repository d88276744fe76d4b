import Mathlib.Data.Finset.Card
import PoolLb.IdleClient

/-!
# Forgetting idle clients goes unnoticed

`prune` drops clients that hold no lease and were not seen for the retention time.  If
every bucket refills within that time, nobody can tell: the limiter gives the same
answers as one that never forgets.

Two runs on the same calls are carried side by side, one that prunes and one that does
not.  A client is in both, with states that are `Alike`, or only in the second, where it
is `Full`.  The first case turns into the second when the client is forgotten, and back
when it returns.
-/

namespace PoolLb.RateLimiter

open Interaction Tally TokenLevel

/-! ## Runs of the limiter -/

/-- The shard after a prune that removes nothing. -/
def Shard.stamped (shard : Shard) (now : Nat) : Shard :=
  if shard.lastPruned = 0 ∨ shard.lastPruned + kPruneInterval ≤ now then
    { shard with lastPruned := now }
  else shard

/-- `acquire` of a limiter whose prune removes nothing. -/
def acquireKeeping (key : ClientKey) (limits : LimitsConfig) (now : Nat) (shard : Shard) :
    Section (Admission × Shard) :=
  admitAfterPrune key limits now (shard.stamped now)

/-- What the users of the limiter call.  Leases are named by their place. -/
inductive LimiterOp where
  | acquire (key : ClientKey) (now place : Nat)
  | consumeTraffic (place bytes messages now : Nat)
  | release (place : Nat)

/-- What they are told. -/
inductive Reply where
  | admission (result : AdmissionResult)
  | traffic (allowed : Bool)
  | released
deriving DecidableEq

/-- The limiter with its leases and its atomics. -/
structure LeasedLimiter where
  sys : Limiter := {}
  atomics : LimiterAtomics := {}

/-- The result of `consume_traffic`. -/
def Limiter.trafficAllowed (sys : Limiter) (lease : Lease) (bytes messages : Nat)
    (limits : LimitsConfig) (now : Nat) : Bool :=
  if lease.limiter then
    match lease.state.bind (sys.shards lease.shardIndex).nodeAt with
    | none => false
    | some (_, node) => (RateLimiter.consumeTraffic node.state bytes messages limits now).1
  else false

/-- One call, by a thread that is alone in the limiter.  `enter` is its `acquire`. -/
inductive Serves (enter : ClientKey → LimitsConfig → Nat → Shard → Section (Admission × Shard))
    (limits : LimitsConfig) : LeasedLimiter → LimiterOp → Reply → LeasedLimiter → Prop where
  | acquire {sys : Limiter} {atomics atomics' : LimiterAtomics} {key : ClientKey}
      {now place : Nat} {admission : Admission} {shard : Shard}
      (hfree : sys.leases.lookup place = none)
      (hrun : Runs sequential atomics (enter key limits now (sys.shards (shardIndexFor key)))
        (admission, shard) atomics') :
      Serves enter limits ⟨sys, atomics⟩ (.acquire key now place) (.admission admission.result)
        ⟨sys.admitted key place admission.lease shard, atomics'⟩
  | consumeTraffic {sys : Limiter} {atomics : LimiterAtomics} {holder : Holder}
      {place bytes messages now : Nat} (hplace : sys.leases.lookup place = some holder) :
      Serves enter limits ⟨sys, atomics⟩ (.consumeTraffic place bytes messages now)
        (.traffic (sys.trafficAllowed holder.lease bytes messages limits now))
        ⟨sys.consumeTraffic holder.lease bytes messages limits now, atomics⟩
  | release {sys : Limiter} {atomics : LimiterAtomics} {holder : Holder} {place : Nat}
      (hplace : sys.leases.lookup place = some holder) :
      Serves enter limits ⟨sys, atomics⟩ (.release place) .released
        ⟨sys.reset place holder, atomics⟩

/-- The calls of a run, one after the other, with their replies. -/
inductive ServesAll (enter : ClientKey → LimitsConfig → Nat → Shard → Section (Admission × Shard))
    (limits : LimitsConfig) :
    LeasedLimiter → List LimiterOp → List Reply → LeasedLimiter → Prop where
  | nil (limiter : LeasedLimiter) : ServesAll enter limits limiter [] [] limiter
  | cons {first next last : LeasedLimiter} {op : LimiterOp} {ops : List LimiterOp}
      {reply : Reply} {replies : List Reply} (hfirst : Serves enter limits first op reply next)
      (hrest : ServesAll enter limits next ops replies last) :
      ServesAll enter limits first (op :: ops) (reply :: replies) last

/-- The reading of the clock of a call. -/
def LimiterOp.time : LimiterOp → Option Nat
  | .acquire _ now _ => some now
  | .consumeTraffic _ _ _ now => some now
  | .release _ => none

/-- The client that a call brings. -/
def LimiterOp.source : LimiterOp → Option ClientKey
  | .acquire key _ _ => some key
  | _ => none

/-- The clock of the calls is positive and does not go back behind `time`. -/
def Advances : Nat → List LimiterOp → Prop
  | _, [] => True
  | time, op :: ops => (∀ now ∈ op.time, time ≤ now ∧ now ≠ 0) ∧
      Advances (op.time.getD time) ops

/-- The distinct clients of the calls. -/
def sources (ops : List LimiterOp) : Finset ClientKey := (ops.filterMap LimiterOp.source).toFinset

/-! ## The entries of the clients -/

/-- The entry of a client. -/
def clientIn (shards : Nat → Shard) (key : ClientKey) : Option ClientNode :=
  (shards (shardIndexFor key)).clients.lookup key

/-- The entries of one client in the run that prunes and in the one that does not. -/
inductive Matches (limits : LimitsConfig) (time : Nat) :
    Option ClientNode → Option ClientNode → Prop where
  | absent : Matches limits time none none
  | forgotten (node : ClientNode) (h : Full limits time node.state) :
      Matches limits time none (some node)
  | tracked (left right : ClientNode) (halike : Alike limits time left.state right.state)
      (horderly : Orderly limits time left.state) :
      Matches limits time (some left) (some right)

variable {limits : LimitsConfig} {time time' now : Nat} {key k : ClientKey} {shard shard' : Shard}
  {left right : Option ClientNode} {call : ClientCall}

theorem Orderly.mono {state : ClientState} (h : Orderly limits time state) (hle : time ≤ time') :
    Orderly limits time' state :=
  { h with seen := h.seen.trans hle }

theorem Matches.mono (h : Matches limits time left right) (hle : time ≤ time') :
    Matches limits time' left right := by
  cases h with
  | absent => exact .absent
  | forgotten node h => exact .forgotten node (h.mono hle)
  | tracked left right halike horderly =>
      exact .tracked left right (halike.mono hle) (horderly.mono hle)

/-- **The prune** turns a client that is tracked into one that is forgotten. -/
theorem Matches.pruned (hrefills : Refills limits)
    (h : Matches limits time (shard.clients.lookup k) right) (hle : time ≤ now) :
    Matches limits now ((shard.pruned limits now).clients.lookup k) right := by
  rcases shard.lookup_pruned limits now k with hsame | ⟨hgone, node, hlook, hforgotten⟩
  · rw [hsame]
    exact h.mono hle
  · rw [hgone]
    rw [hlook] at h
    cases h with
    | tracked left right halike horderly =>
        exact .forgotten right
          ((halike.mono hle).full (horderly.full_of_forgotten hrefills hforgotten))

@[simp] theorem Shard.clients_stamped (shard : Shard) (now : Nat) :
    (shard.stamped now).clients = shard.clients := by
  unfold Shard.stamped
  split <;> rfl

/-- The arrival of a client with full buckets. -/
theorem Full.arrive {state : ClientState} (hrefills : Refills limits)
    (h : Full limits now state) : Full limits now (state.arrive now limits) where
  idle := h.idle
  balance kind later hlater := by
    cases kind with
    | connections =>
        apply balance_of_full hrefills
        · show (refill state.connectionBucket now _ _).tokens = _
          rw [refill_tokens]
          exact h.balance .connections now (le_refl now)
        · exact hlater
    | messages => exact h.balance .messages later hlater
    | bytes => exact h.balance .bytes later hlater

/-- What the two runs know of a client when it arrives. -/
structure ArrivesAlike (limits : LimitsConfig) (now : Nat) (left right : ClientNode)
    (leftNew rightNew : Bool) : Prop where
  /-- The state of the pruned run, as if it had been seen before. -/
  left : ∃ state, Orderly limits now state ∧ Alike limits now state right.state ∧
    state.arrive now limits = left.state.arrive now limits
  new : rightNew = true → leftNew = true
  full : leftNew = true → Full limits now right.state

/-- A new node reads as a full one that was seen just now. -/
theorem Full.exists_fresh {state : ClientState} (hrefills : Refills limits) (hnow : now ≠ 0)
    (h : Full limits now state) (address : Nat) :
    ∃ fresh, Orderly limits now fresh ∧ Alike limits now fresh state ∧
      fresh.arrive now limits = (freshNode limits now address).state.arrive now limits := by
  have hfull := full_fresh hrefills now address
  refine ⟨{ (freshNode limits now address).state with lastSeen := now }, ?_, ?_, rfl⟩
  · exact orderly_fresh limits address hnow rfl fun kind => by cases kind <;> rfl
  · have halike := hfull.alike h
    refine ⟨halike.active, fun kind later hlater => ?_⟩
    cases kind <;> exact halike.balance _ later hlater

/-- **A client arrives** with states that answer alike, in whichever of the two maps it
is found. -/
theorem Matches.arrives (hrefills : Refills limits) (hnow : now ≠ 0)
    {leftNode rightNode : ClientNode} {leftNew rightNew : Bool}
    (h : Matches limits now (shard.clients.lookup key) (shard'.clients.lookup key))
    (hleft : Found limits now shard key leftNode leftNew)
    (hright : Found limits now shard' key rightNode rightNew) :
    ArrivesAlike limits now leftNode rightNode leftNew rightNew := by
  rcases hleft with ⟨hlook, hold⟩ | ⟨hnone, hnew, hfreshLeft⟩
  · rw [hlook] at h
    rcases hright with ⟨hlook', hold'⟩ | ⟨hnone', _⟩
    · rw [hlook'] at h
      subst hold hold'
      cases h with
      | tracked _ _ halike horderly =>
          exact ⟨⟨_, horderly, halike, rfl⟩, fun h => h, fun h => by cases h⟩
    · rw [hnone'] at h
      cases h
  · have hfull : Full limits now rightNode.state := by
      rw [hnone] at h
      rcases hright with ⟨hlook', _⟩ | ⟨_, _, hfreshRight⟩
      · rw [hlook'] at h
        cases h with
        | forgotten _ hfull => exact hfull
      · rw [hfreshRight]
        exact full_fresh hrefills now _
    obtain ⟨state, horderly, halike, harrive⟩ :=
      hfull.exists_fresh hrefills hnow leftNode.address
    rw [← hfreshLeft] at harrive
    exact ⟨⟨state, horderly, halike, harrive⟩, fun _ => hnew, fun _ => hfull⟩

/-- What `acquire` makes of a client, by its verdict. -/
theorem ClientCall.next_acquire (limits : LimitsConfig) (state : ClientState) (now : Nat)
    (granted : Bool) :
    (ClientCall.acquire now granted).next limits state =
      if verdictWith limits granted (state.arrive now limits) = .accepted then
        (state.arrive now limits).admitted
      else state.arrive now limits := by
  unfold ClientCall.next ClientCall.run
  dsimp only
  split <;> rfl

/-- A refusal that is not the global one leaves the client where it is. -/
theorem entryAfter_kept {result : AdmissionResult} {inserted : Bool} {node : ClientNode}
    (haccepted : result ≠ .accepted) (hglobal : result ≠ .globalRateLimit) :
    entryAfter result inserted node = some node := by
  cases result with
  | accepted => exact absurd rfl haccepted
  | globalRateLimit => exact absurd rfl hglobal
  | concurrentLimit => rfl
  | rateLimit => rfl
  | sourceCapacity => rfl

/-- **The decision** comes out the same and leaves entries that match. -/
theorem ArrivesAlike.decided {leftNode rightNode : ClientNode} {leftNew rightNew : Bool}
    {leftResult rightResult : Admission × Shard}
    {leftAtomics leftAtomics' rightAtomics rightAtomics' : LimiterAtomics}
    (hrefills : Refills limits) (hnow : now ≠ 0)
    (h : ArrivesAlike limits now leftNode rightNode leftNew rightNew)
    (harrival : leftAtomics.theoreticalArrival = rightAtomics.theoreticalArrival)
    (hleft : Decided limits now key shard leftAtomics
      { leftNode with state := leftNode.state.arrive now limits } leftNew leftResult leftAtomics')
    (hright : Decided limits now key shard' rightAtomics
      { rightNode with state := rightNode.state.arrive now limits } rightNew rightResult
        rightAtomics') :
    leftResult.1.result = rightResult.1.result ∧
      Matches limits now (leftResult.2.clients.lookup key) (rightResult.2.clients.lookup key) := by
  obtain ⟨state, horderly, halike, harrive⟩ := h.left
  obtain ⟨granted, hgranted⟩ :
      ∃ granted, granted = globalConforms limits rightAtomics.theoreticalArrival now := ⟨_, rfl⟩
  have hverdict := halike.verdict (le_refl now) granted
  have hjudgedLeft : leftResult.1.result = verdictWith limits granted (state.arrive now limits) := by
    rw [hleft.judged, harrive, hgranted, harrival]
    rfl
  have hjudgedRight : rightResult.1.result =
      verdictWith limits granted (rightNode.state.arrive now limits) := by
    rw [hright.judged, hgranted]
    rfl
  have hsame : leftResult.1.result = rightResult.1.result := by
    rw [hjudgedLeft, hjudgedRight, hverdict]
  refine ⟨hsame, ?_⟩
  have htime : ∀ t, (ClientCall.acquire now granted).time = some t → now ≤ t ∧ t ≠ 0 ∧ t ≤ now := by
    intro t ht
    cases ht
    exact ⟨le_refl _, hnow, le_refl _⟩
  have halike' := halike.next fun t ht => (htime t ht).1
  have horderly' := horderly.next hrefills htime (le_refl now)
  rw [ClientCall.next_acquire, ← hjudgedLeft] at halike' horderly'
  rw [ClientCall.next_acquire, ← hjudgedRight, ← hsame] at halike'
  rw [harrive] at halike' horderly'
  rw [hleft.own, hright.own, ← hsame]
  by_cases haccepted : leftResult.1.result = .accepted
  · rw [if_pos haccepted] at halike' horderly'
    rw [if_pos haccepted] at halike'
    rw [haccepted]
    exact .tracked _ _ halike' horderly'
  · rw [if_neg haccepted] at halike' horderly'
    rw [if_neg haccepted] at halike'
    by_cases hglobal : leftResult.1.result = .globalRateLimit
    · -- whoever was inserted by this call is taken out again
      rw [hglobal]
      cases rightNew with
      | true =>
          rw [h.new rfl]
          exact .absent
      | false =>
          cases leftNew with
          | true => exact .forgotten _ ((h.full rfl).arrive hrefills)
          | false => exact .tracked _ _ halike' horderly'
    · rw [entryAfter_kept haccepted hglobal, entryAfter_kept haccepted hglobal]
      exact .tracked _ _ halike' horderly'

/-! ## The slots -/

/-- Every slot that is taken is that of a client of the run, in the shard of the client. -/
structure Tracks (seen : Finset ClientKey) (shards : Nat → Shard) (trackedClients : Nat) :
    Prop where
  home : ∀ index k, ((shards index).clients.lookup k).isSome → index = shardIndexFor k
  paid : ∃ present ⊆ seen, trackedClients = present.card ∧
    ∀ k, k ∈ present ↔ (clientIn shards k).isSome

/-- The clients of a shard. -/
def Shard.keySet (shard : Shard) : Finset ClientKey := shard.clients.keys.toFinset

/-- The clients of a shard are those that are found in it. -/
theorem Shard.mem_keySet {shard : Shard} : k ∈ shard.keySet ↔ (shard.clients.lookup k).isSome := by
  rw [Shard.keySet, List.mem_toFinset, AList.lookup_isSome]
  rfl

/-- There are as many as the shard has entries. -/
theorem Shard.card_keySet (shard : Shard) : shard.keySet.card = shard.size := by
  rw [Shard.keySet, List.toFinset_card_of_nodup (AList.keys_nodup _)]
  exact List.length_map _

variable {seen seen' : Finset ClientKey} {shards : Nat → Shard} {trackedClients : Nat}

/-- Another shard is found for the clients of its index. -/
theorem clientIn_update (shards : Nat → Shard) (key k : ClientKey) (shard : Shard) :
    clientIn (Function.update shards (shardIndexFor key) shard) k =
      if shardIndexFor k = shardIndexFor key then shard.clients.lookup k
      else clientIn shards k := by
  unfold clientIn
  rw [Function.update_apply]
  split <;> rfl

/-- The clients of the run are those of one shard and those of the others. -/
theorem card_present {present : Finset ClientKey} (index : Nat)
    (hhome : ∀ k, ((shards index).clients.lookup k).isSome → index = shardIndexFor k)
    (hpresent : ∀ k, k ∈ present ↔ (clientIn shards k).isSome) :
    (shards index).size + (present.filter fun k => shardIndexFor k ≠ index).card =
      present.card := by
  have hown : present.filter (fun k => shardIndexFor k = index) = (shards index).keySet := by
    ext k
    rw [Finset.mem_filter, hpresent, Shard.mem_keySet]
    constructor
    · intro h
      obtain ⟨hsome, hindex⟩ := h
      rwa [clientIn, hindex] at hsome
    · intro hsome
      have hindex := hhome k hsome
      rw [clientIn, ← hindex]
      exact ⟨hsome, rfl⟩
  rw [← Shard.card_keySet, ← hown]
  exact Finset.card_filter_add_card_filter_not _

/-- **A section** that takes or gives back a slot for every client it adds or drops. -/
theorem Tracks.update {tracked' : Nat} (h : Tracks seen shards trackedClients)
    (hkeys : ∀ k, (shard.clients.lookup k).isSome →
      ((shards (shardIndexFor key)).clients.lookup k).isSome ∨ k = key ∧ key ∈ seen)
    (hcount : tracked' + (shards (shardIndexFor key)).size = trackedClients + shard.size) :
    Tracks seen (Function.update shards (shardIndexFor key) shard) tracked' := by
  obtain ⟨present, hsub, hpaid, hpresent⟩ := h.paid
  have hhome : ∀ k, (shard.clients.lookup k).isSome → shardIndexFor key = shardIndexFor k := by
    intro k hsome
    rcases hkeys k hsome with hold | ⟨hkey, _⟩
    · exact h.home _ k hold
    · rw [hkey]
  have hpresent' : ∀ k, k ∈ (present.filter fun k => shardIndexFor k ≠ shardIndexFor key) ∪
      shard.keySet ↔
        (clientIn (Function.update shards (shardIndexFor key) shard) k).isSome := by
    intro k
    rw [clientIn_update, Finset.mem_union, Finset.mem_filter, Shard.mem_keySet, hpresent]
    by_cases hindex : shardIndexFor k = shardIndexFor key
    · simp [hindex]
    · rw [if_neg hindex]
      have hnot : ¬ (shard.clients.lookup k).isSome := fun hsome => hindex (hhome k hsome).symm
      simp [hindex, hnot]
  have hcard := card_present (shardIndexFor key) (h.home _) hpresent
  have hdisjoint : Disjoint (present.filter fun k => shardIndexFor k ≠ shardIndexFor key)
      shard.keySet := by
    rw [Finset.disjoint_left]
    intro k hrest hown
    exact (Finset.mem_filter.mp hrest).2 (hhome k (Shard.mem_keySet.mp hown)).symm
  have hcard' := Finset.card_union_of_disjoint hdisjoint
  rw [Shard.card_keySet] at hcard'
  refine ⟨?_, _, ?_, ?_, hpresent'⟩
  · intro index k hsome
    by_cases hindex : index = shardIndexFor key
    · subst hindex
      rw [Function.update_self] at hsome
      exact hhome k hsome
    · rw [Function.update_of_ne hindex] at hsome
      exact h.home index k hsome
  · intro k hmem
    rw [Finset.mem_union, Shard.mem_keySet] at hmem
    rcases hmem with hrest | hown
    · exact hsub (Finset.mem_of_mem_filter k hrest)
    · rcases hkeys k hown with hold | ⟨hkey, hseen⟩
      · apply hsub
        rw [hpresent, clientIn, ← h.home _ k hold]
        exact hold
      · rw [hkey]
        exact hseen
  · omega

/-- A prune adds no entry. -/
theorem Shard.size_pruned_le (shard : Shard) (limits : LimitsConfig) (now : Nat) :
    (shard.pruned limits now).size ≤ shard.size := by
  unfold Shard.pruned
  split
  · exact Shard.size_keep_le _ _ _
  · exact le_refl _

/-- The prune gives back a slot for every client it drops. -/
theorem Tracks.pruned (h : Tracks seen shards trackedClients) (limits : LimitsConfig) (now : Nat)
    (key : ClientKey) :
    Tracks seen (Function.update shards (shardIndexFor key)
        ((shards (shardIndexFor key)).pruned limits now))
      (trackedAfterPrune (shards (shardIndexFor key)) limits now trackedClients) := by
  apply h.update
  · intro k hsome
    rcases (shards (shardIndexFor key)).lookup_pruned limits now k with hsame | ⟨hnone, _⟩
    · rw [hsame] at hsome
      exact .inl hsome
    · rw [hnone] at hsome
      cases hsome
  · -- the slots of the shard are among those taken
    obtain ⟨present, _, hpaid, hpresent⟩ := h.paid
    have hcard := card_present (shardIndexFor key) (h.home _) hpresent
    have hle := (shards (shardIndexFor key)).size_pruned_le limits now
    unfold trackedAfterPrune
    omega

/-- A client of the run finds a slot, or has one. -/
theorem Tracks.room (h : Tracks seen shards trackedClients) (hkey : key ∈ seen) {maximum : Nat}
    (hmax : seen.card ≤ maximum) :
    (clientIn shards key).isSome ∨ trackedClients < maximum := by
  obtain ⟨present, hsub, hpaid, hpresent⟩ := h.paid
  by_cases hknown : (clientIn shards key).isSome = true
  · exact .inl hknown
  · have hnew : key ∉ present := fun hmem => hknown ((hpresent key).mp hmem)
    have hcard := Finset.card_le_card (Finset.insert_subset hkey hsub)
    rw [Finset.card_insert_of_notMem hnew] at hcard
    exact .inr (by omega)

theorem Shard.size_congr {shard shard' : Shard}
    (h : ∀ k, (shard'.clients.lookup k).isSome = (shard.clients.lookup k).isSome) :
    shard'.size = shard.size := by
  rw [← Shard.card_keySet, ← Shard.card_keySet]
  congr 1
  ext k
  rw [Shard.mem_keySet, Shard.mem_keySet, h]

/-- One client more is one entry more. -/
theorem Shard.size_added {shard shard' : Shard} (hnew : shard.clients.lookup key = none)
    (hadded : (shard'.clients.lookup key).isSome)
    (h : ∀ k, k ≠ key → shard'.clients.lookup k = shard.clients.lookup k) :
    shard'.size = shard.size + 1 := by
  have hkeys : shard'.keySet = insert key shard.keySet := by
    ext k
    rw [Finset.mem_insert, Shard.mem_keySet, Shard.mem_keySet]
    by_cases hk : k = key
    · subst hk
      simp [hadded]
    · simp [hk, h k hk]
  have hnot : key ∉ shard.keySet := by simp [Shard.mem_keySet, hnew]
  rw [← Shard.card_keySet, hkeys, Finset.card_insert_of_notMem hnot, Shard.card_keySet]

/-- The decision keeps the slot of a client that it leaves in the map. -/
theorem Decided.size {node : ClientNode} {inserted : Bool} {result : Admission × Shard}
    {atomics atomics' : LimiterAtomics} {tracked : Nat}
    (hfound : Found limits now shard key node inserted)
    (htracked : atomics.trackedClients = tracked + if inserted then 1 else 0)
    (h : Decided limits now key shard atomics
      { node with state := node.state.arrive now limits } inserted result atomics') :
    atomics'.trackedClients + shard.size = tracked + result.2.size := by
  have hafter := h.tracked
  have hown := h.own
  rcases hfound with ⟨hlook, hold⟩ | ⟨hnone, hnew, _⟩
  · subst hold
    have hkept : (result.2.clients.lookup key).isSome := by
      rw [hown]
      cases result.1.result <;> rfl
    have hsize : result.2.size = shard.size := by
      apply Shard.size_congr
      intro k
      by_cases hk : k = key
      · rw [hk, hkept, hlook]
        rfl
      · rw [h.others k hk]
    simp only [slotsBack, Bool.false_eq_true, and_false, if_false] at hafter htracked
    omega
  · subst hnew
    by_cases hglobal : result.1.result = .globalRateLimit
    · have hsize : result.2.size = shard.size := by
        apply Shard.size_congr
        intro k
        by_cases hk : k = key
        · rw [hk, hown, hnone, hglobal]
          rfl
        · rw [h.others k hk]
      simp only [slotsBack, hglobal, and_self, if_true] at hafter htracked
      omega
    · have hkept : (result.2.clients.lookup key).isSome := by
        rw [hown]
        by_cases haccepted : result.1.result = .accepted
        · rw [haccepted]
          rfl
        · rw [entryAfter_kept haccepted hglobal]
          rfl
      have hsize := Shard.size_added hnone hkept h.others
      simp only [slotsBack, hglobal, false_and, if_false, if_true] at hafter htracked
      omega

/-- The decision pays for the slot of the client it leaves in the map. -/
theorem Tracks.decided {node : ClientNode} {inserted : Bool} {result : Admission × Shard}
    {atomics atomics' : LimiterAtomics} (h : Tracks seen shards trackedClients)
    (hkey : key ∈ seen)
    (hfound : Found limits now (shards (shardIndexFor key)) key node inserted)
    (htracked : atomics.trackedClients = trackedClients + if inserted then 1 else 0)
    (hdecided : Decided limits now key (shards (shardIndexFor key)) atomics
      { node with state := node.state.arrive now limits } inserted result atomics') :
    Tracks seen (Function.update shards (shardIndexFor key) result.2) atomics'.trackedClients := by
  apply h.update _ (hdecided.size hfound htracked)
  intro k hsome
  by_cases hk : k = key
  · exact .inr ⟨hk, hkey⟩
  · rw [hdecided.others k hk] at hsome
    exact .inl hsome

/-! ## Two runs side by side -/

/-- Whose lease an object holds. -/
def Limiter.grantee (sys : Limiter) (place : Nat) : Option (Option ClientKey) :=
  (sys.leases.lookup place).map fun holder => holder.grant.map Grant.key

/-- The run that prunes and the one that does not, at `time`. -/
structure Mirrors (limits : LimitsConfig) (seen : Finset ClientKey) (time : Nat)
    (left right : LeasedLimiter) : Prop where
  leftPinned : Pinned left.sys
  rightPinned : Pinned right.sys
  leases : ∀ place, left.sys.grantee place = right.sys.grantee place
  entries : ∀ k, Matches limits time (clientIn left.sys.shards k) (clientIn right.sys.shards k)
  arrival : left.atomics.theoreticalArrival = right.atomics.theoreticalArrival
  leftTracks : Tracks seen left.sys.shards left.atomics.trackedClients
  rightTracks : Tracks seen right.sys.shards right.atomics.trackedClients

theorem tracks_initial (seen : Finset ClientKey) : Tracks seen (fun _ => {}) 0 where
  home index k h := by simp at h
  paid := ⟨∅, Finset.empty_subset seen, rfl, fun k => by simp [clientIn]⟩

theorem mirrors_initial (limits : LimitsConfig) (seen : Finset ClientKey) :
    Mirrors limits seen 0 {} {} where
  leftPinned := pinned_initial
  rightPinned := pinned_initial
  leases _ := rfl
  entries k := by
    have hnone : clientIn (fun _ => {}) k = none := by simp [clientIn]
    rw [hnone]
    exact .absent
  arrival := rfl
  leftTracks := tracks_initial seen
  rightTracks := tracks_initial seen

@[simp] theorem Limiter.shards_admitted (sys : Limiter) (key : ClientKey) (place : Nat)
    (lease : Option Nat) (shard : Shard) :
    (sys.admitted key place lease shard).shards =
      Function.update sys.shards (shardIndexFor key) shard := by
  cases lease <;> rfl

/-- The object of an admission holds the lease of its client, if any. -/
theorem Limiter.grantee_admitted (sys : Limiter) (key : ClientKey) (place other : Nat)
    (lease : Option Nat) (shard : Shard) :
    (sys.admitted key place lease shard).grantee other =
      if other = place then some (lease.map fun _ => key) else sys.grantee other := by
  unfold Limiter.grantee
  cases lease with
  | none =>
      by_cases hother : other = place
      · subst hother
        simp [Limiter.admitted]
      · simp [Limiter.admitted, Limiter.setShard, hother, AList.lookup_insert_ne]
  | some address =>
      by_cases hother : other = place
      · subst hother
        simp [Limiter.admitted]
      · simp [Limiter.admitted, Limiter.setShard, hother, AList.lookup_insert_ne]

/-- A run alone is one of the runs among other threads. -/
theorem runs_limiterWorld {α : Type} {program : Section α} {result : α}
    {atomics atomics' : LimiterAtomics} (h : Runs sequential atomics program result atomics') :
    Runs limiterWorld () program result () := by
  apply h.seen_through fun _ => ()
  · intro atomics c answer hallowed
    cases c with
    | allocate taken => exact hallowed
    | _ => trivial
  · intros
    rfl

variable {sys : Limiter} {atomics atomics' : LimiterAtomics} {place : Nat}
  {admission : Admission}

/-- One admission of a client of the run: the decision over `mid`, what the prune left. -/
structure Admitted (limits : LimitsConfig) (seen : Finset ClientKey) (now : Nat) (key : ClientKey)
    (place : Nat) (arrival : Nat) (mid : Shard) (sys : Limiter) (admission : Admission)
    (shard : Shard) (atomics' : LimiterAtomics) : Prop where
  pinned : Pinned (sys.admitted key place admission.lease shard)
  tracks : Tracks seen (sys.admitted key place admission.lease shard).shards
    atomics'.trackedClients
  decided : ∃ node inserted atomics, Found limits now mid key node inserted ∧
    Decided limits now key mid atomics { node with state := node.state.arrive now limits }
      inserted (admission, shard) atomics' ∧ atomics.theoreticalArrival = arrival

/-- After an admission every slot is still that of a client of the run. -/
theorem Tracks.admitted {node : ClientNode} {inserted : Bool} {mid : Shard} {tracked : Nat}
    {atomicsMid : LimiterAtomics}
    (h : Tracks seen (Function.update sys.shards (shardIndexFor key) mid) tracked)
    (hkey : key ∈ seen) (hfound : Found limits now mid key node inserted)
    (htracked : atomicsMid.trackedClients = tracked + if inserted then 1 else 0)
    (hdecided : Decided limits now key mid atomicsMid
      { node with state := node.state.arrive now limits } inserted (admission, shard) atomics') :
    Tracks seen (sys.admitted key place admission.lease shard).shards
      atomics'.trackedClients := by
  have hmid : Function.update sys.shards (shardIndexFor key) mid (shardIndexFor key) = mid :=
    Function.update_self ..
  have hdone := @Tracks.decided limits now key seen _ tracked node inserted (admission, shard)
    atomicsMid atomics' h hkey (by rwa [hmid]) htracked (by rwa [hmid])
  rw [Function.update_idem] at hdone
  rw [Limiter.shards_admitted]
  exact hdone

/-- `acquire` of the run that prunes. -/
theorem admitted_of_acquire (hpinned : Pinned sys)
    (htracks : Tracks seen sys.shards atomics.trackedClients) (hkey : key ∈ seen)
    (hmax : seen.card ≤ limits.maxTrackedClientIps) (hfree : sys.leases.lookup place = none)
    (hrun : Runs sequential atomics (acquire key limits now (sys.shards (shardIndexFor key)))
      (admission, shard) atomics') :
    Admitted limits seen now key place atomics.theoreticalArrival
      ((sys.shards (shardIndexFor key)).pruned limits now) sys admission shard atomics' := by
  have hpruned := htracks.pruned limits now key
  have hroom := hpruned.room hkey hmax
  rw [clientIn_update, if_pos rfl] at hroom
  obtain ⟨node, inserted, hfound, hdecided⟩ := (acquire_sequential hroom).sound hrun
  refine ⟨?_, ?_, node, inserted, _, hfound, hdecided, rfl⟩
  · exact hpinned.acquired hfree (acquire_ensures.sound (runs_limiterWorld hrun))
  · exact hpruned.admitted hkey hfound rfl hdecided

/-- `acquire` of the run that does not. -/
theorem admitted_of_acquireKeeping (hpinned : Pinned sys)
    (htracks : Tracks seen sys.shards atomics.trackedClients) (hkey : key ∈ seen)
    (hmax : seen.card ≤ limits.maxTrackedClientIps) (hfree : sys.leases.lookup place = none)
    (hrun : Runs sequential atomics
      (acquireKeeping key limits now (sys.shards (shardIndexFor key))) (admission, shard)
        atomics') :
    Admitted limits seen now key place atomics.theoreticalArrival
      ((sys.shards (shardIndexFor key)).stamped now) sys admission shard atomics' := by
  have hclients := (sys.shards (shardIndexFor key)).clients_stamped now
  have hstamped : Tracks seen (Function.update sys.shards (shardIndexFor key)
      ((sys.shards (shardIndexFor key)).stamped now)) atomics.trackedClients := by
    apply htracks.update
    · intro k hsome
      rw [hclients] at hsome
      exact .inl hsome
    · unfold Shard.size
      rw [hclients]
  have hroom := hstamped.room hkey hmax
  rw [clientIn_update, if_pos rfl] at hroom
  obtain ⟨node, inserted, hfound, hdecided⟩ := (admitAfterPrune_sequential hroom).sound hrun
  refine ⟨?_, ?_, node, inserted, _, hfound, hdecided, rfl⟩
  · have hspec := admitAfterPrune_ensures.sound (runs_limiterWorld hrun)
    exact hpinned.acquired hfree (hspec.of_refreshes (.of_clients_eq hclients))
  · exact hstamped.admitted hkey hfound rfl hdecided

variable {left right left' right' : LeasedLimiter}

/-- **An admission** gets one answer in both runs. -/
theorem Mirrors.admitted {leftSys rightSys : Limiter}
    {leftAtomics rightAtomics leftAtomics' rightAtomics' : LimiterAtomics}
    {leftAdmission rightAdmission : Admission} {leftShard rightShard : Shard}
    (hrefills : Refills limits) (hnow : now ≠ 0) (hle : time ≤ now)
    (h : Mirrors limits seen time ⟨leftSys, leftAtomics⟩ ⟨rightSys, rightAtomics⟩)
    (hleft : Admitted limits seen now key place leftAtomics.theoreticalArrival
      ((leftSys.shards (shardIndexFor key)).pruned limits now) leftSys leftAdmission leftShard
        leftAtomics')
    (hright : Admitted limits seen now key place rightAtomics.theoreticalArrival
      ((rightSys.shards (shardIndexFor key)).stamped now) rightSys rightAdmission rightShard
        rightAtomics') :
    leftAdmission.result = rightAdmission.result ∧
      Mirrors limits seen now
        ⟨leftSys.admitted key place leftAdmission.lease leftShard, leftAtomics'⟩
        ⟨rightSys.admitted key place rightAdmission.lease rightShard, rightAtomics'⟩ := by
  obtain ⟨leftNode, leftNew, leftMid, hfound, hdecided, harrival⟩ := hleft.decided
  obtain ⟨rightNode, rightNew, rightMid, hfound', hdecided', harrival'⟩ := hright.decided
  have hclients := (rightSys.shards (shardIndexFor key)).clients_stamped now
  -- the prune on the left
  have hpruned : ∀ k, shardIndexFor k = shardIndexFor key → Matches limits now
      (((leftSys.shards (shardIndexFor key)).pruned limits now).clients.lookup k)
      (((rightSys.shards (shardIndexFor key)).stamped now).clients.lookup k) := by
    intro k hindex
    have hentry := h.entries k
    unfold clientIn at hentry
    rw [hindex] at hentry
    rw [hclients]
    exact hentry.pruned hrefills hle
  -- the decision in both runs
  have harrives := (hpruned key rfl).arrives hrefills hnow hfound hfound'
  have hsameArrival : leftMid.theoreticalArrival = rightMid.theoreticalArrival := by
    rw [harrival, harrival']
    exact h.arrival
  obtain ⟨hresult, hown⟩ := harrives.decided hrefills hnow hsameArrival hdecided hdecided'
  have hresult : leftAdmission.result = rightAdmission.result := hresult
  refine ⟨hresult, hleft.pinned, hright.pinned, ?_, ?_, ?_, hleft.tracks, hright.tracks⟩
  · intro other
    rw [Limiter.grantee_admitted, Limiter.grantee_admitted, h.leases other]
    have hlease : (leftAdmission.lease.map fun _ => key) =
        rightAdmission.lease.map fun _ => key := by
      rw [hdecided.lease, hdecided'.lease, hresult]
      dsimp only
      split <;> rfl
    rw [hlease]
  · intro k
    rw [Limiter.shards_admitted, Limiter.shards_admitted, clientIn_update, clientIn_update]
    by_cases hindex : shardIndexFor k = shardIndexFor key
    · rw [if_pos hindex, if_pos hindex]
      by_cases hk : k = key
      · rw [hk]
        exact hown
      · have hother := hdecided.others k hk
        have hother' := hdecided'.others k hk
        dsimp only at hother hother'
        rw [hother, hother']
        exact hpruned k hindex
    · rw [if_neg hindex, if_neg hindex]
      exact (h.entries k).mono hle
  · show leftAtomics'.theoreticalArrival = rightAtomics'.theoreticalArrival
    rw [hdecided.arrival, hdecided'.arrival, hresult, hsameArrival]

/-- The work of a call on the node of a client, in both runs. -/
theorem Matches.worked {leftNode rightNode : ClientNode} (hrefills : Refills limits)
    (h : Matches limits time (some leftNode) (some rightNode))
    (htime : ∀ now, call.time = some now → time ≤ now ∧ now ≠ 0 ∧ now ≤ time')
    (hle : time ≤ time') :
    (call.run limits leftNode.state).1 = (call.run limits rightNode.state).1 ∧
      Matches limits time'
        (some { leftNode with state := call.next limits leftNode.state })
        (some { rightNode with state := call.next limits rightNode.state }) := by
  cases h with
  | tracked _ _ halike horderly =>
      have hforward := fun now hcall => (htime now hcall).1
      exact ⟨halike.success hforward, .tracked _ _ ((halike.next hforward).mono hle)
        (horderly.next hrefills htime hle)⟩

/-- Writing the state of one client leaves the others. -/
theorem clientIn_setState (shards : Nat → Shard) (key k : ClientKey) (node : ClientNode)
    (state : ClientState) :
    clientIn (Function.update shards (shardIndexFor key)
        ((shards (shardIndexFor key)).setState key node state)) k =
      if k = key then some { node with state := state } else clientIn shards k := by
  rw [clientIn_update]
  by_cases hk : k = key
  · subst hk
    simp [Shard.setState]
  · rw [if_neg hk]
    split
    · rename_i hindex
      unfold Shard.setState clientIn
      rw [AList.lookup_insert_ne hk, hindex]
    · rfl

/-- It takes no slot. -/
theorem Tracks.setState {node : ClientNode} (h : Tracks seen shards trackedClients)
    (hnode : clientIn shards key = some node) (state : ClientState) :
    Tracks seen (Function.update shards (shardIndexFor key)
      ((shards (shardIndexFor key)).setState key node state)) trackedClients := by
  unfold clientIn at hnode
  apply h.update
  · intro k hsome
    by_cases hk : k = key
    · rw [hk, hnode]
      exact .inl rfl
    · unfold Shard.setState at hsome
      rw [AList.lookup_insert_ne hk] at hsome
      exact .inl hsome
  · rw [Shard.size_setState_known hnode]

/-! ### Calls through a lease -/

variable {holder : Holder} {bytes messages : Nat} {grant : Grant}

/-- An object without a grant holds no lease. -/
theorem Pinned.limiter_of_free (h : Pinned sys) (hplace : sys.leases.lookup place = some holder)
    (hgrant : holder.grant = none) : holder.lease.limiter = false := by
  have hpoints := h.pinned place holder hplace
  simpa only [Holder.PointsInto, hgrant] using hpoints

/-- `consume_traffic` through a lease that was given back. -/
theorem Pinned.consumeTraffic_free (h : Pinned sys)
    (hplace : sys.leases.lookup place = some holder) (hgrant : holder.grant = none) :
    sys.trafficAllowed holder.lease bytes messages limits now = false ∧
      sys.consumeTraffic holder.lease bytes messages limits now = sys := by
  have hlimiter := h.limiter_of_free hplace hgrant
  unfold Limiter.trafficAllowed Limiter.consumeTraffic
  rw [hlimiter]
  exact ⟨rfl, rfl⟩

/-- `consume_traffic` through a live lease. -/
theorem Pinned.consumeTraffic_held (h : Pinned sys)
    (hplace : sys.leases.lookup place = some holder) (hgrant : holder.grant = some grant) :
    ∃ node, clientIn sys.shards grant.key = some node ∧
      sys.trafficAllowed holder.lease bytes messages limits now =
        ((ClientCall.consumeTraffic now bytes messages).run limits node.state).1 ∧
      sys.consumeTraffic holder.lease bytes messages limits now =
        sys.setShard (shardIndexFor grant.key)
          ((sys.shards (shardIndexFor grant.key)).setState grant.key node
            ((ClientCall.consumeTraffic now bytes messages).next limits node.state)) := by
  obtain ⟨node, hnode, hlease, _⟩ := h.exists_node hplace hgrant
  have hat := (h.distinct (shardIndexFor grant.key)).nodeAt hnode
  refine ⟨node, hnode, ?_, ?_⟩
  · simp only [Limiter.trafficAllowed, hlease, if_true, Option.bind_some, hat]
    rfl
  · unfold Limiter.consumeTraffic
    rw [hlease, if_pos rfl, h.access_eq _ hnode rfl]
    rfl

/-- The shards after `reset` of a lease that was given back. -/
theorem Pinned.reset_free (h : Pinned sys) (hplace : sys.leases.lookup place = some holder)
    (hgrant : holder.grant = none) : (sys.reset place holder).shards = sys.shards := by
  have hlimiter := h.limiter_of_free hplace hgrant
  unfold Limiter.reset
  rw [hlimiter]
  rfl

/-- The shards after `reset` of a live lease. -/
theorem Pinned.reset_held (h : Pinned sys) (hplace : sys.leases.lookup place = some holder)
    (hgrant : holder.grant = some grant) :
    ∃ node, clientIn sys.shards grant.key = some node ∧
      (sys.reset place holder).shards = Function.update sys.shards (shardIndexFor grant.key)
        ((sys.shards (shardIndexFor grant.key)).setState grant.key node
          (ClientCall.release.next limits node.state)) := by
  obtain ⟨node, hnode, hlease, hpos⟩ := h.exists_node hplace hgrant
  refine ⟨node, hnode, ?_⟩
  unfold Limiter.reset
  rw [hlease, if_pos rfl, h.release_eq hnode hpos]
  rfl

/-- After `reset` the object holds no lease. -/
theorem Limiter.grantee_reset (sys : Limiter) (place : Nat) (holder : Holder) (other : Nat) :
    (sys.reset place holder).grantee other =
      if other = place then some none else sys.grantee other := by
  unfold Limiter.grantee
  rw [reset_lookup]
  split <;> rfl

/-- **A call on a client** that both runs have found gets one answer. -/
theorem Mirrors.worked {leftNode rightNode : ClientNode} {leftSys rightSys : Limiter}
    (hrefills : Refills limits) (h : Mirrors limits seen time left right)
    (htime : ∀ now, call.time = some now → time ≤ now ∧ now ≠ 0 ∧ now ≤ time')
    (hle : time ≤ time')
    (hleftNode : clientIn left.sys.shards key = some leftNode)
    (hrightNode : clientIn right.sys.shards key = some rightNode)
    (hleft : leftSys.shards = Function.update left.sys.shards (shardIndexFor key)
      ((left.sys.shards (shardIndexFor key)).setState key leftNode
        (call.next limits leftNode.state)))
    (hright : rightSys.shards = Function.update right.sys.shards (shardIndexFor key)
      ((right.sys.shards (shardIndexFor key)).setState key rightNode
        (call.next limits rightNode.state)))
    (hleftPinned : Pinned leftSys) (hrightPinned : Pinned rightSys)
    (hleases : ∀ place, leftSys.grantee place = rightSys.grantee place) :
    (call.run limits leftNode.state).1 = (call.run limits rightNode.state).1 ∧
      Mirrors limits seen time' ⟨leftSys, left.atomics⟩ ⟨rightSys, right.atomics⟩ := by
  have hentry := h.entries key
  rw [hleftNode, hrightNode] at hentry
  obtain ⟨hanswer, hown⟩ := hentry.worked hrefills htime hle
  refine ⟨hanswer, hleftPinned, hrightPinned, hleases, ?_, h.arrival, ?_, ?_⟩
  · intro k
    show Matches limits time' (clientIn leftSys.shards k) (clientIn rightSys.shards k)
    rw [hleft, hright, clientIn_setState, clientIn_setState]
    by_cases hk : k = key
    · rw [if_pos hk, if_pos hk]
      exact hown
    · rw [if_neg hk, if_neg hk]
      exact (h.entries k).mono hle
  · show Tracks seen leftSys.shards left.atomics.trackedClients
    rw [hleft]
    exact h.leftTracks.setState hleftNode _
  · show Tracks seen rightSys.shards right.atomics.trackedClients
    rw [hright]
    exact h.rightTracks.setState hrightNode _

/-- A call through a lease that was given back touches no client. -/
theorem Mirrors.untouched {leftSys rightSys : Limiter} (h : Mirrors limits seen time left right)
    (hle : time ≤ time') (hleft : leftSys.shards = left.sys.shards)
    (hright : rightSys.shards = right.sys.shards) (hleftPinned : Pinned leftSys)
    (hrightPinned : Pinned rightSys)
    (hleases : ∀ place, leftSys.grantee place = rightSys.grantee place) :
    Mirrors limits seen time' ⟨leftSys, left.atomics⟩ ⟨rightSys, right.atomics⟩ where
  leftPinned := hleftPinned
  rightPinned := hrightPinned
  leases := hleases
  entries k := by
    show Matches limits time' (clientIn leftSys.shards k) (clientIn rightSys.shards k)
    rw [hleft, hright]
    exact (h.entries k).mono hle
  arrival := h.arrival
  leftTracks := by
    show Tracks seen leftSys.shards left.atomics.trackedClients
    rw [hleft]
    exact h.leftTracks
  rightTracks := by
    show Tracks seen rightSys.shards right.atomics.trackedClients
    rw [hright]
    exact h.rightTracks

/-- The leases at one place, in both runs: given back, or on one client. -/
theorem Mirrors.holders_agree {leftHolder rightHolder : Holder}
    (h : Mirrors limits seen time left right)
    (hleft : left.sys.leases.lookup place = some leftHolder)
    (hright : right.sys.leases.lookup place = some rightHolder) :
    leftHolder.grant = none ∧ rightHolder.grant = none ∨
      ∃ leftGrant rightGrant, leftHolder.grant = some leftGrant ∧
        rightHolder.grant = some rightGrant ∧ rightGrant.key = leftGrant.key := by
  have hsame := h.leases place
  unfold Limiter.grantee at hsame
  rw [hleft, hright] at hsame
  have hkeys : leftHolder.grant.map Grant.key = rightHolder.grant.map Grant.key :=
    Option.some.inj hsame
  cases hleftGrant : leftHolder.grant with
  | none =>
      rw [hleftGrant] at hkeys
      exact .inl ⟨rfl, Option.map_eq_none_iff.mp hkeys.symm⟩
  | some leftGrant =>
      rw [hleftGrant] at hkeys
      obtain ⟨rightGrant, hrightGrant, hkey⟩ := Option.map_eq_some_iff.mp hkeys.symm
      exact .inr ⟨leftGrant, rightGrant, rfl, hrightGrant, hkey⟩

/-! ### Steps and runs -/

variable {op : LimiterOp} {ops : List LimiterOp} {reply reply' : Reply}
  {replies replies' : List Reply}

/-- **One call.**  Both runs give the same reply. -/
theorem Mirrors.step (hrefills : Refills limits) (hmax : seen.card ≤ limits.maxTrackedClientIps)
    (h : Mirrors limits seen time left right)
    (htime : ∀ now ∈ op.time, time ≤ now ∧ now ≠ 0) (hsource : ∀ key ∈ op.source, key ∈ seen)
    (hleft : Serves acquire limits left op reply left')
    (hright : Serves acquireKeeping limits right op reply' right') :
    reply = reply' ∧ Mirrors limits seen (op.time.getD time) left' right' := by
  cases hleft with
  | @acquire leftSys leftAtomics _ key now place _ _ hfree hrun =>
      cases hright with
      | @acquire rightSys rightAtomics _ _ _ _ _ _ hfree' hrun' =>
          obtain ⟨hle, hnow⟩ := htime now rfl
          have hkey := hsource key rfl
          have hadmitted := admitted_of_acquire h.leftPinned h.leftTracks hkey hmax hfree hrun
          have hadmitted' :=
            admitted_of_acquireKeeping h.rightPinned h.rightTracks hkey hmax hfree' hrun'
          obtain ⟨hresult, hmirrors⟩ := h.admitted hrefills hnow hle hadmitted hadmitted'
          exact ⟨congrArg Reply.admission hresult, hmirrors⟩
  | @consumeTraffic leftSys leftAtomics _ place bytes messages now hplace =>
      cases hright with
      | @consumeTraffic rightSys rightAtomics _ _ _ _ _ hplace' =>
          obtain ⟨hle, hnow⟩ := htime now rfl
          have hpinned := h.leftPinned.consumeTraffic bytes messages limits now hplace
          have hpinned' := h.rightPinned.consumeTraffic bytes messages limits now hplace'
          rcases h.holders_agree hplace hplace' with ⟨hnone, hnone'⟩ |
              ⟨leftGrant, rightGrant, hgrant, hgrant', hkey⟩
          · have hfree := @Pinned.consumeTraffic_free limits now _ _ _ bytes messages
              h.leftPinned hplace hnone
            have hfree' := @Pinned.consumeTraffic_free limits now _ _ _ bytes messages
              h.rightPinned hplace' hnone'
            dsimp only at hfree hfree' hpinned hpinned'
            rw [hfree.1, hfree'.1, hfree.2, hfree'.2]
            exact ⟨rfl, h.untouched hle rfl rfl h.leftPinned h.rightPinned h.leases⟩
          · obtain ⟨leftNode, hnode, hallowed, hsys⟩ :=
              @Pinned.consumeTraffic_held limits now _ _ _ bytes messages _ h.leftPinned hplace
                hgrant
            obtain ⟨rightNode, hnode', hallowed', hsys'⟩ :=
              @Pinned.consumeTraffic_held limits now _ _ _ bytes messages _ h.rightPinned hplace'
                hgrant'
            rw [hkey] at hnode' hsys'
            have hcall : ∀ t, (ClientCall.consumeTraffic now bytes messages).time = some t →
                time ≤ t ∧ t ≠ 0 ∧ t ≤ now := by
              intro t ht
              cases ht
              exact ⟨hle, hnow, le_refl _⟩
            have hworked := h.worked hrefills hcall hle hnode hnode' (congrArg Limiter.shards hsys)
              (congrArg Limiter.shards hsys') hpinned hpinned' (by
                intro other
                dsimp only at hsys hsys'
                rw [hsys, hsys']
                exact h.leases other)
            refine ⟨?_, hworked.2⟩
            dsimp only at hallowed hallowed'
            rw [hallowed, hallowed', hworked.1]
  | @release leftSys leftAtomics leftHolder place hplace =>
      cases hright with
      | @release rightSys rightAtomics rightHolder _ hplace' =>
          have hpinned := h.leftPinned.reset hplace
          have hpinned' := h.rightPinned.reset hplace'
          have hleases : ∀ other, (leftSys.reset place leftHolder).grantee other =
              (rightSys.reset place rightHolder).grantee other := by
            intro other
            rw [Limiter.grantee_reset, Limiter.grantee_reset]
            split
            · rfl
            · exact h.leases other
          refine ⟨rfl, ?_⟩
          rcases h.holders_agree hplace hplace' with ⟨hnone, hnone'⟩ |
              ⟨leftGrant, rightGrant, hgrant, hgrant', hkey⟩
          · exact h.untouched (le_refl time) (h.leftPinned.reset_free hplace hnone)
              (h.rightPinned.reset_free hplace' hnone') hpinned hpinned' hleases
          · obtain ⟨leftNode, hnode, hshards⟩ :=
              @Pinned.reset_held limits _ _ _ _ h.leftPinned hplace hgrant
            obtain ⟨rightNode, hnode', hshards'⟩ :=
              @Pinned.reset_held limits _ _ _ _ h.rightPinned hplace' hgrant'
            rw [hkey] at hnode' hshards'
            exact (h.worked hrefills (fun t ht => by cases ht) (le_refl time) hnode hnode' hshards
              hshards' hpinned hpinned' hleases).2

/-- What one run can serve, the other can. -/
theorem Mirrors.serves (h : Mirrors limits seen time left right)
    (hleft : Serves acquire limits left op reply left') :
    ∃ reply' right', Serves acquireKeeping limits right op reply' right' := by
  obtain ⟨rightSys, rightAtomics⟩ := right
  have hholder : ∀ place holder, left.sys.leases.lookup place = some holder →
      ∃ holder', rightSys.leases.lookup place = some holder' := by
    intro place holder hplace
    have hsame := h.leases place
    unfold Limiter.grantee at hsame
    rw [hplace] at hsame
    obtain ⟨holder', hplace', _⟩ := Option.map_eq_some_iff.mp hsame.symm
    exact ⟨holder', hplace'⟩
  cases hleft with
  | @acquire _ _ _ key now place _ _ hfree _ =>
      have hfree' : rightSys.leases.lookup place = none := by
        have hsame := h.leases place
        unfold Limiter.grantee at hsame
        rw [hfree] at hsame
        exact Option.map_eq_none_iff.mp hsame.symm
      exact ⟨_, _, .acquire hfree' (runs_play answersAlone_allowed rightAtomics
        (acquireKeeping key limits now (rightSys.shards (shardIndexFor key))))⟩
  | consumeTraffic hplace =>
      obtain ⟨holder', hplace'⟩ := hholder _ _ hplace
      exact ⟨_, _, .consumeTraffic hplace'⟩
  | release hplace =>
      obtain ⟨holder', hplace'⟩ := hholder _ _ hplace
      exact ⟨_, _, .release hplace'⟩

/-- **A run.**  The replies are those of the limiter that forgets nobody, which can serve
the same calls. -/
theorem Mirrors.run (hrefills : Refills limits) (hmax : seen.card ≤ limits.maxTrackedClientIps)
    (h : Mirrors limits seen time left right) (hclock : Advances time ops)
    (hsources : ∀ op ∈ ops, ∀ key ∈ op.source, key ∈ seen)
    (hleft : ServesAll acquire limits left ops replies left') :
    (∃ right', ServesAll acquireKeeping limits right ops replies right') ∧
      ∀ replies' right', ServesAll acquireKeeping limits right ops replies' right' →
        replies' = replies := by
  -- on the run that prunes, with the two relations carried through its calls
  induction hleft generalizing time right with
  | nil limiter =>
      refine ⟨⟨right, .nil right⟩, fun replies' right' hright => ?_⟩
      cases hright
      rfl
  | cons hfirst hrest ih =>
      obtain ⟨hnow, hlater⟩ := hclock
      obtain ⟨hsource, hsources⟩ := List.forall_mem_cons.mp hsources
      constructor
      · obtain ⟨reply', next', hserves⟩ := h.serves hfirst
        obtain ⟨hreply, hnext⟩ := h.step hrefills hmax hnow hsource hfirst hserves
        obtain ⟨⟨right', hall⟩, _⟩ := ih hnext hlater hsources
        rw [hreply]
        exact ⟨right', .cons hserves hall⟩
      · intro replies' right' hright
        cases hright with
        | cons hserves hall =>
            obtain ⟨hreply, hnext⟩ := h.step hrefills hmax hnow hsource hfirst hserves
            rw [hreply, (ih hnext hlater hsources).2 _ _ hall]

/-- **Forgetting idle clients is unobservable.**  Let every bucket of a client refill
within the retention time, the clock of the calls be positive and not go back, and fewer
clients come than can be tracked.  Then the replies of every sequence of calls of
`acquire`, `consume_traffic` and releases are those of a limiter whose prune removes
nothing: that one can serve the sequence, and always with these replies. -/
theorem forgetting_unobservable (hrefills : Refills limits) (hclock : Advances 0 ops)
    (hsources : (sources ops).card < limits.maxTrackedClientIps)
    (hrun : ServesAll acquire limits {} ops replies left) :
    (∃ right, ServesAll acquireKeeping limits {} ops replies right) ∧
      ∀ replies' right, ServesAll acquireKeeping limits {} ops replies' right →
        replies' = replies := by
  apply (mirrors_initial limits (sources ops)).run hrefills hsources.le hclock _ hrun
  intro op hop key hkey
  unfold sources
  rw [List.mem_toFinset, List.mem_filterMap]
  exact ⟨op, hop, hkey⟩

/-! ### A run, computed -/

/-- A call, if its lease objects are there. -/
def LeasedLimiter.serve (limits : LimitsConfig) (limiter : LeasedLimiter) :
    LimiterOp → Option (Reply × LeasedLimiter)
  | .acquire key now place =>
      if limiter.sys.leases.lookup place = none then
        let played := (acquire key limits now (limiter.sys.shards (shardIndexFor key))).play
          sequential answersAlone limiter.atomics
        some (.admission played.1.1.result,
          ⟨limiter.sys.admitted key place played.1.1.lease played.1.2, played.2⟩)
      else none
  | .consumeTraffic place bytes messages now =>
      (limiter.sys.leases.lookup place).map fun holder =>
        (.traffic (limiter.sys.trafficAllowed holder.lease bytes messages limits now),
          { limiter with sys := limiter.sys.consumeTraffic holder.lease bytes messages limits now })
  | .release place =>
      (limiter.sys.leases.lookup place).map fun holder =>
        (.released, { limiter with sys := limiter.sys.reset place holder })

/-- The calls of a run. -/
def LeasedLimiter.serveAll (limits : LimitsConfig) :
    LeasedLimiter → List LimiterOp → Option (List Reply × LeasedLimiter)
  | limiter, [] => some ([], limiter)
  | limiter, op :: ops => do
      let (reply, next) ← limiter.serve limits op
      let (replies, last) ← next.serveAll limits ops
      return (reply :: replies, last)

/-- A call that is computed is a call. -/
theorem LeasedLimiter.serves_of_serve
    (h : left.serve limits op = some (reply, left')) : Serves acquire limits left op reply left' := by
  unfold LeasedLimiter.serve at h
  cases op with
  | acquire key now place =>
      dsimp only at h
      split at h
      · rename_i hfree
        cases h
        exact .acquire hfree (runs_play answersAlone_allowed _ _)
      · cases h
  | consumeTraffic place bytes messages now =>
      obtain ⟨holder, hplace, hserved⟩ := Option.map_eq_some_iff.mp h
      cases hserved
      exact .consumeTraffic hplace
  | release place =>
      obtain ⟨holder, hplace, hserved⟩ := Option.map_eq_some_iff.mp h
      cases hserved
      exact .release hplace

theorem LeasedLimiter.servesAll_of_serveAll
    (h : left.serveAll limits ops = some (replies, left')) :
    ServesAll acquire limits left ops replies left' := by
  induction ops generalizing left replies with
  | nil =>
      cases h
      exact .nil _
  | cons op ops ih =>
      simp only [LeasedLimiter.serveAll, Option.bind_eq_bind, Option.bind_eq_some_iff] at h
      obtain ⟨⟨reply, next⟩, hfirst, ⟨rest, last⟩, hrest, hdone⟩ := h
      cases hdone
      exact .cons (serves_of_serve hfirst) (ih hrest)

/-- A client comes, goes, and returns after the retention time of the default limits. -/
def returningVisit : List LimiterOp :=
  [.acquire (ipv4Key [10, 0, 0, 1]) 1000000000 0, .release 0,
    .acquire (ipv4Key [10, 0, 0, 1]) 400000000000 1]

/-- **The default limits refill every bucket within the retention time.** -/
theorem refills_default : Refills {} where
  rate kind := by cases kind <;> norm_num [BucketKind.rate]
  covered kind := by cases kind <;> norm_num [BucketKind.rate, BucketKind.burst]

/-- The client is forgotten in between, as its message bucket shows, and let in again as
if it had not been. -/
theorem forgetting_unobservable_return :
    ∃ replies left, ServesAll acquire {} {} returningVisit replies left ∧
      replies = [.admission .accepted, .released, .admission .accepted] ∧
      ((clientIn left.sys.shards (ipv4Key [10, 0, 0, 1])).map fun node =>
        node.state.messageBucket.updatedAt) = some 400000000000 ∧
      ∀ replies' right, ServesAll acquireKeeping {} {} returningVisit replies' right →
        replies' = replies := by
  have hclock : Advances 0 returningVisit := by simp [Advances, returningVisit, LimiterOp.time]
  have hsources : (sources returningVisit).card < 262144 := by decide +kernel
  have hserved : (LeasedLimiter.serveAll {} {} returningVisit).map (fun served => (served.1,
      (clientIn served.2.sys.shards (ipv4Key [10, 0, 0, 1])).map fun node =>
        node.state.messageBucket.updatedAt)) =
      some ([.admission .accepted, .released, .admission .accepted], some 400000000000) := by
    decide +kernel
  obtain ⟨⟨replies, left⟩, hserve, hpair⟩ := Option.map_eq_some_iff.mp hserved
  have hrun := LeasedLimiter.servesAll_of_serveAll hserve
  exact ⟨replies, left, hrun, congrArg Prod.fst hpair, congrArg Prod.snd hpair,
    (forgetting_unobservable refills_default hclock hsources hrun).2⟩

end PoolLb.RateLimiter
