import PoolLb.SequentialLimiter

/-!
# What a refused admission leaves behind

`acquire` looks for room, inserts, refills and only then decides, so a refusal has
to take back what came before it.  `Spared` says of one entry what that means: it is
the one there was, or the retention prune was due and took it, or it is the caller's
own, seen and refilled, with nothing spent.

This holds of a refused call exactly if it evicts nobody.  The eviction is the one thing
`acquire` does not take back: a new client that finds the table full displaces an idle
one of its shard, and is then refused by the process-wide rate.
-/

namespace PoolLb.RateLimiter

open Interaction Tally

/-- The limiter between two calls. -/
structure LimiterState where
  shards : Nat → Shard := fun _ => {}
  atomics : LimiterAtomics := {}

namespace LimiterState

/-- The shard of a client. -/
def shardFor (limiter : LimiterState) (key : ClientKey) : Shard :=
  limiter.shards (shardIndexFor key)

/-- The entry of a key in a shard. -/
def entry (limiter : LimiterState) (index : Nat) (k : ClientKey) : Option ClientNode :=
  (limiter.shards index).clients.lookup k

/-- The entry of a client. -/
def client (limiter : LimiterState) (key : ClientKey) : Option ClientNode :=
  (limiter.shardFor key).clients.lookup key

/-- One whole call of `acquire`. -/
def Acquires (limiter : LimiterState) (key : ClientKey) (limits : LimitsConfig) (now : Nat)
    (admission : Admission) (limiter' : LimiterState) : Prop :=
  ∃ shard, Runs sequential limiter.atomics (acquire key limits now (limiter.shardFor key))
      (admission, shard) limiter'.atomics ∧
    limiter'.shards = Function.update limiter.shards (shardIndexFor key) shard

/-- The call finds a slot, or needs none, or finds nobody idle in its shard. -/
def EvictsNobody (limiter : LimiterState) (key : ClientKey) (limits : LimitsConfig) (now : Nat) :
    Prop :=
  (((limiter.shardFor key).pruned limits now).clients.lookup key).isSome ∨
    trackedAfterPrune (limiter.shardFor key) limits now limiter.atomics.trackedClients <
      limits.maxTrackedClientIps ∨
    ∀ k node, ((limiter.shardFor key).pruned limits now).clients.lookup k = some node →
      node.state.active ≠ 0

end LimiterState

/-- The entry of `k` in the caller's shard before and after a refused call for `key`. -/
inductive Spared (shard : Shard) (limits : LimitsConfig) (now : Nat) (key k : ClientKey) :
    Option ClientNode → Option ClientNode → Prop where
  | same (entry : Option ClientNode) : Spared shard limits now key k entry entry
  /-- Removed by the retention prune, which was due. -/
  | pruned (node : ClientNode)
      (hdue : (shard.pruned limits now).clients.lookup k = none)
      (hforgotten : forgotten now limits.clientStateRetentionSeconds node.state = true) :
      Spared shard limits now key k (some node) none
  /-- The caller's own entry, with its connection bucket brought up to date. -/
  | arrived (node node' : ClientNode) (hkey : k = key) (haddress : node'.address = node.address)
      (hactive : node'.state.active = node.state.active)
      (hmessages : node'.state.messageBucket = node.state.messageBucket)
      (hbytes : node'.state.byteBucket = node.state.byteBucket)
      (hconnections : node'.state.connectionBucket =
        refill node.state.connectionBucket now limits.connectionsPerSecondPerIp
          limits.connectionBurstPerIp) :
      Spared shard limits now key k (some node) (some node')

/-- Every entry of every shard before and after a refused call for `key`: other shards are not
touched. -/
def LimiterState.SparesEveryone (limiter limiter' : LimiterState) (limits : LimitsConfig)
    (now : Nat) (key : ClientKey) : Prop :=
  ∀ index k, if index = shardIndexFor key then
      Spared (limiter.shardFor key) limits now key k (limiter.entry index k) (limiter'.entry index k)
    else limiter'.entry index k = limiter.entry index k

variable {limits : LimitsConfig} {now : Nat} {key k : ClientKey} {shard : Shard}

/-- A prune spares what it does not forget. -/
theorem Spared.of_pruned (shard : Shard) (limits : LimitsConfig) (now : Nat) (key k : ClientKey) :
    Spared shard limits now key k (shard.clients.lookup k)
      ((shard.pruned limits now).clients.lookup k) := by
  rcases shard.lookup_pruned limits now k with hsame | ⟨hnone, node, hlook, hforgotten⟩
  · rw [hsame]
    exact .same _
  · rw [hnone, hlook]
    exact .pruned node hnone hforgotten

/-- An entry that the prune has left is not spared if it is gone. -/
theorem Spared.not_gone (hknown : ((shard.pruned limits now).clients.lookup k).isSome) :
    ¬ Spared shard limits now key k (shard.clients.lookup k) none := by
  intro h
  obtain ⟨node, hnode⟩ := Option.isSome_iff_exists.mp hknown
  have hbefore : shard.clients.lookup k = some node := by
    rcases shard.lookup_pruned limits now k with hsame | ⟨hnone, _⟩
    · rw [← hsame, hnode]
    · rw [hnode] at hnone
      cases hnone
  rw [hbefore] at h
  cases h with
  | pruned _ hdue _ =>
      rw [hnode] at hdue
      cases hdue

/-- A fresh client with a full bucket fails no test but that of the process-wide rate. -/
theorem verdict_fresh {address arrival : Nat} (hburst : 0 < limits.connectionBurstPerIp)
    (hconnections : 0 < limits.maxConnectionsPerIp)
    (hrefused : verdict limits now arrival
      ((freshNode limits now address).state.arrive now limits) ≠ .accepted) :
    verdict limits now arrival ((freshNode limits now address).state.arrive now limits) =
      .globalRateLimit := by
  have htokens : ((freshNode limits now address).state.arrive now limits).connectionBucket.tokens =
      limits.connectionBurstPerIp := by
    simp [freshNode, ClientState.arrive, refill]
  have hactive : ¬ ((freshNode limits now address).state.arrive now limits).active ≥
      limits.maxConnectionsPerIp := Nat.not_le.mpr hconnections
  have hfull : ¬ ((freshNode limits now address).state.arrive now limits).connectionBucket.tokens <
      1 := by
    rw [htokens, not_lt]
    exact_mod_cast hburst
  unfold verdict at hrefused ⊢
  rw [if_neg hactive, if_neg hfull] at hrefused ⊢
  by_cases hgranted : globalConforms limits arrival now = true
  · rw [if_pos hgranted] at hrefused
    exact absurd rfl hrefused
  · rw [if_neg hgranted]

/-- The caller's own entry after a refusal. -/
theorem Spared.of_decided {node : ClientNode} {inserted : Bool} {result : Admission × Shard}
    {atomics atomics' : LimiterAtomics} (hburst : 0 < limits.connectionBurstPerIp)
    (hconnections : 0 < limits.maxConnectionsPerIp)
    (hfound : Found limits now (shard.pruned limits now) key node inserted)
    (hdecided : Decided limits now key (shard.pruned limits now) atomics
      { node with state := node.state.arrive now limits } inserted result atomics')
    (hrefused : result.1.result ≠ .accepted) :
    Spared shard limits now key key (shard.clients.lookup key) (result.2.clients.lookup key) := by
  have hjudged := hdecided.judged
  rw [hdecided.own]
  rcases hfound with ⟨hlook, hold⟩ | ⟨hnone, hnew, hfresh⟩
  · subst hold
    -- the prune kept the entry, so it is the one there was
    have hbefore : shard.clients.lookup key = some node := by
      rcases shard.lookup_pruned limits now key with hsame | ⟨hgone, _⟩
      · rw [← hsame, hlook]
      · rw [hlook] at hgone
        cases hgone
    have hkept : entryAfter result.1.result false
        { node with state := node.state.arrive now limits } =
          some { node with state := node.state.arrive now limits } := by
      cases hresult : result.1.result with
      | accepted => exact absurd hresult hrefused
      | concurrentLimit => rfl
      | rateLimit => rfl
      | globalRateLimit => rfl
      | sourceCapacity => rfl
    rw [hbefore, hkept]
    exact .arrived node _ rfl rfl rfl rfl rfl rfl
  · subst hnew
    rw [hfresh] at hjudged
    have hglobal : result.1.result = .globalRateLimit := by
      rw [hjudged] at hrefused ⊢
      exact verdict_fresh hburst hconnections hrefused
    have hgone : entryAfter result.1.result true
        { node with state := node.state.arrive now limits } = none := by
      rw [hglobal]
      rfl
    have hpruned := Spared.of_pruned shard limits now key key
    rw [hnone] at hpruned
    rw [hgone]
    exact hpruned

/-- A refused call that evicts nobody, in the caller's shard. -/
theorem acquire_spares {atomics : LimiterAtomics} (hburst : 0 < limits.connectionBurstPerIp)
    (hconnections : 0 < limits.maxConnectionsPerIp)
    (hroom : ((shard.pruned limits now).clients.lookup key).isSome ∨
      trackedAfterPrune shard limits now atomics.trackedClients < limits.maxTrackedClientIps) :
    Ensures sequential atomics (acquire key limits now shard) (fun result atomics' =>
      result.1.result ≠ .accepted →
        atomics'.theoreticalArrival = atomics.theoreticalArrival ∧
        ∀ k, Spared shard limits now key k (shard.clients.lookup k)
          (result.2.clients.lookup k)) := by
  apply (acquire_sequential hroom).mono
  intro result atomics' h hrefused
  obtain ⟨node, inserted, hfound, hdecided⟩ := h
  refine ⟨hdecided.arrival.trans (if_neg hrefused), fun k => ?_⟩
  by_cases hk : k = key
  · subst hk
    exact .of_decided hburst hconnections hfound hdecided hrefused
  · rw [hdecided.others k hk]
    exact .of_pruned shard limits now key k

/-- **What a refused call does to the caller's shard**: the arrival time of the process-wide rate
stays, and the entries are spared exactly if nobody is evicted. -/
theorem acquire_refused {atomics : LimiterAtomics} (hburst : 0 < limits.connectionBurstPerIp)
    (hconnections : 0 < limits.maxConnectionsPerIp) :
    Ensures sequential atomics (acquire key limits now shard) (fun result atomics' =>
      result.1.result ≠ .accepted →
        atomics'.theoreticalArrival = atomics.theoreticalArrival ∧
        ((∀ k, Spared shard limits now key k (shard.clients.lookup k)
            (result.2.clients.lookup k)) ↔
          ((shard.pruned limits now).clients.lookup key).isSome ∨
            trackedAfterPrune shard limits now atomics.trackedClients <
              limits.maxTrackedClientIps ∨
            ∀ k node, (shard.pruned limits now).clients.lookup k = some node →
              node.state.active ≠ 0)) := by
  by_cases hslot : ((shard.pruned limits now).clients.lookup key).isSome ∨
      trackedAfterPrune shard limits now atomics.trackedClients < limits.maxTrackedClientIps
  · apply (acquire_spares hburst hconnections hslot).mono
    intro result atomics' h hrefused
    obtain ⟨harrival, hspared⟩ := h hrefused
    exact ⟨harrival, iff_of_true hspared (or_assoc.mp (.inl hslot))⟩
  · obtain ⟨hunknown, hfull⟩ := not_or.mp hslot
    have hunknown : (shard.pruned limits now).clients.lookup key = none := by simpa using hunknown
    by_cases hbusy : ∀ k node, (shard.pruned limits now).clients.lookup k = some node →
        node.state.active ≠ 0
    · apply (acquire_full hunknown hfull hbusy).mono
      intro result atomics' h _
      obtain ⟨hresult, harrival⟩ := h
      refine ⟨harrival, iff_of_true (fun k => ?_) (.inr (.inr hbusy))⟩
      rw [hresult]
      exact .of_pruned shard limits now key k
    · have hidle : ∃ k node, (shard.pruned limits now).clients.lookup k = some node ∧
          node.state.active = 0 := by simpa using hbusy
      apply (acquire_evicts hunknown hfull hidle).mono
      intro result atomics' h hrefused
      obtain ⟨harrival, k, hknown, hgone⟩ := h
      refine ⟨harrival hrefused, iff_of_false (fun hspared => ?_) ?_⟩
      · have hk := hspared k
        rw [hgone] at hk
        exact Spared.not_gone hknown hk
      · exact fun h => hslot ((or_assoc.mpr h).resolve_right hbusy)

/-- **A refused admission spares everyone exactly if it evicts nobody.**  Under limits that leave
room for one connection of a client, a refused call leaves the arrival time of the process-wide
rate as it was.  Every entry is the same, or was taken by the retention prune that was due, or is
the caller's own, refilled and not drawn from, if and only if the call found a slot, or needed
none, or found nobody idle. -/
theorem refused_admission_spares {limiter limiter' : LimiterState} {admission : Admission}
    (hburst : 0 < limits.connectionBurstPerIp) (hconnections : 0 < limits.maxConnectionsPerIp)
    (hcall : limiter.Acquires key limits now admission limiter')
    (hrefused : admission.result ≠ .accepted) :
    limiter'.atomics.theoreticalArrival = limiter.atomics.theoreticalArrival ∧
      (limiter.SparesEveryone limiter' limits now key ↔
        limiter.EvictsNobody key limits now) := by
  obtain ⟨shard, hrun, hshards⟩ := hcall
  obtain ⟨harrival, hspared⟩ := (acquire_refused hburst hconnections).sound hrun hrefused
  refine ⟨harrival, Iff.trans ?_ hspared⟩
  have hown : limiter'.shards (shardIndexFor key) = shard := by
    rw [hshards]
    exact Function.update_self _ _ _
  constructor
  · intro hall k
    have hk := hall (shardIndexFor key) k
    rw [if_pos rfl] at hk
    unfold LimiterState.entry at hk
    rw [hown] at hk
    exact hk
  · intro hall index k
    split
    · rename_i hindex
      unfold LimiterState.entry
      rw [hindex, hown]
      exact hall k
    · rename_i hindex
      unfold LimiterState.entry
      rw [hshards, Function.update_of_ne hindex]

/-! ## Calls that run alone, computed -/

/-- A call of `acquire`, computed. -/
def LimiterState.playAcquire (limiter : LimiterState) (key : ClientKey) (limits : LimitsConfig)
    (now : Nat) : Admission × LimiterState :=
  let played := (acquire key limits now (limiter.shardFor key)).play sequential answersAlone
    limiter.atomics
  (played.1.1, ⟨Function.update limiter.shards (shardIndexFor key) played.1.2, played.2⟩)

theorem LimiterState.acquires_playAcquire (limiter : LimiterState) (key : ClientKey)
    (limits : LimitsConfig) (now : Nat) :
    limiter.Acquires key limits now (limiter.playAcquire key limits now).1
      (limiter.playAcquire key limits now).2 :=
  ⟨_, runs_play answersAlone_allowed _ _, rfl⟩

/-- `RateLimiter::release` of a lease of the client. -/
def LimiterState.release (limiter : LimiterState) (key : ClientKey) : LimiterState :=
  match limiter.client key with
  | none => limiter
  | some node =>
      { limiter with
        shards := Function.update limiter.shards (shardIndexFor key)
          ((limiter.shardFor key).setState key node (RateLimiter.release node.state)) }

/-- Two clients of one shard. -/
def firstClient : ClientKey := ipv4Key [10, 0, 0, 1]

def secondClient : ClientKey := ipv4Key [10, 0, 0, 65]

/-- One connection a second for the whole process. -/
def onePerSecond (maximum : Nat) : LimitsConfig :=
  { globalConnectionsPerSecond := 1, globalConnectionBurst := 1, maxTrackedClientIps := maximum }

/-- The first client came and went. -/
def onceVisited (maximum : Nat) : LimiterState :=
  (LimiterState.playAcquire {} firstClient (onePerSecond maximum) 1000000000).2.release firstClient

/-- The second client comes half a second later. -/
def secondCall (maximum : Nat) : Admission × LimiterState :=
  (onceVisited maximum).playAcquire secondClient (onePerSecond maximum) 1500000000

/-- The second client calls one and a half seconds after the first. -/
theorem secondCall_acquires (maximum : Nat) :
    (onceVisited maximum).Acquires secondClient (onePerSecond maximum) 1500000000
      (secondCall maximum).1 (secondCall maximum).2 :=
  LimiterState.acquires_playAcquire _ _ _ _

/-- With room for two, the second client is refused and the first keeps its entry; with room for
one it does not. -/
theorem refused_admission_spares_second :
    (secondCall 2).1.result = .globalRateLimit ∧
      (onceVisited 2).SparesEveryone (secondCall 2).2 (onePerSecond 2) 1500000000 secondClient ∧
    (secondCall 1).1.result = .globalRateLimit ∧
      ¬ (onceVisited 1).SparesEveryone (secondCall 1).2 (onePerSecond 1) 1500000000
        secondClient := by
  have hrefused : ∀ maximum, (secondCall maximum).1.result = .globalRateLimit →
      (secondCall maximum).1.result ≠ .accepted := by
    intro maximum hresult
    rw [hresult]
    decide
  have htwo : (secondCall 2).1.result = .globalRateLimit := by decide +kernel
  have hone : (secondCall 1).1.result = .globalRateLimit := by decide +kernel
  have hroom : trackedAfterPrune ((onceVisited 2).shardFor secondClient) (onePerSecond 2)
      1500000000 (onceVisited 2).atomics.trackedClients < 2 := by decide +kernel
  have hfull : ¬ trackedAfterPrune ((onceVisited 1).shardFor secondClient) (onePerSecond 1)
      1500000000 (onceVisited 1).atomics.trackedClients < 1 := by decide +kernel
  have hunknown : ¬ ((((onceVisited 1).shardFor secondClient).pruned (onePerSecond 1)
      1500000000).clients.lookup secondClient).isSome := by decide +kernel
  have hidle : ((((onceVisited 1).shardFor secondClient).pruned (onePerSecond 1)
      1500000000).clients.lookup firstClient).map (fun node => node.state.active) = some 0 := by
    decide +kernel
  obtain ⟨node, hnode, hinactive⟩ := Option.map_eq_some_iff.mp hidle
  refine ⟨htwo, (refused_admission_spares (by decide) (by decide) (secondCall_acquires 2)
    (hrefused 2 htwo)).2.mpr (.inr (.inl hroom)), hone, fun hspared => ?_⟩
  rcases (refused_admission_spares (by decide) (by decide) (secondCall_acquires 1)
    (hrefused 1 hone)).2.mp hspared with hknown | hslot | hbusy
  · exact hunknown hknown
  · exact hfull hslot
  · exact hbusy firstClient node hnode hinactive

/-- **A refused client displaces an idle one.**  The table has room for one client and
holds one that left half a second ago.  Another client of its shard takes its slot, is
refused by the process-wide rate and gives the slot back: nobody is tracked any more. -/
theorem refused_admission_displaces :
    ∃ limiter limiter' admission, LimiterState.Acquires limiter secondClient (onePerSecond 1)
        1500000000 admission limiter' ∧
      validateLimits (onePerSecond 1) = .ok () ∧ admission.result = .globalRateLimit ∧
      ((limiter.client firstClient).map fun node =>
        forgotten 1500000000 (onePerSecond 1).clientStateRetentionSeconds node.state) =
          some false ∧
      limiter'.client firstClient = none := by
  refine ⟨onceVisited 1, (secondCall 1).2, (secondCall 1).1, secondCall_acquires 1, ?_, ?_, ?_, ?_⟩
  · rfl
  · decide +kernel
  · decide +kernel
  · decide +kernel

end PoolLb.RateLimiter
