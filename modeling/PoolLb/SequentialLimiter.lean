import Mathlib.Algebra.Order.BigOperators.Group.List
import PoolLb.GlobalRate
import PoolLb.ShardSteps

/-!
# The limiter, one call after the other

When no other thread is in the limiter, its atomics answer for themselves:
`sequential` is the world in which a call of `acquire` runs alone.  There `acquire`
is determined, up to the address of a new node, and `acquire_sequential` says by
what: the verdict over the state the client arrives with, and the entry that the
verdict leaves.
-/

namespace PoolLb.RateLimiter

open Interaction Tally

/-- The test of `consume_global_connection`, by a thread alone in it. -/
def globalConforms (limits : LimitsConfig) (theoreticalArrival now : Nat) : Bool :=
  ¬ max theoreticalArrival now - now > globalTolerance limits

/-- The arrival time that `consume_global_connection` leaves, run alone. -/
def arrivalAfter (limits : LimitsConfig) (theoreticalArrival now : Nat) : Nat :=
  if globalConforms limits theoreticalArrival now then
    saturatingAdd (max theoreticalArrival now) (globalInterval limits)
  else theoreticalArrival

/-- Where a thread stands that is alone in a call, and what it will have answered. -/
def GlobalPlace.Alone (limits : LimitsConfig) (arrival now : Nat) (rate : GlobalRate) :
    GlobalPlace → Prop
  | .idle => rate.theoreticalArrival = arrivalAfter limits arrival now ∧
      rate.answers.head? = some (now, globalConforms limits arrival now)
  | .entered reading => reading = now ∧ rate.theoreticalArrival = arrival
  | .deciding reading seen => reading = now ∧ rate.theoreticalArrival = arrival ∧ seen = arrival
  | .swapped reading => reading = now ∧ globalConforms limits arrival now = true ∧
      rate.theoreticalArrival = arrivalAfter limits arrival now

/-- The test of the process-wide rate. -/
theorem globalConforms_iff {limits : LimitsConfig} {arrival now : Nat} :
    globalConforms limits arrival now = true ↔
      ¬ max arrival now - now > globalTolerance limits := decide_eq_true_iff

/-- The test where it fails. -/
theorem globalConforms_eq_false {limits : LimitsConfig} {arrival now : Nat}
    (h : max arrival now - now > globalTolerance limits) :
    globalConforms limits arrival now = false := decide_eq_false (not_not.mpr h)

/-- A refused call leaves the arrival time. -/
theorem arrivalAfter_refused {limits : LimitsConfig} {arrival now : Nat}
    (h : globalConforms limits arrival now = false) : arrivalAfter limits arrival now = arrival := by
  unfold arrivalAfter
  rw [h]
  exact if_neg Bool.false_ne_true

/-- A granted one moves it by an interval. -/
theorem arrivalAfter_granted {limits : LimitsConfig} {arrival now : Nat}
    (h : globalConforms limits arrival now = true) :
    arrivalAfter limits arrival now = saturatingAdd (max arrival now) (globalInterval limits) := by
  unfold arrivalAfter
  rw [h]
  exact if_pos rfl

/-- **The loop of `consume_global_connection`, run alone**, answers by its test and leaves
the arrival time of the test. -/
theorem GlobalPlace.Alone.step {limits : LimitsConfig} {arrival now : Nat}
    {rate rate' : GlobalRate} {place place' : GlobalPlace}
    (hstep : GlobalStep limits rate place rate' place') (hbusy : place ≠ .idle)
    (h : place.Alone limits arrival now rate) : place'.Alone limits arrival now rate' := by
  cases hstep with
  | call reading hreading => exact absurd rfl hbusy
  | load reading => exact ⟨h.1, h.2, h.2⟩
  | refuse reading seen hearly =>
      obtain ⟨hnow, harrival, hseen⟩ := h
      subst hnow hseen
      have hrefused := globalConforms_eq_false hearly
      exact ⟨harrival.trans (arrivalAfter_refused hrefused).symm, by rw [hrefused]; rfl⟩
  | swap reading seen hconforms hsame =>
      obtain ⟨hnow, harrival, hseen⟩ := h
      subst hnow hseen
      have hgranted := globalConforms_iff.mpr hconforms
      exact ⟨rfl, hgranted, (arrivalAfter_granted hgranted).symm⟩
  | retry reading seen hconforms => exact ⟨h.1, h.2.1, h.2.1⟩
  | answer reading =>
      obtain ⟨hnow, hgranted, harrival⟩ := h
      subst hnow
      exact ⟨harrival, by rw [hgranted]; rfl⟩

/-- The atomics of the limiter. -/
structure LimiterAtomics where
  trackedClients : Nat := 0
  theoreticalArrival : Nat := 0

/-- The outside of a shard section while no other thread is in the limiter. -/
def sequential : World limiterCalls LimiterAtomics where
  requires _ _ := True
  allows atomics c := match c with
    | .reserveTrackingSlot maximum => fun granted =>
        granted = decide (atomics.trackedClients < maximum)
    | .releaseTracked _ => fun _ => True
    | .consumeGlobalConnection now limits => fun granted =>
        granted = globalConforms limits atomics.theoreticalArrival now
    | .allocate taken => fun address => address ∉ taken
  after atomics c := match c with
    | .reserveTrackingSlot _ => fun granted =>
        if granted then { atomics with trackedClients := atomics.trackedClients + 1 } else atomics
    | .releaseTracked count => fun _ =>
        { atomics with trackedClients := atomics.trackedClients - count }
    | .consumeGlobalConnection now limits => fun _ =>
        { atomics with
          theoreticalArrival := arrivalAfter limits atomics.theoreticalArrival now }
    | .allocate _ => fun _ => atomics

/-- The answers of the atomics, and an address above all that are taken. -/
def answersAlone (atomics : LimiterAtomics) : (c : LimiterCall) → c.Answer
  | .reserveTrackingSlot maximum => decide (atomics.trackedClients < maximum)
  | .releaseTracked _ => ()
  | .consumeGlobalConnection now limits => globalConforms limits atomics.theoreticalArrival now
  | .allocate taken => taken.sum + 1

/-- The answers of a limiter that one thread has for itself. -/
theorem answersAlone_allowed (atomics : LimiterAtomics) (c : LimiterCall) :
    sequential.allows atomics c (answersAlone atomics c) := by
  cases c with
  | reserveTrackingSlot maximum => exact rfl
  | releaseTracked count => trivial
  | consumeGlobalConnection now limits => exact rfl
  | allocate taken =>
      intro hmem
      have hle : taken.sum + 1 ≤ taken.sum := List.single_le_sum (fun _ _ => Nat.zero_le _) _ hmem
      omega

/-- The shard after the prune at the beginning of `acquire`. -/
def Shard.pruned (shard : Shard) (limits : LimitsConfig) (now : Nat) : Shard :=
  if shard.lastPruned = 0 ∨ shard.lastPruned + kPruneInterval ≤ now then
    { clients := keep (fun _ node => !forgotten now limits.clientStateRetentionSeconds node.state)
        shard.clients
      lastPruned := now }
  else shard

/-- The tracked clients that are left after the prune. -/
def trackedAfterPrune (shard : Shard) (limits : LimitsConfig) (now trackedClients : Nat) : Nat :=
  trackedClients - (shard.size - (shard.pruned limits now).size)

/-- The tests of `acquire` on the state of a client that has arrived. -/
def verdict (limits : LimitsConfig) (now theoreticalArrival : Nat) (state : ClientState) :
    AdmissionResult :=
  if state.active ≥ limits.maxConnectionsPerIp then .concurrentLimit
  else if state.connectionBucket.tokens < 1 then .rateLimit
  else if globalConforms limits theoreticalArrival now then .accepted
  else .globalRateLimit

/-- The entry that a verdict leaves to a client. -/
def entryAfter (result : AdmissionResult) (inserted : Bool) (node : ClientNode) :
    Option ClientNode :=
  match result with
  | .accepted => some { node with state := node.state.admitted }
  | .globalRateLimit => if inserted then none else some node
  | _ => some node

/-- The slots that a verdict gives back. -/
def slotsBack (result : AdmissionResult) (inserted : Bool) : Nat :=
  if result = .globalRateLimit ∧ inserted = true then 1 else 0

section

variable {shard : Shard} {key : ClientKey} {node : ClientNode} {limits : LimitsConfig}
  {now : Nat} {atomics atomics' : LimiterAtomics}

/-- A client the prune has left was there before; one it has dropped was forgotten. -/
theorem Shard.lookup_pruned (shard : Shard) (limits : LimitsConfig) (now : Nat) (k : ClientKey) :
    (shard.pruned limits now).clients.lookup k = shard.clients.lookup k ∨
      (shard.pruned limits now).clients.lookup k = none ∧
        ∃ node, shard.clients.lookup k = some node ∧
          forgotten now limits.clientStateRetentionSeconds node.state = true := by
  unfold Shard.pruned
  split
  · dsimp only
    rw [lookup_keep]
    cases hlook : shard.clients.lookup k with
    | none => exact .inl rfl
    | some node =>
        cases hforgotten : forgotten now limits.clientStateRetentionSeconds node.state with
        | true => exact .inr ⟨by simp [Option.filter, hforgotten], node, rfl, hforgotten⟩
        | false => exact .inl (by simp [Option.filter, hforgotten])
  · exact .inl rfl

/-- A prune gives back the slots of the clients it forgets. -/
theorem pruneIfDue_sequential :
    Ensures sequential atomics (pruneIfDue limits now shard) (fun pruned atomics' =>
      pruned = shard.pruned limits now ∧ atomics' =
        { atomics with
          trackedClients := trackedAfterPrune shard limits now atomics.trackedClients }) := by
  unfold pruneIfDue trackedAfterPrune Shard.pruned
  split
  · exact ⟨trivial, fun _ _ => ⟨rfl, rfl⟩⟩
  · exact ⟨rfl, by simp⟩

/-- With a slot to be had, or a client that needs none, nobody is evicted. -/
theorem makeRoom_sequential
    (hroom : (shard.clients.lookup key).isSome ∨
      atomics.trackedClients < limits.maxTrackedClientIps) :
    Ensures sequential atomics (makeRoom key limits shard) (fun result atomics' =>
      result = (true, shard) ∧ atomics' =
        { atomics with
          trackedClients := atomics.trackedClients +
            if (shard.clients.lookup key).isSome then 0 else 1 }) := by
  unfold makeRoom
  split
  · exact ⟨rfl, rfl⟩
  · rename_i hunknown
    have hfree := hroom.resolve_left hunknown
    refine ⟨trivial, fun granted hgranted => ?_⟩
    have hgranted : granted = true := by
      rw [hgranted]
      exact decide_eq_true hfree
    subst hgranted
    exact ⟨rfl, rfl⟩

/-- With every client active there is none to evict. -/
theorem oldestInactive_none (entries : List (Sigma fun _ : ClientKey => ClientNode))
    (h : ∀ e ∈ entries, e.2.state.active ≠ 0) :
    entries.foldl (fun oldest e => oldestInactive oldest e.1 e.2) none = none := by
  induction entries with
  | nil => rfl
  | cons e rest ih =>
      have hfirst : oldestInactive none e.1 e.2 = none := if_pos (h e List.mem_cons_self)
      rw [List.foldl_cons, hfirst]
      exact ih fun e he => h e (List.mem_cons_of_mem _ he)

/-- With no slot to be had and nobody idle in the shard, nobody is evicted either. -/
theorem makeRoom_full (hunknown : shard.clients.lookup key = none)
    (hfull : ¬ atomics.trackedClients < limits.maxTrackedClientIps)
    (hbusy : ∀ k node, shard.clients.lookup k = some node → node.state.active ≠ 0) :
    Ensures sequential atomics (makeRoom key limits shard) (fun result atomics' =>
      result = (false, shard) ∧ atomics' = atomics) := by
  unfold makeRoom
  rw [if_neg (by simp [hunknown])]
  refine ⟨trivial, fun granted hgranted => ?_⟩
  have hgranted : granted = false := by
    rw [hgranted]
    exact decide_eq_false hfull
  subst hgranted
  have hnone := oldestInactive_none shard.clients.entries fun e he =>
    hbusy e.1 e.2 (AList.mem_lookup_iff.mpr he)
  show Ensures sequential atomics (evictOldestInactive shard >>= _) _
  unfold evictOldestInactive
  rw [hnone]
  exact ⟨rfl, rfl⟩

/-- With one inactive client there is. -/
theorem oldestInactive_isSome (entries : List (Sigma fun _ : ClientKey => ClientNode))
    (oldest : Option (ClientKey × ClientNode))
    (h : oldest.isSome ∨ ∃ e ∈ entries, e.2.state.active = 0) :
    (entries.foldl (fun oldest e => oldestInactive oldest e.1 e.2) oldest).isSome := by
  induction entries generalizing oldest with
  | nil => simpa using h
  | cons e rest ih =>
      rw [List.foldl_cons]
      refine ih _ ?_
      by_cases hidle : e.2.state.active = 0
      · refine .inl ?_
        unfold oldestInactive
        rw [if_neg (not_not.mpr hidle)]
        cases oldest with
        | none => rfl
        | some found =>
            dsimp only
            split <;> rfl
      · have hsame : oldestInactive oldest e.1 e.2 = oldest := if_pos hidle
        rw [hsame]
        refine h.imp_right fun hsome => ?_
        obtain ⟨e', hmem, hidle'⟩ := hsome
        rcases List.mem_cons.mp hmem with hhead | hlater
        · subst hhead
          exact absurd hidle' hidle
        · exact ⟨e', hlater, hidle'⟩

/-- With no slot to be had and somebody idle in the shard, an entry is evicted. -/
theorem makeRoom_evicts (hunknown : shard.clients.lookup key = none)
    (hfull : ¬ atomics.trackedClients < limits.maxTrackedClientIps)
    (hidle : ∃ k node, shard.clients.lookup k = some node ∧ node.state.active = 0) :
    Ensures sequential atomics (makeRoom key limits shard) (fun result atomics' =>
      atomics'.theoreticalArrival = atomics.theoreticalArrival ∧
        ∃ k, (shard.clients.lookup k).isSome ∧ result.2.clients = shard.clients.erase k) := by
  unfold makeRoom
  rw [if_neg (by simp [hunknown])]
  refine ⟨trivial, fun granted hgranted => ?_⟩
  have hgranted : granted = false := by
    rw [hgranted]
    exact decide_eq_false hfull
  subst hgranted
  obtain ⟨k, node, hlook, hinactive⟩ := hidle
  have hsome := oldestInactive_isSome shard.clients.entries none
    (.inr ⟨⟨k, node⟩, AList.mem_lookup_iff.mp hlook, hinactive⟩)
  obtain ⟨⟨evicted, entry⟩, hevicted⟩ := Option.isSome_iff_exists.mp hsome
  have hmem : (shard.clients.lookup evicted).isSome := by
    rcases oldestInactive_idle _ _ hevicted with hnone | ⟨hmem, _⟩
    · cases hnone
    · rw [AList.mem_lookup_iff.mpr hmem]
      rfl
  show Ensures sequential atomics (evictOldestInactive shard >>= _) _
  unfold evictOldestInactive
  rw [hevicted]
  refine ⟨trivial, fun _ _ => ⟨trivial, fun reserved _ => ⟨?_, evicted, hmem, rfl⟩⟩⟩
  show (if reserved = true then _ else _ : LimiterAtomics).theoreticalArrival = _
  split <;> rfl

/-- The node of a client: the one that is there, or a fresh one. -/
def Found (limits : LimitsConfig) (now : Nat) (shard : Shard) (key : ClientKey)
    (node : ClientNode) (inserted : Bool) : Prop :=
  shard.clients.lookup key = some node ∧ inserted = false ∨
    shard.clients.lookup key = none ∧ inserted = true ∧ node = freshNode limits now node.address

/-- The node of the client is found, or a new one is inserted. -/
theorem tryEmplace_sequential :
    Ensures sequential atomics (tryEmplace key limits now shard) (fun result atomics' =>
      Found limits now shard key result.1 result.2 ∧ atomics' = atomics) := by
  unfold tryEmplace
  split
  · rename_i node hlook
    exact ⟨.inl ⟨hlook, rfl⟩, rfl⟩
  · rename_i hnone
    exact ⟨trivial, fun address _ => ⟨.inr ⟨hnone, rfl, rfl⟩, rfl⟩⟩

/-- What the decision does: the verdict, the lease, the entries and the atomics. -/
structure Decided (limits : LimitsConfig) (now : Nat) (key : ClientKey) (shard : Shard)
    (atomics : LimiterAtomics) (node : ClientNode) (inserted : Bool)
    (result : Admission × Shard) (atomics' : LimiterAtomics) : Prop where
  judged : result.1.result = verdict limits now atomics.theoreticalArrival node.state
  lease : result.1.lease = if result.1.result = .accepted then some node.address else none
  own : result.2.clients.lookup key = entryAfter result.1.result inserted node
  others : ∀ k, k ≠ key → result.2.clients.lookup k = shard.clients.lookup k
  arrival : atomics'.theoreticalArrival = if result.1.result = .accepted then
    arrivalAfter limits atomics.theoreticalArrival now else atomics.theoreticalArrival
  tracked : atomics'.trackedClients =
    atomics.trackedClients - slotsBack result.1.result inserted

/-- **The decision is that of the verdict.** -/
theorem decideAdmission_sequential {inserted : Bool}
    (hnode : shard.clients.lookup key = some node) :
    Ensures sequential atomics (decideAdmission key limits now node inserted shard)
      (Decided limits now key shard atomics node inserted) := by
  unfold decideAdmission
  split
  · rename_i hactive
    have hverdict : verdict limits now atomics.theoreticalArrival node.state = .concurrentLimit :=
      if_pos hactive
    exact ⟨hverdict.symm, rfl, hnode, fun _ _ => rfl, rfl, rfl⟩
  · rename_i hactive
    split
    · rename_i htokens
      have hverdict : verdict limits now atomics.theoreticalArrival node.state = .rateLimit :=
        (if_neg hactive).trans (if_pos htokens)
      exact ⟨hverdict.symm, rfl, hnode, fun _ _ => rfl, rfl, rfl⟩
    · rename_i htokens
      refine ⟨trivial, fun granted hgranted => ?_⟩
      have hgranted : globalConforms limits atomics.theoreticalArrival now = granted :=
        hgranted.symm
      have hverdict : verdict limits now atomics.theoreticalArrival node.state =
          if granted then .accepted else .globalRateLimit := by
        unfold verdict
        rw [if_neg hactive, if_neg htokens, hgranted]
      cases granted with
      | true =>
          refine ⟨hverdict.symm, rfl, AList.lookup_insert _, fun k hk => ?_,
            (if_pos rfl).symm, rfl⟩
          exact AList.lookup_insert_ne hk
      | false =>
          have harrival := arrivalAfter_refused hgranted
          cases inserted with
          | true =>
              refine ⟨trivial, fun _ _ => ⟨hverdict.symm, rfl, AList.lookup_erase _ _, ?_,
                harrival, rfl⟩⟩
              intro k hk
              exact AList.lookup_erase_ne hk
          | false => exact ⟨hverdict.symm, rfl, hnode, fun _ _ => rfl, harrival, rfl⟩

/-- With room for it, the client is judged on its node. -/
theorem admitWithRoom_sequential :
    Ensures sequential atomics (admitWithRoom key limits now shard) (fun result atomics' =>
      ∃ node inserted, Found limits now shard key node inserted ∧
        Decided limits now key shard atomics { node with state := node.state.arrive now limits }
          inserted result atomics') := by
  unfold admitWithRoom
  apply tryEmplace_sequential.bind
  intro result atomics₁ h
  obtain ⟨node, inserted⟩ := result
  obtain ⟨hfound, hatomics₁⟩ := h
  subst hatomics₁
  apply (decideAdmission_sequential (AList.lookup_insert _)).mono
  intro result atomics' h
  exact ⟨node, inserted, hfound,
    { h with others := fun k hk => (h.others k hk).trans (AList.lookup_insert_ne hk) }⟩

/-- **The decision alone**, when it evicts nobody: over the client's node, found or
fresh. -/
theorem admitAfterPrune_sequential
    (hroom : (shard.clients.lookup key).isSome ∨
      atomics.trackedClients < limits.maxTrackedClientIps) :
    Ensures sequential atomics (admitAfterPrune key limits now shard) (fun result atomics' =>
      ∃ node inserted, Found limits now shard key node inserted ∧
        Decided limits now key shard
          { atomics with
            trackedClients := atomics.trackedClients + if inserted then 1 else 0 }
          { node with state := node.state.arrive now limits } inserted result atomics') := by
  unfold admitAfterPrune
  apply (makeRoom_sequential hroom).bind
  intro result atomics₂ h
  obtain ⟨hresult, hatomics₂⟩ := h
  subst hresult hatomics₂
  apply admitWithRoom_sequential.mono
  intro result atomics' h
  obtain ⟨node, inserted, hfound, hdecided⟩ := h
  have hinserted : (if (shard.clients.lookup key).isSome then 0 else 1) =
      if inserted then 1 else 0 := by
    rcases hfound with ⟨hlook, hold⟩ | ⟨hlook, hnew, _⟩
    · simp [hlook, hold]
    · simp [hlook, hnew]
  rw [hinserted] at hdecided
  exact ⟨node, inserted, hfound, hdecided⟩

/-- **`acquire` alone**, when it evicts nobody: the decision over the client's node, as
the prune left it or fresh. -/
theorem acquire_sequential
    (hroom : ((shard.pruned limits now).clients.lookup key).isSome ∨
      trackedAfterPrune shard limits now atomics.trackedClients < limits.maxTrackedClientIps) :
    Ensures sequential atomics (acquire key limits now shard) (fun result atomics' =>
      ∃ node inserted, Found limits now (shard.pruned limits now) key node inserted ∧
        Decided limits now key (shard.pruned limits now)
          { atomics with
            trackedClients := trackedAfterPrune shard limits now atomics.trackedClients +
              if inserted then 1 else 0 }
          { node with state := node.state.arrive now limits } inserted result atomics') := by
  unfold acquire
  apply pruneIfDue_sequential.bind
  intro pruned atomics₁ h
  obtain ⟨hpruned, hatomics₁⟩ := h
  subst hpruned hatomics₁
  exact admitAfterPrune_sequential hroom

/-- `acquire` alone, with no slot to be had and nobody to evict. -/
theorem acquire_full (hunknown : (shard.pruned limits now).clients.lookup key = none)
    (hfull : ¬ trackedAfterPrune shard limits now atomics.trackedClients <
      limits.maxTrackedClientIps)
    (hbusy : ∀ k node, (shard.pruned limits now).clients.lookup k = some node →
      node.state.active ≠ 0) :
    Ensures sequential atomics (acquire key limits now shard) (fun result atomics' =>
      result = ({ result := .sourceCapacity }, shard.pruned limits now) ∧
        atomics'.theoreticalArrival = atomics.theoreticalArrival) := by
  unfold acquire
  apply pruneIfDue_sequential.bind
  intro pruned atomics₁ h
  obtain ⟨hpruned, hatomics₁⟩ := h
  subst hpruned hatomics₁
  apply (makeRoom_full hunknown hfull hbusy).bind
  intro result atomics₂ h
  obtain ⟨hresult, hatomics₂⟩ := h
  subst hresult hatomics₂
  exact ⟨rfl, rfl⟩

/-- `acquire` alone, with no slot to be had and somebody to evict: the entry is gone whatever
becomes of the caller. -/
theorem acquire_evicts (hunknown : (shard.pruned limits now).clients.lookup key = none)
    (hfull : ¬ trackedAfterPrune shard limits now atomics.trackedClients <
      limits.maxTrackedClientIps)
    (hidle : ∃ k node, (shard.pruned limits now).clients.lookup k = some node ∧
      node.state.active = 0) :
    Ensures sequential atomics (acquire key limits now shard) (fun result atomics' =>
      (result.1.result ≠ .accepted →
        atomics'.theoreticalArrival = atomics.theoreticalArrival) ∧
      ∃ k, ((shard.pruned limits now).clients.lookup k).isSome ∧
        result.2.clients.lookup k = none) := by
  unfold acquire
  apply pruneIfDue_sequential.bind
  intro pruned atomics₁ h
  obtain ⟨hpruned, hatomics₁⟩ := h
  subst hpruned hatomics₁
  apply (makeRoom_evicts hunknown hfull hidle).bind
  intro result atomics₂ h
  obtain ⟨room, left⟩ := result
  obtain ⟨harrival, k, hknown, hleft⟩ := h
  have hgone : left.clients.lookup k = none := by
    rw [hleft]
    exact AList.lookup_erase _ _
  cases room with
  | false => exact ⟨fun _ => harrival, k, hknown, hgone⟩
  | true =>
      have hother : k ≠ key := by
        intro hkey
        rw [hkey, hunknown] at hknown
        cases hknown
      apply admitWithRoom_sequential.mono
      intro result atomics' h
      obtain ⟨node, inserted, _, hdecided⟩ := h
      refine ⟨fun hrefused => ?_, k, hknown, (hdecided.others k hother).trans hgone⟩
      rw [hdecided.arrival, if_neg hrefused]
      exact harrival

end

end PoolLb.RateLimiter
