import PoolLb.RateLimiter

/-!
# What a section under a shard mutex does to the clients of the shard

Three paths of `acquire` erase nodes: `prune`, `evict_oldest_inactive` and the
rollback after a refusal by the global rate.  Each of them erases only nodes
whose `active` is zero, and a node is only ever added with `active` zero.  So
seen from the leases nothing happens: `active`, read as zero where there is no
node, is the same for every key, and a node with a lease on it stays where it
is.  `Refreshes` says this once for all paths; `acquire_ensures` adds the one
step that does change a count, the admission itself.
-/

namespace PoolLb.RateLimiter

open Interaction Tally

variable {shard mid shard' : Shard} {key : ClientKey} {node : ClientNode} {limits : LimitsConfig}
  {now : Nat}

/-- `active` of a client, zero if the shard has no node for it. -/
def Shard.activeOf (shard : Shard) (key : ClientKey) : Nat :=
  ((shard.clients.lookup key).map fun node => node.state.active).getD 0

/-- No two nodes of the shard live at one address. -/
def Shard.Distinct (shard : Shard) : Prop :=
  ∀ key node key' node', shard.clients.lookup key = some node →
    shard.clients.lookup key' = some node' → node.address = node'.address → key = key'

/-- The count of a client that is there. -/
theorem Shard.activeOf_of_lookup (h : shard.clients.lookup key = some node) :
    shard.activeOf key = node.state.active := by
  simp [Shard.activeOf, h]

/-- The count of one that is not. -/
theorem Shard.activeOf_of_none (h : shard.clients.lookup key = none) :
    shard.activeOf key = 0 := by
  simp [Shard.activeOf, h]

/-- The number of entries of a shard. -/
def Shard.size (shard : Shard) : Nat := shard.clients.entries.length

/-- The size counts each entry once. -/
theorem Shard.size_eq_tally (shard : Shard) : shard.size = tally (fun _ _ => 1) shard.clients := by
  simp [Shard.size, tally]

/-- Erasing an entry makes the shard smaller by one. -/
theorem Shard.size_erase (h : shard.clients.lookup key = some node) :
    ({ shard with clients := shard.clients.erase key } : Shard).size + 1 = shard.size := by
  rw [Shard.size_eq_tally, Shard.size_eq_tally, tally_of_lookup h]
  exact Nat.add_comm _ _

/-- Writing a client that is there adds no entry. -/
theorem Shard.size_setState_known (h : shard.clients.lookup key = some node) (other : ClientNode)
    (state : ClientState) : (shard.setState key other state).size = shard.size := by
  rw [Shard.size_eq_tally, Shard.size_eq_tally, tally_of_lookup h]
  exact tally_insert

/-- Writing a new one adds one. -/
theorem Shard.size_setState_new (h : shard.clients.lookup key = none) (state : ClientState) :
    (shard.setState key node state).size = shard.size + 1 := by
  rw [Shard.size_eq_tally, Shard.size_eq_tally, ← tally_erase_of_lookup_none h]
  exact tally_insert.trans (Nat.add_comm _ _)

/-- Keeping some entries adds none. -/
theorem Shard.size_keep_le (shard : Shard) (test : ClientKey → ClientNode → Bool)
    (lastPruned : Nat) :
    ({ clients := keep test shard.clients, lastPruned := lastPruned } : Shard).size ≤
      shard.size :=
  List.length_filter_le _ _

/-- The section changed nothing that a lease could notice. -/
structure Refreshes (shard shard' : Shard) : Prop where
  active : ∀ key, shard'.activeOf key = shard.activeOf key
  pinned : ∀ key node, shard.clients.lookup key = some node → 0 < node.state.active →
    ∃ node', shard'.clients.lookup key = some node' ∧ node'.address = node.address
  distinct : shard.Distinct → shard'.Distinct

theorem Refreshes.refl (shard : Shard) : Refreshes shard shard where
  active _ := rfl
  pinned _ node hlook _ := ⟨node, hlook, rfl⟩
  distinct h := h

theorem Refreshes.trans (h : Refreshes shard mid) (h' : Refreshes mid shard') :
    Refreshes shard shard' where
  active k := (h'.active k).trans (h.active k)
  pinned k node hlook hpos := by
    obtain ⟨midNode, hmid, haddress⟩ := h.pinned k node hlook hpos
    have hactive : midNode.state.active = node.state.active := by
      rw [← Shard.activeOf_of_lookup hmid, ← Shard.activeOf_of_lookup hlook, h.active k]
    obtain ⟨node', hlook', haddress'⟩ := h'.pinned k midNode hmid (hactive ▸ hpos)
    exact ⟨node', hlook', haddress'.trans haddress⟩
  distinct hd := h'.distinct (h.distinct hd)

/-- **Erasing idle nodes** goes unnoticed: what is still found was there
before, and what is gone had no lease on it. -/
theorem Refreshes.of_erased
    (hsub : ∀ k node, shard'.clients.lookup k = some node → shard.clients.lookup k = some node)
    (hgone : ∀ k node, shard.clients.lookup k = some node → shard'.clients.lookup k = none →
      node.state.active = 0) :
    Refreshes shard shard' where
  active k := by
    cases hlook' : shard'.clients.lookup k with
    | some node =>
        rw [Shard.activeOf_of_lookup hlook', Shard.activeOf_of_lookup (hsub k node hlook')]
    | none =>
        rw [Shard.activeOf_of_none hlook']
        cases hlook : shard.clients.lookup k with
        | none => rw [Shard.activeOf_of_none hlook]
        | some node => rw [Shard.activeOf_of_lookup hlook, hgone k node hlook hlook']
  pinned k node hlook hpos := by
    cases hlook' : shard'.clients.lookup k with
    | none =>
        have := hgone k node hlook hlook'
        omega
    | some node' =>
        have hsame := hsub k node' hlook'
        rw [hlook] at hsame
        exact ⟨node', rfl, by rw [Option.some.inj hsame]⟩
  distinct hd k node k' node' hlook hlook' :=
    hd k node k' node' (hsub k node hlook) (hsub k' node' hlook')

/-- A shard with the same clients. -/
theorem Refreshes.of_clients_eq (h : shard'.clients = shard.clients) : Refreshes shard shard' := by
  apply Refreshes.of_erased
  · intro k node hlook
    rwa [h] at hlook
  · intro k node hlook hnone
    rw [h, hlook] at hnone
    cases hnone

/-- **An idle node may be erased.** -/
theorem refreshes_erase (hidle : shard.activeOf key = 0) :
    Refreshes shard { shard with clients := shard.clients.erase key } := by
  have hother : ∀ k, k ≠ key → (shard.clients.erase key).lookup k = shard.clients.lookup k :=
    fun k hne => AList.lookup_erase_ne hne
  apply Refreshes.of_erased
  · intro k node hlook
    by_cases hk : k = key
    · rw [hk] at hlook
      simp at hlook
    · exact (hother k hk).symm.trans hlook
  · intro k node hlook hnone
    by_cases hk : k = key
    · rw [hk] at hlook
      rw [← Shard.activeOf_of_lookup hlook, hidle]
    · have hnone' : shard.clients.lookup k = none := (hother k hk).symm.trans hnone
      rw [hlook] at hnone'
      cases hnone'

/-- Writing the state of a client sets its count. -/
theorem Shard.activeOf_setState (state : ClientState) (k : ClientKey) :
    (shard.setState key node state).activeOf k =
      if k = key then state.active else shard.activeOf k := by
  unfold Shard.activeOf Shard.setState
  by_cases hk : k = key
  · subst hk
    simp
  · simp [hk, AList.lookup_insert_ne]

/-- Writing a node under its key keeps addresses apart if no other node of the
shard lives at its address. -/
theorem Shard.Distinct.setState {state : ClientState} (h : shard.Distinct)
    (hfree : ∀ k other, shard.clients.lookup k = some other → other.address = node.address →
      k = key) :
    (shard.setState key node state).Distinct := by
  intro k first k' second hfirst hsecond haddress
  unfold Shard.setState at hfirst hsecond
  by_cases hk : k = key
  · by_cases hk' : k' = key
    · rw [hk, hk']
    · rw [hk, AList.lookup_insert] at hfirst
      rw [AList.lookup_insert_ne hk'] at hsecond
      cases hfirst
      rw [hk]
      exact (hfree k' second hsecond haddress.symm).symm
  · rw [AList.lookup_insert_ne hk] at hfirst
    by_cases hk' : k' = key
    · rw [hk', AList.lookup_insert] at hsecond
      cases hsecond
      rw [hk']
      exact hfree k first hfirst haddress
    · rw [AList.lookup_insert_ne hk'] at hsecond
      exact h k first k' second hfirst hsecond haddress

/-- The node a client was found or given: the one in the shard, or a new idle
one at an address of its own. -/
def Emplaced (shard : Shard) (key : ClientKey) (node : ClientNode) : Prop :=
  shard.clients.lookup key = some node ∨
    shard.clients.lookup key = none ∧ node.state.active = 0 ∧
      ∀ k other, shard.clients.lookup k = some other → other.address ≠ node.address

/-- The node of the client has the count of the client. -/
theorem Emplaced.activeOf (h : Emplaced shard key node) :
    shard.activeOf key = node.state.active := by
  rcases h with hlook | ⟨hnone, hidle, _⟩
  · exact Shard.activeOf_of_lookup hlook
  · rw [Shard.activeOf_of_none hnone, hidle]

/-- Writing the state of an emplaced node, with the same `active`. -/
theorem Emplaced.refreshes (h : Emplaced shard key node) (state : ClientState)
    (hactive : state.active = node.state.active) :
    Refreshes shard (shard.setState key node state) where
  active k := by
    rw [Shard.activeOf_setState]
    by_cases hk : k = key
    · rw [if_pos hk, hk, h.activeOf, hactive]
    · rw [if_neg hk]
  pinned k other hlook hpos := by
    by_cases hk : k = key
    · subst hk
      refine ⟨{ node with state := state }, by simp [Shard.setState], ?_⟩
      rcases h with hnode | ⟨hnone, _⟩
      · rw [hlook] at hnode
        rw [Option.some.inj hnode]
      · rw [hlook] at hnone
        cases hnone
    · exact ⟨other, by simp [Shard.setState, AList.lookup_insert_ne hk, hlook], rfl⟩
  distinct hd := by
    apply hd.setState
    intro k other hother haddress
    rcases h with hnode | ⟨_, _, hfresh⟩
    · exact hd k other key node hother hnode haddress
    · exact absurd haddress (hfresh k other hother)

/-- The outside of a shard section: the shared atomics answer anything, and a
new node gets an address that no node of the shard has. -/
def limiterWorld : World limiterCalls Unit where
  requires _ _ := True
  allows _ c := match c with
    | .allocate taken => fun address => address ∉ taken
    | _ => fun _ => True
  after _ _ _ := ()

/-- `prune` erases idle nodes only. -/
theorem prune_ensures (retentionSeconds : Int) :
    Ensures limiterWorld () (prune shard now retentionSeconds)
      (fun shard' _ => Refreshes shard shard') := by
  simp only [prune, ensures_bind, ensures_pure]
  refine ⟨trivial, fun _ _ => ?_⟩
  apply Refreshes.of_erased
  · intro k node hlook
    rw [lookup_keep] at hlook
    exact (Option.filter_eq_some_iff.mp hlook).1
  · intro k node hlook hnone
    rw [lookup_keep, hlook] at hnone
    -- the node was dropped, so the test of the lambda holds of it
    have hforgotten : forgotten now retentionSeconds node.state = true := by
      simpa [Option.filter] using hnone
    simp only [forgotten, decide_eq_true_eq] at hforgotten
    exact hforgotten.1

theorem pruneIfDue_ensures :
    Ensures limiterWorld () (pruneIfDue limits now shard)
      (fun shard' _ => Refreshes shard shard') := by
  unfold pruneIfDue
  split
  · apply (prune_ensures _).bind
    intro pruned _ h
    exact h.trans (.of_clients_eq rfl)
  · exact .refl shard

/-- Whoever `evict_oldest_inactive` picks is an idle node of the shard. -/
theorem oldestInactive_idle (entries : List (Sigma fun _ : ClientKey => ClientNode))
    (start : Option (ClientKey × ClientNode)) {found : ClientKey × ClientNode}
    (h : entries.foldl (fun oldest e => oldestInactive oldest e.1 e.2) start = some found) :
    start = some found ∨ (⟨found.1, found.2⟩ ∈ entries ∧ found.2.state.active = 0) := by
  induction entries generalizing start with
  | nil => exact .inl h
  | cons e rest ih =>
      rcases ih _ h with hstep | ⟨hmem, hidle⟩
      · change oldestInactive start e.1 e.2 = some found at hstep
        unfold oldestInactive at hstep
        split at hstep
        · exact .inl hstep
        · rename_i hactive
          have hidle : e.2.state.active = 0 := not_not.mp hactive
          split at hstep
          · cases hstep
            exact .inr ⟨List.mem_cons_self, hidle⟩
          · split at hstep
            · cases hstep
              exact .inr ⟨List.mem_cons_self, hidle⟩
            · exact .inl hstep
      · exact .inr ⟨List.mem_cons_of_mem _ hmem, hidle⟩

/-- The oldest idle node is idle. -/
theorem evictOldestInactive_ensures :
    Ensures limiterWorld () (evictOldestInactive shard)
      (fun result _ => Refreshes shard result.2) := by
  unfold evictOldestInactive
  split
  · exact .refl shard
  · rename_i key node hfound
    rcases oldestInactive_idle _ _ hfound with hnone | ⟨hmem, hidle⟩
    · cases hnone
    · have hlook : shard.clients.lookup key = some node := AList.mem_lookup_iff.mpr hmem
      refine ⟨trivial, fun _ _ => refreshes_erase ?_⟩
      rw [Shard.activeOf_of_lookup hlook, hidle]

/-- Room is made at the cost of idle nodes. -/
theorem makeRoom_ensures :
    Ensures limiterWorld () (makeRoom key limits shard)
      (fun result _ => Refreshes shard result.2) := by
  unfold makeRoom
  split
  · exact .refl shard
  · refine ⟨trivial, fun reserved _ => ?_⟩
    cases reserved with
    | true => exact .refl shard
    | false =>
        apply evictOldestInactive_ensures.bind
        intro result _ h
        obtain ⟨evicted, left⟩ := result
        cases evicted with
        | true => exact ⟨trivial, fun _ _ => h⟩
        | false => exact h

/-- A node that is inserted is the first of its client. -/
theorem tryEmplace_ensures :
    Ensures limiterWorld () (tryEmplace key limits now shard)
      (fun result _ => Emplaced shard key result.1 ∧
        (result.2 = true → shard.activeOf key = 0)) := by
  unfold tryEmplace
  split
  · rename_i node hlook
    exact ⟨.inl hlook, fun h => by cases h⟩
  · rename_i hnone
    refine ⟨trivial, fun address hfresh => ⟨.inr ⟨hnone, rfl, ?_⟩, fun _ => ?_⟩⟩
    · intro k other hother haddress
      have haddress : other.address = address := haddress
      apply hfresh
      rw [← haddress]
      exact List.mem_map_of_mem (f := fun e => e.2.address) (AList.mem_lookup_iff.mp hother)
    · exact Shard.activeOf_of_none hnone

/-- The lease that an admission hands out: the client's node, found below the
limit, with one more lease on it. -/
def Admits (limits : LimitsConfig) (shard : Shard) (key : ClientKey) (address : Nat)
    (shard' : Shard) : Prop :=
  ∃ node state, Emplaced shard key node ∧ node.address = address ∧
    node.state.active < limits.maxConnectionsPerIp ∧
    state.active = node.state.active + 1 ∧ shard' = shard.setState key node state

/-- What `acquire` leaves behind. -/
def AcquireSpec (limits : LimitsConfig) (shard : Shard) (key : ClientKey)
    (result : Admission × Shard) : Prop :=
  match result.1.lease with
  | none => result.1.result ≠ .accepted ∧ Refreshes shard result.2
  | some address => result.1.result = .accepted ∧
      ∃ mid, Refreshes shard mid ∧ Admits limits mid key address result.2

/-- A refusal that no lease notices. -/
theorem AcquireSpec.refused (limits : LimitsConfig) (key : ClientKey) {result : AdmissionResult}
    (h : Refreshes shard shard') (hresult : result ≠ .accepted) :
    AcquireSpec limits shard key ({ result := result }, shard') :=
  ⟨hresult, h⟩

/-- **The decision**: one lease more, or nothing a lease would notice. -/
theorem decideAdmission_ensures {inserted : Bool} (hnode : shard.clients.lookup key = some node)
    (hinserted : inserted = true → node.state.active = 0) :
    Ensures limiterWorld () (decideAdmission key limits now node inserted shard)
      (fun result _ => AcquireSpec limits shard key result) := by
  unfold decideAdmission
  split
  · exact .refused limits key (.refl shard) (by decide)
  · rename_i hbelow
    split
    · exact .refused limits key (.refl shard) (by decide)
    · refine ⟨trivial, fun granted _ => ?_⟩
      cases granted with
      | true =>
          exact ⟨rfl, shard, .refl shard, node, _, .inl hnode, rfl, not_le.mp hbelow, rfl, rfl⟩
      | false =>
          cases inserted with
          | false => exact .refused limits key (.refl shard) (by decide)
          | true =>
              refine ⟨trivial, fun _ _ => .refused limits key (refreshes_erase ?_) (by decide)⟩
              rw [Shard.activeOf_of_lookup hnode, hinserted rfl]

/-- Changes before the decision may be forgotten. -/
theorem AcquireSpec.of_refreshes {result : Admission × Shard} (h : Refreshes shard mid)
    (h' : AcquireSpec limits mid key result) : AcquireSpec limits shard key result := by
  unfold AcquireSpec at h' ⊢
  split at h'
  · exact ⟨h'.1, h.trans h'.2⟩
  · obtain ⟨hresult, last, hlast, hadmits⟩ := h'
    exact ⟨hresult, last, h.trans hlast, hadmits⟩

/-- The rest of `acquire` after the prune. -/
theorem admitAfterPrune_ensures :
    Ensures limiterWorld () (admitAfterPrune key limits now shard)
      (fun result _ => AcquireSpec limits shard key result) := by
  unfold admitAfterPrune
  apply makeRoom_ensures.bind
  intro result _ hfound
  obtain ⟨room, found⟩ := result
  cases room with
  | false => exact .refused limits key hfound (by decide)
  | true =>
      apply tryEmplace_ensures.bind
      intro result _ hemplaced
      obtain ⟨node, inserted⟩ := result
      obtain ⟨hnode, hinserted⟩ := hemplaced
      have hwritten := hnode.refreshes (node.state.arrive now limits) rfl
      have hlook : (found.setState key node (node.state.arrive now limits)).clients.lookup key =
          some { node with state := node.state.arrive now limits } := by
        simp [Shard.setState]
      have hidle : inserted = true → node.state.active = 0 := by
        intro h
        rw [← hnode.activeOf, hinserted h]
      apply (decideAdmission_ensures hlook hidle).mono
      intro result _ h
      exact h.of_refreshes (hfound.trans hwritten)

/-- **`acquire`** either leaves the leases of the shard alone and hands out
none, or adds one lease to a client that was below its limit. -/
theorem acquire_ensures :
    Ensures limiterWorld () (acquire key limits now shard)
      (fun result _ => AcquireSpec limits shard key result) := by
  unfold acquire
  apply pruneIfDue_ensures.bind
  intro pruned _ hpruned
  apply admitAfterPrune_ensures.mono
  intro result _ h
  exact h.of_refreshes hpruned

end PoolLb.RateLimiter
