import Mathlib.Data.List.Nodup
import PoolLb.RoutingRefresh

/-!
# Backends across refreshes of the routing table

A backend keeps its object, and with it its health, its counters and its load, from one
routing table to the next as long as its options and its addresses stay the same, in
whatever order the resolver lists them.  Everything else is a new object.

The one lookup that `make_routing_table` may not believe is that of a backend with two
hosts: if either of them fails to resolve, both keep their last known addresses.
-/

namespace PoolLb.Router

open Interaction Handler

/-! ## Lists of results -/

/-- The pairs of two lists, with where they come from. -/
theorem forall₂_mem {α β : Type} {R : α → β → Prop} {items : List α} {results : List β}
    (h : List.Forall₂ R items results) :
    List.Forall₂ (fun item result => R item result ∧ item ∈ items ∧ result ∈ results)
      items results := by
  induction h with
  | nil => exact .nil
  | cons hfirst _ ih =>
      refine .cons ⟨hfirst, List.mem_cons_self, List.mem_cons_self⟩ (ih.imp ?_)
      intro item result hlater
      exact ⟨hlater.1, List.mem_cons_of_mem _ hlater.2.1, List.mem_cons_of_mem _ hlater.2.2⟩

/-- Two lists of results for the same items are equal if the results are. -/
theorem eq_of_forall₂ {α β : Type} {R R' : α → β → Prop} {items : List α}
    {results results' : List β} (h : List.Forall₂ R items results)
    (h' : List.Forall₂ R' items results')
    (heq : ∀ item result result', R item result → R' item result' → result' = result) :
    results' = results := by
  induction h generalizing results' with
  | nil =>
      cases h'
      rfl
  | cons hfirst _ ih =>
      cases h' with
      | cons hfirst' hrest' => rw [heq _ _ _ hfirst hfirst', ih hrest']

/-- Every item has its result. -/
theorem Forall₂.exists_of_mem {α β : Type} {R : α → β → Prop} {items : List α}
    {results : List β} (h : List.Forall₂ R items results) {item : α} (hmem : item ∈ items) :
    ∃ result ∈ results, R item result := by
  induction h with
  | nil => cases hmem
  | cons hfirst _ ih =>
      rcases List.mem_cons.mp hmem with hhead | hlater
      · subst hhead
        exact ⟨_, List.mem_cons_self, hfirst⟩
      · obtain ⟨result, hresult, hrelated⟩ := ih hlater
        exact ⟨result, List.mem_cons_of_mem _ hresult, hrelated⟩

/-- Every result has its item. -/
theorem Forall₂.exists_of_mem_right {α β : Type} {R : α → β → Prop} {items : List α}
    {results : List β} (h : List.Forall₂ R items results) {result : β}
    (hmem : result ∈ results) : ∃ item ∈ items, R item result :=
  Forall₂.exists_of_mem h.flip hmem

/-! ## One backend -/

variable {around around' : Surroundings} {previous : Option RoutingTable} {poolName : String}
  {config : BackendConfig} {heap heap' : BackendHeap} {backend : Backend}

/-- What is carried over is a backend of the table before, with the same options. -/
theorem mem_of_carriedOver (h : carriedOverBackend previous config poolName = some backend) :
    ∃ table, previous = some table ∧ backend ∈ table.backends ∧
      unchanged config poolName backend = true := by
  obtain ⟨table, htable, hfound⟩ := Option.bind_eq_some_iff.mp h
  exact ⟨table, htable, List.mem_of_find?_eq_some hfound, List.find?_some hfound⟩

/-- The object in the table has the options of the configuration. -/
theorem Routed.unchanged (h : Routed around previous poolName config heap backend heap') :
    unchanged config poolName backend = true := by
  cases h with
  | unresolved hcarried _ => exact (mem_of_carriedOver hcarried).choose_spec.2.2
  | same hcarried _ _ _ => exact (mem_of_carriedOver hcarried).choose_spec.2.2
  | fresh => simp [Router.unchanged, makeBackend]

/-- The name is one of the options. -/
theorem unchanged_name (h : unchanged config poolName backend = true) :
    backend.name = config.name := by
  simp only [unchanged, decide_eq_true_eq] at h
  exact h.1

/-- The object was in the previous table, or it is new. -/
theorem Routed.cases_ref (h : Routed around previous poolName config heap backend heap') :
    ((∃ table, previous = some table ∧ backend ∈ table.backends) ∧ heap' = heap) ∨
      backend.ref = heap.allocated ∧ heap' = heap.grown := by
  cases h with
  | unresolved hcarried _ =>
      obtain ⟨table, htable, hmem, _⟩ := mem_of_carriedOver hcarried
      exact .inl ⟨⟨table, htable, hmem⟩, rfl⟩
  | same hcarried _ _ _ =>
      obtain ⟨table, htable, hmem, _⟩ := mem_of_carriedOver hcarried
      exact .inl ⟨⟨table, htable, hmem⟩, rfl⟩
  | fresh => exact .inr ⟨rfl, rfl⟩

/-- A table whose objects are all there, each once, with sets of addresses. -/
structure Sound (table : RoutingTable) (heap : BackendHeap) : Prop where
  refs : ∀ backend ∈ table.backends, backend.ref < heap.allocated
  distinct : (table.backends.map Backend.ref).Nodup
  addresses : ∀ backend ∈ table.backends, backend.socketAddresses.Nodup ∧
    backend.healthSocketAddresses.Nodup
  healthless : ∀ backend ∈ table.backends, backend.configuredHealthAddress = "" →
    backend.healthSocketAddresses = []

/-- A resolved host has every address once. -/
theorem hostOutcome_nodup {address : String} {lookup : Endpoint → Lookup}
    {addresses : List SocketAddress} (h : hostOutcome around address lookup = .ok addresses) :
    addresses.Nodup := by
  unfold hostOutcome at h
  cases hparsed : parseEndpoint address with
  | error text =>
      rw [hparsed] at h
      cases h
  | ok endpoint =>
      rw [hparsed] at h
      exact resolveAddresses_nodup h

/-- So has the host for health checks. -/
theorem healthOutcome_nodup {addresses : List SocketAddress}
    (h : healthOutcome around poolName config = .ok addresses) : addresses.Nodup := by
  unfold healthOutcome at h
  split at h
  · cases h
    exact List.nodup_nil
  · exact hostOutcome_nodup h

/-- A backend without such a host has no addresses of it. -/
theorem healthOutcome_healthless {addresses : List SocketAddress}
    (h : healthOutcome around poolName config = .ok addresses)
    (hnone : config.healthAddress = "") : addresses = [] := by
  unfold healthOutcome at h
  rw [if_pos hnone] at h
  cases h
  rfl

/-- The addresses of the object, whichever it is. -/
theorem Routed.addresses {base : BackendHeap}
    (hprevious : ∀ table, previous = some table → Sound table base)
    (h : Routed around previous poolName config heap backend heap') :
    (backend.socketAddresses.Nodup ∧ backend.healthSocketAddresses.Nodup) ∧
      (backend.configuredHealthAddress = "" → backend.healthSocketAddresses = []) := by
  have hcarried : ∀ found, carriedOverBackend previous config poolName = some found →
      (found.socketAddresses.Nodup ∧ found.healthSocketAddresses.Nodup) ∧
        (found.configuredHealthAddress = "" → found.healthSocketAddresses = []) := by
    intro found hfound
    obtain ⟨table, htable, hmem, _⟩ := mem_of_carriedOver hfound
    have hsound := hprevious table htable
    exact ⟨hsound.addresses found hmem, hsound.healthless found hmem⟩
  cases h with
  | unresolved hfound _ => exact hcarried _ hfound
  | same hfound _ _ _ => exact hcarried _ hfound
  | fresh hmining hhealth _ =>
      exact ⟨⟨hostOutcome_nodup hmining, healthOutcome_nodup hhealth⟩,
        healthOutcome_healthless hhealth⟩

/-! ## A whole table -/

variable {second : ServiceConfig} {table : RoutingTable} {sources : List SocketAddress}
  {w w' : Ambient}

/-- What one backend does, by the name of its pool. -/
def RoutedAt (around : Surroundings) (previous : Option RoutingTable)
    (item : String × BackendConfig) (w : Ambient) (backend : Backend) (w' : Ambient) : Prop :=
  Routed around previous item.1 item.2 w.heap backend w'.heap

/-- The backends of a pool, each under the name of the pool. -/
theorem RoutedPool.flat {pool : PoolConfig} {state : PoolState}
    (h : RoutedPool around previous sources pool w state w') :
    Chain (RoutedAt around previous) (pool.backends.map fun config => (pool.name, config)) w
      state.backends w' := by
  obtain ⟨_, hchain⟩ := h
  generalize pool.backends = configs at hchain ⊢
  generalize state.backends = backends at hchain ⊢
  induction hchain with
  | nil w => exact .nil w
  | cons hfirst _ ih => exact .cons hfirst.1 ih

/-- The backends of the table, one after the other. -/
theorem Routes.flat (h : Routes around second previous w table w') :
    Chain (RoutedAt around previous) second.backends w table.backends w' := by
  have hpools := h.pools
  unfold ServiceConfig.backends RoutingTable.backends
  generalize table.upstreamSourceAddresses = sources at hpools
  generalize second.pools = pools at hpools ⊢
  generalize table.pools = states at hpools ⊢
  clear h
  induction hpools with
  | nil w => exact .nil w
  | cons hfirst _ ih =>
      rw [List.flatMap_cons, List.flatMap_cons]
      exact hfirst.flat.append ih

/-- Routing a backend only adds to the heap. -/
theorem RoutedAt.grew {item : String × BackendConfig}
    (h : RoutedAt around previous item w backend w') : w.heap.Grew w'.heap := Routed.grew h

/-- The heap of one world comes after that of another. -/
def HeapGrew (w w' : Ambient) : Prop := w.heap.Grew w'.heap

/-- Each backend of the table, with the heap before and after. -/
theorem Routes.forall₂ (h : Routes around second previous w table w') :
    List.Forall₂ (fun item backend => ∃ y y' : Ambient, w.heap.Grew y.heap ∧
      RoutedAt around previous item y backend y' ∧ y'.heap.Grew w'.heap)
      second.backends table.backends :=
  h.flat.forall₂ HeapGrew (fun y => BackendHeap.Grew.refl y.heap)
    (fun _ _ _ => BackendHeap.Grew.trans) fun _ _ _ _ => RoutedAt.grew

/-- So does routing them all. -/
theorem Routes.grew (h : Routes around second previous w table w') : w.heap.Grew w'.heap :=
  h.flat.le HeapGrew (fun y => BackendHeap.Grew.refl y.heap)
    (fun _ _ _ => BackendHeap.Grew.trans) fun _ _ _ _ => RoutedAt.grew

/-- An object of a later table is one of the previous, or newer than `base`. -/
theorem RoutedAt.ref_cases {base : BackendHeap} {item : String × BackendConfig}
    (hgrew : base.Grew w.heap) (h : RoutedAt around previous item w backend w') :
    (∃ old, previous = some old ∧ backend ∈ old.backends) ∨
      base.allocated ≤ backend.ref ∧ w.heap.allocated = backend.ref ∧
        backend.ref < w'.heap.allocated := by
  rcases Routed.cases_ref h with ⟨hold, _⟩ | ⟨href, hheap⟩
  · exact .inl hold
  · refine .inr ⟨?_, href.symm, ?_⟩
    · rw [href]
      exact hgrew.allocated
    · rw [href, hheap]
      exact Nat.lt_succ_self _

/-- Objects of different names are different objects. -/
theorem chain_distinct {base : BackendHeap} {items : List (String × BackendConfig)}
    {backends : List Backend} (hprevious : ∀ table, previous = some table → Sound table base)
    (hnames : (items.map fun item => item.2.name).Nodup) (hgrew : base.Grew w.heap)
    (h : Chain (RoutedAt around previous) items w backends w') :
    (backends.map Backend.ref).Nodup := by
  induction h with
  | nil => exact List.nodup_nil
  | @cons item items backend backends x y z hfirst hrest ih =>
      rw [List.map_cons, List.nodup_cons] at hnames ⊢
      have hnext : base.Grew y.heap := hgrew.trans hfirst.grew
      refine ⟨fun hmem => ?_, ih hnames.2 hnext⟩
      obtain ⟨other, hother, hsame⟩ := List.mem_map.mp hmem
      -- where the other one comes from
      have hlater := hrest.forall₂ HeapGrew (fun x => BackendHeap.Grew.refl x.heap)
        (fun _ _ _ => BackendHeap.Grew.trans) fun _ _ _ _ => RoutedAt.grew
      obtain ⟨item', hitem', v, v', hv, hrouted, _⟩ :=
        Forall₂.exists_of_mem_right hlater hother
      have hname : backend.name = item.2.name := unchanged_name (Routed.unchanged hfirst)
      have hname' : other.name = item'.2.name := unchanged_name (Routed.unchanged hrouted)
      have hdifferent : item'.2.name ≠ item.2.name := by
        intro hequal
        exact hnames.1 (List.mem_map.mpr ⟨item', hitem', hequal⟩)
      rcases hfirst.ref_cases hgrew with ⟨old, hold, hin⟩ | ⟨hbase, hat, hbelow⟩
      · have hsound := hprevious old hold
        rcases hrouted.ref_cases (hnext.trans hv) with ⟨old', hold', hin'⟩ | ⟨hbase', _, _⟩
        · rw [hold] at hold'
          cases hold'
          have hobjects := List.inj_on_of_nodup_map hsound.distinct hin' hin hsame
          rw [hobjects, hname] at hname'
          exact hdifferent hname'.symm
        · have hless := hsound.refs backend hin
          omega
      · rcases hrouted.ref_cases (hnext.trans hv) with ⟨old', hold', hin'⟩ | ⟨_, hat', _⟩
        · have hless := (hprevious old' hold').refs other hin'
          omega
        · have hle := hv.allocated
          omega

/-- The names of all backends, pool by pool. -/
theorem backends_names (config : ServiceConfig) :
    (config.backends.map fun item => item.2.name) =
      (config.pools.flatMap PoolConfig.backends).map BackendConfig.name := by
  unfold ServiceConfig.backends
  induction config.pools with
  | nil => rfl
  | cons pool rest ih => simp [List.flatMap_cons, ih, Function.comp_def]

/-- **A table that was built is sound**, if the one before was. -/
theorem Routes.sound {numericKey : String → Option Bytes} (haccepted : second.Accepted numericKey)
    (hprevious : ∀ table, previous = some table → Sound table w.heap)
    (h : Routes around second previous w table w') : Sound table w'.heap := by
  have hitems := h.forall₂
  refine ⟨fun backend hmem => ?_, ?_, fun backend hmem => ?_, fun backend hmem => ?_⟩
  · obtain ⟨item, _, y, y', hy, hrouted, hy'⟩ := Forall₂.exists_of_mem_right hitems hmem
    rcases hrouted.ref_cases hy with ⟨old, hold, hin⟩ | ⟨_, _, hbelow⟩
    · exact ((hprevious old hold).refs backend hin).trans_le h.grew.allocated
    · exact hbelow.trans_le hy'.allocated
  · apply chain_distinct hprevious _ (BackendHeap.Grew.refl w.heap) h.flat
    rw [backends_names]
    exact haccepted.names.2.1
  · obtain ⟨item, _, y, y', _, hrouted, _⟩ := Forall₂.exists_of_mem_right hitems hmem
    exact (Routed.addresses hprevious hrouted).1
  · obtain ⟨item, _, y, y', _, hrouted, _⟩ := Forall₂.exists_of_mem_right hitems hmem
    exact (Routed.addresses hprevious hrouted).2

/-- A table that `make_routing_table` has built from configurations that were accepted,
with a heap of some later time. -/
inductive Built (numericKey : String → Option Bytes) : RoutingTable → BackendHeap → Prop where
  | build {config : ServiceConfig} {earlier : Option RoutingTable} {around : Surroundings}
      {w w' : Ambient} {table : RoutingTable} (haccepted : config.Accepted numericKey)
      (hearlier : ∀ old, earlier = some old → Built numericKey old w.heap)
      (hrun : Runs (ambient around) w ((makeRoutingTable config earlier : Setup Unit _) ())
        (.ok table, ()) w') : Built numericKey table w'.heap
  | later {table : RoutingTable} {heap heap' : BackendHeap} (h : Built numericKey table heap)
      (hle : heap.allocated ≤ heap'.allocated) : Built numericKey table heap'

theorem Sound.later {heap heap' : BackendHeap} (h : Sound table heap)
    (hle : heap.allocated ≤ heap'.allocated) : Sound table heap' :=
  { h with refs := fun backend hmem => (h.refs backend hmem).trans_le hle }

/-- What a run of `make_routing_table` has done. -/
theorem routes_of_runs {config : ServiceConfig} {earlier : Option RoutingTable} {s s' : Unit}
    (hrun : Runs (ambient around) w ((makeRoutingTable config earlier : Setup Unit _) s)
      (.ok table, s') w') : Routes around config earlier w table w' :=
  (makeRoutingTable_holds.sound hrun).2

/-- **By induction on how a table came about**: its objects are there, each once. -/
theorem Built.sound {numericKey : String → Option Bytes} {heap : BackendHeap}
    (h : Built numericKey table heap) : Sound table heap := by
  induction h with
  | build haccepted _ hrun ih => exact (routes_of_runs hrun).sound haccepted ih
  | later _ hle ih => exact ih.later hle

/-- Every backend of a table has an address that one of the sources can reach. -/
def Compatible (table : RoutingTable) : Prop :=
  ∀ backend ∈ table.backends, table.upstreamSourceAddresses ≠ [] →
    hasCompatibleSource table.upstreamSourceAddresses backend.socketAddresses = true

/-- A table that was made has passed the test of its sources. -/
theorem Routes.compatible (h : Routes around second previous w table w') : Compatible table := by
  intro backend hmem hsources
  obtain ⟨pool, hpool, hbackend⟩ := List.mem_flatMap.mp hmem
  have hpools := h.pools.forall_mem (P := fun pool => ∀ backend ∈ pool.backends,
    hasCompatibleSource table.upstreamSourceAddresses backend.socketAddresses = true) ?_
  · exact hpools pool hpool backend hbackend
  · intro config x pool y hrouted
    exact hrouted.2.forall_mem fun _ _ _ _ hfrom => hfrom.2.1 hsources

/-- So every table that is in use has. -/
theorem Built.compatible {numericKey : String → Option Bytes} {heap : BackendHeap}
    (h : Built numericKey table heap) : Compatible table := by
  induction h with
  | build _ _ hrun _ => exact (routes_of_runs hrun).compatible
  | later _ _ ih => exact ih

/-! ## The refresh -/

/-- Two lists of the same addresses, in any order and with any repetition. -/
def SameSet (left right : List SocketAddress) : Prop := ∀ address, address ∈ left ↔ address ∈ right

/-- On lists without repetition `same_addresses` compares sets. -/
theorem sameAddresses_iff_sameSet {left right : List SocketAddress} (hleft : left.Nodup)
    (hright : right.Nodup) : sameAddresses left right = true ↔ SameSet left right := by
  rw [sameAddresses_iff]
  exact List.perm_ext_iff_of_nodup hleft hright

/-- The hosts of the backend resolve to the addresses that the object has. -/
def SameHosts (around : Surroundings) (poolName : String) (config : BackendConfig)
    (old : Backend) : Prop :=
  (∃ addresses, miningOutcome around poolName config = .ok addresses ∧
      SameSet addresses old.socketAddresses) ∧
    (config.healthAddress ≠ "" →
      ∃ addresses, healthOutcome around poolName config = .ok addresses ∧
        SameSet addresses old.healthSocketAddresses)

/-- The hosts of the backend all resolve. -/
def HostsResolve (around : Surroundings) (poolName : String) (config : BackendConfig) : Prop :=
  (∃ addresses, miningOutcome around poolName config = .ok addresses) ∧
    ∃ addresses, healthOutcome around poolName config = .ok addresses

/-- The carried-over object has the resolved addresses exactly if the hosts are the same. -/
theorem sameRoute_iff {addresses healthAddresses : List SocketAddress} {base : BackendHeap}
    (hsound : Sound table base) (hmem : backend ∈ table.backends)
    (hoptions : unchanged config poolName backend = true)
    (hmining : miningOutcome around poolName config = .ok addresses)
    (hhealth : healthOutcome around poolName config = .ok healthAddresses) :
    sameRoute addresses healthAddresses backend = true ↔
      SameHosts around poolName config backend := by
  obtain ⟨hnodup, hhealthNodup⟩ := hsound.addresses backend hmem
  have hconfigured : backend.configuredHealthAddress = config.healthAddress := by
    simp only [unchanged, decide_eq_true_eq] at hoptions
    exact hoptions.2.2.2.1
  have hsymm : ∀ left right : List SocketAddress, SameSet left right → SameSet right left :=
    fun _ _ h address => (h address).symm
  simp only [sameRoute, decide_eq_true_eq]
  rw [sameAddresses_iff_sameSet hnodup (hostOutcome_nodup hmining),
    sameAddresses_iff_sameSet hhealthNodup (healthOutcome_nodup hhealth)]
  constructor
  · intro h
    exact ⟨⟨addresses, hmining, hsymm _ _ h.1⟩,
      fun _ => ⟨healthAddresses, hhealth, hsymm _ _ h.2⟩⟩
  · intro h
    obtain ⟨⟨found, hfound, hset⟩, hhealthSet⟩ := h
    rw [hmining] at hfound
    cases hfound
    refine ⟨hsymm _ _ hset, ?_⟩
    by_cases hnone : config.healthAddress = ""
    · rw [hsound.healthless backend hmem (hconfigured.trans hnone),
        healthOutcome_healthless hhealth hnone]
      exact fun _ => Iff.rfl
    · obtain ⟨found, hfound, hset⟩ := hhealthSet hnone
      rw [hhealth] at hfound
      cases hfound
      exact hsymm _ _ hset

/-- What the refresh makes of one backend of the second configuration. -/
structure Refreshed (around : Surroundings) (first : ServiceConfig) (previous : RoutingTable)
    (heap heap' : BackendHeap) (poolName : String) (config : BackendConfig) (backend : Backend) :
    Prop where
  /-- It has the options of its place. -/
  options : unchanged config poolName backend = true
  /-- Unchanged options, and hosts that resolve as before or a mining host that does not
  resolve: the very same object. -/
  kept : (poolName, config) ∈ first.backends →
    ∀ old ∈ previous.backends, old.name = config.name →
      (SameHosts around poolName config old ∨
        ∃ text, miningOutcome around poolName config = .error text) → backend = old
  /-- Changed options, or hosts that resolve elsewhere: a fresh object, unhealthy and
  with its counters at zero. -/
  fresh : ((poolName, config) ∉ first.backends ∨
      ∃ old ∈ previous.backends, old.name = config.name ∧
        HostsResolve around poolName config ∧ ¬ SameHosts around poolName config old) →
    heap.allocated ≤ backend.ref ∧ heap'.counters backend.ref = {}

variable {first : ServiceConfig} {earlier : Option RoutingTable} {old : RoutingTable}
  {numericKey : String → Option Bytes} {w₀ w₁ : Ambient}

/-- The objects of a table are known by the names in its configuration. -/
theorem Routes.item_of_mem (h : Routes around first earlier w₀ old w₁)
    (hmem : backend ∈ old.backends) :
    ∃ item ∈ first.backends, unchanged item.2 item.1 backend = true := by
  obtain ⟨item, hitem, y, y', _, hrouted, _⟩ := Forall₂.exists_of_mem_right h.forall₂ hmem
  exact ⟨item, hitem, Routed.unchanged hrouted⟩

/-- The backends of a table have the names of the configuration, in its order. -/
theorem Routes.names (h : Routes around first earlier w₀ old w₁) :
    old.backends.map Backend.name = first.backends.map fun item => item.2.name := by
  have hitems := h.forall₂
  generalize old.backends = backends at hitems ⊢
  generalize first.backends = items at hitems ⊢
  induction hitems with
  | nil => rfl
  | cons hfirst _ ih =>
      obtain ⟨y, y', _, hrouted, _⟩ := hfirst
      rw [List.map_cons, List.map_cons, ih, unchanged_name (Routed.unchanged hrouted)]

/-- A backend can be carried over for one entry of a configuration only. -/
theorem eq_of_unchanged {config config' : BackendConfig} {poolName poolName' : String}
    (h : unchanged config poolName backend = true)
    (h' : unchanged config' poolName' backend = true) :
    (poolName, config) = (poolName', config') := by
  simp only [unchanged, decide_eq_true_eq] at h h'
  cases config
  cases config'
  simp_all

/-- A backend of the first configuration is carried over as its own object, and one that
was not there is not carried over at all. -/
theorem carriedOver_iff (haccepted : first.Accepted numericKey)
    (h : Routes around first earlier w₀ old w₁) :
    carriedOverBackend (some old) config poolName = some backend ↔
      (poolName, config) ∈ first.backends ∧ backend ∈ old.backends ∧
        backend.name = config.name := by
  have hnames : (first.backends.map fun item => item.2.name).Nodup := by
    rw [backends_names]
    exact haccepted.names.2.1
  -- an object of the name of an item of the configuration is the object of the item
  have hobject : ∀ found ∈ old.backends, ∀ item ∈ first.backends,
      found.name = item.2.name → unchanged item.2 item.1 found = true := by
    intro found hfound item hitem hname
    obtain ⟨other, hother, hoptions⟩ := h.item_of_mem hfound
    have hsame : other = item := List.inj_on_of_nodup_map hnames hother hitem
      ((unchanged_name hoptions).symm.trans hname)
    rw [← hsame]
    exact hoptions
  constructor
  · intro hcarried
    obtain ⟨table, htable, hmem, hoptions⟩ := mem_of_carriedOver hcarried
    cases htable
    obtain ⟨item, hitem, hitsOptions⟩ := h.item_of_mem hmem
    have hsame := eq_of_unchanged hoptions hitsOptions
    rw [hsame]
    exact ⟨hitem, hmem, unchanged_name hoptions⟩
  · intro hthere
    obtain ⟨hitem, hmem, hname⟩ := hthere
    have hoptions := hobject backend hmem _ hitem hname
    obtain ⟨found, hfound⟩ : ∃ found, old.backends.find? (unchanged config poolName) =
        some found := by
      rw [← Option.isSome_iff_exists, List.find?_isSome]
      exact ⟨backend, hmem, hoptions⟩
    -- the objects of one name are one object
    have hsame : found = backend := by
      have hdistinct : (old.backends.map Backend.name).Nodup := by
        rw [h.names]
        exact hnames
      apply List.inj_on_of_nodup_map hdistinct (List.mem_of_find?_eq_some hfound) hmem
      rw [hname, unchanged_name (List.find?_some hfound)]
    show old.backends.find? (unchanged config poolName) = some backend
    rw [hfound, hsame]

/-- **One backend of the refresh.** -/
theorem Routed.refreshed (haccepted : first.Accepted numericKey) (hsound : Sound old w.heap)
    (hold : Routes around' first earlier w₀ old w₁) {heap heap' last : BackendHeap}
    (hgrew : w.heap.Grew heap) (hlast : heap'.Grew last)
    (h : Routed around (some old) poolName config heap backend heap') :
    Refreshed around first old w.heap last poolName config backend := by
  have hcarried := fun found => @carriedOver_iff around' poolName config found first earlier old
    numericKey w₀ w₁ haccepted hold
  refine ⟨Routed.unchanged h, fun hitem found hfound hname hhosts => ?_, fun hchanged => ?_⟩
  · have hfoundCarried := (hcarried found).mpr ⟨hitem, hfound, hname⟩
    cases h with
    | unresolved hbackend _ => exact Option.some.inj (hbackend.symm.trans hfoundCarried)
    | same hbackend _ _ _ => exact Option.some.inj (hbackend.symm.trans hfoundCarried)
    | fresh hmining hhealth hmoved =>
        have hnot := hmoved found hfoundCarried
        obtain ⟨_, _, _, hoptions⟩ := mem_of_carriedOver hfoundCarried
        rcases hhosts with hsame | ⟨text, hfailed⟩
        · rw [(sameRoute_iff hsound hfound hoptions hmining hhealth).mpr hsame] at hnot
          cases hnot
        · rw [hmining] at hfailed
          cases hfailed
  · cases h with
    | unresolved hbackend hfailed =>
        obtain ⟨hitem, hmem, hname⟩ := (hcarried _).mp hbackend
        rcases hchanged with hnot | ⟨found, _, _, ⟨⟨_, hmining⟩, _, hhealth⟩, _⟩
        · exact absurd hitem hnot
        · rcases hfailed with hmining' | hhealth'
          · rw [hmining] at hmining'
            cases hmining'
          · rw [hhealth] at hhealth'
            cases hhealth'
    | same hbackend hmining hhealth hsame =>
        obtain ⟨hitem, hmem, hname⟩ := (hcarried _).mp hbackend
        rcases hchanged with hnot | ⟨found, hfound, hfoundName, _, hdifferent⟩
        · exact absurd hitem hnot
        · have hfoundCarried := (hcarried found).mpr ⟨hitem, hfound, hfoundName⟩
          have hsameObject : backend = found :=
            Option.some.inj (hbackend.symm.trans hfoundCarried)
          obtain ⟨_, _, _, hoptions⟩ := mem_of_carriedOver hbackend
          have hhosts := (sameRoute_iff hsound hmem hoptions hmining hhealth).mp hsame
          rw [hsameObject] at hhosts
          exact absurd hhosts hdifferent
    | fresh hmining hhealth hmoved =>
        refine ⟨hgrew.allocated, ?_⟩
        have hcell : heap.grown.counters heap.allocated = {} := Function.update_self ..
        exact (hlast.counters heap.allocated (Nat.lt_succ_self _)).trans hcell

/-- The outcomes of two lookups of one host agree. -/
def SameOutcome (outcome outcome' : Except String (List SocketAddress)) : Prop :=
  match outcome, outcome' with
  | .ok addresses, .ok addresses' => SameSet addresses addresses'
  | .error _, .error _ => True
  | _, _ => False

/-- The resolver answers both times alike for every host of a configuration. -/
def Stable (around around' : Surroundings) (config : ServiceConfig) : Prop :=
  ∀ item ∈ config.backends,
    SameOutcome (miningOutcome around item.1 item.2) (miningOutcome around' item.1 item.2) ∧
      SameOutcome (healthOutcome around item.1 item.2) (healthOutcome around' item.1 item.2)

/-- If a host resolves the second time, it has resolved the first time. -/
theorem SameOutcome.of_ok {outcome : Except String (List SocketAddress)}
    {addresses : List SocketAddress} (h : SameOutcome outcome (.ok addresses)) :
    ∃ before, outcome = .ok before ∧ SameSet before addresses := by
  cases outcome with
  | error text => cases h
  | ok before => exact ⟨before, rfl, h⟩

/-- The object of a backend has the addresses of the lookups, if both have succeeded. -/
theorem Routed.sameHosts {heap heap' : BackendHeap} {addresses healthAddresses : List SocketAddress}
    (h : Routed around previous poolName config heap backend heap')
    (hmining : miningOutcome around poolName config = .ok addresses)
    (hhealth : healthOutcome around poolName config = .ok healthAddresses) :
    SameSet addresses backend.socketAddresses ∧
      SameSet healthAddresses backend.healthSocketAddresses := by
  cases h with
  | unresolved _ hfailed =>
      rcases hfailed with hfailed | hfailed
      · rw [hmining] at hfailed
        cases hfailed
      · rw [hhealth] at hfailed
        cases hfailed
  | same hcarried hmining' hhealth' hsame =>
      rw [hmining] at hmining'
      rw [hhealth] at hhealth'
      cases hmining'
      cases hhealth'
      simp only [sameRoute, decide_eq_true_eq, sameAddresses_iff] at hsame
      exact ⟨fun address => (hsame.1.mem_iff).symm, fun address => (hsame.2.mem_iff).symm⟩
  | fresh hmining' hhealth' _ =>
      rw [hmining] at hmining'
      rw [hhealth] at hhealth'
      cases hmining'
      cases hhealth'
      exact ⟨fun _ => Iff.rfl, fun _ => Iff.rfl⟩

/-- Under stable resolution a backend of the same configuration stays the same object. -/
theorem Routed.stable {item : String × BackendConfig} {heap heap' heap₁ heap₂ : BackendHeap}
    {before : Backend} (haccepted : first.Accepted numericKey) (hsound : Sound old w.heap)
    (hold : Routes around first earlier w₀ old w₁) (hstable : Stable around around' first)
    (hitem : item ∈ first.backends) (hmem : before ∈ old.backends)
    (hbefore : Routed around earlier item.1 item.2 heap before heap')
    (h : Routed around' (some old) item.1 item.2 heap₁ backend heap₂) : backend = before := by
  have hoptions := Routed.unchanged hbefore
  have hcarried : carriedOverBackend (some old) item.2 item.1 = some before :=
    (carriedOver_iff haccepted hold).mpr ⟨hitem, hmem, unchanged_name hoptions⟩
  cases h with
  | unresolved hbackend _ => exact Option.some.inj (hbackend.symm.trans hcarried)
  | same hbackend _ _ _ => exact Option.some.inj (hbackend.symm.trans hcarried)
  | fresh hmining hhealth hmoved =>
      obtain ⟨hstableMining, hstableHealth⟩ := hstable item hitem
      rw [hmining] at hstableMining
      rw [hhealth] at hstableHealth
      obtain ⟨addresses, hthen, hset⟩ := hstableMining.of_ok
      obtain ⟨healthAddresses, hhealthThen, hhealthSet⟩ := hstableHealth.of_ok
      obtain ⟨hown, hhealthOwn⟩ := hbefore.sameHosts hthen hhealthThen
      have hsame : SameHosts around' item.1 item.2 before :=
        ⟨⟨_, hmining, fun address => (hset address).symm.trans (hown address)⟩,
          fun _ => ⟨_, hhealth, fun address => (hhealthSet address).symm.trans
            (hhealthOwn address)⟩⟩
      have hnot := hmoved before hcarried
      rw [(sameRoute_iff hsound hmem hoptions hmining hhealth).mpr hsame] at hnot
      cases hnot

/-- The index of the active pool is that of a pool of its name. -/
theorem activePoolIndex_spec {name : String} {pools : List PoolConfig}
    (h : name ∈ pools.map PoolConfig.name) :
    (pools.map PoolConfig.name)[activePoolIndex name pools]? = some name := by
  -- from the front: the index so far stays unless the name is among the rest
  have hrun : ∀ (pools : List PoolConfig) (offset start : Nat),
      let found := (pools.zipIdx offset).foldl
        (fun index entry => if entry.1.name = name then entry.2 else index) start
      (name ∈ pools.map PoolConfig.name → offset ≤ found ∧
          (pools.map PoolConfig.name)[found - offset]? = some name) ∧
        (name ∉ pools.map PoolConfig.name → found = start) := by
    intro pools
    induction pools with
    | nil =>
        intro offset start
        exact ⟨fun hmem => absurd hmem List.not_mem_nil, fun _ => rfl⟩
    | cons pool rest ih =>
        intro offset start
        obtain ⟨hthere, hnot⟩ := ih (offset + 1) (if pool.name = name then offset else start)
        simp only [List.zipIdx_cons, List.foldl_cons, List.map_cons]
        by_cases hrest : name ∈ rest.map PoolConfig.name
        · obtain ⟨hle, hat⟩ := hthere hrest
          refine ⟨fun _ => ⟨by omega, ?_⟩, fun habsent => ?_⟩
          · rw [List.getElem?_cons, if_neg (by omega), Nat.sub_sub]
            exact hat
          · exact absurd (List.mem_cons_of_mem _ hrest) habsent
        · rw [hnot hrest]
          by_cases hhead : pool.name = name
          · rw [if_pos hhead]
            refine ⟨fun _ => ⟨le_refl _, by simp [hhead]⟩, fun habsent => ?_⟩
            exact absurd (hhead ▸ List.mem_cons_self) habsent
          · rw [if_neg hhead]
            refine ⟨fun hmem => ?_, fun _ => rfl⟩
            rcases List.mem_cons.mp hmem with hsame | hlater
            · exact absurd hsame.symm hhead
            · exact absurd hlater hrest
  exact ((hrun pools 0 0).1 h).2

/-- The pools of a table have the names of the configuration. -/
theorem Routes.poolNames (h : Routes around second previous w table w') :
    table.pools.map PoolState.name = second.pools.map PoolConfig.name := by
  have hpools := h.pools
  generalize table.pools = states at hpools ⊢
  generalize second.pools = pools at hpools ⊢
  clear h
  induction hpools with
  | nil => rfl
  | cons hfirst _ ih => rw [List.map_cons, List.map_cons, hfirst.1, ih]

/-- The index of the active pool is that of a pool with its name. -/
theorem Routes.activePool_named (haccepted : second.Accepted numericKey)
    (h : Routes around second previous w table w') :
    ∃ state, table.pools[table.activePoolIndex]? = some state ∧
      state.name = second.activePool := by
  have hindex := activePoolIndex_spec haccepted.names.2.2
  rw [← h.poolNames, ← h.activePoolIndex, List.getElem?_map] at hindex
  obtain ⟨state, hstate, hname⟩ := Option.map_eq_some_iff.mp hindex
  exact ⟨state, hstate, hname⟩

/-- The table in the order of the configuration, backend by backend. -/
theorem Routes.inOrder (haccepted : first.Accepted numericKey) (hsound : Sound old w.heap)
    (h : Routes around second (some old) w table w')
    (hold : Routes around' first earlier w₀ old w₁) :
    List.Forall₂ (fun pool state => state.name = pool.name ∧
      List.Forall₂ (Refreshed around first old w.heap w'.heap pool.name) pool.backends
        state.backends) second.pools table.pools := by
  have hpools := h.pools.forall₂ HeapGrew (fun y => BackendHeap.Grew.refl y.heap)
    (fun _ _ _ => BackendHeap.Grew.trans) fun _ _ _ _ hpool => hpool.later.1
  apply hpools.imp
  intro pool state hpool
  obtain ⟨y, y', hy, ⟨hname, hbackends⟩, hy'⟩ := hpool
  refine ⟨hname, ?_⟩
  have hitems := hbackends.forall₂ HeapGrew (fun y => BackendHeap.Grew.refl y.heap)
    (fun _ _ _ => BackendHeap.Grew.trans) fun _ _ _ _ hfrom => hfrom.later.1
  apply hitems.imp
  intro config backend hitem
  obtain ⟨z, z', hz, hrouted, hz'⟩ := hitem
  exact Routed.refreshed haccepted hsound hold (hy.trans hz) (hz'.trans hy') hrouted.1

/-- Under stable resolution the objects are those that were there. -/
theorem Routes.stable (haccepted : first.Accepted numericKey) (hsound : Sound old w.heap)
    (h : Routes around' first (some old) w table w')
    (hold : Routes around first earlier w₀ old w₁) (hstable : Stable around around' first) :
    table.backends = old.backends := by
  apply eq_of_forall₂ (forall₂_mem hold.forall₂) h.forall₂
  intro item before backend hbefore hafter
  obtain ⟨⟨y, y', _, hthen, _⟩, hitem, hmem⟩ := hbefore
  obtain ⟨z, z', _, hnow, _⟩ := hafter
  exact Routed.stable haccepted hsound hold hstable hitem hmem hthen hnow

variable {w₂ w₃ : Ambient}

/-- **A routing refresh preserves unchanged backends.**  For two accepted configurations,
a table built from the first and one built from the second with that table at hand: the
pools and backends are in the order of the second configuration, each backend is
`Refreshed`, no object occurs twice, the active pool is the one the index names, and
repeating the refresh of one configuration under stable resolution changes no object. -/
theorem routing_refresh_preserves (hfirst : first.Accepted numericKey)
    (hsecond : second.Accepted numericKey)
    (hearlier : ∀ before, earlier = some before → Built numericKey before w₀.heap)
    (hbuilt : Runs (ambient around) w₀ ((makeRoutingTable first earlier : Setup Unit _) ())
      (.ok old, ()) w₁)
    (hlater : w₁.heap.allocated ≤ w₂.heap.allocated)
    (hrun : Runs (ambient around') w₂ ((makeRoutingTable second (some old) : Setup Unit _) ())
      (.ok table, ()) w₃) :
    List.Forall₂ (fun pool state => state.name = pool.name ∧
        List.Forall₂ (Refreshed around' first old w₂.heap w₃.heap pool.name) pool.backends
          state.backends) second.pools table.pools ∧
      (table.backends.map Backend.ref).Nodup ∧
      (∃ state, table.pools[table.activePoolIndex]? = some state ∧
        state.name = second.activePool) ∧
      (second = first → Stable around around' first → table.backends = old.backends) := by
  have hold := routes_of_runs hbuilt
  have hroutes := routes_of_runs hrun
  have hsoundThen := hold.sound hfirst fun before hbefore => (hearlier before hbefore).sound
  have hsound : Sound old w₂.heap := hsoundThen.later hlater
  have hprevious : ∀ before, some old = some before → Sound before w₂.heap := by
    intro before hbefore
    cases hbefore
    exact hsound
  refine ⟨hroutes.inOrder hfirst hsound hold, (hroutes.sound hsecond hprevious).distinct,
    hroutes.activePool_named hsecond, fun hsame hstable => ?_⟩
  subst hsame
  exact hroutes.stable hfirst hsound hold hstable

/-! ## A refresh, computed -/

/-- A backend with a host for health checks. -/
def sampleBackend : BackendConfig where
  name := "first"
  address := "backend:3333"
  healthAddress := "health:3334"

/-- One pool of one backend. -/
def sampleConfig : ServiceConfig where
  listeners := [{ name := "miners", address := "0.0.0.0:3333" }]
  pools := [{ name := "main", backends := [sampleBackend] }]
  activePool := "main"

/-- The configuration of the example is accepted. -/
theorem sampleConfig_accepted : sampleConfig.Accepted fun _ => none where
  validated := by decide +kernel

/-- An IPv4 address that ends in a byte. -/
def sampleInfo (last : UInt8) : AddrInfo := ⟨.inet, [2, 0, 13, 5, 10, 0, 0, last]⟩

/-- A resolver that answers for the two hosts. -/
def sampleAround (mining health : Except String (List AddrInfo)) : Surroundings where
  resolver
    | .mining _ _ _ => mining
    | .health _ _ _ => health
    | _ => .error "no such host"
  config := .ok sampleConfig
  stamps _ := none

/-- A table made in an outside in which everything works. -/
def playTable (around : Surroundings) (previous : Option RoutingTable) (w : Ambient) :
    (Except String RoutingTable × Unit) × Ambient :=
  ((makeRoutingTable sampleConfig previous : Setup Unit _) ()).play (ambient around)
    around.answer w

/-- The table of an outcome. -/
def playedTable (played : (Except String RoutingTable × Unit) × Ambient) : RoutingTable :=
  played.1.1.toOption.getD {}

theorem runs_playTable (around : Surroundings) (previous : Option RoutingTable) (w : Ambient)
    (h : (playTable around previous w).1 = (.ok (playedTable (playTable around previous w)), ())) :
    Runs (ambient around) w ((makeRoutingTable sampleConfig previous : Setup Unit _) ())
      (.ok (playedTable (playTable around previous w)), ()) (playTable around previous w).2 := by
  rw [← h]
  exact runs_play around.answer_allowed w _

/-- The table that is made first. -/
def sampleThen : Surroundings := sampleAround (.ok [sampleInfo 1, sampleInfo 2]) (.ok [sampleInfo 1])

def playThen : (Except String RoutingTable × Unit) × Ambient := playTable sampleThen none {}

/-- The first table of the example is made. -/
theorem playThen_ok : playThen.1 = (.ok (playedTable playThen), ()) := by decide +kernel

/-- The table that is made next, with the first at hand. -/
def playNow (mining health : Except String (List AddrInfo)) :
    (Except String RoutingTable × Unit) × Ambient :=
  playTable (sampleAround mining health) (some (playedTable playThen)) playThen.2

/-- The resolver rotates and repeats the addresses: the backend stays the object it was. -/
theorem routing_refresh_preserves_rotated :
    ∃ table, Runs (ambient (sampleAround (.ok [sampleInfo 2, sampleInfo 1, sampleInfo 2])
          (.ok [sampleInfo 1]))) playThen.2
        ((makeRoutingTable sampleConfig (some (playedTable playThen)) : Setup Unit _) ())
        (.ok table, ())
        (playNow (.ok [sampleInfo 2, sampleInfo 1, sampleInfo 2]) (.ok [sampleInfo 1])).2 ∧
      table.backends.map Backend.ref = [0] ∧ (table.backends.map Backend.ref).Nodup := by
  have hok : (playNow (.ok [sampleInfo 2, sampleInfo 1, sampleInfo 2]) (.ok [sampleInfo 1])).1 =
      (.ok (playedTable (playNow (.ok [sampleInfo 2, sampleInfo 1, sampleInfo 2])
        (.ok [sampleInfo 1]))), ()) := by decide +kernel
  have hkept : (playedTable (playNow (.ok [sampleInfo 2, sampleInfo 1, sampleInfo 2])
      (.ok [sampleInfo 1]))).backends.map Backend.ref = [0] := by decide +kernel
  have hthen := runs_playTable sampleThen none {} playThen_ok
  have hnow := runs_playTable _ _ _ hok
  exact ⟨_, hnow, hkept, (routing_refresh_preserves sampleConfig_accepted sampleConfig_accepted
    (fun _ hnone => by cases hnone) hthen (le_refl _) hnow).2.1⟩

/-! ## Following a backend that has moved -/

/-- The object has the fresh addresses of every host that has resolved. -/
def Followed (around : Surroundings) (item : String × BackendConfig) (backend : Backend) : Prop :=
  (∀ addresses, miningOutcome around item.1 item.2 = .ok addresses →
      SameSet addresses backend.socketAddresses) ∧
    (item.2.healthAddress ≠ "" → ∀ addresses,
      healthOutcome around item.1 item.2 = .ok addresses →
        SameSet addresses backend.healthSocketAddresses)

/-- Where just one of two hosts has resolved, it has the addresses of the object that is carried
over. -/
def StandsStill (around : Surroundings) (previous : Option RoutingTable)
    (item : String × BackendConfig) : Prop :=
  ∀ old, carriedOverBackend previous item.2 item.1 = some old →
    (∀ addresses text, miningOutcome around item.1 item.2 = .ok addresses →
      healthOutcome around item.1 item.2 = .error text →
        SameSet addresses old.socketAddresses) ∧
    (item.2.healthAddress ≠ "" → ∀ addresses text,
      healthOutcome around item.1 item.2 = .ok addresses →
      miningOutcome around item.1 item.2 = .error text →
        SameSet addresses old.healthSocketAddresses)

/-- An object for which both lookups have succeeded has their addresses. -/
theorem Routed.followed {item : String × BackendConfig}
    (h : Routed around previous item.1 item.2 heap backend heap')
    (hboth : HostsResolve around item.1 item.2) : Followed around item backend := by
  obtain ⟨⟨addresses, hmining⟩, healthAddresses, hhealth⟩ := hboth
  obtain ⟨hset, hhealthSet⟩ := Routed.sameHosts h hmining hhealth
  refine ⟨fun found hfound => ?_, fun _ found hfound => ?_⟩
  · rw [hmining] at hfound
    cases hfound
    exact hset
  · rw [hhealth] at hfound
    cases hfound
    exact hhealthSet

/-- The object that is carried over because a lookup has failed. -/
theorem followed_iff_of_failed {item : String × BackendConfig} {text : String}
    (hcarried : carriedOverBackend previous item.2 item.1 = some backend)
    (hfailed : miningOutcome around item.1 item.2 = .error text ∨
      healthOutcome around item.1 item.2 = .error text) :
    Followed around item backend ↔ StandsStill around previous item := by
  constructor
  · intro hfollowed old hold
    rw [hcarried] at hold
    cases hold
    exact ⟨fun addresses _ hmining _ => hfollowed.1 addresses hmining,
      fun hsome addresses _ hhealth _ => hfollowed.2 hsome addresses hhealth⟩
  · intro hstill
    obtain ⟨hmined, hchecked⟩ := hstill backend hcarried
    rcases hfailed with hfailed | hfailed
    · refine ⟨fun addresses hmining => ?_, fun hsome addresses hhealth => ?_⟩
      · rw [hfailed] at hmining
        cases hmining
      · exact hchecked hsome addresses text hhealth hfailed
    · refine ⟨fun addresses hmining => hmined addresses text hmining hfailed,
        fun _ addresses hhealth => ?_⟩
      rw [hfailed] at hhealth
      cases hhealth

/-- Where all hosts resolve there is nothing to stand still for. -/
theorem standsStill_of_resolved {item : String × BackendConfig}
    (hboth : HostsResolve around item.1 item.2) : StandsStill around previous item := by
  obtain ⟨⟨addresses, hmining⟩, healthAddresses, hhealth⟩ := hboth
  intro old _
  refine ⟨fun _ _ _ herror => ?_, fun _ _ _ _ herror => ?_⟩
  · rw [hhealth] at herror
    cases herror
  · rw [hmining] at herror
    cases herror

/-- One backend of the table. -/
theorem Routed.followed_iff {item : String × BackendConfig}
    (h : Routed around previous item.1 item.2 heap backend heap') :
    Followed around item backend ↔ StandsStill around previous item := by
  have hresolved : HostsResolve around item.1 item.2 →
      (Followed around item backend ↔ StandsStill around previous item) := fun hboth =>
    iff_of_true (Routed.followed h hboth) (standsStill_of_resolved hboth)
  cases h with
  | unresolved hcarried hfailed => exact followed_iff_of_failed hcarried hfailed
  | same _ hmining hhealth _ => exact hresolved ⟨⟨_, hmining⟩, _, hhealth⟩
  | fresh hmining hhealth _ => exact hresolved ⟨⟨_, hmining⟩, _, hhealth⟩

/-- **When a backend that has moved is followed**, whatever the previous table: exactly if,
where only one of its hosts has resolved, that one has not moved. -/
theorem moved_backend_followed {s s' : Unit}
    (hrun : Runs (ambient around) w ((makeRoutingTable second previous : Setup Unit _) s)
      (.ok table, s') w') :
    List.Forall₂ (fun item backend =>
        Followed around item backend ↔ StandsStill around previous item)
      second.backends table.backends := by
  apply (routes_of_runs hrun).forall₂.imp
  intro item backend hitem
  obtain ⟨y, y', _, hrouted, _⟩ := hitem
  exact Routed.followed_iff hrouted

/-- The mining host resolves to what it was, in another order, and the health host does not
resolve: the backend is followed. -/
theorem moved_backend_followed_rotated :
    ∃ table backend, (playNow (.ok [sampleInfo 2, sampleInfo 1]) (.error "try again")).1 =
        (.ok table, ()) ∧
      healthOutcome (sampleAround (.ok [sampleInfo 2, sampleInfo 1]) (.error "try again")) "main"
        sampleBackend = .error "cannot resolve health: try again" ∧
      table.backends = [backend] ∧
      Followed (sampleAround (.ok [sampleInfo 2, sampleInfo 1]) (.error "try again"))
        ("main", sampleBackend) backend := by
  have hok : (playNow (.ok [sampleInfo 2, sampleInfo 1]) (.error "try again")).1 =
      (.ok (playedTable (playNow (.ok [sampleInfo 2, sampleInfo 1]) (.error "try again"))), ()) := by
    decide +kernel
  have hmining : miningOutcome (sampleAround (.ok [sampleInfo 2, sampleInfo 1])
      (.error "try again")) "main" sampleBackend =
        .ok (usableAddresses [sampleInfo 2, sampleInfo 1]) := by decide +kernel
  have hhealth : healthOutcome (sampleAround (.ok [sampleInfo 2, sampleInfo 1])
      (.error "try again")) "main" sampleBackend =
        .error "cannot resolve health: try again" := by decide +kernel
  have hsame : (playedTable (playNow (.ok [sampleInfo 2, sampleInfo 1])
      (.error "try again"))).backends = (playedTable playThen).backends := by decide +kernel
  have hone : (playedTable playThen).backends.map Backend.socketAddresses =
      [usableAddresses [sampleInfo 1, sampleInfo 2]] := by decide +kernel
  have hperm : (usableAddresses [sampleInfo 2, sampleInfo 1]).Perm
      (usableAddresses [sampleInfo 1, sampleInfo 2]) := by decide +kernel
  obtain ⟨backend, hbackend, haddresses⟩ := List.map_eq_singleton_iff.mp hone
  have htable := hsame.trans hbackend
  have hlast : StandsStill (sampleAround (.ok [sampleInfo 2, sampleInfo 1]) (.error "try again"))
      (some (playedTable playThen)) ("main", sampleBackend) := by
    intro old hold
    obtain ⟨_, htable, hmem, _⟩ := mem_of_carriedOver hold
    cases htable
    rw [hbackend, List.mem_singleton] at hmem
    subst hmem
    refine ⟨fun addresses _ hfound _ => ?_, fun _ addresses _ hfound _ => ?_⟩
    · rw [hmining] at hfound
      cases hfound
      rw [haddresses]
      exact fun address => hperm.mem_iff
    · rw [hhealth] at hfound
      cases hfound
  have hfollowed := moved_backend_followed (runs_playTable _ _ _ hok)
  refine ⟨_, backend, hok, hhealth, htable, ?_⟩
  exact (List.forall₂_cons.mp (htable ▸ hfollowed)).1.mpr hlast

/-- **A backend that has moved is lost sight of** while its health host does not resolve:
the mining host resolves to a new address, and the refresh keeps the two old ones. -/
theorem moved_backend_not_followed :
    ∃ table item backend, Runs (ambient (sampleAround (.ok [sampleInfo 3]) (.error "try again")))
        playThen.2 ((makeRoutingTable sampleConfig (some (playedTable playThen)) : Setup Unit _) ())
        (.ok table, ()) (playNow (.ok [sampleInfo 3]) (.error "try again")).2 ∧
      sampleConfig.Accepted (fun _ => none) ∧ sampleConfig.backends = [item] ∧
      table.backends = [backend] ∧
      miningOutcome (sampleAround (.ok [sampleInfo 3]) (.error "try again")) item.1 item.2 =
        .ok (usableAddresses [sampleInfo 3]) ∧
      backend.socketAddresses = usableAddresses [sampleInfo 1, sampleInfo 2] := by
  have hok : (playNow (.ok [sampleInfo 3]) (.error "try again")).1 =
      (.ok (playedTable (playNow (.ok [sampleInfo 3]) (.error "try again"))), ()) := by
    decide +kernel
  have hbackends : (playedTable (playNow (.ok [sampleInfo 3]) (.error "try again"))).backends =
      (playedTable playThen).backends := by decide +kernel
  have hone : (playedTable playThen).backends.map Backend.socketAddresses =
      [usableAddresses [sampleInfo 1, sampleInfo 2]] := by decide +kernel
  obtain ⟨backend, hbackend, haddresses⟩ := List.map_eq_singleton_iff.mp hone
  exact ⟨_, ("main", sampleBackend), backend, runs_playTable _ _ _ hok, sampleConfig_accepted,
    rfl, hbackends.trans hbackend, by decide +kernel, haddresses⟩

end PoolLb.Router
