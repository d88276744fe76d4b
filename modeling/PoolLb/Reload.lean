import PoolLb.CarriedOver
import PoolLb.TlsLoading

/-!
# The reload is all or nothing

A reload on SIGHUP replaces the configuration, the published routes, the limit on queued
bytes, the TLS contexts and the certificate states, one after the other and by four
modules.  Wherever it fails, none of them has been replaced, since everything that can
fail comes before the first of them.

The argument needs what holds of the main thread at all times: the TLS contexts are those
of the current configuration.  It matters where the replacement has no TLS listener, for
then `reload_tls` does nothing at all.
-/

namespace PoolLb.Service

open Interaction Handler

/-! ## Code that only looks -/

section

variable {σ : Type}

/-- Resolving a name changes nothing of the main thread. -/
theorem resolveHost_quiet (address : String) (lookup : Endpoint → Lookup) :
    Quiet (Router.resolveHost address lookup : Setup σ _) :=
  (quiet_ofExcept _).bind fun _ => (quiet_ask _).bind fun _ => quiet_ofExcept _

/-- Nor does resolving both names of a backend. -/
theorem resolveHosts_quiet (config : BackendConfig) (poolName : String) :
    Quiet (Router.resolveHosts config poolName : Setup σ _) := by
  unfold Router.resolveHosts
  apply (resolveHost_quiet _ _).bind
  intro addresses
  split
  · exact quiet_pure _
  · exact (resolveHost_quiet _ _).bind fun _ => quiet_pure _

/-- A backend is resolved, and its object is made outside. -/
theorem resolveBackend_quiet (carriedOver : Option Backend) (config : BackendConfig)
    (poolName : String) : Quiet (Router.resolveBackend carriedOver config poolName : Setup σ _) := by
  unfold Router.resolveBackend
  apply (resolveHosts_quiet config poolName).attempt.bind
  intro outcome
  cases outcome with
  | error text =>
      cases carriedOver with
      | none => exact quiet_stop text
      | some backend => exact quiet_pure backend
  | ok result =>
      dsimp only
      split
      · exact quiet_pure _
      · exact (quiet_ask _).bind fun _ => quiet_pure _

theorem routeBackend_quiet (previous : Option RoutingTable) (sources : List SocketAddress)
    (poolName : String) (config : BackendConfig) :
    Quiet (Router.routeBackend previous sources poolName config : Setup σ _) := by
  unfold Router.routeBackend
  apply (resolveBackend_quiet _ _ _).bind
  intro backend
  split
  · exact quiet_stop _
  · exact quiet_pure _

/-- **A routing table is built without touching the service.** -/
theorem makeRoutingTable_quiet (config : ServiceConfig) (previous : Option RoutingTable) :
    Quiet (Router.makeRoutingTable config previous : Setup σ _) := by
  have hsource : ∀ host, Quiet (Router.routeSource host : Setup σ _) := fun host =>
    (quiet_ask _).bind fun _ => quiet_ofExcept _
  have hpool : ∀ sources pool, Quiet (Router.routePool previous sources pool : Setup σ _) :=
    fun sources pool =>
      (Quiet.each (routeBackend_quiet previous sources pool.name) _).bind fun _ => quiet_pure _
  exact (Quiet.each hsource _).bind fun sources =>
    (Quiet.each (hpool sources) _).bind fun _ => quiet_pure _

end

/-- The limit on descriptors is only read. -/
theorem validateFileDescriptorLimit_quiet (config : ServiceConfig) :
    Quiet (validateFileDescriptorLimit config) := by
  unfold validateFileDescriptorLimit
  apply (quiet_ask _).bind
  intro limit
  split
  · exact quiet_stop _
  · split
    · exact quiet_stop _
    · dsimp only
      split
      · exact quiet_stop _
      · exact quiet_pure _

variable {around : Nat → Surroundings} {x x' y y' : Nat × Ambient} {s s' : Service}

/-! ## The objects of a table -/

/-- The backend is an object that is there. -/
def Allocated (x : Nat × Ambient) (backend : Backend) : Prop :=
  backend.ref < x.2.heap.allocated

theorem Allocated.mono {backend : Backend} (h : Allocated x backend) (hsince : Since x x') :
    Allocated x' backend := Nat.lt_of_lt_of_le h hsince.heap.allocated

/-- The backend is the old object or a new one; either is there. -/
theorem resolveBackend_allocated {carriedOver : Option Backend} {config : BackendConfig}
    {poolName : String} (hcarried : ∀ backend, carriedOver = some backend → Allocated x backend) :
    Holds (overTime around) s x (Router.resolveBackend carriedOver config poolName)
      (fun backend _ x' => Since x x' ∧ Allocated x' backend) (fun _ _ _ => True) := by
  unfold Router.resolveBackend
  apply (holds_since.mono (fun _ _ _ h => h) fun _ _ _ _ => trivial).bind
  intro outcome s₁ x₁ hsince
  cases outcome with
  | error text =>
      cases carriedOver with
      | none => trivial
      | some backend => exact ⟨hsince, (hcarried backend rfl).mono hsince⟩
  | ok result =>
      dsimp only
      split
      · rename_i backend hkept
        have hsome := (Option.filter_eq_some_iff.mp hkept).1
        exact ⟨hsince, (hcarried backend hsome).mono hsince⟩
      · refine holds_ask_bind trivial fun ref href => ?_
        have href : ref = x₁.2.heap.allocated := href
        rw [href]
        exact ⟨hsince.trans (since_after _ _), Nat.lt_succ_self _⟩

theorem routeBackend_allocated {previous : Option RoutingTable} {sources : List SocketAddress}
    {poolName : String} {config : BackendConfig}
    (hprevious : ∀ table, previous = some table → ∀ backend ∈ table.backends, Allocated x backend) :
    Holds (overTime around) s x (Router.routeBackend previous sources poolName config)
      (fun backend _ x' => Since x x' ∧ Allocated x' backend) (fun _ _ _ => True) := by
  unfold Router.routeBackend
  apply (resolveBackend_allocated _).bind
  · intro backend s₁ x₁ h
    split
    · trivial
    · exact h
  · intro backend hcarried
    obtain ⟨table, htable, hmem, _⟩ := Router.mem_of_carriedOver hcarried
    exact hprevious table htable backend hmem

/-- Results that are there when they are made are still there in the end. -/
theorem chain_allocated {α β : Type} {items : List α} {results : List β}
    {backends : β → List Backend}
    (h : Chain (fun _ y result y' => Since y y' ∧ ∀ backend ∈ backends result, Allocated y' backend)
      items x results x') :
    Since x x' ∧ ∀ result ∈ results, ∀ backend ∈ backends result, Allocated x' backend := by
  induction h with
  | nil x => exact ⟨.refl x, fun _ hmem => nomatch hmem⟩
  | cons hfirst _ ih =>
      obtain ⟨hsince, hrest⟩ := ih
      refine ⟨hfirst.1.trans hsince, List.forall_mem_cons.mpr ⟨fun backend hmem => ?_, hrest⟩⟩
      exact (hfirst.2 backend hmem).mono hsince

theorem routePool_allocated {previous : Option RoutingTable} {sources : List SocketAddress}
    {config : PoolConfig}
    (hprevious : ∀ table, previous = some table → ∀ backend ∈ table.backends, Allocated y backend)
    (hsince : Since y x) :
    Holds (overTime around) s x (Router.routePool previous sources config)
      (fun state _ x' => Since y x' ∧ Since x x' ∧ ∀ backend ∈ state.backends, Allocated x' backend)
      (fun _ _ _ => True) := by
  unfold Router.routePool
  have heach : Holds (overTime around) s x
      (each (Router.routeBackend previous sources config.name) config.backends)
      (fun backends _ x' => Since y x' ∧ Chain (fun _ z backend z' => Since z z' ∧
        ∀ other ∈ [backend], Allocated z' other) config.backends x backends x')
      (fun _ _ _ => True) := by
    apply Holds.each (J := fun _ z => Since y z) _ hsince
    intro item _ s z hz
    refine (routeBackend_allocated fun table htable backend hmem => ?_).mono
      (fun backend _ z' h => ⟨hz.trans h.1, h.1, ?_⟩) fun _ _ _ h => h
    · exact (hprevious table htable backend hmem).mono hz
    · exact List.forall_mem_singleton.mpr h.2
  apply heach.bind
  intro backends s' x' h
  obtain ⟨hafter, hthere⟩ := chain_allocated h.2
  exact ⟨h.1, hafter, fun backend hmem => hthere backend hmem backend List.mem_cons_self⟩

/-- Every object of a routing table is there, if those of the previous one are. -/
theorem makeRoutingTable_allocated {previous : Option RoutingTable} {config : ServiceConfig}
    (hprevious : ∀ table, previous = some table → ∀ backend ∈ table.backends, Allocated x backend) :
    Holds (overTime around) s x (Router.makeRoutingTable config previous)
      (fun table _ x' => ∀ backend ∈ table.backends, Allocated x' backend)
      (fun _ _ _ => True) := by
  unfold Router.makeRoutingTable
  apply (holds_since.mono (fun _ _ _ h => h) fun _ _ _ _ => trivial).bind
  intro sources s₁ x₁ hsince
  have heach : Holds (overTime around) s₁ x₁ (each (Router.routePool previous sources) config.pools)
      (fun pools _ x' => Since x x' ∧ Chain (fun _ z pool z' => Since z z' ∧
        ∀ backend ∈ PoolState.backends pool, Allocated z' backend) config.pools x₁ pools x')
      (fun _ _ _ => True) := by
    apply Holds.each (J := fun _ z => Since x z) _ hsince
    intro pool _ s z hz
    exact routePool_allocated hprevious hz
  apply heach.bind
  intro pools s₂ x₂ h backend hmem
  obtain ⟨pool, hpool, hbackend⟩ := List.mem_flatMap.mp hmem
  exact (chain_allocated h.2).2 pool hpool backend hbackend

/-! ## One reload -/

section

variable {numericKey : String → Option Bytes}

/-- The configuration that is read was in the file at some moment, and is valid. -/
theorem fromFile_holds :
    Holds (overTime around) s x (fromFile numericKey)
      (fun config s' x' => s' = s ∧ Since x x' ∧
        (During x x' fun t => (around t).config = .ok config) ∧
        config.validate numericKey = .ok ())
      (fun _ s' _ => s' = s) := by
  unfold fromFile
  refine holds_ask_bind trivial fun answer hanswer => ?_
  have hanswer : answer = (around x.1).config := hanswer
  apply Holds.bind (Q := fun config s' x' => (s' = s ∧ x' = (x.1 + 1, x.2)) ∧
    answer = .ok config)
  · apply holds_ofExcept
    · intro config hconfig
      exact ⟨⟨rfl, rfl⟩, hconfig⟩
    · intro text _
      exact rfl
  · intro config s₁ x₁ h
    obtain ⟨⟨hs, hx⟩, hconfig⟩ := h
    subst hs hx
    apply Holds.bind (Q := fun _ s' x' => (s' = s₁ ∧ x' = (x.1 + 1, x.2)) ∧
      config.validate numericKey = .ok ())
    · apply holds_ofExcept
      · intro _ hvalid
        exact ⟨⟨rfl, rfl⟩, hvalid⟩
      · intro text _
        exact rfl
    · intro _ s₂ x₂ h
      obtain ⟨⟨hs, hx⟩, hvalid⟩ := h
      subst hs hx
      have hsince : Since x ((overTime around).after x .readConfig answer) := since_after _ _
      exact ⟨rfl, hsince, ⟨x.1, le_refl _, Nat.lt_succ_self _, hanswer.symm.trans hconfig⟩, hvalid⟩

/-- The table is what `make_routing_table` made of the configuration at some time between
the two. -/
def Built (around : Nat → Surroundings) (config : ServiceConfig) (previous : Option RoutingTable)
    (x : Nat × Ambient) (routing : RoutingTable) (x' : Nat × Ambient) : Prop :=
  ∃ (s : Service) (y y' : Nat × Ambient), x.1 ≤ y.1 ∧ y'.1 ≤ x'.1 ∧
    Runs (overTime around) y ((Router.makeRoutingTable config previous : MainM _) s)
      (.ok routing, s) y'

theorem Built.mono {config : ServiceConfig} {previous : Option RoutingTable}
    {routing : RoutingTable} (h : Built around config previous x routing x')
    (hbefore : y.1 ≤ x.1) (hafter : x'.1 ≤ y'.1) : Built around config previous y routing y' := by
  obtain ⟨s, z, z', hlow, hhigh, hrun⟩ := h
  exact ⟨s, z, z', hbefore.trans hlow, hhigh.trans hafter, hrun⟩

/-- **`make_routing_table`**, as the main thread calls it. -/
theorem makeRoutingTable_built {previous : Option RoutingTable} {config : ServiceConfig}
    (hprevious : ∀ table, previous = some table → ∀ backend ∈ table.backends, Allocated x backend) :
    Holds (overTime around) s x (Router.makeRoutingTable config previous)
      (fun routing s' x' => s' = s ∧ Since x x' ∧ Built around config previous x routing x' ∧
        ∀ backend ∈ routing.backends, Allocated x' backend)
      (fun _ s' _ => s' = s) := by
  have hrun : Holds (overTime around) s x (Router.makeRoutingTable config previous)
      (fun routing s' x' => Runs (overTime around) x
        ((Router.makeRoutingTable config previous : MainM _) s) (.ok routing, s') x')
      (fun text s' x' => Runs (overTime around) x
        ((Router.makeRoutingTable config previous : MainM _) s) (.error text, s') x') :=
    holds_runs fun _ _ => trivial
  refine ((hrun.and (makeRoutingTable_allocated hprevious)).quiet
    (makeRoutingTable_quiet config previous)).mono (fun routing s' x' h => ?_) fun _ _ _ h => h.1
  obtain ⟨hs, hrun, hthere⟩ := h
  exact ⟨hs, since_of_runs hrun, ⟨s, x, x', le_refl _, le_refl _, hrun⟩, hthere⟩

/-- What is so of the main thread at all times: what is published is the current
configuration, with routes that were built from it and contexts that were loaded for it. -/
structure Running (around : Nat → Surroundings) (s : Service) (x : Nat × Ambient) : Prop where
  published : ∃ routing, s.runtime = some { config := s.config, routing := routing } ∧
    (∃ previous y, Built around s.config previous y routing x) ∧
    ∀ backend ∈ routing.backends, Allocated x backend
  queuedBytesLimit : s.queuedBytesLimit = s.config.limits.maxQueuedBytes
  tls : ∃ y y', LoadedFor around s.config y s.tlsContexts s.tlsCertificates y' ∧ y'.1 ≤ x.1

/-- The tuple is entirely that of the replacement. -/
structure Replaced (numericKey : String → Option Bytes) (around : Nat → Surroundings)
    (s : Service) (x : Nat × Ambient) (replacement : ServiceConfig) (s' : Service)
    (x' : Nat × Ambient) : Prop where
  read : During x x' fun t => (around t).config = .ok replacement
  valid : replacement.validate numericKey = .ok ()
  config : s'.config = replacement
  runtime : ∃ routing, s'.runtime = some { config := replacement, routing := routing } ∧
    Built around replacement (s.runtime.map PublishedRuntime.routing) x routing x' ∧
    ∀ backend ∈ routing.backends, Allocated x' backend
  queuedBytesLimit : s'.queuedBytesLimit = replacement.limits.maxQueuedBytes
  tls : ∃ y y', Since x y ∧
    LoadedFor around replacement y s'.tlsContexts s'.tlsCertificates y' ∧ Since y' x'
  tlsFingerprint : s'.tlsFingerprint = s.tlsFingerprint

/-- The tuple is entirely unchanged, and so is everything else but the count of failures. -/
def Unchanged (s s' : Service) : Prop := s' = s ∨ s' = s.withTlsFailure

/-- The listeners of two configurations that need no restart. -/
theorem equalBy_sameTopology {listeners others : List ListenerConfig}
    (h : ServiceConfig.equalBy ServiceConfig.sameTopology listeners others = true) :
    List.Forall₂ (fun listener other => listener.tls = other.tls) listeners others := by
  induction listeners generalizing others with
  | nil =>
      cases others with
      | nil => exact .nil
      | cons other rest => cases h
  | cons listener rest ih =>
      cases others with
      | nil => cases h
      | cons other others =>
          simp only [ServiceConfig.equalBy, ServiceConfig.sameTopology, Bool.and_eq_true,
            decide_eq_true_eq] at h
          exact .cons h.1.2.2 (ih h.2)

/-- A reload that needs no restart has TLS on the same listeners. -/
theorem topology_of_no_changes {config replacement : ServiceConfig}
    (h : config.restartRequiredChanges replacement = []) :
    List.Forall₂ (fun listener other => listener.tls = other.tls) config.listeners
      replacement.listeners := by
  simp only [ServiceConfig.restartRequiredChanges, List.append_eq_nil_iff] at h
  apply equalBy_sameTopology
  by_contra hdifferent
  rw [if_neg hdifferent] at h
  exact absurd h.1.1 (List.cons_ne_nil _ _)

/-- Where the replacement has no TLS listener, what is loaded is already that of the
replacement. -/
theorem LoadedFor.carried {config replacement : ServiceConfig}
    {contexts : List (Option TlsContext)} {certificates : List TlsCertificateStatus}
    (h : LoadedFor around config y contexts certificates y')
    (htopology : List.Forall₂ (fun listener other => listener.tls = other.tls) config.listeners
      replacement.listeners)
    (hplain : ∀ listener ∈ replacement.listeners, listener.tls = false) :
    LoadedFor around replacement x contexts certificates x := by
  have hbefore : ∀ listener ∈ config.listeners, listener.tls = false := by
    intro listener hmem
    obtain ⟨other, hother, hsame⟩ := Router.Forall₂.exists_of_mem htopology hmem
    rw [hsame, hplain other hother]
  obtain ⟨hcontexts, hcertificates⟩ := h.eq_plain hbefore
  have hlength : config.listeners.map (fun _ => (none : Option TlsContext)) =
      replacement.listeners.map fun _ => none := by
    simp only [List.map_const', htopology.length_eq]
  rw [hcontexts, hcertificates, hlength]
  exact loadedFor_plain x hplain

/-- The backends that are published are there. -/
theorem Running.previous {table : RoutingTable} (h : Running around s x)
    (htable : s.runtime.map PublishedRuntime.routing = some table) :
    ∀ backend ∈ table.backends, Allocated x backend := by
  obtain ⟨routing, hruntime, _, hthere⟩ := h.published
  rw [hruntime] at htable
  cases htable
  exact hthere

/-- The `try` block of the reload: everything is replaced, or nothing. -/
theorem replaceConfiguration_holds (h : Running around s x) :
    Holds (overTime around) s x (replaceConfiguration numericKey)
      (fun _ s' x' => s' = s ∨ ∃ replacement,
        Replaced numericKey around s x replacement s' x')
      (fun _ s' _ => Unchanged s s') := by
  unfold replaceConfiguration
  apply (fromFile_holds.mono (fun _ _ _ h => h) fun _ _ _ h => .inl h).bind
  intro replacement s₁ x₁ hread
  obtain ⟨hs, hsince₁, hread, hvalid⟩ := hread
  subst hs
  apply ((holds_since.quiet (validateFileDescriptorLimit_quiet replacement)).mono
    (fun _ _ _ h => h) fun _ _ _ h => .inl h.1).bind
  intro _ s₂ x₂ hlimit
  obtain ⟨hs, hsince₂⟩ := hlimit
  subst hs
  apply holds_current_bind
  split
  · exact .inl rfl
  · rename_i hchanges
    have htopology := topology_of_no_changes (not_ne_iff.mp hchanges)
    have hbefore : Since x x₂ := hsince₁.trans hsince₂
    apply ((makeRoutingTable_built fun table htable backend hmem =>
      (h.previous htable backend hmem).mono hbefore).mono (fun _ _ _ h => h) fun _ _ _ h => .inl h).bind
    intro routing s₃ x₃ hrouting
    obtain ⟨hs, hsince₃, hbuilt, hthere⟩ := hrouting
    subst hs
    apply ((reloadTls_holds replacement).mono (fun _ _ _ h => h) fun _ _ _ h => .inr h).bind
    intro _ s₄ x₄ htls
    -- from here on nothing can fail
    have hsince₄ : Since x x₃ := hbefore.trans hsince₃
    refine .inr ⟨replacement, ?_⟩
    cases htls with
    | nothing hplain =>
        obtain ⟨y, y', hloaded, _⟩ := h.tls
        exact
          { read := hread.mono (.refl x) (hsince₂.trans hsince₃)
            valid := hvalid
            config := rfl
            runtime := ⟨routing, rfl, hbuilt.mono hbefore.moment (le_refl _), hthere⟩
            queuedBytesLimit := rfl
            tls := ⟨x₃, x₃, hsince₄, hloaded.carried htopology hplain, .refl x₃⟩
            tlsFingerprint := rfl }
    | replaced hloaded =>
        have hsince₅ := hloaded.since
        exact
          { read := hread.mono (.refl x) ((hsince₂.trans hsince₃).trans hsince₅)
            valid := hvalid
            config := rfl
            runtime := ⟨routing, rfl, hbuilt.mono hbefore.moment hsince₅.moment,
              fun backend hmem => (hthere backend hmem).mono hsince₅⟩
            queuedBytesLimit := rfl
            tls := ⟨x₃, x₄, hsince₄, hloaded, .refl x₄⟩
            tlsFingerprint := rfl }

/-- **The reload.** -/
theorem reload_holds (h : Running around s x) :
    Holds (overTime around) s x (reload numericKey)
      (fun _ s' x' => Since x x' ∧ (Unchanged s s' ∨ ∃ replacement,
        Replaced numericKey around s x replacement s' x'))
      (fun _ _ _ => False) := by
  unfold reload
  apply Holds.bind (Q := fun _ s' x' => Since x x' ∧ (Unchanged s s' ∨ ∃ replacement,
    Replaced numericKey around s x replacement s' x'))
  · apply holds_attempt
    refine (holds_since.and (replaceConfiguration_holds h)).mono (fun _ s' x' hend => ?_)
      fun _ s' x' hend => ⟨hend.1, .inl hend.2⟩
    refine ⟨hend.1, ?_⟩
    rcases hend.2 with hsame | hreplaced
    · exact .inl (.inl hsame)
    · exact .inr hreplaced
  · intro _ s' x' hend
    exact hend

/-- Only some of the state matters, and the objects may only get more. -/
theorem Running.mono (h : Running around s x)
    (hfields : s'.config = s.config ∧ s'.runtime = s.runtime ∧
      s'.queuedBytesLimit = s.queuedBytesLimit ∧ s'.tlsContexts = s.tlsContexts ∧
      s'.tlsCertificates = s.tlsCertificates)
    (hmoment : x.1 ≤ x'.1) (hallocated : x.2.heap.allocated ≤ x'.2.heap.allocated) :
    Running around s' x' := by
  obtain ⟨hconfig, hruntime, hlimit, hcontexts, hcertificates⟩ := hfields
  obtain ⟨routing, hpublished, ⟨previous, y, hbuilt⟩, hthere⟩ := h.published
  obtain ⟨z, z', hloaded, hbefore⟩ := h.tls
  constructor
  · rw [hruntime, hconfig]
    exact ⟨routing, hpublished, ⟨previous, y, hbuilt.mono (le_refl _) hmoment⟩,
      fun backend hmem => Nat.lt_of_lt_of_le (hthere backend hmem) hallocated⟩
  · rw [hlimit, hconfig]
    exact h.queuedBytesLimit
  · rw [hcontexts, hcertificates, hconfig]
    exact ⟨z, z', hloaded, hbefore.trans hmoment⟩

/-- A failure to load TLS files keeps the main thread as it is. -/
theorem Running.unchanged (h : Running around s x) (hsame : Unchanged s s') (hsince : Since x x') :
    Running around s' x' := by
  apply h.mono _ hsince.moment hsince.heap.allocated
  rcases hsame with hs | hs
  · rw [hs]
    exact ⟨rfl, rfl, rfl, rfl, rfl⟩
  · rw [hs]
    exact ⟨rfl, rfl, rfl, rfl, rfl⟩

/-- **After a reload all is again of one configuration.** -/
theorem Replaced.running {replacement : ServiceConfig}
    (h : Replaced numericKey around s x replacement s' x') : Running around s' x' := by
  obtain ⟨routing, hruntime, hbuilt, hthere⟩ := h.runtime
  obtain ⟨y, y', _, hloaded, hafter⟩ := h.tls
  constructor
  · rw [hruntime, h.config]
    exact ⟨routing, rfl, ⟨_, x, hbuilt⟩, hthere⟩
  · rw [h.queuedBytesLimit, h.config]
  · rw [h.config]
    exact ⟨y, y', hloaded, hafter.moment⟩

/-! ## The rest of the loop -/

/-- What a refresh of the addresses can do. -/
inductive Refreshed (around : Nat → Surroundings) (s : Service) (x : Nat × Ambient) :
    Service → Nat × Ambient → Prop where
  | kept {x' : Nat × Ambient} (hsince : Since x x') : Refreshed around s x s x'
  | renewed {routing : RoutingTable} {x' : Nat × Ambient} (hsince : Since x x')
      (hbuilt : Built around s.config (s.runtime.map PublishedRuntime.routing) x routing x')
      (hthere : ∀ backend ∈ routing.backends, Allocated x' backend) :
      Refreshed around s x
        { s with
          queuedBytesLimit := s.config.limits.maxQueuedBytes
          runtime := some { config := s.config, routing := routing } } x'

/-- A refresh publishes new routes, or none at all. -/
theorem refreshAddresses_holds (h : Running around s x) :
    Holds (overTime around) s x refreshAddresses
      (fun _ s' x' => Refreshed around s x s' x') (fun _ _ _ => False) := by
  unfold refreshAddresses
  apply holds_current_bind
  apply Holds.bind (Q := fun _ s' x' => Refreshed around s x s' x')
  · apply holds_attempt
    have htable : Holds (overTime around) s x
        (Router.makeRoutingTable s.config (s.runtime.map PublishedRuntime.routing))
        (fun routing s' x' => (s' = s ∧ Since x x' ∧
          Built around s.config (s.runtime.map PublishedRuntime.routing) x routing x' ∧
          ∀ backend ∈ routing.backends, Allocated x' backend))
        (fun _ s' x' => Refreshed around s x s' x') :=
      ((makeRoutingTable_built fun table => h.previous).and holds_since).mono
        (fun _ _ _ h => h.1) fun _ s' x' h => by
          obtain ⟨hs, hsince⟩ := h
          rw [hs]
          exact .kept hsince
    apply htable.bind
    intro routing s₁ x₁ h
    obtain ⟨hs, hsince, hbuilt, hthere⟩ := h
    subst hs
    exact .renewed hsince hbuilt hthere
  · intro _ s' x' h
    exact h

/-- After a refresh the routes are still those of the configuration. -/
theorem Refreshed.running (h : Running around s x) (hdone : Refreshed around s x s' x') :
    Running around s' x' := by
  cases hdone with
  | kept hsince => exact h.unchanged (.inl rfl) hsince
  | renewed hsince hbuilt hthere =>
      obtain ⟨y, y', hloaded, hbefore⟩ := h.tls
      exact
        { published := ⟨_, rfl, ⟨_, x, hbuilt⟩, hthere⟩
          queuedBytesLimit := rfl
          tls := ⟨y, y', hloaded, hbefore.trans hsince.moment⟩ }

/-- After a poll the contexts are still those of the configuration. -/
theorem Polled.running (h : Running around s x) (hdone : Polled around s x s' x') :
    Running around s' x' := by
  have hsince := hdone.since
  cases hdone with
  | same => exact h.unchanged (.inl rfl) hsince
  | failed => exact h.unchanged (.inr rfl) hsince
  | reloaded hread hreloaded =>
      cases hreloaded with
      | nothing => exact h.mono ⟨rfl, rfl, rfl, rfl, rfl⟩ hsince.moment hsince.heap.allocated
      | replaced hloaded =>
          obtain ⟨routing, hruntime, ⟨previous, y, hbuilt⟩, hthere⟩ := h.published
          exact
            { published := ⟨routing, hruntime, ⟨previous, y, hbuilt.mono (le_refl _) hsince.moment⟩,
                fun backend hmem => (hthere backend hmem).mono hsince⟩
              queuedBytesLimit := h.queuedBytesLimit
              tls := ⟨_, _, hloaded, le_refl _⟩ }

/-- The timers of the loop. -/
def withTimers (s : Service) (nextAddressRefresh nextTlsPoll : Nat) : Service :=
  { s with nextAddressRefresh := nextAddressRefresh, nextTlsPoll := nextTlsPoll }

/-- The timers of the loop play no part. -/
theorem Running.withTimers (h : Running around s x) (first second : Nat) :
    Running around (s.withTimers first second) x :=
  h.mono ⟨rfl, rfl, rfl, rfl, rfl⟩ (le_refl _) (le_refl _)

/-- A refresh, if it is due. -/
theorem refreshDue_holds (h : Running around s x) (now : Nat) :
    Holds (overTime around) s x (refreshDue now)
      (fun _ s' x' => ∃ first second, Refreshed around (s.withTimers first second) x s' x')
      (fun _ _ _ => False) := by
  unfold refreshDue
  apply holds_current_bind
  split
  · apply holds_modify_bind
    exact (refreshAddresses_holds (h.withTimers (now + kAddressRefreshInterval) s.nextTlsPoll)).mono
      (fun _ _ _ h => ⟨_, _, h⟩) fun _ _ _ h => h
  · exact ⟨s.nextAddressRefresh, s.nextTlsPoll, .kept (.refl x)⟩

/-- A poll of the TLS files, if it is due. -/
theorem pollDue_holds (now : Nat) :
    Holds (overTime around) s x (pollDue now)
      (fun _ s' x' => (s' = s ∧ x' = x) ∨
        ∃ first second, Polled around (s.withTimers first second) x s' x')
      (fun _ _ _ => False) := by
  unfold pollDue
  apply holds_current_bind
  split
  · apply holds_modify_bind
    exact (pollTls_holds (s := s.withTimers s.nextAddressRefresh (now + kTlsMaterialPollInterval))).mono
      (fun _ _ _ h => .inr ⟨_, _, h⟩) fun _ _ _ h => h
  · exact .inl ⟨rfl, rfl⟩

/-! ## Start-up -/

/-- The address of a listener is only looked up. -/
theorem resolveListener_quiet (listener : ListenerConfig) : Quiet (resolveListener listener) := by
  unfold resolveListener
  apply (resolveHost_quiet _ _).bind
  intro addresses
  split
  · exact quiet_stop _
  · exact quiet_pure _

/-- Start-up loads the contexts of the configuration that it starts with. -/
theorem makeEdgeServer_holds (config : ServiceConfig) :
    Holds (overTime around) s x (makeEdgeServer config)
      (fun _ s' x' => ∃ templates contexts certificates y, Since x y ∧
        LoadedFor around config y contexts certificates x' ∧
        s' = { s with
          listenerTemplates := templates
          tlsContexts := contexts
          tlsCertificates := certificates })
      (fun _ _ _ => True) := by
  unfold makeEdgeServer
  apply ((holds_since.quiet (Quiet.each resolveListener_quiet config.listeners)).mono
    (fun _ _ _ h => h) fun _ _ _ _ => trivial).bind
  intro templates s₁ x₁ h
  obtain ⟨hs, hsince⟩ := h
  subst hs
  apply holds_modify_bind
  apply ((loadTlsContexts_holds config).mono (fun _ _ _ h => h) fun _ _ _ _ => trivial).bind
  intro loaded s₂ x₂ h
  obtain ⟨hs, hloaded⟩ := h
  subst hs
  obtain ⟨contexts, certificates⟩ := loaded
  apply ((publishContexts_holds contexts).mono (fun _ _ _ h => h) fun _ _ _ _ => trivial).bind
  intro _ s₃ x₃ h
  obtain ⟨hs, hx⟩ := h
  subst hs hx
  exact ⟨templates, contexts, certificates, x₁, hsince, hloaded, rfl⟩

/-- What start-up has done when the loop begins. -/
structure Started (around : Nat → Surroundings) (x : Nat × Ambient) (s' : Service)
    (x' : Nat × Ambient) : Prop where
  running : Running around s' x'
  read : During x x' fun t => (around t).config = .ok s'.config
  tls : ∃ y y' z, Since x y ∧ LoadedFor around s'.config y s'.tlsContexts s'.tlsCertificates y' ∧
    Fingerprinted around s'.config y' s'.tlsFingerprint z ∧ Since z x'

/-- **What start-up has done when the loop begins.** -/
theorem start_holds :
    Holds (overTime around) s x (start numericKey) (fun _ s' x' => Started around x s' x')
      (fun _ _ _ => True) := by
  unfold start
  apply (fromFile_holds.mono (fun _ _ _ h => h) fun _ _ _ _ => trivial).bind
  intro config s₁ x₁ hread
  obtain ⟨hs, hsince₁, hread, _⟩ := hread
  subst hs
  apply ((holds_since.quiet (validateFileDescriptorLimit_quiet config)).mono
    (fun _ _ _ h => h) fun _ _ _ _ => trivial).bind
  intro _ s₂ x₂ hlimit
  obtain ⟨hs, hsince₂⟩ := hlimit
  subst hs
  have hnone : ∀ table, (none : Option RoutingTable) = some table →
      ∀ backend ∈ table.backends, Allocated x₂ backend := by
    intro table htable
    cases htable
  apply ((makeRoutingTable_built hnone).mono (fun _ _ _ h => h) fun _ _ _ _ => trivial).bind
  intro routing s₃ x₃ hrouting
  obtain ⟨hs, hsince₃, hbuilt, hthere⟩ := hrouting
  subst hs
  apply holds_modify_bind
  apply holds_modify_bind
  apply (makeEdgeServer_holds config).bind
  intro _ s₄ x₄ h
  obtain ⟨templates, contexts, certificates, y, hsince₄, hloaded, hs⟩ := h
  apply ((tlsMaterialFingerprint_holds config).mono (fun _ _ _ h => h) fun _ _ _ _ => trivial).bind
  intro text s₅ x₅ h
  obtain ⟨hs₅, hprint⟩ := h
  subst hs₅
  refine holds_ask_bind trivial fun started _ => ?_
  refine holds_ask_bind trivial fun now _ => ?_
  subst hs
  have hend : Since x₅ (x₅.1 + 1 + 1, x₅.2) := ⟨by simp; omega, .refl _, le_refl _⟩
  have hlast : Since x₃ (x₅.1 + 1 + 1, x₅.2) :=
    ((hsince₄.trans hloaded.since).trans hprint.since).trans hend
  have hfirst : Since x x₃ := (hsince₁.trans hsince₂).trans hsince₃
  exact
    { running :=
        { published := ⟨routing, rfl, ⟨none, x₂, hbuilt.mono (le_refl _) hlast.moment⟩,
            fun backend hmem => (hthere backend hmem).mono hlast⟩
          queuedBytesLimit := rfl
          tls := ⟨y, x₄, hloaded, hprint.since.moment.trans hend.moment⟩ }
      read := hread.mono (.refl x) ((hsince₂.trans hsince₃).trans hlast)
      tls := ⟨y, x₄, x₅, hfirst.trans hsince₄, hloaded, hprint, hend⟩ }

/-! ## Whole runs -/

/-- The states that the main thread goes through, in one timeline of the surroundings.
Start-up has begun at one moment, and the loop at another.  Between the steps time
passes, and the other threads count. -/
inductive Reached (numericKey : String → Option Bytes) (around : Nat → Surroundings)
    (begun ready : Nat) : Service → Nat × Ambient → Prop where
  | start {s : Service} {w w' : Ambient}
      (hrun : Runs (overTime around) (begun, w) (start numericKey {}) (.ok (), s) (ready, w')) :
      Reached numericKey around begun ready s (ready, w')
  | reload {s s' : Service} {x x' : Nat × Ambient} {result : Except String Unit}
      (hreached : Reached numericKey around begun ready s x)
      (hrun : Runs (overTime around) x (reload numericKey s) (result, s') x') :
      Reached numericKey around begun ready s' x'
  | refresh {s s' : Service} {x x' : Nat × Ambient} {now : Nat} {result : Except String Unit}
      (hreached : Reached numericKey around begun ready s x)
      (hrun : Runs (overTime around) x (refreshDue now s) (result, s') x') :
      Reached numericKey around begun ready s' x'
  | poll {s s' : Service} {x x' : Nat × Ambient} {now : Nat} {result : Except String Unit}
      (hreached : Reached numericKey around begun ready s x)
      (hrun : Runs (overTime around) x (pollDue now s) (result, s') x') :
      Reached numericKey around begun ready s' x'
  | elsewhere {s : Service} {x x' : Nat × Ambient}
      (hreached : Reached numericKey around begun ready s x)
      (hmoment : x.1 ≤ x'.1) (hcontexts : x'.2.contexts = x.2.contexts)
      (hheap : x'.2.heap.allocated = x.2.heap.allocated) :
      Reached numericKey around begun ready s x'

theorem Reached.of_start {begun : Nat} {w : Ambient}
    (hrun : Runs (overTime around) (begun, w) (Service.start numericKey {}) (.ok (), s) x) :
    Reached numericKey around begun x.1 s x := by
  obtain ⟨ready, w'⟩ := x
  exact .start hrun

/-- **A round of the loop is a sequence of these steps.** -/
theorem mainRound_reached {begun ready : Nat} (h : Reached numericKey around begun ready s x) :
    Holds (overTime around) s x (mainRound numericKey)
      (fun _ s' x' => Reached numericKey around begun ready s' x')
      (fun _ s' x' => Reached numericKey around begun ready s' x') := by
  have hreload : Holds (overTime around) s x (reloadDue numericKey)
      (fun _ s' x' => Reached numericKey around begun ready s' x')
      (fun _ s' x' => Reached numericKey around begun ready s' x') := by
    unfold reloadDue
    refine holds_ask_bind trivial fun requested _ => ?_
    have hlater : Reached numericKey around begun ready s
        ((overTime around).after x .reloadRequested requested) :=
      .elsewhere h (Nat.le_succ _) rfl rfl
    split
    · exact (holds_runs fun _ _ => trivial).mono (fun _ _ _ hrun => .reload hlater hrun)
        fun _ _ _ hrun => .reload hlater hrun
    · exact hlater
  unfold mainRound
  apply hreload.bind
  intro _ s₁ x₁ h₁
  refine holds_ask_bind trivial fun now _ => ?_
  have hlater : Reached numericKey around begun ready s₁ ((overTime around).after x₁ .now now) :=
    .elsewhere h₁ (Nat.le_succ _) rfl rfl
  apply ((holds_runs fun _ _ => trivial).mono (fun _ _ _ hrun => Reached.refresh hlater hrun)
    fun _ _ _ hrun => Reached.refresh hlater hrun).bind
  intro _ s₂ x₂ h₂
  exact (holds_runs fun _ _ => trivial).mono (fun _ _ _ hrun => .poll h₂ hrun)
    fun _ _ _ hrun => .poll h₂ hrun

/-- **By induction on the steps of the main thread.** -/
theorem Reached.running {begun ready : Nat} (h : Reached numericKey around begun ready s x) :
    Running around s x := by
  induction h with
  | start hrun => exact (start_holds.sound hrun).running
  | @reload s s' x x' result hreached hrun ih =>
      obtain ⟨_, rfl, hsince, hsame | ⟨replacement, hreplaced⟩⟩ := (reload_holds ih).returns hrun
      · exact ih.unchanged hsame hsince
      · exact hreplaced.running
  | @refresh s s' x x' now result hreached hrun ih =>
      obtain ⟨_, rfl, first, second, hrefreshed⟩ := (refreshDue_holds ih now).returns hrun
      exact hrefreshed.running (ih.withTimers first second)
  | @poll s s' x x' now result hreached hrun ih =>
      obtain ⟨_, rfl, ⟨hs, hx⟩ | ⟨first, second, hpolled⟩⟩ := (pollDue_holds now).returns hrun
      · rw [hs, hx]
        exact ih
      · exact hpolled.running (ih.withTimers first second)
  | elsewhere hreached hmoment _ hheap ih =>
      exact ih.mono ⟨rfl, rfl, rfl, rfl, rfl⟩ hmoment (le_of_eq hheap.symm)

/-- What is published is a configuration with routes that were built from it. -/
def Paired (around : Nat → Surroundings) (s : Service) : Prop :=
  ∃ snapshot, s.runtime = some snapshot ∧
    ∃ previous x x', Built around snapshot.config previous x snapshot.routing x'

/-- What is published fits together. -/
theorem Running.paired (h : Running around s x) : Paired around s := by
  obtain ⟨routing, hruntime, ⟨previous, y, hbuilt⟩, _⟩ := h.published
  exact ⟨_, hruntime, previous, y, x, hbuilt⟩

/-- **The reload is all or nothing.**  From every state that the main thread can be in,
and wherever the reload fails, the tuple is entirely that of the replacement or entirely
unchanged; no object of the old routes has been touched; and what is published is a
configuration with the routes that were built from it, before and after. -/
theorem reload_all_or_nothing {begun ready : Nat} {result : Except String Unit}
    (hreached : Reached numericKey around begun ready s x)
    (hrun : Runs (overTime around) x (reload numericKey s) (result, s') x') :
    (Unchanged s s' ∨ ∃ replacement, Replaced numericKey around s x replacement s' x') ∧
      (∀ snapshot, s.runtime = some snapshot → ∀ backend ∈ snapshot.routing.backends,
        x'.2.heap.counters backend.ref = x.2.heap.counters backend.ref) ∧
      Paired around s ∧ Paired around s' := by
  have hrunning := hreached.running
  have hnext := (Reached.reload hreached hrun).running
  obtain ⟨_, rfl, hsince, houtcome⟩ := (reload_holds hrunning).returns hrun
  refine ⟨houtcome, fun snapshot hsnapshot backend hmem => ?_, hrunning.paired, hnext.paired⟩
  have htable : s.runtime.map PublishedRuntime.routing = some snapshot.routing := by
    rw [hsnapshot]
    rfl
  exact hsince.heap.counters backend.ref (hrunning.previous htable backend hmem)

end

/-! ## A reload, computed -/

/-- A listener with TLS. -/
def secureConfig : ServiceConfig :=
  { Router.sampleConfig with
    listeners := [{ name := "miners", address := "0.0.0.0:3333", tls := true,
                    certificateFile := "chain.pem", privateKeyFile := "key.pem" }] }

/-- Each version has a modification time of its own. -/
def secureStamps (version : Nat) : Option (Int × Int) := some (version, 0)

/-- Surroundings in which every name has one address, and all files one version. -/
def secureAround (config : ServiceConfig) (version : Nat) : Surroundings where
  resolver _ := .ok [Router.sampleInfo 1]
  config := .ok config
  disk _ := version
  stamps := secureStamps

/-- What code of the main thread does in an outside in which everything works. -/
def playAt (around : Nat → Surroundings) (x : Nat × Ambient) (m : MainM Unit) (s : Service) :
    (Except String Unit × Service) × (Nat × Ambient) :=
  (m s).play (overTime around) (fun x c => (around x.1).answer x.2 c) x

theorem runs_playAt (around : Nat → Surroundings) (x : Nat × Ambient) (m : MainM Unit)
    (s : Service) {result : Except String Unit} (h : (playAt around x m s).1.1 = result) :
    Runs (overTime around) x (m s) (result, (playAt around x m s).1.2)
      (playAt around x m s).2 := by
  rw [← h]
  exact runs_play (fun x c => (around x.1).answer_allowed x.2 c) x (m s)

/-- The configuration after the first twenty calls has another limit on queued bytes. -/
def reconfigured (moment : Nat) : Surroundings :=
  secureAround (if moment < 20 then secureConfig else
    { secureConfig with limits := { secureConfig.limits with maxQueuedBytes := 2000000 } }) 0

def reconfiguredStart : (Except String Unit × Service) × (Nat × Ambient) :=
  playAt reconfigured (0, {}) (start fun _ => none) {}

def reconfiguredReload : (Except String Unit × Service) × (Nat × Ambient) :=
  playAt reconfigured (20, reconfiguredStart.2.2) (reload fun _ => none) reconfiguredStart.1.2

/-- A reload that succeeds, with a new context. -/
theorem reload_all_or_nothing_reconfigured :
    Reached (fun _ => none) reconfigured 0 reconfiguredStart.2.1 reconfiguredStart.1.2
        (20, reconfiguredStart.2.2) ∧
      reconfiguredReload.1.2.queuedBytesLimit = 2000000 ∧
      reconfiguredReload.1.2.tlsContexts.map (Option.map TlsContext.ref) = [some 1] ∧
      (Unchanged reconfiguredStart.1.2 reconfiguredReload.1.2 ∨ ∃ replacement,
        Replaced (fun _ => none) reconfigured reconfiguredStart.1.2 (20, reconfiguredStart.2.2)
          replacement reconfiguredReload.1.2 reconfiguredReload.2) := by
  have hstart : Reached (fun _ => none) reconfigured 0 reconfiguredStart.2.1
      reconfiguredStart.1.2 (20, reconfiguredStart.2.2) := by
    have hok : reconfiguredStart.1.1 = .ok () := by decide +kernel
    have hmoment : reconfiguredStart.2.1 ≤ 20 := by decide +kernel
    exact .elsewhere (.of_start (runs_playAt _ _ _ _ hok)) hmoment rfl rfl
  refine ⟨hstart, by decide +kernel, by decide +kernel, ?_⟩
  exact (reload_all_or_nothing hstart (runs_playAt _ _ _ _ rfl)).1

end PoolLb.Service
