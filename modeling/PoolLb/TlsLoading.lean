import PoolLb.Service

/-!
# Loading the TLS contexts

What `load_tls_contexts` and `reload_tls` (`src/net/server.cpp`) do while the files on
disk may change at any call: each context is made from the two files of its listener, in
versions that they had at some moment on the way; and either all slots and states are
replaced or none is.
-/

namespace PoolLb.Service

open Interaction Handler

/-! ## The outside as time goes by -/

/-- One outside comes after the other. -/
structure Since (x x' : Nat × Ambient) : Prop where
  moment : x.1 ≤ x'.1
  heap : x.2.heap.Grew x'.2.heap
  contexts : x.2.contexts ≤ x'.2.contexts

theorem Since.refl (x : Nat × Ambient) : Since x x := ⟨le_refl _, .refl _, le_refl _⟩

theorem Since.trans {x y z : Nat × Ambient} (h : Since x y) (h' : Since y z) : Since x z :=
  ⟨h.moment.trans h'.moment, h.heap.trans h'.heap, h.contexts.trans h'.contexts⟩

variable {around : Nat → Surroundings} {x x' y y' : Nat × Ambient} {s s' : Service}

/-- With every call time goes on, and objects are only added. -/
theorem since_after (c : ServiceCall) (r : c.Answer) :
    Since x ((overTime around).after x c r) := by
  cases c with
  | newBackend => exact ⟨Nat.le_succ _, x.2.heap.grew_grown, le_refl _⟩
  | newContext =>
      cases r with
      | none => exact ⟨Nat.le_succ _, .refl _, le_refl _⟩
      | some ref => exact ⟨Nat.le_succ _, .refl _, Nat.le_succ _⟩
  | _ => exact ⟨Nat.le_succ _, .refl _, le_refl _⟩

/-- No code of the main thread goes back, or touches an object that is there. -/
theorem since_of_runs {α : Type} {p : Prog serviceCalls α} {a : α}
    (h : Runs (overTime around) x p a x') : Since x x' := by
  induction h with
  | ret => exact .refl _
  | ask r _ _ ih => exact (since_after _ r).trans ih

/-- Something was so at a moment between the two. -/
def During (x x' : Nat × Ambient) (P : Nat → Prop) : Prop := ∃ t, x.1 ≤ t ∧ t < x'.1 ∧ P t

theorem During.mono {P : Nat → Prop} (h : During x x' P) (hbefore : Since y x)
    (hafter : Since x' y') : During y y' P := by
  obtain ⟨t, hlow, hhigh, hP⟩ := h
  exact ⟨t, hbefore.moment.trans hlow, hhigh.trans_le hafter.moment, hP⟩

/-- **Whatever the main thread does, time goes on.** -/
theorem holds_since {α : Type} {m : MainM α} :
    Holds (overTime around) s x m (fun _ _ x' => Since x x') (fun _ _ x' => Since x x') :=
  (holds_runs fun _ _ => trivial).mono (fun _ _ _ => since_of_runs) fun _ _ _ => since_of_runs

/-! ## Loading the contexts -/

/-- A context is made outside the service. -/
theorem createServerContext_quiet (certificateFile privateKeyFile : String) :
    Quiet (createServerContext certificateFile privateKeyFile) := by
  unfold createServerContext
  apply (quiet_ask _).bind
  intro ref
  split
  · exact quiet_stop _
  · apply (quiet_ask _).bind
    intro certificate
    split
    · exact quiet_stop _
    · apply (quiet_ask _).bind
      intro privateKey
      split
      · exact quiet_stop _
      · apply (quiet_ask _).bind
        intro matching
        split
        · exact quiet_pure _
        · exact quiet_stop _

/-- So is that of a listener. -/
theorem loadTlsContext_quiet (listener : ListenerConfig) : Quiet (loadTlsContext listener) := by
  unfold loadTlsContext
  split
  · apply (createServerContext_quiet _ _).bind
    intro context
    apply (quiet_ask _).bind
    intro expiry
    split
    · exact quiet_stop _
    · exact quiet_pure _
  · exact quiet_pure _

/-- A context that was made from the two files. -/
structure Made (around : Nat → Surroundings) (certificateFile privateKeyFile : String)
    (x : Nat × Ambient) (context : TlsContext) (x' : Nat × Ambient) : Prop where
  ofCertificateFile : context.certificateFile = certificateFile
  ofPrivateKeyFile : context.privateKeyFile = privateKeyFile
  fresh : x.2.contexts ≤ context.ref
  certificate : During x x' fun t => (around t).disk certificateFile = context.certificate
  privateKey : During x x' fun t => (around t).disk privateKeyFile = context.privateKey

/-- A context comes from the two files, in versions they had on the way. -/
theorem createServerContext_holds (certificateFile privateKeyFile : String) :
    Holds (overTime around) s x (createServerContext certificateFile privateKeyFile)
      (fun context _ x' => Since x x' ∧ Made around certificateFile privateKeyFile x context x')
      (fun _ _ _ => True) := by
  unfold createServerContext
  refine holds_ask_bind trivial fun made hmade => ?_
  cases made with
  | none => trivial
  | some ref =>
      refine holds_ask_bind trivial fun certificate hcertificate => ?_
      cases certificate with
      | none => trivial
      | some certificate =>
          refine holds_ask_bind trivial fun privateKey hprivateKey => ?_
          cases privateKey with
          | none => trivial
          | some privateKey =>
              refine holds_ask_bind trivial fun matching _ => ?_
              cases matching with
              | false => trivial
              | true =>
                  have hmade : some ref = none ∨ some ref = some x.2.contexts := hmade
                  have hcertificate : some certificate = none ∨
                      some certificate = some ((around (x.1 + 1)).disk certificateFile) :=
                    hcertificate
                  have hprivateKey : some privateKey = none ∨
                      some privateKey = some ((around (x.1 + 1 + 1)).disk privateKeyFile) :=
                    hprivateKey
                  simp only [Option.some.injEq, reduceCtorEq, false_or]
                    at hmade hcertificate hprivateKey
                  refine ⟨?_, rfl, rfl, le_of_eq hmade.symm, ⟨x.1 + 1, ?_, ?_, hcertificate.symm⟩,
                    ⟨x.1 + 1 + 1, ?_, ?_, hprivateKey.symm⟩⟩
                  · exact (since_after _ _).trans ((since_after _ _).trans
                      ((since_after _ _).trans (since_after _ _)))
                  · omega
                  · show x.1 + 1 < x.1 + 1 + 1 + 1 + 1
                    omega
                  · omega
                  · show x.1 + 1 + 1 < x.1 + 1 + 1 + 1 + 1
                    omega

/-- What becomes of one listener: its slot, and its status. -/
inductive Loads (around : Nat → Surroundings) (listener : ListenerConfig) (x : Nat × Ambient) :
    Option TlsContext × Option TlsCertificateStatus → Nat × Ambient → Prop where
  | plain (hplain : listener.tls = false) : Loads around listener x (none, none) x
  | secure {context : TlsContext} {status : TlsCertificateStatus} {x' : Nat × Ambient}
      (htls : listener.tls = true) (hsince : Since x x')
      (hmade : Made around listener.certificateFile listener.privateKeyFile x context x')
      (hname : status.listenerName = listener.name)
      (hexpiry : During x x' fun t =>
        (around t).expiries context.certificate = .ok status.expiryTimestampSeconds) :
      Loads around listener x (some context, some status) x'

theorem Loads.since {listener : ListenerConfig}
    {result : Option TlsContext × Option TlsCertificateStatus}
    (h : Loads around listener x result x') : Since x x' := by
  cases h with
  | plain => exact .refl x
  | secure _ hsince => exact hsince

theorem Made.mono {certificateFile privateKeyFile : String} {context : TlsContext}
    (h : Made around certificateFile privateKeyFile x context x') (hsince : Since x' y') :
    Made around certificateFile privateKeyFile x context y' :=
  { h with
    certificate := h.certificate.mono (.refl x) hsince
    privateKey := h.privateKey.mono (.refl x) hsince }

/-- One listener: nothing for a plain one, a context or a failure for the others. -/
theorem loadTlsContext_holds (listener : ListenerConfig) :
    Holds (overTime around) s x (loadTlsContext listener)
      (fun result _ x' => Loads around listener x result x') (fun _ _ _ => True) := by
  unfold loadTlsContext
  split
  · rename_i htls
    apply (createServerContext_holds _ _).bind
    intro context s₁ x₁ h
    obtain ⟨hsince, hmade⟩ := h
    refine holds_ask_bind trivial fun expiry hexpiry => ?_
    cases expiry with
    | error text => trivial
    | ok expiry =>
        have hexpiry : Except.ok expiry = (around x₁.1).expiries context.certificate := hexpiry
        have hlast : Since x₁ ((overTime around).after x₁
            (.certificateExpiry context.certificate) (.ok expiry)) := since_after _ _
        exact .secure htls (hsince.trans hlast) (hmade.mono hlast) rfl
          ⟨x₁.1, hsince.moment, Nat.lt_succ_self _, hexpiry.symm⟩
  · rename_i hplain
    exact .plain (by simpa using hplain)

/-- The contexts and the states that were loaded for the listeners of a configuration. -/
def LoadedFor (around : Nat → Surroundings) (config : ServiceConfig) (x : Nat × Ambient)
    (contexts : List (Option TlsContext)) (certificates : List TlsCertificateStatus)
    (x' : Nat × Ambient) : Prop :=
  ∃ loaded, Chain (Loads around) config.listeners x loaded x' ∧
    contexts = loaded.map Prod.fst ∧ certificates = loaded.filterMap Prod.snd

theorem LoadedFor.since {config : ServiceConfig} {contexts : List (Option TlsContext)}
    {certificates : List TlsCertificateStatus}
    (h : LoadedFor around config x contexts certificates x') : Since x x' := by
  obtain ⟨loaded, hchain, _⟩ := h
  exact hchain.le Since Since.refl (fun _ _ _ => Since.trans) fun _ _ _ _ => Loads.since

/-- **The listeners, one after the other**, or a failure and nothing at all. -/
theorem loadTlsContexts_holds (config : ServiceConfig) :
    Holds (overTime around) s x (loadTlsContexts config)
      (fun result s' x' => s' = s ∧ LoadedFor around config x result.1 result.2 x')
      (fun _ s' _ => s' = s) := by
  have heach : Holds (overTime around) s x (each loadTlsContext config.listeners)
      (fun loaded _ x' => True ∧ Chain (Loads around) config.listeners x loaded x')
      (fun _ _ _ => True) := by
    apply Holds.each (J := fun _ _ => True) _ trivial
    intro listener _ s x _
    exact (loadTlsContext_holds listener).mono (fun _ _ _ h => ⟨trivial, h⟩) fun _ _ _ h => h
  apply Holds.bind ((heach.quiet (Quiet.each loadTlsContext_quiet _)).mono (fun _ _ _ h => h)
    fun _ _ _ h => h.1)
  intro loaded s' x' h
  exact ⟨h.1, loaded, h.2.2, rfl, rfl⟩

/-- Where no listener has TLS, there is nothing to load. -/
theorem loadedFor_plain {config : ServiceConfig} (x : Nat × Ambient)
    (hplain : ∀ listener ∈ config.listeners, listener.tls = false) :
    LoadedFor around config x (config.listeners.map fun _ => none) [] x := by
  unfold LoadedFor
  generalize config.listeners = listeners at hplain ⊢
  induction listeners with
  | nil => exact ⟨[], .nil x, rfl, rfl⟩
  | cons listener rest ih =>
      obtain ⟨hfirst, hrest⟩ := List.forall_mem_cons.mp hplain
      obtain ⟨loaded, hchain, hcontexts, hcertificates⟩ := ih hrest
      refine ⟨(none, none) :: loaded, .cons (.plain hfirst) hchain, ?_, ?_⟩
      · rw [List.map_cons, List.map_cons, hcontexts]
      · simp [← hcertificates]

/-- Without TLS there are neither contexts nor certificates. -/
theorem LoadedFor.eq_plain {config : ServiceConfig} {contexts : List (Option TlsContext)}
    {certificates : List TlsCertificateStatus}
    (h : LoadedFor around config x contexts certificates x')
    (hplain : ∀ listener ∈ config.listeners, listener.tls = false) :
    contexts = config.listeners.map (fun _ => none) ∧ certificates = [] := by
  obtain ⟨loaded, hchain, hcontexts, hcertificates⟩ := h
  subst hcontexts hcertificates
  generalize config.listeners = listeners at hplain hchain ⊢
  induction hchain with
  | nil => exact ⟨rfl, rfl⟩
  | cons hfirst _ ih =>
      obtain ⟨hnone, hrest⟩ := List.forall_mem_cons.mp hplain
      obtain ⟨hcontexts, hcertificates⟩ := ih hrest
      cases hfirst with
      | plain => simp [hcontexts, hcertificates]
      | secure htls => rw [hnone] at htls; cases htls

/-! ## Replacing the contexts -/

/-- Publishing the contexts cannot fail. -/
theorem publishContexts_holds (contexts : List (Option TlsContext)) :
    Holds (overTime around) s x (publishContexts contexts)
      (fun _ s' x' => s' = { s with tlsContexts := contexts } ∧ x' = x)
      (fun _ s' x' => s' = s ∧ x' = x) := by
  unfold publishContexts
  apply holds_current_bind
  split
  · exact ⟨rfl, rfl⟩
  · exact ⟨rfl, rfl⟩

/-- The state after new contexts and certificate states. -/
def withTls (s : Service) (contexts : List (Option TlsContext))
    (certificates : List TlsCertificateStatus) : Service :=
  { s with
    tlsContexts := contexts
    tlsCertificates := certificates
    tlsReloadSuccesses := s.tlsReloadSuccesses + 1 }

/-- **All slots and states are replaced, or none is.** -/
theorem replaceTls_holds (config : ServiceConfig) :
    Holds (overTime around) s x (replaceTls config)
      (fun _ s' x' => ∃ contexts certificates,
        LoadedFor around config x contexts certificates x' ∧ s' = s.withTls contexts certificates)
      (fun _ s' _ => s' = s) := by
  unfold replaceTls
  apply (loadTlsContexts_holds config).bind
  intro loaded s₁ x₁ h
  obtain ⟨hs, hloaded⟩ := h
  subst hs
  obtain ⟨contexts, certificates⟩ := loaded
  apply holds_current_bind
  split
  · exact rfl
  · apply ((publishContexts_holds contexts).mono (fun _ _ _ h => h) fun _ _ _ h => h.1).bind
    intro _ s₂ x₂ h
    obtain ⟨hs, hx⟩ := h
    subst hs hx
    exact ⟨contexts, certificates, hloaded, rfl⟩

/-- What `reload_tls` has done where it did not fail. -/
inductive TlsReloaded (around : Nat → Surroundings) (config : ServiceConfig) (s : Service)
    (x : Nat × Ambient) : Service → Nat × Ambient → Prop where
  | nothing (hplain : ∀ listener ∈ config.listeners, listener.tls = false) :
      TlsReloaded around config s x s x
  | replaced {contexts : List (Option TlsContext)} {certificates : List TlsCertificateStatus}
      {x' : Nat × Ambient} (hloaded : LoadedFor around config x contexts certificates x') :
      TlsReloaded around config s x (s.withTls contexts certificates) x'

/-- The state after a failed reload of the contexts. -/
def withTlsFailure (s : Service) : Service :=
  { s with tlsReloadFailures := s.tlsReloadFailures + 1 }

/-- **`reload_tls`.** -/
theorem reloadTls_holds (config : ServiceConfig) :
    Holds (overTime around) s x (reloadTls config)
      (fun _ s' x' => TlsReloaded around config s x s' x') (fun _ s' _ => s' = s.withTlsFailure) := by
  unfold reloadTls
  split
  · rename_i hnone
    refine .nothing fun listener hmem => ?_
    simpa using List.countP_eq_zero.mp hnone listener hmem
  · apply Holds.bind (Q := fun outcome s' x' => match outcome with
      | .ok _ => TlsReloaded around config s x s' x'
      | .error _ => s' = s)
    · apply holds_attempt
      refine (replaceTls_holds config).mono (fun _ s' x' h => ?_) fun _ _ _ h => h
      obtain ⟨contexts, certificates, hloaded, hs⟩ := h
      rw [hs]
      exact .replaced hloaded
    · intro outcome s' x' h
      cases outcome with
      | ok _ => exact h
      | error text =>
          have h : s' = s := h
          rw [h]
          exact rfl

/-! ## The fingerprint and the poll -/

/-- What one file adds to a fingerprint that is being taken. -/
def Stamped (around : Nat → Surroundings) (file : String) (x : Nat × Ambient) (part : String)
    (x' : Nat × Ambient) : Prop :=
  part = fingerprintPart file ((around x.1).stamps ((around x.1).disk file)) ∧ x' = (x.1 + 1, x.2)

/-- A fingerprint that was taken, one file after the other. -/
def Fingerprinted (around : Nat → Surroundings) (config : ServiceConfig) (x : Nat × Ambient)
    (text : String) (x' : Nat × Ambient) : Prop :=
  ∃ parts, Chain (Stamped around) (tlsFiles config) x parts x' ∧ text = parts.foldl (· ++ ·) ""

theorem Stamped.since {file part : String} (h : Stamped around file x part x') : Since x x' := by
  rw [h.2]
  exact ⟨Nat.le_succ _, .refl _, le_refl _⟩

theorem Fingerprinted.since {config : ServiceConfig} {text : String}
    (h : Fingerprinted around config x text x') : Since x x' := by
  obtain ⟨parts, hchain, _⟩ := h
  exact hchain.le Since Since.refl (fun _ _ _ => Since.trans) fun _ _ _ _ => Stamped.since

/-- The fingerprint is taken file by file, and cannot fail. -/
theorem tlsMaterialFingerprint_holds (config : ServiceConfig) :
    Holds (overTime around) s x (tlsMaterialFingerprint config)
      (fun text s' x' => s' = s ∧ Fingerprinted around config x text x') (fun _ _ _ => False) := by
  unfold tlsMaterialFingerprint
  have heach : Holds (overTime around) s x (each fingerprintFile (tlsFiles config))
      (fun parts s' x' => s' = s ∧ Chain (Stamped around) (tlsFiles config) x parts x')
      (fun _ _ _ => False) := by
    apply Holds.each (J := fun s' _ => s' = s) _ rfl
    intro file _ s' x' hs
    unfold fingerprintFile
    refine holds_ask_bind trivial fun info hinfo => ?_
    have hinfo : info = (around x'.1).stamps ((around x'.1).disk file) := hinfo
    rw [hinfo]
    exact ⟨hs, rfl, rfl⟩
  apply heach.bind
  intro parts s' x' h
  exact ⟨h.1, parts, h.2, rfl⟩

/-- What a poll can do. -/
inductive Polled (around : Nat → Surroundings) (s : Service) (x : Nat × Ambient) :
    Service → Nat × Ambient → Prop where
  | same {x' : Nat × Ambient} (hread : Fingerprinted around s.config x s.tlsFingerprint x') :
      Polled around s x s x'
  | reloaded {text : String} {y : Nat × Ambient} {s' : Service} {x' : Nat × Ambient}
      (hread : Fingerprinted around s.config x text y)
      (hreloaded : TlsReloaded around s.config s y s' x') (hnew : text ≠ s.tlsFingerprint) :
      Polled around s x { s' with tlsFingerprint := text } x'
  | failed {x' : Nat × Ambient} (hsince : Since x x') : Polled around s x s.withTlsFailure x'

theorem TlsReloaded.since {config : ServiceConfig}
    (h : TlsReloaded around config s x s' x') : Since x x' := by
  cases h with
  | nothing => exact .refl x
  | replaced hloaded => exact hloaded.since

theorem Polled.since (h : Polled around s x s' x') : Since x x' := by
  cases h with
  | same hread => exact hread.since
  | reloaded hread hreloaded _ => exact hread.since.trans hreloaded.since
  | failed hsince => exact hsince

/-- **The poll.** -/
theorem pollTls_holds :
    Holds (overTime around) s x pollTls (fun _ s' x' => Polled around s x s' x')
      (fun _ _ _ => False) := by
  unfold pollTls
  apply holds_current_bind
  apply (tlsMaterialFingerprint_holds s.config).bind
  intro text s₁ x₁ h
  obtain ⟨hs, hread⟩ := h
  subst hs
  split
  · rename_i hnew
    apply Holds.bind (Q := fun outcome s' x' => Since x₁ x' ∧ match outcome with
      | .ok _ => TlsReloaded around s₁.config s₁ x₁ s' x'
      | .error _ => s' = s₁.withTlsFailure)
    · apply holds_attempt
      exact (holds_since.and (reloadTls_holds s₁.config)).mono (fun _ _ _ h => h) fun _ _ _ h => h
    · intro outcome s₂ x₂ h
      cases outcome with
      | ok _ => exact .reloaded hread h.2 hnew
      | error text =>
          have hs : s₂ = s₁.withTlsFailure := h.2
          rw [hs]
          exact .failed (hread.since.trans h.1)
  · rename_i hsame
    rw [not_ne_iff] at hsame
    rw [hsame] at hread
    exact .same hread

end PoolLb.Service
