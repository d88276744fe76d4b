import PoolLb.Reload

/-!
# Renewed TLS material

The main thread polls the TLS files: it takes a fingerprint of them, and where that is not
the remembered one it loads them again.  What is remembered need not be the fingerprint of
what is loaded: at start-up it is taken after the files were loaded, and a reload on SIGHUP
loads them without taking one.  So a change of the files between the two at start-up is
missed, and so is one that is undone after a reload.

These are all the ways.  A poll during which the files stay as they are misses something
exactly if other versions are loaded than the remembered ones, and the files are back at
those; and other versions are loaded only by a step that is one of a few kinds.
-/

namespace PoolLb.Service

open Interaction Handler

/-! ## Versions of files -/

/-- The versions that the contexts were loaded from, in the order of the files. -/
def versions (contexts : List (Option TlsContext)) : List Nat :=
  contexts.flatMap fun slot =>
    match slot with
    | none => []
    | some context => [context.certificate, context.privateKey]

/-- The fingerprint of files in given versions. -/
def fingerprintText (stamps : Nat → Option (Int × Int)) (files : List String)
    (readings : List Nat) : String :=
  (List.zipWith (fun file version => fingerprintPart file (stamps version)) files readings).foldl
    (· ++ ·) ""

/-- The context of a listener is the one of the versions that are on disk. -/
def InUse (disk : String → Nat) (listener : ListenerConfig) : Option TlsContext → Prop
  | none => listener.tls = false
  | some context => listener.tls = true ∧
      context.certificateFile = listener.certificateFile ∧
      context.privateKeyFile = listener.privateKeyFile ∧
      context.certificate = disk listener.certificateFile ∧
      context.privateKey = disk listener.privateKeyFile

/-- A version that the file had at some moment between the two. -/
abbrev ReadDuring (around : Nat → Surroundings) (x x' : Nat × Ambient) (file : String)
    (version : Nat) : Prop :=
  During x x' fun t => (around t).disk file = version

variable {around : Nat → Surroundings} {x x' y y' : Nat × Ambient} {s s' : Service}
  {config : ServiceConfig} {stamps : Nat → Option (Int × Int)}

/-- Every file is loaded in a version that it had on the way. -/
theorem LoadedFor.versions {contexts : List (Option TlsContext)}
    {certificates : List TlsCertificateStatus}
    (h : LoadedFor around config x contexts certificates x') :
    List.Forall₂ (ReadDuring around x x') (tlsFiles config) (Service.versions contexts) := by
  obtain ⟨loaded, hchain, hcontexts, -⟩ := h
  subst hcontexts
  unfold tlsFiles Service.versions
  generalize config.listeners = listeners at hchain ⊢
  induction hchain with
  | nil => exact .nil
  | @cons listener listeners result results x y z hfirst hrest ih =>
      have hlater : Since y z :=
        hrest.le Since Since.refl (fun _ _ _ => Since.trans) fun _ _ _ _ => Loads.since
      have ih := ih.imp fun file version hread => During.mono hread hfirst.since (.refl z)
      cases hfirst with
      | plain hplain =>
          rw [List.filter_cons_of_neg (by simp [hplain])]
          exact ih
      | secure htls hsince hmade _ _ =>
          rw [List.filter_cons_of_pos htls]
          exact .cons (hmade.certificate.mono (.refl x) hlater)
            (.cons (hmade.privateKey.mono (.refl x) hlater) ih)

/-- The contexts are in use for the versions of the files exactly if those are the ones loaded. -/
theorem LoadedFor.inUse_iff {contexts : List (Option TlsContext)}
    {certificates : List TlsCertificateStatus} {disk : String → Nat}
    (h : LoadedFor around config x contexts certificates x') :
    List.Forall₂ (InUse disk) config.listeners contexts ↔
      Service.versions contexts = (tlsFiles config).map disk := by
  obtain ⟨loaded, hchain, hcontexts, -⟩ := h
  subst hcontexts
  unfold tlsFiles Service.versions
  generalize config.listeners = listeners at hchain ⊢
  induction hchain with
  | nil => exact iff_of_true .nil rfl
  | @cons listener listeners result results x y z hfirst hrest ih =>
      cases hfirst with
      | plain hplain =>
          rw [List.filter_cons_of_neg (by simp [hplain]), List.map_cons, List.forall₂_cons, ih]
          exact and_iff_right hplain
      | secure htls hsince hmade _ _ =>
          rw [List.filter_cons_of_pos htls, List.map_cons, List.forall₂_cons, ih]
          simp only [List.map_cons, List.flatMap_cons, List.cons_append, List.nil_append,
            List.cons.injEq]
          constructor
          · intro h
            exact ⟨h.1.2.2.2.1, h.1.2.2.2.2, h.2⟩
          · intro h
            exact ⟨⟨htls, hmade.ofCertificateFile, hmade.ofPrivateKeyFile, h.1, h.2.1⟩, h.2.2⟩

/-- The versions that a fingerprint has seen. -/
theorem Fingerprinted.readings {text : String} (hstamps : ∀ t, (around t).stamps = stamps)
    (h : Fingerprinted around config x text x') :
    ∃ readings, List.Forall₂ (ReadDuring around x x') (tlsFiles config) readings ∧
      text = fingerprintText stamps (tlsFiles config) readings := by
  obtain ⟨parts, hchain, htext⟩ := h
  suffices hparts : ∃ readings, List.Forall₂ (ReadDuring around x x') (tlsFiles config) readings ∧
      parts = List.zipWith (fun file version => fingerprintPart file (stamps version))
        (tlsFiles config) readings by
    obtain ⟨readings, hread, hparts⟩ := hparts
    exact ⟨readings, hread, by rw [htext, hparts]; rfl⟩
  clear htext
  generalize tlsFiles config = files at hchain ⊢
  induction hchain with
  | nil => exact ⟨[], .nil, rfl⟩
  | @cons file files part parts x y z hfirst hrest ih =>
      have hlater : Since y z :=
        hrest.le Since Since.refl (fun _ _ _ => Since.trans) fun _ _ _ _ => Stamped.since
      have hmoment : y.1 = x.1 + 1 := by rw [hfirst.2]
      obtain ⟨readings, hread, hparts⟩ := ih
      refine ⟨(around x.1).disk file :: readings, .cons ⟨x.1, le_refl _, ?_, rfl⟩
        (hread.imp fun _ _ h => During.mono h hfirst.since (.refl z)), ?_⟩
      · have := hlater.moment
        omega
      · rw [hfirst.1, hparts, hstamps x.1]
        rfl

/-! ## Lists of versions -/

/-- The files do not change from one moment until another. -/
def Still (around : Nat → Surroundings) (files : List String) (first last : Nat) : Prop :=
  ∀ file ∈ files, ∀ t, first ≤ t → t < last → (around t).disk file = (around first).disk file

/-- Versions that were read while nothing changed. -/
theorem Still.readings {files : List String} {readings : List Nat} {first last : Nat}
    (hstill : Still around files first last) (hfirst : first ≤ x.1) (hlast : x'.1 ≤ last)
    (h : List.Forall₂ (ReadDuring around x x') files readings) :
    readings = files.map (around first).disk := by
  rw [← List.forall₂_eq_eq_eq, List.forall₂_map_right_iff]
  refine (Router.forall₂_mem h).flip.imp fun version file hread => ?_
  obtain ⟨⟨t, hlow, hhigh, hversion⟩, hmem, _⟩ := hread
  rw [← hversion]
  exact hstill file hmem t (hfirst.trans hlow) (hhigh.trans_le hlast)

/-! ## What is remembered -/

/-- The fingerprint tells any two versions apart. -/
def Distinguishing (around : Nat → Surroundings) (stamps : Nat → Option (Int × Int))
    (files : List String) : Prop :=
  ∀ readings readings',
    List.Forall₂ (fun file version => ∃ t, (around t).disk file = version) files readings →
    List.Forall₂ (fun file version => ∃ t, (around t).disk file = version) files readings' →
    fingerprintText stamps files readings = fingerprintText stamps files readings' →
    readings = readings'

/-- Other versions are loaded than the remembered ones. -/
def Stray (stamps : Nat → Option (Int × Int)) (config : ServiceConfig) (s : Service) : Prop :=
  s.tlsFingerprint ≠ fingerprintText stamps (tlsFiles config) (versions s.tlsContexts)

/-- The files have the remembered versions. -/
def AsRemembered (around : Nat → Surroundings) (stamps : Nat → Option (Int × Int))
    (config : ServiceConfig) (s : Service) (moment : Nat) : Prop :=
  s.tlsFingerprint =
    fingerprintText stamps (tlsFiles config) ((tlsFiles config).map (around moment).disk)

/-- Runs of which the last step that has loaded the files, or has taken a fingerprint of them, may
have got other versions than the remembered ones. -/
inductive LoadedAstray (numericKey : String → Option Bytes) (around : Nat → Surroundings)
    (stamps : Nat → Option (Int × Int)) (config : ServiceConfig) (begun ready : Nat) :
    Service → Nat × Ambient → Prop where
  /-- The files have changed between the load at start-up and the first fingerprint. -/
  | start {s : Service} {w w' : Ambient} {y y' z : Nat × Ambient}
      (hrun : Runs (overTime around) (begun, w) (start numericKey {}) (.ok (), s) (ready, w'))
      (hloaded : LoadedFor around config y s.tlsContexts s.tlsCertificates y')
      (hread : Fingerprinted around config y' s.tlsFingerprint z)
      (hchanged : ¬ Still around (tlsFiles config) y.1 z.1) :
      LoadedAstray numericKey around stamps config begun ready s (ready, w')
  /-- A reload on SIGHUP has loaded other versions than the remembered ones. -/
  | reload {s s' : Service} {x x' : Nat × Ambient} {result : Except String Unit}
      (hreached : Reached numericKey around begun ready s x)
      (hrun : Runs (overTime around) x (reload numericKey s) (result, s') x')
      (hother : s.tlsFingerprint ≠
        fingerprintText stamps (tlsFiles config) (versions s'.tlsContexts)) :
      LoadedAstray numericKey around stamps config begun ready s' x'
  /-- The files have changed during a poll that has taken a new fingerprint. -/
  | poll {s s' : Service} {x x' : Nat × Ambient} {now : Nat} {result : Except String Unit}
      (hreached : Reached numericKey around begun ready s x)
      (hrun : Runs (overTime around) x (pollDue now s) (result, s') x')
      (hnew : s'.tlsFingerprint ≠ s.tlsFingerprint)
      (hchanged : ¬ Still around (tlsFiles config) x.1 x'.1) :
      LoadedAstray numericKey around stamps config begun ready s' x'
  /-- Nothing was loaded since. -/
  | later {s s' : Service} {x x' : Nat × Ambient}
      (hearlier : LoadedAstray numericKey around stamps config begun ready s x)
      (hcontexts : s'.tlsContexts = s.tlsContexts)
      (hprint : s'.tlsFingerprint = s.tlsFingerprint) :
      LoadedAstray numericKey around stamps config begun ready s' x'

/-- Without TLS there are no files. -/
theorem tlsFiles_plain (hplain : ∀ listener ∈ config.listeners, listener.tls = false) :
    tlsFiles config = [] := by
  unfold tlsFiles
  have hnone : config.listeners.filter ListenerConfig.tls = [] :=
    List.filter_eq_nil_iff.mpr fun listener hmem => by simp [hplain listener hmem]
  rw [hnone]
  rfl

/-- Versions that were fingerprinted and loaded while nothing changed are the same. -/
theorem Still.not_stray {first last : Nat} {s : Service} {contexts : List (Option TlsContext)}
    {certificates : List TlsCertificateStatus} {text : String}
    (hstill : Still around (tlsFiles config) first last)
    (hstamps : ∀ t, (around t).stamps = stamps)
    (hread : Fingerprinted around config x text x')
    (hloaded : LoadedFor around config y contexts certificates y')
    (hreading : first ≤ x.1 ∧ x'.1 ≤ last) (hloading : first ≤ y.1 ∧ y'.1 ≤ last)
    (htext : s.tlsFingerprint = text) (hcontexts : s.tlsContexts = contexts) :
    ¬ Stray stamps config s := by
  obtain ⟨readings, hreadings, hprint⟩ := hread.readings hstamps
  unfold Stray
  rw [htext, hcontexts, hprint, hstill.readings hreading.1 hreading.2 hreadings,
    hstill.readings hloading.1 hloading.2 hloaded.versions]
  exact not_not.mpr rfl

/-- Without files all fingerprints are the same. -/
theorem not_stray_of_plain {text : String} (hstamps : ∀ t, (around t).stamps = stamps)
    (hread : Fingerprinted around config x text x')
    (hplain : ∀ listener ∈ config.listeners, listener.tls = false)
    (htext : s.tlsFingerprint = text) : ¬ Stray stamps config s := by
  obtain ⟨readings, _, hprint⟩ := hread.readings hstamps
  unfold Stray
  rw [htext, hprint, tlsFiles_plain hplain]
  exact not_not.mpr rfl

/-! ## Over whole runs -/

section

variable {numericKey : String → Option Bytes} {begun ready : Nat}

/-- The configuration is the one that is always read. -/
theorem Reached.config_eq (hconfig : ∀ t, (around t).config = .ok config)
    (h : Reached numericKey around begun ready s x) : s.config = config := by
  induction h with
  | start hrun =>
      obtain ⟨t, _, _, hread⟩ := (start_holds.sound hrun).read
      rw [hconfig t] at hread
      cases hread
      rfl
  | @reload s s' x x' result hreached hrun ih =>
      obtain ⟨_, rfl, hsince, (hs | hs) | ⟨replacement, hreplaced⟩⟩ :=
        (reload_holds hreached.running).returns hrun
      · rw [hs]
        exact ih
      · rw [hs]
        exact ih
      · obtain ⟨t, _, _, hread⟩ := hreplaced.read
        rw [hconfig t] at hread
        cases hread
        exact hreplaced.config
  | @refresh s s' x x' now result hreached hrun ih =>
      obtain ⟨_, rfl, first, second, hrefreshed⟩ :=
        (refreshDue_holds hreached.running now).returns hrun
      cases hrefreshed <;> exact ih
  | @poll s s' x x' now result hreached hrun ih =>
      obtain ⟨_, rfl, ⟨hs, _⟩ | ⟨first, second, hpolled⟩⟩ := (pollDue_holds now).returns hrun
      · rw [hs]
        exact ih
      · cases hpolled with
        | same _ => exact ih
        | failed _ => exact ih
        | reloaded _ hreloaded _ =>
            cases hreloaded with
            | nothing _ => exact ih
            | replaced _ => exact ih
  | elsewhere _ _ _ _ ih => exact ih

/-- What a poll does: nothing is loaded, or the files are, after a new fingerprint. -/
theorem Polled.stray (hstamps : ∀ t, (around t).stamps = stamps) (hconfig : s.config = config)
    (h : Polled around s x s' x') :
    s'.tlsContexts = s.tlsContexts ∧ s'.tlsFingerprint = s.tlsFingerprint ∨
      s'.tlsFingerprint ≠ s.tlsFingerprint ∧
        (Still around (tlsFiles config) x.1 x'.1 → ¬ Stray stamps config s') := by
  cases h with
  | same _ => exact .inl ⟨rfl, rfl⟩
  | failed _ => exact .inl ⟨rfl, rfl⟩
  | reloaded hread hreloaded hnew =>
      rw [hconfig] at hread hreloaded
      refine .inr ⟨hnew, fun hstill => ?_⟩
      have hfirst := hread.since.moment
      have hsecond := hreloaded.since.moment
      cases hreloaded with
      | nothing hplain => exact not_stray_of_plain hstamps hread hplain rfl
      | replaced hloaded =>
          exact hstill.not_stray hstamps hread hloaded ⟨le_refl _, hsecond⟩
            ⟨hfirst, le_refl _⟩ rfl rfl

/-- At start-up the fingerprint is taken after the load. -/
theorem loadedAstray_of_start {w w' : Ambient} (hstamps : ∀ t, (around t).stamps = stamps)
    (hrun : Runs (overTime around) (begun, w) (start numericKey {}) (.ok (), s) (ready, w'))
    (hconfig : s.config = config) (hstray : Stray stamps config s) :
    LoadedAstray numericKey around stamps config begun ready s (ready, w') := by
  obtain ⟨y, y', z, _, hloaded, hread, _⟩ := (start_holds.sound hrun).tls
  rw [hconfig] at hloaded hread
  refine .start hrun hloaded hread fun hstill => ?_
  exact hstill.not_stray hstamps hread hloaded ⟨hloaded.since.moment, le_refl _⟩
    ⟨le_refl _, hread.since.moment⟩ rfl rfl hstray

/-- **How other versions come to be loaded than the remembered ones.** -/
theorem Reached.loadedAstray (hstamps : ∀ t, (around t).stamps = stamps)
    (hconfig : ∀ t, (around t).config = .ok config)
    (h : Reached numericKey around begun ready s x) (hstray : Stray stamps config s) :
    LoadedAstray numericKey around stamps config begun ready s x := by
  induction h with
  | start hrun =>
      exact loadedAstray_of_start hstamps hrun (Reached.config_eq hconfig (.start hrun)) hstray
  | @reload s s' x x' result hreached hrun ih =>
      obtain ⟨_, rfl, hsince, (hs | hs) | ⟨replacement, hreplaced⟩⟩ :=
        (reload_holds hreached.running).returns hrun
      · rw [hs] at hstray ⊢
        exact .later (ih hstray) rfl rfl
      · rw [hs] at hstray ⊢
        exact .later (ih hstray) rfl rfl
      · refine .reload hreached hrun ?_
        rw [← hreplaced.tlsFingerprint]
        exact hstray
  | @refresh s s' x x' now result hreached hrun ih =>
      obtain ⟨_, rfl, first, second, hrefreshed⟩ :=
        (refreshDue_holds hreached.running now).returns hrun
      cases hrefreshed <;> exact .later (ih hstray) rfl rfl
  | @poll s s' x x' now result hreached hrun ih =>
      obtain ⟨_, rfl, ⟨hs, hx⟩ | ⟨first, second, hpolled⟩⟩ := (pollDue_holds now).returns hrun
      · rw [hs] at hstray ⊢
        exact .later (ih hstray) rfl rfl
      · have hsame := hreached.config_eq hconfig
        have hconfig' : (s.withTimers first second).config = config := hsame
        rcases hpolled.stray hstamps hconfig' with hsame | ⟨hnew, hstill⟩
        · have hbefore : Stray stamps config s := by
            unfold Stray at hstray
            rw [hsame.1, hsame.2] at hstray
            exact hstray
          exact .later (ih hbefore) hsame.1 hsame.2
        · exact .poll hreached hrun hnew fun h => hstill h hstray
  | elsewhere _ _ _ _ ih => exact .later (ih hstray) rfl rfl

/-- Where the fingerprint is the remembered one, the loaded versions are those on disk unless they
are stray. -/
theorem AsRemembered.current {certificates : List TlsCertificateStatus} {moment : Nat}
    (hdistinct : Distinguishing around stamps (tlsFiles config))
    (hloaded : LoadedFor around config y s.tlsContexts certificates y')
    (h : AsRemembered around stamps config s moment) :
    versions s.tlsContexts = (tlsFiles config).map (around moment).disk ↔
      ¬ Stray stamps config s := by
  have hnow : List.Forall₂ (fun file version => ∃ t, (around t).disk file = version)
      (tlsFiles config) ((tlsFiles config).map (around moment).disk) := by
    rw [List.forall₂_map_right_iff, List.forall₂_same]
    intro file _
    exact ⟨moment, rfl⟩
  have hthen : List.Forall₂ (fun file version => ∃ t, (around t).disk file = version)
      (tlsFiles config) (versions s.tlsContexts) := by
    refine hloaded.versions.imp fun file version hread => ?_
    obtain ⟨t, _, _, hversion⟩ := hread
    exact ⟨t, hversion⟩
  unfold Stray
  rw [not_not, h]
  exact ⟨fun hsame => congrArg _ hsame.symm, fun htext => (hdistinct _ _ hnow hthen htext).symm⟩

/-- A poll during which the files do not change, and whose `reload_tls` does not fail. -/
structure CleanPoll (around : Nat → Surroundings) (config : ServiceConfig) (s : Service)
    (x : Nat × Ambient) (s' : Service) (x' : Nat × Ambient) : Prop where
  run : Runs (overTime around) x (pollTls s) (.ok (), s') x'
  still : Still around (tlsFiles config) x.1 x'.1
  succeeded : s'.tlsReloadFailures = s.tlsReloadFailures

/-- **When renewed TLS material is missed.**  After a clean poll the contexts in use are those of
the versions on disk, unless other versions were loaded than the remembered ones and the files are
back at those.  And other versions are loaded only where the files have changed between the load
at start-up and the first fingerprint, or by a reload, or where they have changed during a poll
that has loaded them. -/
theorem renewed_material_loaded (hstamps : ∀ t, (around t).stamps = stamps)
    (hconfig : ∀ t, (around t).config = .ok config)
    (hdistinct : Distinguishing around stamps (tlsFiles config))
    (hreached : Reached numericKey around begun ready s x)
    (hpoll : CleanPoll around config s x s' x') :
    (List.Forall₂ (InUse (around x.1).disk) config.listeners s'.tlsContexts ↔
      ¬ (Stray stamps config s ∧ AsRemembered around stamps config s x.1)) ∧
    (Stray stamps config s → LoadedAstray numericKey around stamps config begun ready s x) := by
  refine ⟨?_, hreached.loadedAstray hstamps hconfig⟩
  have hconfig' := hreached.config_eq hconfig
  have hpolled : Polled around s x s' x' := pollTls_holds.sound hpoll.run
  obtain ⟨y, y', hloaded, _⟩ := hreached.running.tls
  rw [hconfig'] at hloaded
  cases hpolled with
  | same hread =>
      rw [hconfig'] at hread
      obtain ⟨readings, hreadings, hprint⟩ := hread.readings hstamps
      rw [hpoll.still.readings (le_refl _) (le_refl _) hreadings] at hprint
      rw [hloaded.inUse_iff, AsRemembered.current hdistinct hloaded hprint, not_and]
      exact ⟨fun hnot hstray => absurd hstray hnot, fun hnot hstray => hnot hstray hprint⟩
  | failed =>
      have hcount : s.tlsReloadFailures + 1 = s.tlsReloadFailures := hpoll.succeeded
      omega
  | reloaded hread hreloaded hnew =>
      rw [hconfig'] at hread hreloaded
      refine iff_of_true ?_ fun h => ?_
      · cases hreloaded with
        | nothing hplain =>
            rw [hloaded.inUse_iff, (hloaded.eq_plain hplain).1, tlsFiles_plain hplain]
            simp [versions]
        | replaced hloaded =>
            exact hloaded.inUse_iff.mpr
              (hpoll.still.readings hread.since.moment (le_refl _) hloaded.versions)
      · obtain ⟨readings, hreadings, hprint⟩ := hread.readings hstamps
        have hlast := hreloaded.since.moment
        rw [hpoll.still.readings (le_refl _) hlast hreadings] at hprint
        exact hnew (hprint.trans h.2.symm)

end

/-! ## Runs, computed -/

/-- Surroundings in which both files have a version that depends on the moment. -/
def changing (version : Nat → Nat) (moment : Nat) : Surroundings :=
  secureAround secureConfig (version moment)

/-- Two versions are told apart. -/
theorem changing_distinguishing {version : Nat → Nat} (htwo : ∀ t, version t < 2) :
    Distinguishing (changing version) secureStamps
      (tlsFiles secureConfig) := by
  have hfiles : tlsFiles secureConfig = ["chain.pem", "key.pem"] := by decide +kernel
  have hreadings : ∀ readings, List.Forall₂ (fun file reading =>
      ∃ t, (changing version t).disk file = reading) (tlsFiles secureConfig) readings →
      readings ∈ [[0, 0], [0, 1], [1, 0], [1, 1]] := by
    intro readings h
    rw [hfiles] at h
    cases h with
    | @cons _ first _ rest hfirst hrest =>
        cases hrest with
        | @cons _ second _ rest hsecond hnil =>
            cases hnil
            obtain ⟨t, hfirst⟩ := hfirst
            obtain ⟨u, hsecond⟩ := hsecond
            have hfirst : version t = first := hfirst
            have hsecond : version u = second := hsecond
            have := htwo t
            have := htwo u
            simp only [List.mem_cons, List.cons.injEq, and_true, List.not_mem_nil, or_false]
            omega
  have hall : ∀ readings ∈ [[0, 0], [0, 1], [1, 0], [1, 1]],
      ∀ readings' ∈ [[0, 0], [0, 1], [1, 0], [1, 1]],
        fingerprintText secureStamps (tlsFiles secureConfig) readings =
          fingerprintText secureStamps (tlsFiles secureConfig) readings' →
        readings = readings' := by decide +kernel
  intro readings readings' h h' hequal
  exact hall readings (hreadings readings h) readings' (hreadings readings' h') hequal

def changingStart (version : Nat → Nat) : (Except String Unit × Service) × (Nat × Ambient) :=
  playAt (changing version) (0, {}) (start fun _ => none) {}

/-- The start of the example is one of the service. -/
theorem changingStart_reached {version : Nat → Nat} (hok : (changingStart version).1.1 = .ok ())
    (hready : (changingStart version).2.1 = 15) :
    Reached (fun _ => none) (changing version) 0 15 (changingStart version).1.2
      (changingStart version).2 := by
  unfold changingStart at hok hready ⊢
  rw [← hready]
  exact Reached.of_start (runs_playAt (changing version) (0, {}) (start fun _ => none) {} hok)

/-- The certificates of contexts that are in use. -/
theorem inUse_certificates {disk : String → Nat} {listeners : List ListenerConfig}
    {contexts : List (Option TlsContext)} (h : List.Forall₂ (InUse disk) listeners contexts) :
    contexts.map (Option.map TlsContext.certificate) =
      listeners.map fun listener =>
        if listener.tls then some (disk listener.certificateFile) else none := by
  induction h with
  | nil => rfl
  | @cons listener slot _ _ hfirst _ ih =>
      rw [List.map_cons, List.map_cons, ih]
      cases slot with
      | none =>
          have hplain : listener.tls = false := hfirst
          simp [hplain]
      | some context =>
          obtain ⟨htls, _, _, hcertificate, _⟩ := hfirst
          simp [htls, hcertificate]

/-- The files are renewed when the loop has begun, and put back after the first poll. -/
def polledThenBack (moment : Nat) : Nat := if 15 ≤ moment ∧ moment < 22 then 1 else 0

def firstPoll : (Except String Unit × Service) × (Nat × Ambient) :=
  playAt (changing polledThenBack) (changingStart polledThenBack).2
    (pollDue kTlsMaterialPollInterval) (changingStart polledThenBack).1.2

def secondPoll : (Except String Unit × Service) × (Nat × Ambient) :=
  playAt (changing polledThenBack) firstPoll.2 pollTls firstPoll.1.2

/-- A poll has loaded the renewed files; when they are put back, the next one loads the old ones
again. -/
theorem renewed_material_loaded_put_back :
    Reached (fun _ => none) (changing polledThenBack) 0 15 firstPoll.1.2 firstPoll.2 ∧
      firstPoll.1.2.tlsContexts.map (Option.map TlsContext.certificate) = [some 1] ∧
      CleanPoll (changing polledThenBack) secureConfig firstPoll.1.2 firstPoll.2 secondPoll.1.2
        secondPoll.2 ∧
      List.Forall₂ (InUse fun _ => 0) secureConfig.listeners secondPoll.1.2.tlsContexts := by
  have hready : (changingStart polledThenBack).2.1 = 15 := by decide +kernel
  have hfirst : firstPoll.2.1 = 22 := by decide +kernel
  have hstart : Reached (fun _ => none) (changing polledThenBack) 0 15
      (changingStart polledThenBack).1.2 (changingStart polledThenBack).2 :=
    changingStart_reached (by decide +kernel) hready
  have hrun : Runs (overTime (changing polledThenBack)) (changingStart polledThenBack).2
      (pollDue kTlsMaterialPollInterval (changingStart polledThenBack).1.2)
      (firstPoll.1.1, firstPoll.1.2) firstPoll.2 := runs_playAt _ _ _ _ rfl
  have hreached := Reached.poll hstart hrun
  have hback : ∀ t, 22 ≤ t → polledThenBack t = 0 := fun t hlate => if_neg (by omega)
  have hpoll : CleanPoll (changing polledThenBack) secureConfig firstPoll.1.2 firstPoll.2
      secondPoll.1.2 secondPoll.2 := by
    refine ⟨runs_playAt _ _ _ _ (by decide +kernel), ?_, by decide +kernel⟩
    intro file _ t hlow _
    show polledThenBack t = polledThenBack firstPoll.2.1
    rw [hback t (hfirst ▸ hlow), hback _ (by omega)]
  have hdistinct : Distinguishing (changing polledThenBack) secureStamps
      (tlsFiles secureConfig) := by
    apply changing_distinguishing
    intro t
    unfold polledThenBack
    split <;> omega
  have hprint : firstPoll.1.2.tlsFingerprint = fingerprintText secureStamps (tlsFiles secureConfig)
      (versions firstPoll.1.2.tlsContexts) := by decide +kernel
  have hdisk : (changing polledThenBack firstPoll.2.1).disk = fun _ => 0 := by
    funext file
    show polledThenBack firstPoll.2.1 = 0
    exact hback _ (by omega)
  have hstamps : ∀ t, (changing polledThenBack t).stamps = secureStamps := fun _ => rfl
  have hconfig : ∀ t, (changing polledThenBack t).config = .ok secureConfig := fun _ => rfl
  have hloaded := (renewed_material_loaded hstamps hconfig hdistinct hreached hpoll).1.mpr
    fun h => h.1 hprint
  rw [hdisk] at hloaded
  exact ⟨hreached, by decide +kernel, hpoll, hloaded⟩

/-- After a clean poll, other contexts are in use than those on disk. -/
def Missed (around : Nat → Surroundings) : Prop :=
  ∃ s x s' x', Reached (fun _ => none) around 0 15 s x ∧
    CleanPoll around secureConfig s x s' x' ∧
    ¬ List.Forall₂ (InUse (around x.1).disk) secureConfig.listeners s'.tlsContexts

/-- The files are renewed after they were loaded, before the first fingerprint. -/
def raced (moment : Nat) : Nat := if moment < 11 then 0 else 1

/-- The files are renewed, a reload loads them, and then they are put back. -/
def putBack (moment : Nat) : Nat := if 15 ≤ moment ∧ moment < 24 then 1 else 0

def racedPoll : (Except String Unit × Service) × (Nat × Ambient) :=
  playAt (changing raced) (changingStart raced).2 pollTls (changingStart raced).1.2

def putBackReload : (Except String Unit × Service) × (Nat × Ambient) :=
  playAt (changing putBack) (changingStart putBack).2 (reload fun _ => none)
    (changingStart putBack).1.2

def putBackPoll : (Except String Unit × Service) × (Nat × Ambient) :=
  playAt (changing putBack) putBackReload.2 pollTls putBackReload.1.2

/-- Files that are renewed between their load and the first fingerprint are missed. -/
theorem raced_missed : Missed (changing raced) := by
  have hready : (changingStart raced).2.1 = 15 := by decide +kernel
  refine ⟨_, _, racedPoll.1.2, racedPoll.2, changingStart_reached (by decide +kernel) hready,
    ⟨runs_playAt _ _ _ _ (by decide +kernel), ?_, by decide +kernel⟩, ?_⟩
  · intro file _ t hlow _
    rw [hready] at hlow ⊢
    have hlate : raced t = 1 := if_neg (by omega)
    exact hlate
  · intro h
    have hversions := inUse_certificates h
    rw [hready] at hversions
    exact absurd hversions (by decide +kernel)

/-- So are files that are put back after a reload. -/
theorem putBack_missed : Missed (changing putBack) := by
  have hready : (changingStart putBack).2.1 = 15 := by decide +kernel
  have hreloaded : putBackReload.2.1 = 24 := by decide +kernel
  have hreached : Reached (fun _ => none) (changing putBack) 0 15 (changingStart putBack).1.2
      (changingStart putBack).2 := changingStart_reached (by decide +kernel) hready
  have hrun : Runs (overTime (changing putBack)) (changingStart putBack).2
      (reload (fun _ => none) (changingStart putBack).1.2)
      (putBackReload.1.1, putBackReload.1.2) putBackReload.2 := runs_playAt _ _ _ _ rfl
  refine ⟨_, _, putBackPoll.1.2, putBackPoll.2, .reload hreached hrun,
    ⟨runs_playAt _ _ _ _ (by decide +kernel), ?_, by decide +kernel⟩, ?_⟩
  · intro file _ t hlow _
    have hlow : putBackReload.2.1 ≤ t := hlow
    have hlate : putBack t = 0 := if_neg (by omega)
    show putBack t = putBack putBackReload.2.1
    rw [hlate, hreloaded]
    rfl
  · intro h
    have hversions := inUse_certificates h
    exact absurd hversions (by decide +kernel)

/-- **Renewed material can be missed**: where it is put in place while the process starts,
and where it is put back after a reload. -/
theorem renewed_material_missed :
    (Distinguishing (changing raced) secureStamps (tlsFiles secureConfig) ∧
        Missed (changing raced)) ∧
      Distinguishing (changing putBack) secureStamps
        (tlsFiles secureConfig) ∧ Missed (changing putBack) := by
  refine ⟨⟨changing_distinguishing fun t => ?_, raced_missed⟩,
    changing_distinguishing fun t => ?_, putBack_missed⟩
  · unfold raced
    split <;> omega
  · unfold putBack
    split <;> omega

end PoolLb.Service
