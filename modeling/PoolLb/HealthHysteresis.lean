import PoolLb.HealthMonitor
import PoolLb.Streaks

/-!
# Health has inertia

The flag of a backend is moved by runs of equal outcomes only.  The two counters of a
backend are the lengths of the runs at the end of its history, as long as an `int` can
hold them, and the flag is up exactly if a run of `rise_checks` successes has come and
none of `fall_checks` failures since.  A check comes to an end unless the kernel keeps
asking to come back later, so there is always a next outcome.
-/

namespace PoolLb

open Interaction

namespace Health

/-- Two states of a backend that health checks do not tell apart: other threads change the
rest. -/
def SameHealth (left right : BackendCounters) : Prop :=
  left.healthy = right.healthy ∧ left.consecutiveSuccesses = right.consecutiveSuccesses ∧
    left.consecutiveFailures = right.consecutiveFailures

/-- The outcomes of the checks of a backend since it was made, and its state.  Every check is
a run of `check_backend` in some world, at some place of the address sequence. -/
inductive Checks (config : HealthConfig) (backend : Backend) : List Bool → BackendCounters → Prop
  | fresh : Checks config backend [] {}
  | check {outcomes : List Bool} {counters before : BackendCounters} {result : CheckResult}
      {W : Type} {M : World probeCalls W} {w w' : W} {rounds addressSequence : Nat}
      (earlier : Checks config backend outcomes counters) (same : SameHealth counters before)
      (run : Runs M w (checkBackend rounds backend config before addressSequence) (some result) w') :
      Checks config backend (outcomes ++ [result.reachable]) result.counters

/-! ## Checks end -/

/-- The kernel as a probe sees it.  It answers anything that a call can return; the state is
how often it has asked to come back later. -/
def kernel : World probeCalls Nat where
  requires _ _ := True
  allows _ c := match c with
    | .send bytes => fun result =>
        match result with
        | .sent count => count ≤ bytes.length
        | _ => True
    | .recv capacity => fun result =>
        match result with
        | .received bytes => bytes ≠ [] ∧ bytes.length ≤ capacity
        | _ => True
    | _ => fun _ => True
  after delays c := match c with
    | .send _ => fun result =>
        match result with
        | .retry => delays + 1
        | _ => delays
    | .recv _ => fun result =>
        match result with
        | .again | .interrupted => delays + 1
        | _ => delays
    | _ => fun _ => delays

/-- The rounds of a loop were enough for what it had to move, unless it was held up. -/
def Enough (rounds work delays : Nat) {α : Type} (result : Option α) (delays' : Nat) : Prop :=
  delays ≤ delays' ∧ (delays' + work < rounds + delays → result.isSome)

section Ends

variable {rounds work delays : Nat}

/-- A result takes no round and no delay. -/
theorem enough_some {α : Type} (result : α) : Enough rounds work delays (some result) delays :=
  ⟨Nat.le_refl _, fun _ => rfl⟩

/-- A round that moves something. -/
theorem Enough.moved {less more delays' : Nat} {α : Type} {result : Option α}
    (h : Enough rounds less delays result delays') (hless : less + 1 ≤ more) :
    Enough (rounds + 1) more delays result delays' :=
  ⟨h.1, fun hfew => h.2 (by omega)⟩

/-- A round that is held up. -/
theorem Enough.delayed {delays' : Nat} {α : Type} {result : Option α}
    (h : Enough rounds work (delays + 1) result delays') :
    Enough (rounds + 1) work delays result delays' := by
  obtain ⟨hlater, hsome⟩ := h
  exact ⟨by omega, fun hfew => hsome (by omega)⟩

/-- Running out of no rounds at all. -/
theorem enough_none {α : Type} : Enough 0 work delays (none : Option α) delays :=
  ⟨Nat.le_refl _, fun hfew => by omega⟩

/-- Every round of `send_health_request` sends a byte or is held up. -/
theorem sendHealthRequest_enough (deadline rounds delays : Nat) (remaining : Bytes) :
    Ensures kernel delays (sendHealthRequest deadline rounds remaining)
      (Enough rounds remaining.length delays) := by
  induction rounds generalizing remaining delays with
  | zero => exact enough_none
  | succ rounds ih =>
      unfold sendHealthRequest
      split
      · exact enough_some true
      · rename_i hleft
        have hleft := List.length_pos_of_ne_nil hleft
        refine ⟨trivial, fun (ready : Bool) _ => ?_⟩
        cases ready with
        | false => exact enough_some false
        | true =>
            refine ⟨trivial, fun (result : SendResult) _ => ?_⟩
            cases result with
            | sent count =>
                show Ensures kernel delays (if count > 0 then _ else _) _
                split
                · refine (ih delays _).mono fun _ _ h => h.moved ?_
                  rw [List.length_drop]
                  omega
                · exact enough_some false
            | retry => exact (ih (delays + 1) _).mono fun _ _ h => h.delayed
            | failed => exact enough_some false

/-- Every round of `read_healthy_status` receives a byte or is held up. -/
theorem readHealthyStatus_enough (deadline rounds delays : Nat) (response : Bytes) :
    Ensures kernel delays (readHealthyStatus deadline rounds response)
      (Enough rounds (kResponseBytes - response.length) delays) := by
  induction rounds generalizing response delays with
  | zero => exact enough_none
  | succ rounds ih =>
      unfold readHealthyStatus
      split
      · exact enough_some false
      · refine ⟨trivial, fun (result : RecvResult) hresult => ?_⟩
        cases result with
        | received bytes =>
            have hsome := List.length_pos_of_ne_nil hresult.1
            dsimp only [Prog.bind]
            cases healthyStatus (response ++ bytes) with
            | some status => exact enough_some status
            | none =>
                refine (ih delays _).mono fun _ _ h => h.moved ?_
                rw [List.length_append]
                omega
        | closed => exact enough_some false
        | interrupted => exact (ih (delays + 1) _).mono fun _ _ h => h.delayed
        | failed => exact enough_some false
        | again =>
            refine ⟨trivial, fun (ready : Bool) _ => ?_⟩
            cases ready with
            | true => exact (ih (delays + 1) _).mono fun _ _ h => h.delayed
            | false =>
                refine ⟨trivial, fun (final : RecvResult) _ => ?_⟩
                have hlater : delays ≤ delays + 1 + 1 := by omega
                cases final with
                | received bytes => exact (enough_some _).delayed
                | closed => exact (enough_some _).delayed
                | interrupted => exact ⟨hlater, fun _ => rfl⟩
                | failed => exact (enough_some _).delayed
                | again => exact ⟨hlater, fun _ => rfl⟩

/-- A check of one address needs no rounds. -/
theorem checkTcpAddress_enough (rounds delays : Nat) (address : SocketAddress) (deadline : Nat) :
    Ensures kernel delays (checkTcpAddress address deadline)
      (Enough rounds kResponseBytes delays) := by
  refine ⟨trivial, fun (now : Nat) _ => ?_⟩
  show Ensures kernel delays (if timeoutUntil deadline now = 0 then _ else _) _
  split
  · exact enough_some false
  · exact ⟨trivial, fun (connected : Bool) _ => enough_some connected⟩

/-- The request is shorter than the buffer for the response. -/
theorem checkHttpAddress_enough (rounds delays : Nat) (address : SocketAddress) (deadline : Nat) :
    Ensures kernel delays (checkHttpAddress rounds address deadline)
      (Enough rounds kResponseBytes delays) := by
  have hrequest : kHealthRequest.length ≤ kResponseBytes := by decide +kernel
  refine ⟨trivial, fun (now : Nat) _ => ?_⟩
  show Ensures kernel delays (if timeoutUntil deadline now = 0 then _ else _) _
  split
  · exact enough_some false
  · refine ⟨trivial, fun (connected : Bool) _ => ?_⟩
    cases connected with
    | false => exact enough_some false
    | true =>
        refine (sendHealthRequest_enough deadline rounds delays kHealthRequest).bind
          fun sent delays₁ hsent => ?_
        obtain ⟨hlater, hsome⟩ := hsent
        cases sent with
        | none => exact ⟨hlater, fun hfew => hsome (by omega)⟩
        | some sent =>
            cases sent with
            | false => exact ⟨hlater, fun _ => rfl⟩
            | true =>
                refine (readHealthyStatus_enough deadline rounds delays₁ []).mono
                  fun _ _ hread => ?_
                obtain ⟨hlater', hsome'⟩ := hread
                rw [List.length_nil] at hsome'
                exact ⟨by omega, fun hfew => hsome' (by omega)⟩

/-- The loop over the addresses ends if each of them does. -/
theorem tryAddresses_enough (rounds : Nat) (useHttp : Bool) (overallDeadline delays : Nat)
    (addresses : List SocketAddress) :
    Ensures kernel delays (tryAddresses rounds useHttp overallDeadline addresses)
      (Enough rounds kResponseBytes delays) := by
  induction addresses generalizing delays with
  | nil => exact enough_some false
  | cons address rest ih =>
      refine ⟨trivial, fun (stop : Bool) _ => ?_⟩
      cases stop with
      | true => exact enough_some false
      | false =>
          refine ⟨trivial, fun (now : Nat) _ => ?_⟩
          show Ensures kernel delays (if now ≥ overallDeadline then _ else _) _
          split
          · exact enough_some false
          · -- what follows a check, on either kind of check
            have hnext : ∀ next : Option Bool → Prog probeCalls (Option Bool), next none = pure none →
                next (some true) = pure (some true) →
                next (some false) = tryAddresses rounds useHttp overallDeadline rest →
                ∀ reachable delays₁, Enough rounds kResponseBytes delays reachable delays₁ →
                  Ensures kernel delays₁ (next reachable) (Enough rounds kResponseBytes delays) := by
              intro next hnone htrue hfalse reachable delays₁ hchecked
              obtain ⟨hlater, hsome⟩ := hchecked
              cases reachable with
              | none =>
                  rw [hnone]
                  exact ⟨hlater, fun hfew => hsome hfew⟩
              | some reachable =>
                  cases reachable with
                  | true =>
                      rw [htrue]
                      exact ⟨hlater, fun _ => rfl⟩
                  | false =>
                      rw [hfalse]
                      refine (ih delays₁).mono fun _ _ hrest => ?_
                      obtain ⟨hlater', hsome'⟩ := hrest
                      exact ⟨by omega, fun hfew => hsome' (by omega)⟩
            cases useHttp with
            | true =>
                exact (checkHttpAddress_enough rounds delays address _).bind (hnext _ rfl rfl rfl)
            | false =>
                exact (checkTcpAddress_enough rounds delays address _).bind (hnext _ rfl rfl rfl)

/-- A check ends, unless the kernel has asked as often to come back later as there were
rounds. -/
theorem checkBackend_enough (rounds : Nat) (backend : Backend) (config : HealthConfig)
    (counters : BackendCounters) (addressSequence delays : Nat) :
    Ensures kernel delays (checkBackend rounds backend config counters addressSequence)
      (Enough rounds kResponseBytes delays) := by
  refine ⟨trivial, fun (now : Nat) _ => ?_⟩
  refine (tryAddresses_enough rounds _ _ delays _).bind fun reachable delays₁ htried => ?_
  cases reachable with
  | none => exact ⟨htried.1, fun hfew => htried.2 hfew⟩
  | some reachable => exact ⟨htried.1, fun _ => rfl⟩

end Ends

/-! ## The counters are runs -/

/-- Whatever the outside answers, a check that ends records how it came out. -/
theorem leaves_checkBackend (rounds : Nat) (backend : Backend) (config : HealthConfig)
    (counters : BackendCounters) (addressSequence : Nat) :
    Leaves (fun result => ∀ check, result = some check →
        check.counters = recordCheck config counters check.reachable)
      (checkBackend rounds backend config counters addressSequence) := by
  have hany : ∀ (p : Prog probeCalls (Option Bool)), Leaves (fun _ => True) p := by
    intro p
    induction p with
    | ret result => exact trivial
    | ask c k ih => exact fun r => ih r
  unfold checkBackend
  refine Leaves.bind (P := fun _ => True) (fun _ => trivial) fun now _ => ?_
  refine (hany _).bind fun result _ => ?_
  cases result with
  | none => exact fun check hcheck => nomatch hcheck
  | some reachable =>
      intro check hcheck
      cases hcheck
      rfl

/-- What the atomics of a backend say of its history. -/
structure Counted (config : HealthConfig) (outcomes : List Bool) (counters : BackendCounters) :
    Prop where
  successes : counters.consecutiveSuccesses = Streaks.trailing true outcomes
  failures : counters.consecutiveFailures = Streaks.trailing false outcomes
  healthy : counters.healthy = true ↔
    Streaks.Risen config.riseChecks.toNat config.fallChecks.toNat outcomes

variable {config : HealthConfig} {backend : Backend} {outcomes : List Bool}
  {counters before : BackendCounters}

/-- A backend that was never checked. -/
theorem counted_fresh (hrise : 1 ≤ config.riseChecks) : Counted config [] {} where
  successes := rfl
  failures := rfl
  healthy := by
    refine iff_of_false Bool.false_ne_true fun h => ?_
    obtain ⟨place, hplace, hrun, _⟩ := h
    have hcount := hrun.1
    have hnone : place ≤ 0 := hplace
    omega

/-- The counts are about the health only. -/
theorem Counted.of_same (h : Counted config outcomes counters) (same : SameHealth counters before) :
    Counted config outcomes before where
  successes := same.2.1 ▸ h.successes
  failures := same.2.2 ▸ h.failures
  healthy := same.1 ▸ h.healthy

/-- A success counts, and raises the flag if it completes a run. -/
theorem Counted.success (h : Counted config outcomes counters) (hfall : 1 ≤ config.fallChecks)
    (hfew : outcomes.length + 1 < 2 ^ 31) :
    Counted config (outcomes ++ [true]) (recordCheck config counters true) := by
  have hlength := Streaks.trailing_le_length true outcomes
  have hrun : Streaks.trailing true (outcomes ++ [true]) = Streaks.trailing true outcomes + 1 := by
    rw [Streaks.trailing_append, if_pos rfl]
  have hcount : wrapInt (counters.consecutiveSuccesses + 1) =
      Streaks.trailing true (outcomes ++ [true]) := by
    rw [h.successes, wrapInt, Int.bmod_eq_of_le (by omega) (by omega), hrun]
    rfl
  constructor
  · exact hcount
  · show (0 : Int) = _
    rw [Streaks.trailing_append, if_neg Bool.true_eq_false_eq_False]
    rfl
  · rw [Streaks.risen_success (by omega), ← h.healthy]
    show (if ¬ counters.healthy = true ∧ wrapInt (counters.consecutiveSuccesses + 1) ≥
      config.riseChecks then true else counters.healthy) = true ↔ _
    rw [hcount]
    have hrise : (Streaks.trailing true (outcomes ++ [true]) : Int) ≥ config.riseChecks ↔
        config.riseChecks.toNat ≤ Streaks.trailing true (outcomes ++ [true]) := by omega
    rw [← hrise]
    by_cases hup : counters.healthy = true
    · simp [hup]
    · simp [hup]

/-- A failure counts, and lowers the flag if it completes a run. -/
theorem Counted.failure (h : Counted config outcomes counters) (hrise : 1 ≤ config.riseChecks)
    (hfew : outcomes.length + 1 < 2 ^ 31) :
    Counted config (outcomes ++ [false]) (recordCheck config counters false) := by
  have hlength := Streaks.trailing_le_length false outcomes
  have hrun : Streaks.trailing false (outcomes ++ [false]) =
      Streaks.trailing false outcomes + 1 := by
    rw [Streaks.trailing_append, if_pos rfl]
  have hcount : wrapInt (counters.consecutiveFailures + 1) =
      Streaks.trailing false (outcomes ++ [false]) := by
    rw [h.failures, wrapInt, Int.bmod_eq_of_le (by omega) (by omega), hrun]
    rfl
  constructor
  · show (0 : Int) = _
    rw [Streaks.trailing_append, if_neg Bool.false_ne_true]
    rfl
  · exact hcount
  · rw [Streaks.risen_failure (by omega), ← h.healthy]
    show (if counters.healthy = true ∧ wrapInt (counters.consecutiveFailures + 1) ≥
      config.fallChecks then false else counters.healthy) = true ↔ _
    rw [hcount]
    have hfall : (Streaks.trailing false (outcomes ++ [false]) : Int) ≥ config.fallChecks ↔
        config.fallChecks.toNat ≤ Streaks.trailing false (outcomes ++ [false]) := by omega
    rw [← hfall]
    by_cases hup : counters.healthy = true
    · simp [hup]
    · simp [hup]

/-- The counters are the runs at the end of the history, check after check. -/
theorem Checks.counted (h : Checks config backend outcomes counters)
    (hrise : 1 ≤ config.riseChecks) (hfall : 1 ≤ config.fallChecks)
    (hfew : outcomes.length < 2 ^ 31) : Counted config outcomes counters := by
  induction h with
  | fresh => exact counted_fresh hrise
  | @check outcomes counters before result W M w w' rounds addressSequence earlier same run ih =>
      rw [List.length_append, List.length_singleton] at hfew
      have hbefore := (ih (by omega)).of_same same
      have hrecord := (leaves_checkBackend _ _ _ _ _).sound run result rfl
      cases hreachable : result.reachable with
      | true =>
          rw [hreachable] at hrecord
          rw [hrecord]
          exact hbefore.success hfall hfew
      | false =>
          rw [hreachable] at hrecord
          rw [hrecord]
          exact hbefore.failure hrise hfew

/-- **Health has inertia.**  After every check the flag is up exactly if the `rise_checks`
outcomes that end at some check were successes, and no later check has ended a run of
`fall_checks` failures; and the next check changes it only by ending such a run.  There is a
next check: it ends, for whatever answers, in as many rounds as a response has bytes and the
kernel has asked to come back later. -/
theorem health_follows_runs (hrise : 1 ≤ config.riseChecks) (hfall : 1 ≤ config.fallChecks)
    (h : Checks config backend outcomes counters) (hfew : outcomes.length < 2 ^ 31) :
    (counters.healthy = true ↔
      ∃ check ≤ outcomes.length,
        Streaks.EndsRun outcomes true config.riseChecks.toNat check ∧
        ∀ later, check < later → later ≤ outcomes.length →
          ¬ Streaks.EndsRun outcomes false config.fallChecks.toNat later) ∧
    (∀ outcome next, Checks config backend (outcomes ++ [outcome]) next →
      outcomes.length + 1 < 2 ^ 31 → next.healthy ≠ counters.healthy →
      Streaks.EndsRun (outcomes ++ [outcome]) outcome
        (if outcome then config.riseChecks.toNat else config.fallChecks.toNat)
        (outcomes.length + 1)) ∧
    ∀ before rounds addressSequence, SameHealth counters before →
      Ensures kernel 0 (checkBackend rounds backend config before addressSequence)
        (fun result delays => delays + kResponseBytes < rounds → ∃ check, result = some check ∧
          Checks config backend (outcomes ++ [check.reachable]) check.counters) := by
  have hcounted := h.counted hrise hfall hfew
  refine ⟨hcounted.healthy, ?_, ?_⟩
  · intro outcome next hnext hfew' hflip
    have hnextCounted := hnext.counted hrise hfall (by simpa using hfew')
    have hlength : (outcomes ++ [outcome]).length = outcomes.length + 1 := by simp
    have hdiffer : ¬ (next.healthy = true ↔ counters.healthy = true) := fun hsame =>
      hflip (Bool.eq_iff_iff.mpr hsame)
    rw [← hlength, Streaks.endsRun_length_iff]
    rw [hnextCounted.healthy, hcounted.healthy] at hdiffer
    cases outcome with
    | true =>
        rw [Streaks.risen_success (by omega)] at hdiffer
        by_contra hshort
        exact hdiffer ⟨fun hrisen => hrisen.resolve_right hshort, .inl⟩
    | false =>
        rw [Streaks.risen_failure (by omega)] at hdiffer
        by_contra hshort
        exact hdiffer ⟨fun hrisen => hrisen.1, fun hrisen => ⟨hrisen, hshort⟩⟩
  · intro before rounds addressSequence hsame
    refine (checkBackend_enough rounds backend config before addressSequence 0).and_runs.mono
      fun result delays hend hfew => ?_
    obtain ⟨henough, hrun⟩ := hend
    obtain ⟨check, hcheck⟩ := Option.isSome_iff_exists.mp (henough.2 hfew)
    rw [hcheck] at hrun
    exact ⟨check, hcheck, .check h hsame hrun⟩

/-! ## Three failures after a success -/

/-- An outside that may answer anything. -/
def anything : World probeCalls Unit where
  requires _ _ := True
  allows _ _ _ := True
  after _ _ _ := ()

/-- Answers of a network in which connecting works or not. -/
def connecting (works : Bool) : Unit → (c : ProbeCall) → c.Answer
  | _, .now => Nat.zero
  | _, .stopRequested => false
  | _, .connectTcp _ _ => works
  | _, .waitFd _ _ => true
  | _, .send bytes => SendResult.sent bytes.length
  | _, .recv _ => RecvResult.closed

/-- A backend that is probed by connecting to it. -/
def plainBackend : Backend where
  ref := 0
  socketAddresses := [{ value := [], family := .inet }]

/-- How such a check ends. -/
def plainCheck (works : Bool) (counters : BackendCounters) : CheckResult where
  reachable := works
  counters := recordCheck {} counters works
  addressSequence := 1

theorem runs_connecting (works : Bool) (counters : BackendCounters) :
    Runs anything () (checkBackend 0 plainBackend {} counters 0)
      (some (plainCheck works counters)) () := by
  have hrun := @runs_play probeCalls _ _ anything (connecting works) (fun _ _ => trivial) ()
    (checkBackend 0 plainBackend {} counters 0)
  have hresult : ((checkBackend 0 plainBackend {} counters 0).play anything
      (connecting works) ()).1 = some (plainCheck works counters) := by
    cases works with
    | true => rfl
    | false => rfl
  rw [hresult] at hrun
  exact hrun

/-- Two failures after a success leave the flag up, as a run of one success has come and none
of three failures; the third failure ends such a run and takes the flag down. -/
theorem health_follows_runs_third_failure :
    ∃ counters next, Checks {} plainBackend [true, false, false] counters ∧
      counters.healthy = true ∧
      (∃ check ≤ 3, Streaks.EndsRun [true, false, false] true 1 check ∧
        ∀ later, check < later → later ≤ 3 →
          ¬ Streaks.EndsRun [true, false, false] false 3 later) ∧
      Checks {} plainBackend [true, false, false, false] next ∧ next.healthy = false ∧
      Streaks.EndsRun [true, false, false, false] false 3 4 := by
  have hone : Checks {} plainBackend [true] (recordCheck {} {} true) :=
    .check .fresh ⟨rfl, rfl, rfl⟩ (runs_connecting true {})
  have htwo : Checks {} plainBackend [true, false] _ :=
    .check hone ⟨rfl, rfl, rfl⟩ (runs_connecting false _)
  have hthree : Checks {} plainBackend [true, false, false] _ :=
    .check htwo ⟨rfl, rfl, rfl⟩ (runs_connecting false _)
  have hfour : Checks {} plainBackend [true, false, false, false] _ :=
    .check hthree ⟨rfl, rfl, rfl⟩ (runs_connecting false _)
  obtain ⟨hhealthy, hflips, _⟩ := health_follows_runs (by decide) (by decide) hthree (by decide)
  exact ⟨_, _, hthree, by decide +kernel, hhealthy.mp (by decide +kernel), hfour,
    by decide +kernel, hflips false _ hfour (by decide) (by decide +kernel)⟩

end Health

end PoolLb
