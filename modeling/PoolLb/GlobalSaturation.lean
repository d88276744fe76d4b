import PoolLb.SequentialLimiter

/-!
# The process-wide rate at the end of its type

`consume_global_connection` computes in `std::int64_t` and saturates: the tolerance when
the burst is large, the arrival time when it comes near the largest value.  Three facts:

* no signed operation overflows, whatever the limits and the (non-negative) clock
  readings, so the code computes what `globalConforms` and `arrivalAfter` say;
* as long as `now + tolerance` stays below the largest value, a saturated arrival time
  refuses everything, and the window bound of the exact algorithm holds;
* past that point the saturated arrival time no longer moves and is within the
  tolerance, so every call succeeds: `saturated_rate_admits_all`.
-/

namespace PoolLb.RateLimiter

/-! ## Signed arithmetic -/

/-- The result of a signed operation, if it is representable. -/
def int64 (value : Int) : Option Int :=
  if -(2 : Int) ^ 63 ≤ value ∧ value ≤ kInt64Max then some value else none

/-- `saturating_add`, with each signed operation checked. -/
def checkedSaturatingAdd (left right : Int) : Option Int := do
  let room ← int64 (kInt64Max - left)
  if right > room then pure (kInt64Max : Int) else int64 (left + right)

/-- `saturating_multiply`, with each signed operation checked. -/
def checkedSaturatingMultiply (left : Nat) (right : Int) : Option Int :=
  if right = 0 then none
  else do
    let most ← int64 (Int.tdiv kInt64Max right)
    if left > most.toNat then pure (kInt64Max : Int) else int64 ((left : Int) * right)

/-- One turn of the loop of `consume_global_connection`, with each signed operation
checked: the answer, and the arrival time it leaves. -/
def checkedTurn (interval tolerance theoreticalArrival now : Int) : Option (Bool × Int) := do
  let base := max theoreticalArrival now
  let ahead ← int64 (base - now)
  if ahead > tolerance then pure (false, theoreticalArrival)
  else
    let replacement ← checkedSaturatingAdd base interval
    pure (true, replacement)

/-- `consume_global_connection` by a thread alone in it, with each signed operation
checked. -/
def checkedConsume (limits : LimitsConfig) (theoreticalArrival now : Int) :
    Option (Bool × Int) := do
  let tolerance ← checkedSaturatingMultiply
    ((limits.globalConnectionBurst + (kWordSize - 1)) % kWordSize) (globalInterval limits)
  checkedTurn (globalInterval limits) tolerance theoreticalArrival now

variable {limits : LimitsConfig} {arrival now left right : Nat}

/-- A number that fits is represented as it is. -/
theorem int64_cast (h : left ≤ kInt64Max) : int64 left = some (left : Int) := by
  unfold int64
  rw [if_pos]
  constructor
  · have hnonneg : (0 : Int) ≤ left := Int.natCast_nonneg left
    omega
  · exact_mod_cast h

/-- **The guarded addition does not overflow.** -/
theorem checkedSaturatingAdd_eq (hleft : left ≤ kInt64Max) :
    checkedSaturatingAdd left right = some (saturatingAdd left right : Int) := by
  have hroom : (kInt64Max : Int) - left = (kInt64Max - left : Nat) := by omega
  unfold checkedSaturatingAdd saturatingAdd
  rw [hroom, int64_cast (Nat.sub_le _ _)]
  by_cases hbig : right > kInt64Max - left
  · have hbig' : (right : Int) > (kInt64Max - left : Nat) := by exact_mod_cast hbig
    simp [hbig, hbig']
  · have hbig' : ¬ (right : Int) > (kInt64Max - left : Nat) := by exact_mod_cast hbig
    have hsum : left + right ≤ kInt64Max := by omega
    have hcast := int64_cast hsum
    push_cast at hcast
    simp only [Option.bind_eq_bind, Option.bind_some, if_neg hbig', if_neg hbig, hcast]
    push_cast
    rfl

/-- **Nor does the guarded multiplication.** -/
theorem checkedSaturatingMultiply_eq (left : Nat) (hright : 0 < right) :
    checkedSaturatingMultiply left right = some (saturatingMultiply left right : Int) := by
  have hmost : Int.tdiv (kInt64Max : Int) right = (kInt64Max / right : Nat) :=
    (Int.ofNat_tdiv _ _).symm
  have hne : ¬ (right : Int) = 0 := by omega
  unfold checkedSaturatingMultiply saturatingMultiply
  rw [if_neg hne, hmost, int64_cast (Nat.div_le_self _ _)]
  simp only [Option.bind_eq_bind, Option.bind_some, Int.toNat_natCast]
  by_cases hbig : left > kInt64Max / right
  · rw [if_pos hbig, if_pos hbig]
    rfl
  · have hproduct : left * right ≤ kInt64Max :=
      (Nat.le_div_iff_mul_le hright).mp (not_lt.mp hbig)
    have hcast := int64_cast hproduct
    push_cast at hcast
    rw [if_neg hbig, if_neg hbig, hcast]
    push_cast
    rfl

/-- The sum stays in the type. -/
theorem saturatingAdd_le (left right : Nat) (hleft : left ≤ kInt64Max) :
    saturatingAdd left right ≤ kInt64Max := by
  unfold saturatingAdd
  split
  · exact le_refl _
  · omega

/-- So does the arrival time after any call. -/
theorem arrivalAfter_le (harrival : arrival ≤ kInt64Max) (hnow : now ≤ kInt64Max) :
    arrivalAfter limits arrival now ≤ kInt64Max := by
  unfold arrivalAfter
  split
  · exact saturatingAdd_le _ _ (max_le harrival hnow)
  · exact harrival

section Turn

variable {interval tolerance : Nat}

/-- The later of two times, less one of them, in either arithmetic. -/
theorem max_cast_sub (arrival now : Nat) :
    max (arrival : Int) now - now = (max arrival now - now : Nat) := by omega

/-- A call that is too early leaves the arrival time. -/
theorem checkedTurn_refused (harrival : arrival ≤ kInt64Max) (hnow : now ≤ kInt64Max)
    (hearly : max arrival now - now > tolerance) :
    checkedTurn interval tolerance arrival now = some (false, (arrival : Int)) := by
  unfold checkedTurn
  dsimp only
  rw [max_cast_sub, int64_cast (le_trans (Nat.sub_le _ _) (max_le harrival hnow))]
  simp only [Option.bind_eq_bind, Option.bind_some]
  rw [if_pos (by exact_mod_cast hearly)]
  rfl

/-- A call that conforms moves it by an interval. -/
theorem checkedTurn_granted (harrival : arrival ≤ kInt64Max) (hnow : now ≤ kInt64Max)
    (hconforms : ¬ max arrival now - now > tolerance) :
    checkedTurn interval tolerance arrival now =
      some (true, (saturatingAdd (max arrival now) interval : Int)) := by
  have hbase : max (arrival : Int) now = (max arrival now : Nat) := (Nat.cast_max _ _).symm
  unfold checkedTurn
  dsimp only
  rw [max_cast_sub, int64_cast (le_trans (Nat.sub_le _ _) (max_le harrival hnow)), hbase,
    checkedSaturatingAdd_eq (max_le harrival hnow)]
  simp only [Option.bind_eq_bind, Option.bind_some]
  rw [if_neg (by exact_mod_cast hconforms)]
  rfl

end Turn

/-- **No signed operation overflows**, and the code computes the model. -/
theorem checkedConsume_eq (limits : LimitsConfig) (harrival : arrival ≤ kInt64Max)
    (hnow : now ≤ kInt64Max) :
    checkedConsume limits arrival now =
      some (globalConforms limits arrival now, (arrivalAfter limits arrival now : Int)) := by
  have htolerance : checkedSaturatingMultiply
      ((limits.globalConnectionBurst + (kWordSize - 1)) % kWordSize) (globalInterval limits) =
        some (globalTolerance limits : Int) :=
    checkedSaturatingMultiply_eq _ (globalInterval_pos limits)
  unfold checkedConsume
  rw [htolerance, Option.bind_eq_bind, Option.bind_some]
  by_cases hearly : max arrival now - now > globalTolerance limits
  · have hrefused := globalConforms_eq_false hearly
    rw [checkedTurn_refused harrival hnow hearly, hrefused, arrivalAfter_refused hrefused]
  · have hgranted := globalConforms_iff.mpr hearly
    rw [checkedTurn_granted harrival hnow hearly, hgranted, arrivalAfter_granted hgranted]

/-! ## Sequences of calls -/

/-- The arrival time after a sequence of calls, given by their clock readings, the latest
first. -/
def arrivalRun (limits : LimitsConfig) : List Nat → Nat
  | [] => 0
  | now :: earlier => arrivalAfter limits (arrivalRun limits earlier) now

/-- The clock readings of the calls that succeeded, the latest first. -/
def admittedRun (limits : LimitsConfig) : List Nat → List Nat
  | [] => []
  | now :: earlier =>
      if globalConforms limits (arrivalRun limits earlier) now then
        now :: admittedRun limits earlier
      else admittedRun limits earlier

theorem arrivalRun_le {calls : List Nat} (hcalls : ∀ now ∈ calls, now ≤ kInt64Max) :
    arrivalRun limits calls ≤ kInt64Max := by
  induction calls with
  | nil => exact Nat.zero_le _
  | cons now earlier ih =>
      obtain ⟨hnow, hearlier⟩ := List.forall_mem_cons.mp hcalls
      exact arrivalAfter_le (ih hearlier) hnow

/-- Below the end of its type the tolerance is the exact one. -/
theorem globalTolerance_exact (hburst : 0 < limits.globalConnectionBurst)
    (hword : limits.globalConnectionBurst < kWordSize)
    (hbelow : globalTolerance limits < kInt64Max) :
    globalTolerance limits = (limits.globalConnectionBurst - 1) * globalInterval limits := by
  unfold globalTolerance saturatingMultiply at hbelow ⊢
  rw [burst_pred_mod hburst hword] at hbelow ⊢
  split at hbelow
  · omega
  · rename_i hsmall
    rw [if_neg hsmall]

/-- A saturating sum is the sum, cut at the largest value. -/
theorem saturatingAdd_eq_min (hleft : left ≤ kInt64Max) :
    saturatingAdd left right = min kInt64Max (left + right) := by
  unfold saturatingAdd
  split <;> omega

/-- Cutting the arrival time before a call or after it comes to the same. -/
theorem min_max_min {cap now : Nat} (arrival interval : Nat) (hnow : now ≤ cap) :
    min cap (max (min cap arrival) now + interval) = min cap (max arrival now + interval) := by
  omega

/-- Below the cut a time that passes the test passes it uncut. -/
theorem max_le_of_cut {cap now tolerance arrival : Nat} (hnow : now + tolerance < cap)
    (h : ¬ max (min cap arrival) now - now > tolerance) : max arrival now ≤ now + tolerance := by
  omega

/-- **A saturated arrival time is the exact one, cut off**, and while `now + tolerance`
stays below the cut every call that succeeds conforms. -/
theorem admittedRun_conforming (hburst : 0 < limits.globalConnectionBurst)
    (hword : limits.globalConnectionBurst < kWordSize) {calls : List Nat}
    (hcalls : ∀ now ∈ calls, now + globalTolerance limits < kInt64Max) :
    arrivalRun limits calls =
        min kInt64Max (Gcra.arrival (globalInterval limits) (admittedRun limits calls)) ∧
      Gcra.Conforming (globalInterval limits)
        ((limits.globalConnectionBurst - 1) * globalInterval limits)
        (admittedRun limits calls) := by
  induction calls with
  | nil => exact ⟨(Nat.min_eq_right (Nat.zero_le _)).symm, trivial⟩
  | cons now earlier ih =>
      obtain ⟨hnow, hearlier⟩ := List.forall_mem_cons.mp hcalls
      obtain ⟨harrival, hconforming⟩ := ih hearlier
      have hexact := globalTolerance_exact hburst hword (by omega)
      unfold arrivalRun admittedRun
      cases hgranted : globalConforms limits (arrivalRun limits earlier) now with
      | false =>
          rw [arrivalAfter_refused hgranted]
          exact ⟨harrival, hconforming⟩
      | true =>
          have hwithin := globalConforms_iff.mp hgranted
          rw [harrival] at hwithin
          have hbase : max (min kInt64Max
              (Gcra.arrival (globalInterval limits) (admittedRun limits earlier))) now ≤
                kInt64Max := max_le (min_le_left _ _) (by omega)
          rw [arrivalAfter_granted hgranted, if_pos rfl, harrival, saturatingAdd_eq_min hbase]
          refine ⟨min_max_min _ _ (by omega), ?_, hconforming⟩
          rw [← hexact]
          exact max_le_of_cut hnow hwithin

/-- **Saturation of the process-wide rate.**  For every limits and every sequence of calls
with readings of the clock type no signed operation of any call overflows.  As long as
`now + tolerance` is below the largest `std::int64_t` at every call, whether or not the
arrival time saturates, no window of time holds more successes than the burst and one for
each interval in it. -/
theorem saturated_rate_bounded (limits : LimitsConfig) (calls : List Nat)
    (hburst : 0 < limits.globalConnectionBurst) (hword : limits.globalConnectionBurst < kWordSize)
    (hreadings : ∀ now ∈ calls, now ≤ kInt64Max) :
    (∀ now, now ≤ kInt64Max → checkedConsume limits (arrivalRun limits calls) now =
      some (globalConforms limits (arrivalRun limits calls) now,
        (arrivalRun limits (now :: calls) : Int))) ∧
    ((∀ now ∈ calls, now + globalTolerance limits < kInt64Max) →
      ∀ first last, (admittedRun limits calls).countP (Gcra.inWindow first last) ≤
        limits.globalConnectionBurst + (last - first) / globalInterval limits) := by
  constructor
  · intro now hnow
    exact checkedConsume_eq limits (arrivalRun_le hreadings) hnow
  · intro hbelow first last
    obtain ⟨_, hconforming⟩ := admittedRun_conforming hburst hword hbelow
    exact Gcra.count_window_le (globalInterval_pos limits) hburst hconforming

/-- The slowest rate there is: the interval is at its cap of `10 ^ 18` nanoseconds. -/
def slowest (burst : Nat) : LimitsConfig :=
  { globalConnectionsPerSecond := 1 / 2 ^ 30, globalConnectionBurst := burst }

/-- With a burst of nine, the ninth success saturates the arrival time of calls at `10 ^ 18`
and the tenth call is refused. -/
theorem saturated_rate_bounded_nine :
    arrivalRun (slowest 9) (List.replicate 10 1000000000000000000) = kInt64Max ∧
      (admittedRun (slowest 9) (List.replicate 10 1000000000000000000)).length = 9 ∧
      (admittedRun (slowest 9) (List.replicate 10 1000000000000000000)).countP
        (Gcra.inWindow 1000000000000000000 1000000000000000000) ≤
          9 + (1000000000000000000 - 1000000000000000000) / globalInterval (slowest 9) := by
  refine ⟨by decide +kernel, by decide +kernel, ?_⟩
  have hbelow : ∀ now ∈ List.replicate 10 1000000000000000000,
      now + globalTolerance (slowest 9) < kInt64Max := by decide +kernel
  exact (saturated_rate_bounded (slowest 9) _ (by decide) (by decide)
    (fun now hnow => by have := hbelow now hnow; omega)).2 hbelow _ _

/-- **Saturation fails open.**  With a burst of eleven the tolerance saturates; ten calls
take the arrival time to the largest value, where it stays within the tolerance, and the
twelfth call at the same moment is the twelfth to succeed. -/
theorem saturated_rate_admits_all :
    validateLimits (slowest 11) = .ok () ∧ globalTolerance (slowest 11) = kInt64Max ∧
      (admittedRun (slowest 11) (List.replicate 12 1)).countP (Gcra.inWindow 1 1) = 12 ∧
      ¬ (admittedRun (slowest 11) (List.replicate 12 1)).countP (Gcra.inWindow 1 1) ≤
        (slowest 11).globalConnectionBurst + (1 - 1) / globalInterval (slowest 11) := by
  refine ⟨by decide +kernel, by decide +kernel, by decide +kernel, by decide +kernel⟩

end PoolLb.RateLimiter
