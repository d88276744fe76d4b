import PoolLb.Binary64
import PoolLb.Gcra
import PoolLb.Interleaving
import PoolLb.RateLimiter

/-!
# The process-wide admission rate

`RateLimiter::consume_global_connection` (`src/net/rate_limiter.cpp`), step by
atomic step: a load of the theoretical arrival time, and a retry loop around a
compare-exchange that may fail for no reason.  Threads take their clock reading
before the loop, so the readings reach it in any order.

Beside the atomic stands the record of the calls that have moved it on, and each
thread keeps the answers it got.
-/

namespace PoolLb.RateLimiter

open Interleaving

def kMaximumGcraIntervalNanoseconds : Nat := 1000000000000000000

/-- The largest `std::int64_t`. -/
def kInt64Max : Nat := 2 ^ 63 - 1

/-- `saturating_add`. -/
def saturatingAdd (left right : Nat) : Nat :=
  if right > kInt64Max - left then kInt64Max else left + right

/-- `saturating_multiply`. -/
def saturatingMultiply (left right : Nat) : Nat :=
  if left > kInt64Max / right then kInt64Max else left * right

/-- `interval_value` in `consume_global_connection`, a quotient of doubles.  A rate so small
that the quotient is infinite has the largest interval, as it has here. -/
def intervalValue (limits : LimitsConfig) : ℚ :=
  Binary64.nearest (kNanosecondsPerSecond / limits.globalConnectionsPerSecond)

/-- `interval` in `consume_global_connection`. -/
def globalInterval (limits : LimitsConfig) : Nat :=
  max 1 (min ⌈intervalValue limits⌉.toNat kMaximumGcraIntervalNanoseconds)

-- The quotient is rounded before `std::ceil` sees it: the exact one would give four.
example : globalInterval { globalConnectionsPerSecond := 5592405333333333 / 2 ^ 24 } = 3 := by
  decide +kernel

/-- `tolerance` in `consume_global_connection`; the burst less one is a
`std::size_t`. -/
def globalTolerance (limits : LimitsConfig) : Nat :=
  saturatingMultiply ((limits.globalConnectionBurst + (kWordSize - 1)) % kWordSize)
    (globalInterval limits)

/-- The atomic.  Beside it, the latest first: the clock readings of the calls that
have moved it on, and the answers the calls have returned. -/
structure GlobalRate where
  theoreticalArrival : Nat := 0
  successes : List Nat := []
  answers : List (Nat × Bool) := []

/-- Where a thread stands in `consume_global_connection`. -/
inductive GlobalPlace where
  | idle
  /-- Before the load. -/
  | entered (now : Nat)
  /-- At the head of the loop, with the value it has seen. -/
  | deciding (now theoreticalArrival : Nat)
  /-- After its compare-exchange. -/
  | swapped (now : Nat)

/-- A clock reading at which no sum or product reaches the end of its type. -/
def Unsaturated (limits : LimitsConfig) (now : Nat) : Prop :=
  limits.globalConnectionBurst * globalInterval limits + now ≤ kInt64Max

/-- One atomic step of a thread. -/
inductive GlobalStep (limits : LimitsConfig) :
    GlobalRate → GlobalPlace → GlobalRate → GlobalPlace → Prop where
  | call (rate : GlobalRate) (now : Nat) (hnow : Unsaturated limits now) :
      GlobalStep limits rate .idle rate (.entered now)
  | load (rate : GlobalRate) (now : Nat) :
      GlobalStep limits rate (.entered now) rate (.deciding now rate.theoreticalArrival)
  | refuse (rate : GlobalRate) (now seen : Nat)
      (hearly : max seen now - now > globalTolerance limits) :
      GlobalStep limits rate (.deciding now seen)
        { rate with answers := (now, false) :: rate.answers } .idle
  | swap (rate : GlobalRate) (now seen : Nat)
      (hconforms : ¬ max seen now - now > globalTolerance limits)
      (hsame : rate.theoreticalArrival = seen) :
      GlobalStep limits rate (.deciding now seen)
        { rate with
          theoreticalArrival := saturatingAdd (max seen now) (globalInterval limits)
          successes := now :: rate.successes } (.swapped now)
  | retry (rate : GlobalRate) (now seen : Nat)
      (hconforms : ¬ max seen now - now > globalTolerance limits) :
      GlobalStep limits rate (.deciding now seen) rate (.deciding now rate.theoreticalArrival)
  | answer (rate : GlobalRate) (now : Nat) :
      GlobalStep limits rate (.swapped now)
        { rate with answers := (now, true) :: rate.answers } .idle

/-- No call was made yet. -/
def rateStart (T : Type) : System T GlobalRate GlobalPlace where
  memory := {}
  threads _ := .idle

/-! ## Arithmetic without saturation -/

variable {limits : LimitsConfig} {now seen : Nat}

/-- The interval is never zero. -/
theorem globalInterval_pos (limits : LimitsConfig) : 0 < globalInterval limits :=
  Nat.lt_of_lt_of_le Nat.one_pos (Nat.le_max_left _ _)

/-- **The interval is as long as the rate asks for**, but for the rounding of one double. -/
theorem le_globalInterval (hrate : 0 < limits.globalConnectionsPerSecond) :
    min (kNanosecondsPerSecond / limits.globalConnectionsPerSecond * (1 - 1 / 2 ^ 53))
      (kMaximumGcraIntervalNanoseconds : ℚ) ≤ globalInterval limits := by
  have hquotient : (0 : ℚ) < kNanosecondsPerSecond / limits.globalConnectionsPerSecond :=
    div_pos (by norm_num [kNanosecondsPerSecond]) hrate
  have hnear := (abs_le.mp (Binary64.nearest_error hquotient)).1
  have hvalue : kNanosecondsPerSecond / limits.globalConnectionsPerSecond * (1 - 1 / 2 ^ 53) ≤
      intervalValue limits := by
    unfold intervalValue
    linarith
  have hceil : intervalValue limits ≤ (⌈intervalValue limits⌉.toNat : ℚ) :=
    (Int.le_ceil _).trans (by exact_mod_cast Int.self_le_toNat _)
  unfold globalInterval
  push_cast
  exact le_max_of_le_right (min_le_min (hvalue.trans hceil) le_rfl)

/-- `burst - 1` in unsigned arithmetic. -/
theorem burst_pred_mod (hburst : 0 < limits.globalConnectionBurst)
    (hword : limits.globalConnectionBurst < kWordSize) :
    (limits.globalConnectionBurst + (kWordSize - 1)) % kWordSize =
      limits.globalConnectionBurst - 1 := by
  have hsplit : limits.globalConnectionBurst + (kWordSize - 1) =
      (limits.globalConnectionBurst - 1) + kWordSize := by omega
  rw [hsplit, Nat.add_mod_right, Nat.mod_eq_of_lt (by omega)]

/-- Below saturation the tolerance is that of the exact algorithm. -/
theorem globalTolerance_eq (hburst : 0 < limits.globalConnectionBurst)
    (hnow : Unsaturated limits now) :
    globalTolerance limits = (limits.globalConnectionBurst - 1) * globalInterval limits := by
  have hinterval := globalInterval_pos limits
  unfold Unsaturated at hnow
  have hword : limits.globalConnectionBurst ≤ kInt64Max := by
    have hle := Nat.le_mul_of_pos_right limits.globalConnectionBurst hinterval
    omega
  have hmax : kInt64Max < kWordSize := by decide
  have hproduct : (limits.globalConnectionBurst - 1) * globalInterval limits ≤ kInt64Max := by
    have hle := Nat.mul_le_mul_right (globalInterval limits)
      (Nat.sub_le limits.globalConnectionBurst 1)
    omega
  unfold globalTolerance saturatingMultiply
  rw [burst_pred_mod hburst (by omega), if_neg]
  exact not_lt.mpr ((Nat.le_div_iff_mul_le hinterval).mpr hproduct)

/-- Below saturation the arrival time moves by an interval. -/
theorem saturatingAdd_eq (hburst : 0 < limits.globalConnectionBurst)
    (hnow : Unsaturated limits now)
    (hconforms : ¬ max seen now - now > globalTolerance limits) :
    saturatingAdd (max seen now) (globalInterval limits) =
      max seen now + globalInterval limits := by
  rw [globalTolerance_eq hburst hnow] at hconforms
  unfold Unsaturated at hnow
  have hsplit : limits.globalConnectionBurst * globalInterval limits =
      (limits.globalConnectionBurst - 1) * globalInterval limits + globalInterval limits := by
    rw [← Nat.succ_mul, Nat.succ_eq_add_one, Nat.sub_add_cancel hburst]
  unfold saturatingAdd
  rw [if_neg]
  omega

/-! ## Any interleaving -/

/-- The answers of a kind that were `true`. -/
def GlobalRate.granted (rate : GlobalRate) (kind : Nat → Bool) : Nat :=
  rate.answers.countP fun answer => answer.2 && kind answer.1

namespace GlobalPlace

/-- The clock reading a thread works with. -/
def Unsaturated (limits : LimitsConfig) : GlobalPlace → Prop
  | .entered now => RateLimiter.Unsaturated limits now
  | .deciding now _ => RateLimiter.Unsaturated limits now
  | _ => True

/-- A success that is not yet answered. -/
def underWay (kind : Nat → Bool) : GlobalPlace → Nat
  | .swapped now => if kind now then 1 else 0
  | _ => 0

end GlobalPlace

variable {T : Type} {sys sys' : System T GlobalRate GlobalPlace} {thread : T}

section Interleaved

variable [Fintype T]

/-- The invariant: the atomic is where its successes have moved it, each of them
conformed, and each belongs to one call. -/
structure Metered (limits : LimitsConfig) (sys : System T GlobalRate GlobalPlace) : Prop where
  arrival : sys.memory.theoreticalArrival =
    Gcra.arrival (globalInterval limits) sys.memory.successes
  conforming : Gcra.Conforming (globalInterval limits)
    ((limits.globalConnectionBurst - 1) * globalInterval limits) sys.memory.successes
  unsaturated : ∀ thread, (sys.threads thread).Unsaturated limits
  counted : ∀ kind, sys.memory.granted kind + sys.total (GlobalPlace.underWay kind) =
    sys.memory.successes.countP kind

theorem metered_start (limits : LimitsConfig) : Metered limits (rateStart T) where
  arrival := rfl
  conforming := trivial
  unsaturated _ := trivial
  counted _ := by simp [rateStart, System.total, GlobalRate.granted, GlobalPlace.underWay]

variable [DecidableEq T]

omit [Fintype T] in
/-- One thread goes on, and all are still below saturation. -/
theorem unsaturated_update {place : GlobalPlace}
    (h : ∀ thread, (sys.threads thread).Unsaturated limits) (hplace : place.Unsaturated limits)
    (u : T) : (Function.update sys.threads thread place u).Unsaturated limits := by
  by_cases hown : u = thread
  · subst hown
    rwa [Function.update_self]
  · rw [Function.update_of_ne hown]
    exact h u

/-- A step that leaves the atomic alone. -/
theorem Metered.stay (h : Metered limits sys) {place : GlobalPlace} (answers : List (Nat × Bool))
    (hplace : place.Unsaturated limits)
    (hsame : ∀ kind, GlobalRate.granted { sys.memory with answers := answers } kind +
      place.underWay kind = sys.memory.granted kind + (sys.threads thread).underWay kind) :
    Metered limits
      ⟨{ sys.memory with answers := answers }, Function.update sys.threads thread place⟩ where
  arrival := h.arrival
  conforming := h.conforming
  unsaturated := unsaturated_update h.unsaturated hplace
  counted kind := by
    let rate : GlobalRate := { sys.memory with answers := answers }
    have hsum := total_update sys rate thread place (GlobalPlace.underWay kind)
    have hcounted := h.counted kind
    have hkind : rate.granted kind + _ = _ := hsame kind
    show rate.granted kind + System.total ⟨rate, _⟩ _ = sys.memory.successes.countP kind
    omega

/-- A successful compare-exchange. -/
theorem Metered.swap (h : Metered limits sys) (hburst : 0 < limits.globalConnectionBurst)
    (hplace : sys.threads thread = .deciding now seen)
    (hconforms : ¬ max seen now - now > globalTolerance limits)
    (hsame : sys.memory.theoreticalArrival = seen) :
    Metered limits
      ⟨{ sys.memory with
          theoreticalArrival := saturatingAdd (max seen now) (globalInterval limits)
          successes := now :: sys.memory.successes },
        Function.update sys.threads thread (.swapped now)⟩ := by
  have hnow : Unsaturated limits now := by
    have hunsaturated := h.unsaturated thread
    rwa [hplace] at hunsaturated
  have hseen : seen = Gcra.arrival (globalInterval limits) sys.memory.successes :=
    hsame.symm.trans h.arrival
  refine ⟨?_, ⟨?_, h.conforming⟩, unsaturated_update h.unsaturated trivial, fun kind => ?_⟩
  · rw [saturatingAdd_eq hburst hnow hconforms, hseen]
    rfl
  · rw [globalTolerance_eq hburst hnow] at hconforms
    rw [← hseen]
    omega
  · have hsum := total_update sys { sys.memory with
        theoreticalArrival := saturatingAdd (max seen now) (globalInterval limits)
        successes := now :: sys.memory.successes } thread (.swapped now) (GlobalPlace.underWay kind)
    have hcounted := h.counted kind
    rw [hplace] at hsum
    simp only [GlobalPlace.underWay] at hsum
    rw [List.countP_cons, ← hcounted, Nat.add_assoc]
    exact congrArg (sys.memory.granted kind + ·) hsum

/-- **Every step keeps the rate metered.** -/
theorem Metered.step (h : Metered limits sys) (hburst : 0 < limits.globalConnectionBurst)
    (hstep : Step (GlobalStep limits) sys sys') : Metered limits sys' := by
  obtain ⟨thread, hact⟩ := hstep
  have hunsaturated := h.unsaturated thread
  generalize hplace : sys.threads thread = place at hact hunsaturated
  cases hact with
  | call now hnow => exact h.stay sys.memory.answers hnow fun kind => by rw [hplace]; rfl
  | load now => exact h.stay sys.memory.answers hunsaturated fun kind => by rw [hplace]; rfl
  | refuse now seen hearly =>
      refine h.stay _ trivial fun kind => ?_
      rw [hplace]
      simp [GlobalRate.granted, GlobalPlace.underWay]
  | swap now seen hconforms hsame => exact h.swap hburst hplace hconforms hsame
  | retry now seen hconforms =>
      exact h.stay sys.memory.answers hunsaturated fun kind => by rw [hplace]; rfl
  | answer now =>
      refine h.stay _ trivial fun kind => ?_
      rw [hplace]
      simp [GlobalRate.granted, GlobalPlace.underWay, List.countP_cons]

theorem metered_of_reaches (hburst : 0 < limits.globalConnectionBurst)
    (h : Reaches (GlobalStep limits) (rateStart T) sys) : Metered limits sys :=
  h.invariant (fun _ _ hstep hI => hI.step hburst hstep) (metered_start limits)

end Interleaved

/-! ## One call after the other -/

section Serial

/-- At most one thread is inside a call. -/
def Solo (sys : System T GlobalRate GlobalPlace) : Prop :=
  ∀ thread other, sys.threads thread ≠ .idle → sys.threads other ≠ .idle → thread = other

/-- A step of a run in which the calls do not overlap. -/
def SerialStep [DecidableEq T] (limits : LimitsConfig)
    (sys sys' : System T GlobalRate GlobalPlace) : Prop :=
  Step (GlobalStep limits) sys sys' ∧ Solo sys'

/-- A call that is answered, or whose place is given, is as the algorithm on the
clock readings so far has it. -/
structure InOrder (limits : LimitsConfig) (rate : GlobalRate) (place : GlobalPlace) : Prop where
  answers : rate.answers.map Prod.snd =
    Gcra.decisions (globalInterval limits) (globalTolerance limits) (rate.answers.map Prod.fst)
  unsaturated : place.Unsaturated limits ∧ ∀ answer ∈ rate.answers, Unsaturated limits answer.1
  arrival :
    match place with
    | .swapped now => Unsaturated limits now ∧
        Gcra.offer (globalInterval limits) (globalTolerance limits)
          (Gcra.after (globalInterval limits) (globalTolerance limits)
            (rate.answers.map Prod.fst)) now = (true, rate.theoreticalArrival)
    | .deciding _ seen => seen = rate.theoreticalArrival ∧ rate.theoreticalArrival =
        Gcra.after (globalInterval limits) (globalTolerance limits) (rate.answers.map Prod.fst)
    | _ => rate.theoreticalArrival =
        Gcra.after (globalInterval limits) (globalTolerance limits) (rate.answers.map Prod.fst)

/-- A thread that nobody interferes with follows the algorithm. -/
theorem InOrder.act {rate rate' : GlobalRate} {place place' : GlobalPlace}
    (h : InOrder limits rate place) (hburst : 0 < limits.globalConnectionBurst)
    (hact : GlobalStep limits rate place rate' place') : InOrder limits rate' place' := by
  obtain ⟨hanswers, ⟨hplace, hsofar⟩, harrival⟩ := h
  cases hact with
  | call now hnow => exact ⟨hanswers, ⟨hnow, hsofar⟩, harrival⟩
  | load now => exact ⟨hanswers, ⟨hplace, hsofar⟩, rfl, harrival⟩
  | refuse now seen hearly =>
      obtain ⟨rfl, harrival⟩ := harrival
      have hoffer : Gcra.offer (globalInterval limits) (globalTolerance limits)
          rate.theoreticalArrival now = (false, rate.theoreticalArrival) := if_pos hearly
      rw [harrival] at hoffer
      refine ⟨?_, ⟨trivial, List.forall_mem_cons.mpr ⟨hplace, hsofar⟩⟩, ?_⟩
      · simp only [List.map_cons, Gcra.decisions]
        rw [hoffer, hanswers]
      · simp only [List.map_cons, Gcra.after]
        rw [hoffer]
        exact harrival
  | swap now seen hconforms hsame =>
      obtain ⟨rfl, harrival⟩ := harrival
      refine ⟨hanswers, ⟨trivial, hsofar⟩, hplace, ?_⟩
      show Gcra.offer (globalInterval limits) (globalTolerance limits)
        (Gcra.after (globalInterval limits) (globalTolerance limits)
          (rate.answers.map Prod.fst)) now = _
      rw [← harrival, saturatingAdd_eq hburst hplace hconforms]
      exact if_neg hconforms
  | retry now seen hconforms => exact ⟨hanswers, ⟨hplace, hsofar⟩, rfl, harrival.2⟩
  | answer now =>
      obtain ⟨hnow, hoffer⟩ := harrival
      refine ⟨?_, ⟨trivial, List.forall_mem_cons.mpr ⟨hnow, hsofar⟩⟩, ?_⟩
      · simp only [List.map_cons, Gcra.decisions]
        rw [hoffer, hanswers]
      · simp only [List.map_cons, Gcra.after]
        rw [hoffer]

/-- The answers so far are those of the algorithm, and so is the only thread inside
a call, or any thread if there is none. -/
structure Serial (limits : LimitsConfig) (sys : System T GlobalRate GlobalPlace) : Prop where
  solo : Solo sys
  answers : sys.memory.answers.map Prod.snd = Gcra.decisions (globalInterval limits)
      (globalTolerance limits) (sys.memory.answers.map Prod.fst) ∧
    ∀ answer ∈ sys.memory.answers, Unsaturated limits answer.1
  ordered : ∀ thread, sys.threads thread ≠ .idle ∨ (∀ other, sys.threads other = .idle) →
    InOrder limits sys.memory (sys.threads thread)

theorem serial_start (limits : LimitsConfig) : Serial limits (rateStart T) where
  solo _ _ hbusy := absurd rfl hbusy
  answers := ⟨rfl, fun _ hmem => by cases hmem⟩
  ordered _ _ := ⟨rfl, ⟨trivial, fun _ hmem => by cases hmem⟩, rfl⟩

theorem Serial.step [DecidableEq T] (h : Serial limits sys) (hburst : 0 < limits.globalConnectionBurst)
    (hstep : SerialStep limits sys sys') : Serial limits sys' := by
  obtain ⟨⟨thread, hact⟩, hsolo⟩ := hstep
  rename_i rate place
  -- whoever takes a step is inside a call before it or after it, and alone there
  have hothers : ∀ other, other ≠ thread → sys.threads other = .idle := by
    intro other hne
    by_contra hbusy
    by_cases hbefore : sys.threads thread = .idle
    · have hafter : place ≠ .idle := by
        rw [hbefore] at hact
        cases hact
        exact GlobalPlace.noConfusion
      apply hne
      apply hsolo
      · simpa [hne] using hbusy
      · simpa using hafter
    · exact hne (h.solo other thread hbusy hbefore)
  have hbefore : InOrder limits sys.memory (sys.threads thread) := by
    apply h.ordered
    by_cases hidle : sys.threads thread = .idle
    · refine .inr fun other => ?_
      by_cases hown : other = thread
      · rw [hown, hidle]
      · exact hothers other hown
    · exact .inl hidle
  have hafter := hbefore.act hburst hact
  refine ⟨hsolo, ⟨hafter.answers, hafter.unsaturated.2⟩, fun other hother => ?_⟩
  by_cases hown : other = thread
  · subst hown
    simpa using hafter
  · rcases hother with hbusy | hquiet
    · simp [hown, hothers other hown] at hbusy
    · have hidle := hquiet thread
      simp only [Function.update_self] at hidle
      simpa [hown, hothers other hown, hidle] using hafter

theorem serial_of_run [DecidableEq T] (hburst : 0 < limits.globalConnectionBurst)
    (h : Relation.ReflTransGen (SerialStep limits) (rateStart T) sys) : Serial limits sys := by
  induction h with
  | refl => exact serial_start limits
  | tail _ hlast ih => exact ih.step hburst hlast

end Serial

/-! ## The rate that is kept -/

/-- **The process-wide rate is kept.**  However the steps of any number of threads
interleave and in whatever order their clock readings come: each success has moved
the atomic on once and is the success of one call, and no window of time holds
more successes than the burst and one for each interval in it.  Where the calls come
one after the other with clock readings in order, they are answered as by a bucket of
`burst` tokens that starts full and gains one token in every interval. -/
theorem global_rate_conforms (T : Type) [Fintype T] [DecidableEq T] (limits : LimitsConfig)
    (hburst : 0 < limits.globalConnectionBurst) :
    (∀ sys : System T GlobalRate GlobalPlace, Reaches (GlobalStep limits) (rateStart T) sys →
      sys.memory.theoreticalArrival =
          Gcra.arrival (globalInterval limits) sys.memory.successes ∧
        (∀ kind, sys.memory.granted kind + sys.total (GlobalPlace.underWay kind) =
          sys.memory.successes.countP kind) ∧
        ∀ first last, sys.memory.successes.countP (Gcra.inWindow first last) ≤
          limits.globalConnectionBurst + (last - first) / globalInterval limits) ∧
    (∀ sys : System T GlobalRate GlobalPlace,
      Relation.ReflTransGen (SerialStep limits) (rateStart T) sys →
      (sys.memory.answers.map Prod.fst).Pairwise (· ≥ ·) →
        sys.memory.answers.map Prod.snd =
          Gcra.Bucket.decisions (globalInterval limits) limits.globalConnectionBurst
            (sys.memory.answers.map Prod.fst)) := by
  have hinterval := globalInterval_pos limits
  constructor
  · intro sys hrun
    have hmetered := metered_of_reaches hburst hrun
    exact ⟨hmetered.arrival, hmetered.counted,
      fun first last => Gcra.count_window_le hinterval hburst hmetered.conforming⟩
  · intro sys hrun hsorted
    have hserial := serial_of_run hburst hrun
    have hanswers : sys.memory.answers.map Prod.snd = Gcra.decisions (globalInterval limits)
        (globalTolerance limits) (sys.memory.answers.map Prod.fst) ∧
          ∀ answer ∈ sys.memory.answers, Unsaturated limits answer.1 := hserial.answers
    cases hsofar : sys.memory.answers with
    | nil => rfl
    | cons last before =>
        have hlast := hanswers.2 last (by simp [hsofar])
        rw [← hsofar, hanswers.1, globalTolerance_eq hburst hlast]
        exact (Gcra.decisions_eq_bucket hinterval hburst hsorted).1

/-- Of two threads one waits. -/
theorem solo_of_idle {sys : System Bool GlobalRate GlobalPlace} (waiting : Bool)
    (h : sys.threads waiting = .idle) : Solo sys := by
  intro thread other hthread hother
  have hbusy : ∀ u, sys.threads u ≠ .idle → u ≠ waiting := fun u hu heq => hu (heq ▸ h)
  have hthread := hbusy thread hthread
  have hother := hbusy other hother
  revert hthread hother
  cases waiting <;> cases thread <;> cases other <;> decide

/-- Two calls at seven and five nanoseconds.  First one is inside the other: the second has
loaded the arrival time before the first moved it on, and its compare-exchange fails once.
Then they come one after the other. -/
theorem global_rate_conforms_two_calls :
    (∃ sys : System Bool GlobalRate GlobalPlace,
      Reaches (GlobalStep {}) (rateStart Bool) sys ∧
      sys.memory.answers = [(7, true), (5, true)] ∧ sys.memory.successes = [5, 7] ∧
      sys.memory.successes.countP (Gcra.inWindow 0 9) ≤ 20000 + (9 - 0) / globalInterval {}) ∧
    ∃ sys : System Bool GlobalRate GlobalPlace,
      Relation.ReflTransGen (SerialStep {}) (rateStart Bool) sys ∧
      sys.memory.answers = [(7, true), (5, true)] ∧
      sys.memory.answers.map Prod.snd =
        Gcra.Bucket.decisions (globalInterval {}) 20000 (sys.memory.answers.map Prod.fst) := by
  have hseven : Unsaturated {} 7 := by
    unfold Unsaturated
    decide +kernel
  have hfive : Unsaturated {} 5 := by
    unfold Unsaturated
    decide +kernel
  have hoverlap := (((((((((Relation.ReflTransGen.refl (r := Step (GlobalStep {}))
    (a := rateStart Bool)).tail
    (.act false (.call _ 7 hseven))).tail
    (.act true (.call _ 5 hfive))).tail
    (.act false (.load _ 7))).tail
    (.act true (.load _ 5))).tail
    (.act false (.swap _ 7 0 (by decide +kernel) rfl))).tail
    (.act true (.retry _ 5 0 (by decide +kernel)))).tail
    (.act true (.swap _ 5 _ (by decide +kernel) rfl))).tail
    (.act true (.answer _ 5))).tail
    (.act false (.answer _ 7))
  have hserial := ((((((((Relation.ReflTransGen.refl (r := SerialStep {}) (a := rateStart Bool)).tail
    ⟨.act true (.call _ 5 hfive), solo_of_idle false rfl⟩).tail
    ⟨.act true (.load _ 5), solo_of_idle false rfl⟩).tail
    ⟨.act true (.swap _ 5 0 (by decide +kernel) rfl), solo_of_idle false rfl⟩).tail
    ⟨.act true (.answer _ 5), solo_of_idle false rfl⟩).tail
    ⟨.act false (.call _ 7 hseven), solo_of_idle true rfl⟩).tail
    ⟨.act false (.load _ 7), solo_of_idle true rfl⟩).tail
    ⟨.act false (.swap _ 7 _ (by decide +kernel) rfl), solo_of_idle true rfl⟩).tail
    ⟨.act false (.answer _ 7), solo_of_idle true rfl⟩
  obtain ⟨hany, hbucket⟩ := global_rate_conforms Bool {} (by decide)
  refine ⟨⟨_, hoverlap, rfl, rfl, (hany _ hoverlap).2.2 0 9⟩, _, hserial, rfl, ?_⟩
  exact hbucket _ hserial (by simp [rateStart])

end PoolLb.RateLimiter
