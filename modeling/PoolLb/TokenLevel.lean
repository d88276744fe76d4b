import Mathlib.Algebra.Order.Field.Rat
import Mathlib.Tactic.Linarith
import Mathlib.Tactic.Ring

/-!
# Token buckets on a clock that may run backwards

A bucket has a level and the time it was last brought up to date.  A call brings it
up to date, by the time that has passed since and never above the burst, and takes an
amount from it or leaves it.  Calls may carry times in any order; a call from the past
then lowers the level.

What never rises is the potential, the level less what the clock alone has paid in.
Over any run of calls it pays for everything that was taken: `charged_le`.
-/

namespace TokenLevel

/-- A bucket: its level, and when it was last brought up to date; never, if that is 0. -/
structure Level where
  tokens : ℚ
  updatedAt : Nat

/-- A call at a time: what it asks for, and whether it gets it. -/
structure Call where
  now : Nat
  amount : ℚ
  taken : Bool

variable {gain burst : ℚ} {level : Level} {call : Call} {calls : List Call}

/-- The level of an up-to-date bucket that gains `gain` in a unit of time. -/
def Level.tokensAt (gain burst : ℚ) (level : Level) (now : Nat) : ℚ :=
  if level.updatedAt = 0 then burst
  else min burst (level.tokens + ((now : ℚ) - level.updatedAt) * gain)

/-- The bucket after a call. -/
def Level.after (gain burst : ℚ) (level : Level) (call : Call) : Level where
  tokens := level.tokensAt gain burst call.now - if call.taken then call.amount else 0
  updatedAt := call.now

/-- The call took only what was there. -/
def Call.Honest (gain burst : ℚ) (level : Level) (call : Call) : Prop :=
  call.taken = true → call.amount ≤ level.tokensAt gain burst call.now

/-- Every call of a run took only what was there. -/
def Honest (gain burst : ℚ) : Level → List Call → Prop
  | _, [] => True
  | level, call :: rest =>
      call.Honest gain burst level ∧ Honest gain burst (level.after gain burst call) rest

/-- What the calls of a run have taken. -/
def charged : List Call → ℚ
  | [] => 0
  | call :: rest => (if call.taken then call.amount else 0) + charged rest

/-- The time of the last call that took something. -/
def lastCharge : List Call → Option Nat
  | [] => none
  | call :: rest => (lastCharge rest).or (if call.taken then some call.now else none)

/-- The level, less what the clock has paid in. -/
def Level.potential (gain : ℚ) (level : Level) : ℚ := level.tokens - level.updatedAt * gain

/-- A bucket never holds more than its burst. -/
theorem Level.tokensAt_le_burst (gain burst : ℚ) (level : Level) (now : Nat) :
    level.tokensAt gain burst now ≤ burst := by
  unfold Level.tokensAt
  split
  · exact le_refl burst
  · exact min_le_left _ _

/-- Bringing a bucket up to date does not raise its potential. -/
theorem Level.tokensAt_le_potential (h : level.updatedAt ≠ 0) (now : Nat) :
    level.tokensAt gain burst now ≤ level.potential gain + now * gain := by
  unfold Level.tokensAt Level.potential
  rw [if_neg h]
  have hmin := min_le_right burst (level.tokens + ((now : ℚ) - level.updatedAt) * gain)
  linarith

/-- Without a charge nothing was charged. -/
theorem charged_of_lastCharge_none (h : lastCharge calls = none) : charged calls = 0 := by
  induction calls with
  | nil => rfl
  | cons call rest ih =>
      unfold lastCharge at h
      rw [Option.or_eq_none_iff] at h
      obtain ⟨hrest, hcall⟩ := h
      have hnot : ¬ call.taken = true := by
        intro htaken
        rw [if_pos htaken] at hcall
        cases hcall
      unfold charged
      rw [if_neg hnot, ih hrest, add_zero]

/-- **One call.**  If up-to-date levels are below `credit` on the clock, then after the
call so is the credit less what the call took. -/
theorem charged_le_step (credit : ℚ) {last : Nat} {rest : List Call}
    (hcredit : level.tokensAt gain burst call.now ≤ credit + call.now * gain)
    (hhonest : call.Honest gain burst level)
    (hrest : ∀ last, lastCharge rest = some last →
      charged rest ≤ (level.after gain burst call).potential gain + last * gain)
    (hlast : lastCharge (call :: rest) = some last) :
    charged (call :: rest) ≤ credit + last * gain := by
  unfold lastCharge at hlast
  unfold charged
  cases hlater : lastCharge rest with
  | some later =>
      rw [hlater, Option.some_or] at hlast
      cases hlast
      have hbound := hrest _ hlater
      unfold Level.potential Level.after at hbound
      linarith
  | none =>
      rw [hlater, Option.none_or] at hlast
      rw [charged_of_lastCharge_none hlater]
      by_cases htaken : call.taken = true
      · rw [if_pos htaken] at hlast ⊢
        cases hlast
        have hamount := hhonest htaken
        linarith
      · rw [if_neg htaken] at hlast
        cases hlast

/-- The potential pays for what a run takes. -/
theorem charged_le_potential (hlevel : level.updatedAt ≠ 0) (htimes : ∀ call ∈ calls, call.now ≠ 0)
    (hhonest : Honest gain burst level calls) :
    ∀ last, lastCharge calls = some last →
      charged calls ≤ level.potential gain + last * gain := by
  induction calls generalizing level with
  | nil =>
      intro last hlast
      cases hlast
  | cons call rest ih =>
      intro last hlast
      obtain ⟨hnow, hlater⟩ := List.forall_mem_cons.mp htimes
      apply charged_le_step _ (level.tokensAt_le_potential hlevel call.now) hhonest.1 _ hlast
      exact ih hnow hlater hhonest.2

/-- **The bound on a run.**  From its first call to the last that took something, a run
takes no more than the burst and what the clock has paid in between, whatever the
bucket held before and whatever the order of the times. -/
theorem charged_le {first : Call} {rest : List Call} {last : Nat}
    (htimes : ∀ call ∈ first :: rest, call.now ≠ 0)
    (hhonest : Honest gain burst level (first :: rest))
    (hlast : lastCharge (first :: rest) = some last) :
    charged (first :: rest) ≤ burst + ((last : ℚ) - first.now) * gain := by
  obtain ⟨hnow, hlater⟩ := List.forall_mem_cons.mp htimes
  have hburst := level.tokensAt_le_burst gain burst first.now
  have hbound := charged_le_step (burst - first.now * gain) (by linarith) hhonest.1
    (charged_le_potential hnow hlater hhonest.2) hlast
  linarith

/-- A level between empty and full. -/
def Level.InRange (burst : ℚ) (level : Level) : Prop := 0 ≤ level.tokens ∧ level.tokens ≤ burst

/-- A call that is not from the past, and takes nothing negative, keeps the level in range. -/
theorem Level.InRange.after (h : level.InRange burst) (hgain : 0 ≤ gain) (hburst : 0 ≤ burst)
    (hlater : level.updatedAt ≤ call.now)
    (hhonest : call.Honest gain burst level) (hamount : 0 ≤ call.amount) :
    (level.after gain burst call).InRange burst := by
  have hle := level.tokensAt_le_burst gain burst call.now
  have hnonneg : 0 ≤ level.tokensAt gain burst call.now := by
    unfold Level.tokensAt
    split
    · exact hburst
    · have helapsed : (0 : ℚ) ≤ (call.now : ℚ) - level.updatedAt := by
        have hcast : (level.updatedAt : ℚ) ≤ call.now := by exact_mod_cast hlater
        linarith
      have hpaid := mul_nonneg helapsed hgain
      exact le_min hburst (add_nonneg h.1 hpaid)
  unfold Level.after Level.InRange
  by_cases htaken : call.taken = true
  · have hthere := hhonest htaken
    simp only [if_pos htaken]
    constructor <;> linarith
  · simp only [if_neg htaken, sub_zero]
    exact ⟨hnonneg, hle⟩

/-- **Calls in the order of their times** keep the level in range. -/
theorem inRange_of_ordered (hgain : 0 ≤ gain) (hburst : 0 ≤ burst)
    (h : level.InRange burst) (hhonest : Honest gain burst level calls)
    (hamounts : ∀ call ∈ calls, 0 ≤ call.amount)
    (hordered : (level.updatedAt :: calls.map Call.now).Pairwise (· ≤ ·)) :
    (calls.foldl (Level.after gain burst) level).InRange burst := by
  induction calls generalizing level with
  | nil => exact h
  | cons call rest ih =>
      obtain ⟨hamount, hlater⟩ := List.forall_mem_cons.mp hamounts
      obtain ⟨hfirst, hrest⟩ := List.pairwise_cons.mp hordered
      have hnow : level.updatedAt ≤ call.now := hfirst call.now (by simp)
      exact ih (h.after hgain hburst hnow hhonest.1 hamount) hhonest.2 hlater hrest

/-! ## Machines with a bucket -/

section Machine

variable {σ ι : Type} {next : σ → ι → σ} {view : σ → ι → Option Call} {bucket : σ → Level}

/-- A machine has a bucket in its state: its inputs leave the bucket alone or call on it. -/
structure Meters (gain burst : ℚ) (next : σ → ι → σ) (view : σ → ι → Option Call)
    (bucket : σ → Level) : Prop where
  skip : ∀ s i, view s i = none → bucket (next s i) = bucket s
  call : ∀ s i c, view s i = some c →
    bucket (next s i) = (bucket s).after gain burst c ∧ c.Honest gain burst (bucket s)

/-- The calls on the bucket that a sequence of inputs makes. -/
def trace (next : σ → ι → σ) (view : σ → ι → Option Call) : σ → List ι → List Call
  | _, [] => []
  | s, i :: rest => (view s i).toList ++ trace next view (next s i) rest

/-- The calls of the first input, and those of the rest. -/
theorem trace_cons (s : σ) (i : ι) (rest : List ι) :
    trace next view s (i :: rest) = (view s i).toList ++ trace next view (next s i) rest := rfl

/-- **A machine's calls on its bucket are a run of the bucket.** -/
theorem Meters.honest (h : Meters gain burst next view bucket) (s : σ) (inputs : List ι) :
    Honest gain burst (bucket s) (trace next view s inputs) := by
  induction inputs generalizing s with
  | nil => trivial
  | cons i rest ih =>
      rw [trace_cons]
      cases hview : view s i with
      | none =>
          have hrest := ih (next s i)
          rw [h.skip s i hview] at hrest
          exact hrest
      | some c =>
          obtain ⟨hafter, hhonest⟩ := h.call s i c hview
          have hrest := ih (next s i)
          rw [hafter] at hrest
          exact ⟨hhonest, hrest⟩

/-- **The bucket of a machine is that of the calls on it.** -/
theorem Meters.bucket_eq (h : Meters gain burst next view bucket) (s : σ) (inputs : List ι) :
    bucket (inputs.foldl next s) =
      (trace next view s inputs).foldl (Level.after gain burst) (bucket s) := by
  induction inputs generalizing s with
  | nil => rfl
  | cons i rest ih =>
      rw [List.foldl_cons, ih, trace_cons]
      cases hview : view s i with
      | none => rw [h.skip s i hview, Option.toList_none, List.nil_append]
      | some c =>
          rw [(h.call s i c hview).1, Option.toList_some, List.singleton_append, List.foldl_cons]

/-- What a run may take: the burst and what the clock has paid in, from the run's first
call on the bucket, or from any time before all of them, to the last that took something. -/
def Bounded (gain burst : ℚ) (calls : List Call) : Prop :=
  ∀ last, lastCharge calls = some last →
    (∀ first, calls.head?.map Call.now = some first →
      charged calls ≤ burst + ((last : ℚ) - first) * gain) ∧
    ∀ start : Nat, 0 ≤ gain → (∀ call ∈ calls, start ≤ call.now) →
      charged calls ≤ burst + ((last : ℚ) - start) * gain

/-- **A machine takes no more from its bucket than the bucket allows.** -/
theorem Meters.bounded (h : Meters gain burst next view bucket) {s : σ} {inputs : List ι}
    (htimes : ∀ call ∈ trace next view s inputs, call.now ≠ 0) :
    Bounded gain burst (trace next view s inputs) := by
  have hhonest := h.honest s inputs
  intro last hlast
  cases hcalls : trace next view s inputs with
  | nil =>
      rw [hcalls] at hlast
      cases hlast
  | cons first rest =>
      rw [hcalls] at htimes hhonest hlast
      have hbound := charged_le htimes hhonest hlast
      constructor
      · intro now hnow
        cases hnow
        exact hbound
      · intro start hgain hstart
        have hearlier : (start : ℚ) ≤ first.now := by
          exact_mod_cast hstart first List.mem_cons_self
        have hpaid := mul_le_mul_of_nonneg_right hearlier hgain
        linarith

/-- Every call on a bucket comes from an input. -/
theorem mem_trace {call : Call} {s : σ} {inputs : List ι}
    (h : call ∈ trace next view s inputs) : ∃ s' i, i ∈ inputs ∧ view s' i = some call := by
  induction inputs generalizing s with
  | nil => cases h
  | cons i rest ih =>
      rw [trace_cons] at h
      rcases List.mem_append.mp h with hhead | hrest
      · exact ⟨s, i, List.mem_cons_self, Option.mem_toList.mp hhead⟩
      · obtain ⟨s', j, hj, hview⟩ := ih hrest
        exact ⟨s', j, List.mem_cons_of_mem _ hj, hview⟩

end Machine

end TokenLevel
