import Mathlib.Algebra.Order.Field.Rat
import Mathlib.Tactic.FieldSimp
import Mathlib.Tactic.Linarith
import Mathlib.Tactic.Push
import Mathlib.Tactic.Ring

/-!
# The generic cell rate algorithm

A limiter that keeps one number, the theoretical arrival time: an arrival at `now`
conforms if that time is not further ahead than a tolerance, and each conforming
arrival moves it on by one interval, from `now` if it has fallen behind.

Two facts make it a rate limiter.  Whatever the order in which the arrivals are
taken, no window of time holds more conforming ones than the burst and one for
each interval in the window.  And on arrivals in order it decides as a bucket of
`burst` tokens does that starts full and gains one token in every interval.
-/

namespace Gcra

variable {interval burst tolerance : Nat}

/-- The theoretical arrival time after some conforming arrivals, the latest first. -/
def arrival (interval : Nat) : List Nat → Nat
  | [] => 0
  | now :: earlier => max (arrival interval earlier) now + interval

/-- Every arrival conformed when it was taken. -/
def Conforming (interval tolerance : Nat) : List Nat → Prop
  | [] => True
  | now :: earlier =>
      max (arrival interval earlier) now ≤ now + tolerance ∧ Conforming interval tolerance earlier

/-- The arrivals in the window from `first` to `last`. -/
def inWindow (first last now : Nat) : Bool := first ≤ now ∧ now ≤ last

/-- Each arrival in a window has pushed the theoretical time past its start by one
more interval. -/
theorem arrival_past_window (interval first last : Nat) (arrivals : List Nat) :
    arrivals.countP (inWindow first last) = 0 ∨
      first + arrivals.countP (inWindow first last) * interval ≤ arrival interval arrivals := by
  induction arrivals with
  | nil => exact .inl rfl
  | cons now earlier ih =>
      rw [List.countP_cons, arrival]
      by_cases hin : inWindow first last now
      · have hfirst : first ≤ now := by
          simp only [inWindow, decide_eq_true_eq] at hin
          exact hin.1
        rw [if_pos hin, Nat.add_mul, Nat.one_mul]
        rcases ih with hnone | hpast
        · rw [hnone]
          omega
        · omega
      · rw [if_neg hin, Nat.add_zero]
        rcases ih with hnone | hpast
        · exact .inl hnone
        · omega

/-- **The window bound.**  The arrivals may have been taken in any order. -/
theorem count_window_le (hinterval : 0 < interval) (hburst : 0 < burst) {first last : Nat}
    {arrivals : List Nat} (h : Conforming interval ((burst - 1) * interval) arrivals) :
    arrivals.countP (inWindow first last) ≤ burst + (last - first) / interval := by
  induction arrivals with
  | nil => exact Nat.zero_le _
  | cons now earlier ih =>
      rw [List.countP_cons]
      by_cases hin : inWindow first last now
      · simp only [inWindow, decide_eq_true_eq] at hin
        have hconforms := h.1
        rw [if_pos (by simpa [inWindow] using hin)]
        rcases arrival_past_window interval first last earlier with hnone | hpast
        · rw [hnone]
          exact Nat.le_add_right_of_le hburst
        · generalize earlier.countP (inWindow first last) = count at hpast ⊢
          have hspan : count * interval ≤ (last - first) + (burst - 1) * interval := by omega
          have hcount : count ≤ ((last - first) + (burst - 1) * interval) / interval :=
            (Nat.le_div_iff_mul_le hinterval).mpr hspan
          rw [Nat.add_mul_div_right _ _ hinterval] at hcount
          omega
      · rw [if_neg hin]
        exact ih h.2

/-! ## The token bucket -/

/-- The decision on one arrival, and the theoretical time after it. -/
def offer (interval tolerance arrival now : Nat) : Bool × Nat :=
  if max arrival now - now > tolerance then (false, arrival)
  else (true, max arrival now + interval)

/-- The theoretical time after a sequence of arrivals, the latest first. -/
def after (interval tolerance : Nat) : List Nat → Nat
  | [] => 0
  | now :: earlier => (offer interval tolerance (after interval tolerance earlier) now).2

/-- The decisions on a sequence of arrivals, the latest first. -/
def decisions (interval tolerance : Nat) : List Nat → List Bool
  | [] => []
  | now :: earlier =>
      (offer interval tolerance (after interval tolerance earlier) now).1 ::
        decisions interval tolerance earlier

/-- A bucket, as full as it was at some time. -/
structure Bucket where
  tokens : ℚ
  updatedAt : Nat

/-- A bucket of `burst` tokens that gains one in every interval. -/
def Bucket.tokensAt (bucket : Bucket) (interval burst now : Nat) : ℚ :=
  min burst (bucket.tokens + ((now : ℚ) - bucket.updatedAt) / interval)

/-- An arrival takes a token if there is a whole one. -/
def Bucket.take (bucket : Bucket) (interval burst now : Nat) : Bool × Bucket :=
  if 1 ≤ bucket.tokensAt interval burst now then
    (true, ⟨bucket.tokensAt interval burst now - 1, now⟩)
  else (false, ⟨bucket.tokensAt interval burst now, now⟩)

/-- The bucket after a sequence of arrivals, the latest first; it starts full. -/
def Bucket.after (interval burst : Nat) : List Nat → Bucket
  | [] => ⟨burst, 0⟩
  | now :: earlier => ((Bucket.after interval burst earlier).take interval burst now).2

/-- The decisions of the bucket, the latest first. -/
def Bucket.decisions (interval burst : Nat) : List Nat → List Bool
  | [] => []
  | now :: earlier =>
      ((Bucket.after interval burst earlier).take interval burst now).1 ::
        Bucket.decisions interval burst earlier

/-- How far ahead the theoretical time is, in tokens. -/
def Agrees (interval burst arrival : Nat) (bucket : Bucket) : Prop :=
  bucket.tokens = burst - ((arrival - bucket.updatedAt : Nat) : ℚ) / interval

variable {time now : Nat} {bucket : Bucket}

/-- The arrival time tells what the bucket holds. -/
theorem Agrees.tokensAt (h : Agrees interval burst time bucket) (hinterval : 0 < interval)
    (hlater : bucket.updatedAt ≤ now) :
    bucket.tokensAt interval burst now = burst - ((time - now : Nat) : ℚ) / interval := by
  have hpos : (0 : ℚ) < interval := Nat.cast_pos.mpr hinterval
  have hlater' : (bucket.updatedAt : ℚ) ≤ now := Nat.cast_le.mpr hlater
  unfold Bucket.tokensAt
  rw [h]
  rcases Nat.le_total now time with hahead | hbehind
  · -- the debt has shrunk by the time that has passed
    rw [Nat.cast_sub hahead, Nat.cast_sub (hlater.trans hahead)]
    have hahead' : (now : ℚ) ≤ time := Nat.cast_le.mpr hahead
    have hsum : (burst : ℚ) - ((time : ℚ) - bucket.updatedAt) / interval +
        ((now : ℚ) - bucket.updatedAt) / interval = burst - ((time : ℚ) - now) / interval := by
      ring
    rw [hsum]
    apply min_eq_right
    have hdebt : 0 ≤ ((time : ℚ) - now) / interval :=
      div_nonneg (sub_nonneg.mpr hahead') hpos.le
    linarith
  · -- the debt is gone
    rw [Nat.sub_eq_zero_of_le hbehind, Nat.cast_zero, zero_div, sub_zero]
    apply min_eq_left
    have hdebt : ((time - bucket.updatedAt : Nat) : ℚ) ≤ (now : ℚ) - bucket.updatedAt := by
      rw [← Nat.cast_sub hlater, Nat.cast_le]
      omega
    have hgain := div_le_div_of_nonneg_right hdebt hpos.le
    linarith

/-- **The two algorithms give the same answer**, and agree again after it. -/
theorem Agrees.take (h : Agrees interval burst time bucket) (hinterval : 0 < interval)
    (hburst : 0 < burst) (hlater : bucket.updatedAt ≤ now) :
    (bucket.take interval burst now).1 =
        (offer interval ((burst - 1) * interval) time now).1 ∧
      Agrees interval burst (offer interval ((burst - 1) * interval) time now).2
        (bucket.take interval burst now).2 := by
  have hpos : (0 : ℚ) < interval := Nat.cast_pos.mpr hinterval
  have htokens := h.tokensAt hinterval hlater
  -- a whole token is left exactly if the debt is within the tolerance
  have hwhole : 1 ≤ bucket.tokensAt interval burst now ↔
      ¬ max time now - now > (burst - 1) * interval := by
    have hdebt : ((time - now : Nat) : ℚ) / interval ≤ burst - 1 ↔
        time - now ≤ (burst - 1) * interval := by
      rw [div_le_iff₀ hpos, ← Nat.cast_one, ← Nat.cast_sub hburst, ← Nat.cast_mul, Nat.cast_le]
    have hmax : max time now - now = time - now := by omega
    rw [htokens, hmax, not_lt, ← hdebt]
    constructor
    · intro hle
      linarith
    · intro hle
      linarith
  unfold Bucket.take offer
  by_cases hconforms : max time now - now > (burst - 1) * interval
  · rw [if_neg (fun h1 => hwhole.mp h1 hconforms), if_pos hconforms]
    exact ⟨rfl, htokens⟩
  · rw [if_pos (hwhole.mpr hconforms), if_neg hconforms]
    refine ⟨rfl, ?_⟩
    show bucket.tokensAt interval burst now - 1 =
      burst - ((max time now + interval - now : Nat) : ℚ) / interval
    have hdebt : max time now + interval - now = (time - now) + interval := by omega
    rw [htokens, hdebt, Nat.cast_add]
    field_simp
    ring

/-- A bucket was brought up to date at the latest arrival. -/
theorem Bucket.updatedAt_after (interval burst : Nat) (arrivals : List Nat) :
    (Bucket.after interval burst arrivals).updatedAt = arrivals.head?.getD 0 := by
  cases arrivals with
  | nil => rfl
  | cons now earlier =>
      unfold Bucket.after Bucket.take
      split <;> rfl

/-- **The same decisions as a token bucket**, on arrivals in order. -/
theorem decisions_eq_bucket (hinterval : 0 < interval) (hburst : 0 < burst) {arrivals : List Nat}
    (hsorted : arrivals.Pairwise (· ≥ ·)) :
    decisions interval ((burst - 1) * interval) arrivals =
        Bucket.decisions interval burst arrivals ∧
      Agrees interval burst (after interval ((burst - 1) * interval) arrivals)
        (Bucket.after interval burst arrivals) := by
  induction arrivals with
  | nil => exact ⟨rfl, by simp [Agrees, after, Bucket.after]⟩
  | cons now earlier ih =>
      obtain ⟨hbelow, hearlier⟩ := List.pairwise_cons.mp hsorted
      obtain ⟨hsame, hagrees⟩ := ih hearlier
      have hlater : (Bucket.after interval burst earlier).updatedAt ≤ now := by
        rw [Bucket.updatedAt_after]
        cases earlier with
        | nil => exact Nat.zero_le _
        | cons last before => exact hbelow last List.mem_cons_self
      obtain ⟨hfirst, hnext⟩ := hagrees.take hinterval hburst hlater
      exact ⟨List.cons_eq_cons.mpr ⟨hfirst.symm, hsame⟩, hnext⟩

end Gcra
