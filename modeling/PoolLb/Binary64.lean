import Mathlib.Data.Int.Log
import Mathlib.Data.Rat.Floor
import Mathlib.Tactic.Linarith
import Mathlib.Tactic.Ring

/-!
# Quotients of doubles

The result of an operation on doubles is the exact one, rounded to the nearest number with a
significand of 53 bits, and to the even one of two that are equally near.  Numbers are rationals
here; the range of the exponent is not modelled, so there is neither overflow nor underflow.
-/

namespace Binary64

/-- The nearest integer, and the even one of two. -/
def halfEven (q : ℚ) : ℤ :=
  if q - ⌊q⌋ < 1 / 2 ∨ q - ⌊q⌋ = 1 / 2 ∧ ⌊q⌋ % 2 = 0 then ⌊q⌋ else ⌊q⌋ + 1

/-- The distance of two neighbouring doubles at `q`. -/
def ulp (q : ℚ) : ℚ := 2 ^ (Int.log 2 |q| - 52)

/-- The double next to `q`. -/
def nearest (q : ℚ) : ℚ := halfEven (q / ulp q) * ulp q

/-- The nearest integer is at most one half away. -/
theorem halfEven_error (q : ℚ) : |(halfEven q : ℚ) - q| ≤ 1 / 2 := by
  have hfloor := Int.floor_le q
  have hnext := Int.lt_floor_add_one q
  unfold halfEven
  split
  · rename_i hlow
    have hhalf : q - ⌊q⌋ ≤ 1 / 2 := by
      rcases hlow with hless | ⟨heq, _⟩
      · exact hless.le
      · exact heq.le
    exact abs_le.mpr ⟨by linarith, by linarith⟩
  · rename_i hhigh
    have hhalf : 1 / 2 ≤ q - ⌊q⌋ := not_lt.mp fun hless => hhigh (.inl hless)
    push_cast
    exact abs_le.mpr ⟨by linarith, by linarith⟩

/-- Two neighbours are apart. -/
theorem ulp_pos (q : ℚ) : 0 < ulp q := zpow_pos (by norm_num) _

/-- Neighbouring doubles are close to each other. -/
theorem ulp_le {q : ℚ} (h : 0 < q) : ulp q ≤ q / 2 ^ 52 := by
  have hlog := Int.zpow_log_le_self (b := 2) (by norm_num) h
  push_cast at hlog
  unfold ulp
  rw [abs_of_pos h, zpow_sub₀ (by norm_num)]
  exact div_le_div_of_nonneg_right hlog (by norm_num)

/-- **The relative error of one rounding.** -/
theorem nearest_error {q : ℚ} (h : 0 < q) : |nearest q - q| ≤ q / 2 ^ 53 := by
  have hulp := ulp_pos q
  have herror := mul_le_mul_of_nonneg_right (halfEven_error (q / ulp q)) hulp.le
  rw [← abs_of_pos hulp, ← abs_mul, abs_of_pos hulp, sub_mul, div_mul_cancel₀ _ hulp.ne'] at herror
  calc
    |nearest q - q| ≤ 1 / 2 * ulp q := herror
    _ ≤ 1 / 2 * (q / 2 ^ 52) := by linarith [ulp_le h]
    _ = q / 2 ^ 53 := by ring

end Binary64
