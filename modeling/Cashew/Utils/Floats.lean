import Cashew.Lib.Rounding

/-!
# Floats

The `float` arithmetic of the source is done in rationals that are rounded to 24 binary
digits after each operation, as long as no number is negative or too large for a `float`.
Where a number may be subnormal it is rounded by `smallFloat`.
-/

namespace Cashew

open Cashew.Lib Rounding

/-- The `float` nearest to a number. -/
def float (x : ℚ) : ℚ := roundTo 24 x

theorem float_nonneg (x : ℚ) : 0 ≤ float x := roundTo_nonneg (by norm_num) x

theorem float_mono {x y : ℚ} (h : x ≤ y) : float x ≤ float y := roundTo_mono (by norm_num) h

theorem float_natCast {n : ℕ} (h : n < 2 ^ 24) : float n = n := roundTo_natCast h

theorem float_le_mul {x : ℚ} (h : 0 ≤ x) : float x ≤ x * (1 + 1 / 2 ^ 23) := by
  rcases h.eq_or_lt with rfl | hpos
  · simp [float, roundTo]
  · exact roundTo_le_mul (by norm_num) hpos

/-- The `float` nearest to a number at most one: below the normal numbers there are no more
than 149 binary places. -/
def smallFloat (x : ℚ) : ℚ :=
  if x < 1 / 2 ^ 126 then roundHalfEven (x * 2 ^ 149) / 2 ^ 149 else float x

/-- A normal power of two bounds a number that is rounded. -/
theorem le_smallFloat {x : ℚ} {k : ℕ} (hk : k ≤ 126) (h : 1 / 2 ^ k ≤ x) :
    1 / 2 ^ k ≤ smallFloat x := by
  have hnormal : ¬ x < 1 / 2 ^ 126 := by
    refine not_lt.mpr (le_trans ?_ h)
    exact one_div_le_one_div_of_le (by positivity) (pow_le_pow_right₀ (by norm_num) hk)
  have hpower : float (1 / 2 ^ k) = 1 / 2 ^ k := by
    have hplaces := roundTo_natCast_div (p := 24) (n := 1) (by norm_num) k
    rwa [Nat.cast_one] at hplaces
  rw [smallFloat, if_neg hnormal, ← hpower]
  exact float_mono h

end Cashew
