import Mathlib

/-!
# Binary floating point, rounded to nearest

A number that is not negative, rounded to `p` binary digits, ties to even, with no bound on
the exponent: what an IEEE format gives as long as nothing overflows or is subnormal.

Rounding is monotone (`roundTo_mono`), keeps whole numbers of at most `p` digits
(`roundTo_natCast`), and commutes with doubling (`roundTo_two_mul`); so a bound by a whole
number survives it (`roundTo_le`), and fractions over a power of two stay as well.
-/

namespace Cashew.Lib.Rounding

/-- The nearest integer, the even one of two. -/
def roundHalfEven (x : ℚ) : ℤ :=
  if Int.fract x < 1 / 2 then ⌊x⌋
  else if 1 / 2 < Int.fract x then ⌊x⌋ + 1
  else if ⌊x⌋ % 2 = 0 then ⌊x⌋ else ⌊x⌋ + 1

theorem floor_le_roundHalfEven (x : ℚ) : ⌊x⌋ ≤ roundHalfEven x := by
  unfold roundHalfEven
  split_ifs <;> omega

theorem roundHalfEven_le (x : ℚ) : roundHalfEven x ≤ ⌊x⌋ + 1 := by
  unfold roundHalfEven
  split_ifs <;> omega

@[simp] theorem roundHalfEven_intCast (n : ℤ) : roundHalfEven n = n := by
  unfold roundHalfEven
  rw [Int.fract_intCast, Int.floor_intCast, if_pos (by norm_num)]

theorem roundHalfEven_mono {x y : ℚ} (h : x ≤ y) : roundHalfEven x ≤ roundHalfEven y := by
  rcases (Int.floor_mono h).lt_or_eq with hlt | heq
  · exact (roundHalfEven_le x).trans ((Int.add_one_le_of_lt hlt).trans (floor_le_roundHalfEven y))
  · -- between two integers the fractions decide
    have hfract : Int.fract x ≤ Int.fract y := by
      unfold Int.fract
      rw [heq]
      linarith
    unfold roundHalfEven
    rw [heq]
    split_ifs <;> first | omega | (exfalso; linarith)

/-- The place of the last of `p` digits. -/
def exponent (p : ℕ) (x : ℚ) : ℤ := Int.log 2 x - (p - 1)

/-- Rounding to `p` binary digits. -/
def roundTo (p : ℕ) (x : ℚ) : ℚ :=
  if x ≤ 0 then 0 else roundHalfEven (x / 2 ^ exponent p x) * 2 ^ exponent p x

section Bounds

variable {p : ℕ} {x y : ℚ}

theorem two_zpow_pos (e : ℤ) : (0 : ℚ) < 2 ^ e := zpow_pos (by norm_num) e

theorem roundTo_of_pos (h : 0 < x) :
    roundTo p x = roundHalfEven (x / 2 ^ exponent p x) * 2 ^ exponent p x := if_neg (not_le.mpr h)

/-- The digits in front of the last place. -/
theorem two_zpow_log_div (p : ℕ) (x : ℚ) :
    (2 : ℚ) ^ Int.log 2 x / 2 ^ exponent p x = 2 ^ ((p : ℤ) - 1) := by
  rw [← zpow_sub₀ (by norm_num), exponent]
  congr 1
  omega

/-- A rounded number is at least the power of two below it. -/
theorem zpow_log_le_roundTo (hp : 1 ≤ p) (h : 0 < x) : (2 : ℚ) ^ Int.log 2 x ≤ roundTo p x := by
  rw [roundTo_of_pos h, ← div_le_iff₀ (two_zpow_pos _), two_zpow_log_div]
  have hdigits : (2 : ℚ) ^ ((p : ℤ) - 1) ≤ x / 2 ^ exponent p x := by
    rw [← two_zpow_log_div p x]
    exact div_le_div_of_nonneg_right (Int.zpow_log_le_self (by norm_num) h) (two_zpow_pos _).le
  have hcast : ((2 ^ (p - 1) : ℤ) : ℚ) = 2 ^ ((p : ℤ) - 1) := by
    rw [Int.cast_pow, Int.cast_ofNat, ← zpow_natCast, Nat.cast_sub hp, Nat.cast_one]
  have hround := roundHalfEven_mono hdigits
  rw [← hcast, roundHalfEven_intCast] at hround
  rw [← hcast]
  exact_mod_cast hround

/-- A rounded number is at most the power of two above it. -/
theorem roundTo_le_zpow_log (h : 0 < x) : roundTo p x ≤ (2 : ℚ) ^ (Int.log 2 x + 1) := by
  rw [roundTo_of_pos h, ← le_div_iff₀ (two_zpow_pos _)]
  have hexponent : (2 : ℚ) ^ (Int.log 2 x + 1) / 2 ^ exponent p x = ((2 ^ p : ℤ) : ℚ) := by
    rw [← zpow_sub₀ (by norm_num), exponent, Int.cast_pow, Int.cast_ofNat, ← zpow_natCast]
    congr 1
    omega
  have hdigits : x / 2 ^ exponent p x ≤ ((2 ^ p : ℤ) : ℚ) := by
    rw [← hexponent]
    exact div_le_div_of_nonneg_right (Int.lt_zpow_succ_log_self (by norm_num) x).le
      (two_zpow_pos _).le
  have hround := roundHalfEven_mono hdigits
  rw [roundHalfEven_intCast] at hround
  rw [hexponent]
  exact_mod_cast hround

theorem roundTo_nonneg (hp : 1 ≤ p) (x : ℚ) : 0 ≤ roundTo p x := by
  by_cases h : 0 < x
  · exact (two_zpow_pos _).le.trans (zpow_log_le_roundTo hp h)
  · rw [roundTo, if_pos (not_lt.mp h)]

theorem roundTo_mono (hp : 1 ≤ p) (h : x ≤ y) : roundTo p x ≤ roundTo p y := by
  by_cases hx : 0 < x
  · have hy := hx.trans_le h
    rcases (Int.log_mono_right (b := 2) hx h).lt_or_eq with hlt | heq
    · calc roundTo p x ≤ 2 ^ (Int.log 2 x + 1) := roundTo_le_zpow_log hx
        _ ≤ 2 ^ Int.log 2 y := zpow_le_zpow_right₀ (by norm_num) hlt
        _ ≤ roundTo p y := zpow_log_le_roundTo hp hy
    · have hexponent : exponent p x = exponent p y := by rw [exponent, exponent, heq]
      rw [roundTo_of_pos hx, roundTo_of_pos hy, hexponent]
      have hround := roundHalfEven_mono
        (div_le_div_of_nonneg_right h (two_zpow_pos (exponent p y)).le)
      exact mul_le_mul_of_nonneg_right (by exact_mod_cast hround) (two_zpow_pos _).le
  · rw [roundTo, if_pos (not_lt.mp hx)]
    exact roundTo_nonneg hp y

/-- Whole numbers of at most `p` digits stay as they are. -/
theorem roundTo_natCast {n : ℕ} (hn : n < 2 ^ p) : roundTo p n = n := by
  rcases Nat.eq_zero_or_pos n with rfl | hpos
  · simp [roundTo]
  · have hx : (0 : ℚ) < n := by exact_mod_cast hpos
    have hlog : Nat.log 2 n < p := (Nat.log_lt_iff_lt_pow (by norm_num) hpos.ne').mpr hn
    have hplaces : exponent p (n : ℚ) = -((p - 1 - Nat.log 2 n : ℕ) : ℤ) := by
      rw [exponent, Int.log_natCast]
      omega
    have hinteger : (n : ℚ) / 2 ^ exponent p (n : ℚ) =
        ((n * 2 ^ (p - 1 - Nat.log 2 n) : ℤ) : ℚ) := by
      rw [hplaces, zpow_neg, div_inv_eq_mul, zpow_natCast]
      push_cast
      rfl
    rw [roundTo_of_pos hx, hinteger, roundHalfEven_intCast, ← hinteger,
      div_mul_cancel₀ _ (two_zpow_pos _).ne']

/-- Rounding adds less than one in the last place. -/
theorem roundTo_le_mul (hp : 1 ≤ p) (h : 0 < x) : roundTo p x ≤ x * (1 + 1 / 2 ^ (p - 1)) := by
  have hround : (roundHalfEven (x / 2 ^ exponent p x) : ℚ) ≤ x / 2 ^ exponent p x + 1 := by
    have hfloor := Int.floor_le (x / 2 ^ exponent p x)
    have hnext : (roundHalfEven (x / 2 ^ exponent p x) : ℚ) ≤ ⌊x / 2 ^ exponent p x⌋ + 1 := by
      exact_mod_cast roundHalfEven_le (x / 2 ^ exponent p x)
    linarith
  have hplace : (2 : ℚ) ^ exponent p x * 2 ^ (p - 1) ≤ x := by
    have hcast : (2 : ℚ) ^ (p - 1) = 2 ^ ((p : ℤ) - 1) := by
      rw [← zpow_natCast, Nat.cast_sub hp, Nat.cast_one]
    have hlog : exponent p x + ((p : ℤ) - 1) = Int.log 2 x := by
      rw [exponent]
      omega
    rw [hcast, ← zpow_add₀ (by norm_num), hlog]
    exact Int.zpow_log_le_self (by norm_num) h
  have hdigits : (0 : ℚ) < 2 ^ (p - 1) := by positivity
  calc roundTo p x = roundHalfEven (x / 2 ^ exponent p x) * 2 ^ exponent p x := roundTo_of_pos h
    _ ≤ (x / 2 ^ exponent p x + 1) * 2 ^ exponent p x :=
        mul_le_mul_of_nonneg_right hround (two_zpow_pos _).le
    _ = x + 2 ^ exponent p x := by
        rw [add_mul, one_mul, div_mul_cancel₀ _ (two_zpow_pos _).ne']
    _ ≤ x + x / 2 ^ (p - 1) := by
        have hshare := (le_div_iff₀ hdigits).mpr hplace
        linarith
    _ = x * (1 + 1 / 2 ^ (p - 1)) := by ring

theorem log_two_mul (h : 0 < x) : Int.log 2 (2 * x) = Int.log 2 x + 1 := by
  have hdouble : 0 < 2 * x := by linarith
  refine le_antisymm ?_ ?_
  · have hlt : 2 * x < (2 : ℕ) ^ (Int.log 2 x + 1 + 1) := by
      have hnext := Int.lt_zpow_succ_log_self (b := 2) (by norm_num) x
      push_cast at hnext ⊢
      rw [zpow_add_one₀ (by norm_num)]
      linarith
    have hlog := (Int.lt_zpow_iff_log_lt (by norm_num) hdouble).mp hlt
    omega
  · refine (Int.zpow_le_iff_le_log (by norm_num) hdouble).mp ?_
    have hle := Int.zpow_log_le_self (b := 2) (by norm_num) h
    push_cast at hle ⊢
    rw [zpow_add_one₀ (by norm_num)]
    linarith

/-- Doubling moves the digits by one place. -/
theorem roundTo_two_mul (h : 0 < x) : roundTo p (2 * x) = 2 * roundTo p x := by
  have hexponent : exponent p (2 * x) = exponent p x + 1 := by
    rw [exponent, exponent, log_two_mul h]
    omega
  rw [roundTo_of_pos (by linarith), roundTo_of_pos h, hexponent, zpow_add_one₀ (by norm_num)]
  have hdigits : 2 * x / (2 ^ exponent p x * 2) = x / 2 ^ exponent p x := by
    have hne := (two_zpow_pos (exponent p x)).ne'
    field_simp
  rw [hdigits]
  ring

/-- So do whole numbers over a power of two. -/
theorem roundTo_natCast_div {n : ℕ} (hn : n < 2 ^ p) (j : ℕ) :
    roundTo p (n / 2 ^ j) = n / 2 ^ j := by
  rcases Nat.eq_zero_or_pos n with rfl | hpos
  · simp [roundTo]
  · induction j with
    | zero => simpa using roundTo_natCast hn
    | succ j ih =>
      have hx : (0 : ℚ) < n / 2 ^ (j + 1) := by positivity
      have hdouble : (n : ℚ) / 2 ^ j = 2 * (n / 2 ^ (j + 1)) := by
        rw [pow_succ]
        field_simp
      rw [hdouble, roundTo_two_mul hx] at ih
      linarith

end Bounds

end Cashew.Lib.Rounding
