import Tlink.Lib.Binary
import Tlink.Lib.Rounding

/-!
# Numbers

A `float64` of the configuration is read as the rational it denotes. What is computed from it can be
computed in two ways: as the machine does, where every operation keeps the nearest `float64` and the
conversion to `int64` answers the least integer for everything that does not fit, or without any
loss. The functions of the program take the arithmetic as a parameter.
-/
namespace Tlink.Runtime

open Rounding Binary

inductive Arithmetic where
  | exact
  | float64
  deriving DecidableEq, Repr

namespace Arithmetic

/-- What an operation keeps of its exact result. An infinity, and with it a NaN, is `none`: none of
the operations the program applies to it leads back to a finite number. -/
def keep : Arithmetic → ℚ → Option ℚ
  | .exact, x => some x
  | .float64, x => binary64.store x

/-- The conversion of a whole number; amd64 answers `-2 ^ 63` for everything out of range. -/
def int64 : Arithmetic → ℤ → ℤ
  | .exact, n => n
  | .float64, n => if -2 ^ 63 ≤ n ∧ n < 2 ^ 63 then n else -2 ^ 63

/-- `n - 1`, which wraps. -/
def pred : Arithmetic → ℤ → ℤ
  | .exact, n => n - 1
  | .float64, n => Int.bmod (n - 1) (2 ^ 64)

variable (a : Arithmetic)

def sub (x y : Option ℚ) : Option ℚ := x.bind fun x => y.bind fun y => a.keep (x - y)
def mul (x y : Option ℚ) : Option ℚ := x.bind fun x => y.bind fun y => a.keep (x * y)
/-- The divisors of the program are not zero. -/
def div (x y : Option ℚ) : Option ℚ := x.bind fun x => y.bind fun y => a.keep (x / y)

/-- `int64(math.Round(x))` -/
def int64Round : Option ℚ → ℤ
  | none => -2 ^ 63
  | some x => a.int64 (roundAway x)

@[simp] theorem sub_some (x y : ℚ) : a.sub (some x) (some y) = a.keep (x - y) := rfl
@[simp] theorem mul_some (x y : ℚ) : a.mul (some x) (some y) = a.keep (x * y) := rfl
@[simp] theorem div_some (x y : ℚ) : a.div (some x) (some y) = a.keep (x / y) := rfl
@[simp] theorem keep_exact (x : ℚ) : exact.keep x = some x := rfl
@[simp] theorem int64Round_exact (x : ℚ) : exact.int64Round (some x) = roundAway x := rfl
@[simp] theorem pred_exact (n : ℤ) : exact.pred n = n - 1 := rfl

theorem int64_float64 (n : ℤ) :
    float64.int64 n = if -2 ^ 63 ≤ n ∧ n < 2 ^ 63 then n else -2 ^ 63 := rfl

theorem pred_float64 (n : ℤ) : float64.pred n = Int.bmod (n - 1) (2 ^ 64) := rfl

/-- The number is one the arithmetic has. -/
def Has (x : ℚ) : Prop := a.keep x = some x

instance (x : ℚ) : Decidable (a.Has x) := inferInstanceAs (Decidable (_ = _))

/-! ### Conversions -/

theorem int64_range (n : ℤ) : -2 ^ 63 ≤ float64.int64 n ∧ float64.int64 n < 2 ^ 63 := by
  rw [int64_float64]
  split <;> omega

theorem int64Round_range (x : Option ℚ) :
    -2 ^ 63 ≤ float64.int64Round x ∧ float64.int64Round x < 2 ^ 63 := by
  cases x with
  | none => exact ⟨le_rfl, by norm_num [int64Round]⟩
  | some x => exact int64_range (roundAway x)

/-- What fits is converted faithfully. -/
theorem int64_of_fits {n : ℤ} (lower : -2 ^ 63 ≤ n) (upper : n < 2 ^ 63) : a.int64 n = n := by
  cases a with
  | exact => rfl
  | float64 => exact if_pos ⟨lower, upper⟩

theorem pred_of_fits {n : ℤ} (lower : -2 ^ 63 < n) (upper : n < 2 ^ 63) : a.pred n = n - 1 := by
  cases a with
  | exact => rfl
  | float64 =>
    rw [pred_float64, Int.bmod_def]
    split <;> omega

/-- A converted number that is positive does not wrap. -/
theorem pred_of_pos (x : Option ℚ) (positive : 0 < a.int64Round x) :
    a.pred (a.int64Round x) = a.int64Round x - 1 := by
  cases a with
  | exact => rfl
  | float64 => exact pred_of_fits _ (by omega) (int64Round_range x).2

/-! ### Bounds -/

theorem has_iff (x : ℚ) : float64.Has x ↔ binary64.nearest x = x ∧ |x| < 2 ^ (1024 : ℤ) :=
  binary64.store_eq_some_iff x x

/-- An operation whose result is not negative adds little to it. -/
theorem keep_le {x bound : ℚ} (nonneg : 0 ≤ x) (le : x ≤ bound) (small : bound ≤ 2 ^ 200) :
    ∃ y, float64.keep x = some y ∧ 0 ≤ y ∧ y ≤ bound + bound / 2 ^ 53 + 1 / 2 ^ 100 := by
  have close := (abs_le.mp (binary64.abs_nearest_sub_le x)).2
  have kept := binary64.nearest_nonneg nonneg
  have least : (2 : ℚ) ^ binary64.least / 2 ≤ 1 / 2 ^ 100 := by
    have tiny : (2 : ℚ) ^ binary64.least ≤ 2 ^ (-100 : ℤ) :=
      zpow_le_zpow_right₀ (by norm_num) (by decide)
    norm_num at tiny ⊢
    linarith
  rw [abs_of_nonneg nonneg, show binary64.precision = 53 from rfl] at close
  have share : x / 2 ^ 53 ≤ bound / 2 ^ 53 := div_le_div_of_nonneg_right le (by positivity)
  have upper : binary64.nearest x ≤ bound + bound / 2 ^ 53 + 1 / 2 ^ 100 := by linarith
  have fits : |binary64.nearest x| < 2 ^ (1024 : ℤ) := by
    have far : (2 : ℚ) ^ (202 : ℤ) ≤ 2 ^ (1024 : ℤ) := zpow_le_zpow_right₀ (by norm_num) (by decide)
    rw [abs_of_nonneg kept]
    refine lt_of_lt_of_le ?_ far
    norm_num at small upper ⊢
    linarith
  exact ⟨_, (binary64.store_eq_some_iff x _).mpr ⟨rfl, fits⟩, kept, upper⟩

/-- Halving a number is exact as far as rounding it can tell. -/
theorem int64Round_half {x : ℚ} (nonneg : 0 ≤ x) (has : float64.Has x) :
    float64.int64Round (float64.div (some x) (some 2)) = float64.int64 (roundAway (x / 2)) := by
  obtain ⟨same, finite⟩ := (has_iff x).mp has
  rw [abs_of_nonneg nonneg] at finite
  have tiny : (2 : ℚ) ^ (binary64.least + binary64.precision) ≤ 2 ^ (-2 : ℤ) :=
    zpow_le_zpow_right₀ (by norm_num) (by decide)
  rcases le_or_gt ((2 : ℚ) ^ (binary64.least + binary64.precision)) x with normal | subnormal
  · -- above the least numbers halving is exact
    have half : binary64.nearest (x / 2) = x / 2 := by
      rw [binary64.nearest_half normal, same]
    have fits : |x / 2| < 2 ^ (1024 : ℤ) := by
      rw [abs_of_nonneg (by linarith)]
      exact lt_of_le_of_lt (by linarith) finite
    have kept : float64.keep (x / 2) = some (x / 2) :=
      (binary64.store_eq_some_iff _ _).mpr ⟨half, fits⟩
    rw [div_some, kept, int64Round]
  · -- what is lost is far too small
    norm_num at tiny
    obtain ⟨y, kept, y_nonneg, y_le⟩ :=
      keep_le (by linarith : 0 ≤ x / 2) (by linarith : x / 2 ≤ 1 / 8) (by norm_num)
    norm_num at y_le
    have zero : roundAway y = 0 := by
      rw [roundAway_eq_zero_iff, abs_of_nonneg y_nonneg]
      linarith
    have zero' : roundAway (x / 2) = 0 := by
      rw [roundAway_eq_zero_iff, abs_of_nonneg (by linarith)]
      linarith
    rw [div_some, kept, int64Round, zero, zero']

/-! ### Thresholds -/

/-- A number that is converted without an operation before. -/
theorem le_int64Round_iff {n : ℤ} (positive : 0 < n) (x : ℚ) :
    n ≤ float64.int64Round (some x) ↔ (n : ℚ) - 1 / 2 ≤ x ∧ x < 2 ^ 63 - 1 / 2 := by
  have reached := le_roundAway_iff (x := x) positive
  have overflow : 2 ^ 63 ≤ roundAway x ↔ 2 ^ 63 - 1 / 2 ≤ x := by
    have := le_roundAway_iff (x := x) (n := 2 ^ 63) (by norm_num)
    push_cast at this
    exact this
  rw [← reached, ← not_le, ← overflow, int64Round, int64_float64]
  split <;> omega

/-- The largest `float64` below `2 ^ 63` is far enough away to be rounded down. -/
theorem lt_top_iff (x : ℚ) :
    (binary64.nearest x < 2 ^ 63 - 1 / 2 ↔ x < 2 ^ 63 - 2 ^ 9) ∧
    (2 ^ 63 - 1 / 2 ≤ binary64.nearest x ↔ 2 ^ 63 - 2 ^ 9 ≤ x) := by
  have reached := binary64.le_nearest_iff (n := 2 ^ 53) (e := 10) (by decide) (by decide) (by decide)
    (by decide) x
  norm_num at reached
  -- below 2^63 the numbers are 2^10 apart
  have gap : binary64.nearest x < 2 ^ 63 → binary64.nearest x ≤ 2 ^ 63 - 2 ^ 10 := by
    intro below
    have := binary64.nearest_le_of_lt (n := 2 ^ 53) (e := 10) (by decide) (by decide) (by decide)
      (x := x) (by norm_num; linarith)
    norm_num at this
    linarith
  have above : 2 ^ 63 - 1 / 2 ≤ binary64.nearest x ↔ 2 ^ 63 - 2 ^ 9 ≤ x := by
    constructor
    · intro large
      by_contra small
      have := gap (by
        by_contra not_below
        have := reached.mp (by linarith)
        linarith)
      linarith
    · intro large
      have := reached.mpr (by linarith)
      linarith
  exact ⟨by rw [← not_le, above, not_le], above⟩

/-- A number that an operation has rounded before it is converted. -/
theorem le_int64Round_keep_iff {n m e : ℤ} (positive : 0 < n) (number : (m : ℚ) * 2 ^ e = n - 1 / 2)
    (least : -1074 ≤ e) (even : Even m) (lower : 2 ^ 52 < m) (upper : m ≤ 2 ^ 53) (x : ℚ) :
    n ≤ float64.int64Round (float64.keep x) ↔
      (n : ℚ) - 1 / 2 - 2 ^ e / 2 ≤ x ∧ x < 2 ^ 63 - 2 ^ 9 := by
  have reached := binary64.le_nearest_iff least lower upper even x
  have top := (lt_top_iff x).1
  rw [number] at reached
  rw [← reached, ← top]
  have one_le : (1 : ℚ) ≤ n := by exact_mod_cast positive
  cases stored : float64.keep x with
  | none =>
    have large := (binary64.store_eq_none_iff x).mp stored
    -- what overflows is far from the threshold
    have huge : (2 : ℚ) ^ (64 : ℤ) ≤ |binary64.nearest x| :=
      le_trans (zpow_le_zpow_right₀ (by norm_num) (by decide)) large
    constructor
    · intro impossible
      have : n ≤ -2 ^ 63 := impossible
      omega
    · rintro ⟨above, below⟩
      rw [abs_of_pos (by linarith)] at huge
      norm_num at huge below
      linarith
  | some y =>
    obtain ⟨rfl, _⟩ := (binary64.store_eq_some_iff x y).mp stored
    exact le_int64Round_iff positive _

theorem one_le_int64Round_keep_iff (x : ℚ) :
    1 ≤ float64.int64Round (float64.keep x) ↔ 1 / 2 - 1 / 2 ^ 55 ≤ x ∧ x < 2 ^ 63 - 2 ^ 9 := by
  have threshold := le_int64Round_keep_iff (n := 1) (m := 2 ^ 53) (e := -54) one_pos (by norm_num)
    (by decide) (by decide) (by decide) (by decide) x
  norm_num at threshold ⊢
  exact threshold

theorem two_le_int64Round_keep_iff (x : ℚ) :
    2 ≤ float64.int64Round (float64.keep x) ↔ 3 / 2 - 1 / 2 ^ 53 ≤ x ∧ x < 2 ^ 63 - 2 ^ 9 := by
  have threshold := le_int64Round_keep_iff (n := 2) (m := 3 * 2 ^ 51) (e := -52) two_pos
    (by norm_num) (by decide) (by decide) (by decide) (by decide) x
  norm_num at threshold ⊢
  exact threshold

theorem int64_eq_zero_iff (n : ℤ) : float64.int64 n = 0 ↔ n = 0 := by
  rw [int64_float64]
  split <;> omega

/-- Nothing is left of exactly the numbers below the first threshold, of either sign. -/
theorem int64Round_keep_eq_zero_iff (x : ℚ) :
    float64.int64Round (float64.keep x) = 0 ↔ |x| < 1 / 2 - 1 / 2 ^ 55 := by
  -- one half is a number with an even significand
  have reached (y : ℚ) : 1 / 2 ≤ binary64.nearest y ↔ 1 / 2 - 1 / 2 ^ 55 ≤ y := by
    have threshold := binary64.le_nearest_iff (n := 2 ^ 53) (e := -54) (by decide) (by decide)
      (by decide) (by decide) y
    norm_num at threshold ⊢
    exact threshold
  have under (y : ℚ) : binary64.nearest y < 1 / 2 ↔ y < 1 / 2 - 1 / 2 ^ 55 := by
    rw [← not_le, reached, not_le]
  have small : |binary64.nearest x| < 1 / 2 ↔ |x| < 1 / 2 - 1 / 2 ^ 55 := by
    have both (z c : ℚ) : |z| < c ↔ -z < c ∧ z < c := by rw [abs_lt, neg_lt]
    rw [both, both, ← binary64.nearest_neg, under, under]
  rw [← small]
  cases stored : float64.keep x with
  | none =>
    have large : (2 : ℚ) ^ (1024 : ℤ) ≤ |binary64.nearest x| :=
      (binary64.store_eq_none_iff x).mp stored
    have one_le : (1 : ℚ) ≤ 2 ^ (1024 : ℤ) := one_le_zpow₀ (by norm_num) (by decide)
    -- what overflows is not zero
    have far : ¬ |binary64.nearest x| < 1 / 2 := by
      rw [not_lt]
      exact le_trans (by norm_num) (one_le.trans large)
    exact ⟨fun zero => absurd zero (by decide), fun less => absurd less far⟩
  | some y =>
    obtain ⟨rfl, _⟩ := (binary64.store_eq_some_iff x y).mp stored
    rw [int64Round, int64_eq_zero_iff, roundAway_eq_zero_iff]

/-- No number of the format lies between the last one below `2 ^ 63` and `2 ^ 63`. -/
theorem Has.lt_top {x : ℚ} (has : float64.Has x) (below : x < 2 ^ 63) : x < 2 ^ 63 - 2 ^ 9 := by
  obtain ⟨same, _⟩ := (has_iff x).mp has
  have gap := binary64.nearest_le_of_lt (n := 2 ^ 53) (e := 10) (by decide) (by decide) (by decide)
    (x := x) (by rw [same]; norm_num at below ⊢; exact below)
  rw [same] at gap
  norm_num at gap ⊢
  linarith

/-- Nor just below one half. -/
theorem Has.half_le {x : ℚ} (has : float64.Has x) (above : 1 / 2 - 1 / 2 ^ 55 ≤ x) : 1 / 2 ≤ x := by
  obtain ⟨same, _⟩ := (has_iff x).mp has
  have threshold := binary64.le_nearest_iff (n := 2 ^ 53) (e := -54) (by decide) (by decide)
    (by decide) (by decide) x
  rw [same] at threshold
  norm_num at threshold above ⊢
  exact threshold.mpr above

end Arithmetic

end Tlink.Runtime
