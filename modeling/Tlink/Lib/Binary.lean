import Mathlib.Data.Int.Log
import Mathlib.Data.Rat.Floor
import Mathlib.Algebra.Order.Floor.Ring
import Mathlib.Algebra.Order.Ring.Rat
import Mathlib.Algebra.Order.Ring.Int
import Mathlib.Algebra.Ring.Int.Parity
import Mathlib.Tactic.Linarith
import Mathlib.Tactic.FieldSimp

/-!
# Binary floating-point formats

A format keeps a number of significant bits and nothing below a least power of two. What it makes of
a rational is the nearest number it has, and of two equally near ones the one with the even
significand. Rounding is monotone, so how it compares with a number of the format is a threshold on
its argument: the middle between this number and the one below.
-/
namespace Binary

/-! ### Integers -/

/-- The nearest integer, with ties to the even one. -/
def roundEven (x : ℚ) : ℤ :=
  if Int.fract x < 1 / 2 ∨ (Int.fract x = 1 / 2 ∧ Even ⌊x⌋) then ⌊x⌋ else ⌊x⌋ + 1

theorem abs_roundEven_sub_le (x : ℚ) : |(roundEven x : ℚ) - x| ≤ 1 / 2 := by
  have split := Int.floor_add_fract x
  have nonneg := Int.fract_nonneg x
  have below := Int.fract_lt_one x
  unfold roundEven
  rw [abs_le]
  split
  next down =>
    have small : Int.fract x ≤ 1 / 2 := by
      rcases down with less | ⟨tie, _⟩
      · exact less.le
      · exact tie.le
    constructor <;> linarith
  next up =>
    have large : 1 / 2 ≤ Int.fract x := by
      by_contra less
      exact up (.inl (not_le.mp less))
    push_cast
    constructor <;> linarith

theorem roundEven_intCast (n : ℤ) : roundEven (n : ℚ) = n := by
  simp [roundEven]

/-- An even number wins its ties, so it is reached from the middle below it on. -/
theorem le_roundEven_iff {n : ℤ} (even : Even n) (x : ℚ) :
    n ≤ roundEven x ↔ (n : ℚ) - 1 / 2 ≤ x := by
  have close := abs_le.mp (abs_roundEven_sub_le x)
  constructor
  · intro reached
    have reached' : (n : ℚ) ≤ roundEven x := by exact_mod_cast reached
    linarith [close.2]
  · intro above
    by_contra missed
    have missed' : (roundEven x : ℚ) + 1 ≤ n := by exact_mod_cast not_le.mp missed
    -- so `x` is the middle between `n - 1` and `n`, and was rounded down
    have middle : x = n - 1 / 2 := by linarith [close.1]
    have floor : ⌊x⌋ = n - 1 := by
      rw [Int.floor_eq_iff, middle]
      push_cast
      constructor <;> linarith
    have tie : Int.fract x = 1 / 2 := by
      have := Int.floor_add_fract x
      rw [floor] at this
      push_cast at this
      linarith
    have odd : ¬ Even (n - 1) := by
      rw [Int.even_sub_one, not_not]
      exact even
    rw [roundEven, floor, if_neg (by simp [tie, odd])] at missed
    omega

theorem roundEven_mono {x y : ℚ} (le : x ≤ y) : roundEven x ≤ roundEven y := by
  have closeX := abs_le.mp (abs_roundEven_sub_le x)
  have closeY := abs_le.mp (abs_roundEven_sub_le y)
  by_contra above
  have above' : (roundEven y : ℚ) + 1 ≤ roundEven x := by exact_mod_cast not_le.mp above
  -- both are the middle of the same two integers
  have same : x = y := by linarith [closeX.2, closeY.1]
  rw [same] at above
  exact above le_rfl

/-! ### Formats -/

structure Format where
  /-- Significant bits. -/
  precision : ℕ
  /-- All numbers are multiples of `2 ^ least`. -/
  least : ℤ
  /-- All numbers are below `2 ^ top`. -/
  top : ℤ
  precision_pos : 0 < precision

def binary64 : Format := ⟨53, -1074, 1024, by decide⟩

namespace Format

variable (f : Format)

/-- The exponent of the last bit that is kept of a positive number. -/
def exponent (x : ℚ) : ℤ := max (Int.log 2 x + 1 - f.precision) f.least

/-- Rounding of a number that is not negative. -/
def magnitude (x : ℚ) : ℚ := roundEven (x / 2 ^ f.exponent x) * 2 ^ f.exponent x

/-- The nearest number of the format, were its exponents not bounded above. -/
def nearest (x : ℚ) : ℚ := if 0 ≤ x then f.magnitude x else -f.magnitude (-x)

/-- The nearest number of the format; `none` is an overflow. -/
def store (x : ℚ) : Option ℚ := if |f.nearest x| < 2 ^ f.top then some (f.nearest x) else none

theorem nearest_of_nonneg {x : ℚ} (nonneg : 0 ≤ x) : f.nearest x = f.magnitude x := if_pos nonneg

theorem nearest_of_neg {x : ℚ} (negative : x < 0) : f.nearest x = -f.magnitude (-x) :=
  if_neg (not_le.mpr negative)

@[simp] theorem nearest_zero : f.nearest 0 = 0 := by
  have zero : roundEven 0 = 0 := by simpa using roundEven_intCast 0
  simp [nearest, magnitude, zero]

@[simp] theorem nearest_neg (x : ℚ) : f.nearest (-x) = -f.nearest x := by
  rcases lt_trichotomy x 0 with negative | rfl | positive
  · rw [f.nearest_of_nonneg (by linarith), f.nearest_of_neg negative, neg_neg]
  · simp
  · rw [f.nearest_of_neg (by linarith), f.nearest_of_nonneg positive.le, neg_neg]

theorem two_zpow_pos (e : ℤ) : (0 : ℚ) < 2 ^ e := zpow_pos two_pos e

theorem magnitude_nonneg {x : ℚ} (nonneg : 0 ≤ x) : 0 ≤ f.magnitude x := by
  have quotient : (0 : ℚ) ≤ x / 2 ^ f.exponent x := div_nonneg nonneg (two_zpow_pos _).le
  have rounded : 0 ≤ roundEven (x / 2 ^ f.exponent x) := by
    have zero : roundEven 0 = 0 := by simpa using roundEven_intCast 0
    rw [← zero]
    exact roundEven_mono quotient
  exact mul_nonneg (by exact_mod_cast rounded) (two_zpow_pos _).le

/-- A multiple of the last bit that stands at or above a number stays there when it is rounded. -/
theorem magnitude_le_of_multiple {x : ℚ} (n : ℤ) (below : x ≤ n * 2 ^ f.exponent x) :
    f.magnitude x ≤ n * 2 ^ f.exponent x := by
  have quotient : x / 2 ^ f.exponent x ≤ n := by rwa [div_le_iff₀ (two_zpow_pos _)]
  have rounded : roundEven (x / 2 ^ f.exponent x) ≤ n := by
    rw [← roundEven_intCast n]
    exact roundEven_mono quotient
  exact mul_le_mul_of_nonneg_right (by exact_mod_cast rounded) (two_zpow_pos _).le

theorem le_magnitude_of_multiple {x : ℚ} (n : ℤ) (above : n * 2 ^ f.exponent x ≤ x) :
    n * 2 ^ f.exponent x ≤ f.magnitude x := by
  have quotient : (n : ℚ) ≤ x / 2 ^ f.exponent x := by rwa [le_div_iff₀ (two_zpow_pos _)]
  have rounded : n ≤ roundEven (x / 2 ^ f.exponent x) := by
    rw [← roundEven_intCast n]
    exact roundEven_mono quotient
  exact mul_le_mul_of_nonneg_right (by exact_mod_cast rounded) (two_zpow_pos _).le

/-- A power of two is a multiple of every lower one. -/
theorem zpow_eq_multiple {e k : ℤ} (le : e ≤ k) : ∃ n : ℤ, (2 : ℚ) ^ k = n * 2 ^ e := by
  obtain ⟨d, rfl⟩ := Int.exists_add_of_le le
  refine ⟨2 ^ d, ?_⟩
  rw [zpow_add₀ two_ne_zero]
  push_cast
  rw [zpow_natCast, mul_comm]

theorem exponent_mono {x y : ℚ} (positive : 0 < x) (le : x ≤ y) : f.exponent x ≤ f.exponent y := by
  have logs := Int.log_mono_right (b := 2) positive le
  unfold exponent
  omega

/-- Where the exponents differ, a power of two lies between. -/
theorem magnitude_mono {x y : ℚ} (positive : 0 < x) (le : x ≤ y) : f.magnitude x ≤ f.magnitude y := by
  rcases eq_or_lt_of_le (f.exponent_mono positive le) with same | lower
  · unfold magnitude
    rw [← same]
    -- on one grid, rounding is monotone
    have quotient := roundEven_mono (div_le_div_of_nonneg_right le (two_zpow_pos (f.exponent x)).le)
    exact mul_le_mul_of_nonneg_right (by exact_mod_cast quotient) (two_zpow_pos _).le
  · -- the power of two at the bottom of the binade of y is on both grids
    have normal : f.exponent y = Int.log 2 y + 1 - f.precision := by
      have := f.precision_pos
      unfold exponent at lower ⊢
      omega
    have logs : Int.log 2 x < Int.log 2 y := by
      unfold exponent at lower normal
      omega
    have base : ((2 : ℕ) : ℚ) = 2 := by norm_num
    have above : x ≤ 2 ^ Int.log 2 y := by
      have next := Int.lt_zpow_succ_log_self (b := 2) (by norm_num) x
      rw [base] at next
      exact next.le.trans (zpow_le_zpow_right₀ (by norm_num) (by omega))
    have below : (2 : ℚ) ^ Int.log 2 y ≤ y := by
      have := Int.zpow_log_le_self (b := 2) (by norm_num) (lt_of_lt_of_le positive le)
      rwa [base] at this
    have bound := f.precision_pos
    obtain ⟨n, multiple⟩ := zpow_eq_multiple (e := f.exponent x) (k := Int.log 2 y) (by omega)
    obtain ⟨m, multiple'⟩ := zpow_eq_multiple (e := f.exponent y) (k := Int.log 2 y) (by omega)
    calc f.magnitude x ≤ n * 2 ^ f.exponent x := f.magnitude_le_of_multiple n (by rwa [← multiple])
      _ = m * 2 ^ f.exponent y := by rw [← multiple, multiple']
      _ ≤ f.magnitude y := f.le_magnitude_of_multiple m (by rwa [← multiple'])

theorem nearest_mono {x y : ℚ} (le : x ≤ y) : f.nearest x ≤ f.nearest y := by
  rcases lt_trichotomy x 0 with negX | rfl | posX
  · rcases lt_or_ge y 0 with negY | nonnegY
    · rw [f.nearest_of_neg negX, f.nearest_of_neg negY, neg_le_neg_iff]
      exact f.magnitude_mono (by linarith) (by linarith)
    · rw [f.nearest_of_neg negX, f.nearest_of_nonneg nonnegY]
      have := f.magnitude_nonneg (x := -x) (by linarith)
      have := f.magnitude_nonneg nonnegY
      linarith
  · rw [nearest_zero, f.nearest_of_nonneg le]
    exact f.magnitude_nonneg le
  · rw [f.nearest_of_nonneg posX.le, f.nearest_of_nonneg (posX.le.trans le)]
    exact f.magnitude_mono posX le

theorem nearest_nonneg {x : ℚ} (nonneg : 0 ≤ x) : 0 ≤ f.nearest x := by
  rw [f.nearest_of_nonneg nonneg]
  exact f.magnitude_nonneg nonneg

/-- The error is half a last bit: relative to the number, or to the least power of two. -/
theorem abs_nearest_sub_le (x : ℚ) :
    |f.nearest x - x| ≤ |x| / 2 ^ f.precision + 2 ^ f.least / 2 := by
  have positiveCase {x : ℚ} (positive : 0 < x) :
      |f.magnitude x - x| ≤ x / 2 ^ f.precision + 2 ^ f.least / 2 := by
    have scale := two_zpow_pos (f.exponent x)
    have close := abs_roundEven_sub_le (x / 2 ^ f.exponent x)
    -- half a step of the grid the number is on
    have half : |f.magnitude x - x| ≤ 2 ^ f.exponent x / 2 := by
      have apart : f.magnitude x - x =
          ((roundEven (x / 2 ^ f.exponent x) : ℚ) - x / 2 ^ f.exponent x) * 2 ^ f.exponent x := by
        rw [sub_mul, div_mul_cancel₀ _ scale.ne']
        rfl
      rw [apart, abs_mul, abs_of_pos scale]
      linarith [mul_le_mul_of_nonneg_right close scale.le]
    -- a step is at most the number over two to the precision
    have leading : (2 : ℚ) ^ (Int.log 2 x + 1 - f.precision) / 2 ≤ x / 2 ^ f.precision := by
      have below := Int.zpow_log_le_self (b := 2) (by norm_num) positive
      have base : ((2 : ℕ) : ℚ) = 2 := by norm_num
      rw [base] at below
      rw [zpow_sub₀ two_ne_zero, zpow_add₀ two_ne_zero, zpow_one, zpow_natCast, div_right_comm,
        mul_div_assoc, div_self two_ne_zero, mul_one]
      exact div_le_div_of_nonneg_right below (by positivity)
    have least := two_zpow_pos f.least
    have share : 0 ≤ x / 2 ^ f.precision := by positivity
    refine half.trans ?_
    -- the grid ends at the least power of two
    rcases max_choice (Int.log 2 x + 1 - (f.precision : ℤ)) f.least with normal | subnormal
    · rw [exponent, normal]
      linarith
    · rw [exponent, subnormal]
      linarith
  rcases lt_trichotomy x 0 with negative | rfl | positive
  · have close := positiveCase (x := -x) (by linarith)
    rw [f.nearest_of_neg negative, abs_of_neg negative, ← abs_neg]
    rwa [neg_sub', neg_neg]
  · have := two_zpow_pos f.least
    simp
    linarith
  · rw [f.nearest_of_nonneg positive.le, abs_of_pos positive]
    exact positiveCase positive

/-! ### Binades -/

theorem exponent_of_binade {x : ℚ} {e : ℤ} (least : f.least ≤ e)
    (lower : (2 : ℚ) ^ (e + f.precision - 1) ≤ x) (upper : x < 2 ^ (e + f.precision)) :
    f.exponent x = e := by
  have positive : 0 < x := lt_of_lt_of_le (two_zpow_pos _) lower
  have base : ((2 : ℕ) : ℚ) = 2 := by norm_num
  have above : e + f.precision - 1 ≤ Int.log 2 x := by
    rw [← Int.zpow_le_iff_le_log (by norm_num) positive, base]
    exact lower
  have below : Int.log 2 x < e + f.precision := by
    rw [← Int.lt_zpow_iff_log_lt (by norm_num) positive, base]
    exact upper
  unfold exponent
  omega

/-- Halving costs nothing before the least bit is reached. -/
theorem nearest_half {x : ℚ} (normal : (2 : ℚ) ^ (f.least + f.precision) ≤ x) :
    f.nearest (x / 2) = f.nearest x / 2 := by
  have positive : 0 < x := lt_of_lt_of_le (two_zpow_pos _) normal
  have base : ((2 : ℕ) : ℚ) = 2 := by norm_num
  have log : f.least + f.precision ≤ Int.log 2 x := by
    rw [← Int.zpow_le_iff_le_log (by norm_num) positive, base]
    exact normal
  have below := Int.zpow_log_le_self (b := 2) (by norm_num) positive
  have above := Int.lt_zpow_succ_log_self (b := 2) (by norm_num) x
  rw [base] at below above
  have exp : f.exponent x = Int.log 2 x + 1 - f.precision := by
    unfold exponent
    omega
  have halved (k : ℤ) : (2 : ℚ) ^ (k - 1) = 2 ^ k / 2 := by
    rw [zpow_sub₀ two_ne_zero, zpow_one]
  -- the grid is halved with the number, so the quotient is the same
  have expHalf : f.exponent (x / 2) = f.exponent x - 1 := by
    apply f.exponent_of_binade (by omega)
    · rw [show f.exponent x - 1 + f.precision - 1 = Int.log 2 x - 1 by omega, halved]
      linarith
    · rw [show f.exponent x - 1 + f.precision = Int.log 2 x + 1 - 1 by omega, halved]
      linarith
  have scale := two_zpow_pos (f.exponent x)
  have quotient : x / 2 / (2 ^ f.exponent x / 2) = x / 2 ^ f.exponent x := by
    field_simp
  rw [f.nearest_of_nonneg positive.le, f.nearest_of_nonneg (by linarith), magnitude, magnitude,
    expHalf, halved, quotient, mul_div_assoc]

/-- Numbers of the format are left alone. -/
theorem nearest_multiple {n : ℤ} {e : ℤ} (least : f.least ≤ e) (lower : 2 ^ (f.precision - 1) ≤ n)
    (upper : n ≤ 2 ^ f.precision) : f.nearest (n * 2 ^ e) = n * 2 ^ e := by
  have size := f.precision_pos
  -- a significand that fits stays on its own grid
  have below {n : ℤ} {e : ℤ} (least : f.least ≤ e) (lower : 2 ^ (f.precision - 1) ≤ n)
      (upper : n < 2 ^ f.precision) : f.nearest (n * 2 ^ e) = n * 2 ^ e := by
    have scale := two_zpow_pos e
    have lower' : (2 : ℚ) ^ (f.precision - 1) ≤ n := by exact_mod_cast lower
    have upper' : (n : ℚ) < 2 ^ f.precision := by exact_mod_cast upper
    have exp : f.exponent (n * 2 ^ e : ℚ) = e := by
      apply f.exponent_of_binade least
      · rw [show e + (f.precision : ℤ) - 1 = ((f.precision - 1 : ℕ) : ℤ) + e by omega,
          zpow_add₀ two_ne_zero, zpow_natCast]
        exact mul_le_mul_of_nonneg_right lower' scale.le
      · rw [add_comm, zpow_add₀ two_ne_zero, zpow_natCast]
        exact mul_lt_mul_of_pos_right upper' scale
    have positive : (0 : ℚ) < n * 2 ^ e := mul_pos (lt_of_lt_of_le (by positivity) lower') scale
    rw [f.nearest_of_nonneg positive.le, magnitude, exp, mul_div_cancel_right₀ _ scale.ne',
      roundEven_intCast]
  rcases eq_or_lt_of_le upper with rfl | upper
  · -- the first number of the next binade
    have next := below (n := 2 ^ (f.precision - 1)) (e := e + 1) (by omega) le_rfl
      (pow_lt_pow_right₀ (by norm_num) (by omega))
    have same : (((2 ^ f.precision : ℤ) : ℚ)) * 2 ^ e =
        ((2 ^ (f.precision - 1) : ℤ) : ℚ) * 2 ^ (e + 1) := by
      obtain ⟨p, precision⟩ := Nat.exists_eq_succ_of_ne_zero size.ne'
      rw [precision, zpow_add₀ two_ne_zero, pow_succ]
      push_cast
      ring
    rw [same, next]
  · exact below least lower upper

/-! ### Thresholds -/

/-- The first number of a binade, on the grid of the binade. -/
theorem binade_bottom (e : ℤ) :
    (2 : ℚ) ^ (e + f.precision - 1) = 2 ^ (f.precision - 1) * 2 ^ e := by
  have size := f.precision_pos
  rw [show e + (f.precision : ℤ) - 1 = ((f.precision - 1 : ℕ) : ℤ) + e by omega,
    zpow_add₀ two_ne_zero, zpow_natCast]

/-- Within the binade of a number, below the number. -/
theorem exponent_of_lt {n : ℤ} {e : ℤ} (least : f.least ≤ e) (upper : n ≤ 2 ^ f.precision) {x : ℚ}
    (inside : (2 : ℚ) ^ (e + f.precision - 1) ≤ x) (less : x < n * 2 ^ e) : f.exponent x = e := by
  have upper' : (n : ℚ) ≤ 2 ^ f.precision := by exact_mod_cast upper
  apply f.exponent_of_binade least inside
  rw [add_comm, zpow_add₀ two_ne_zero, zpow_natCast]
  exact lt_of_lt_of_le less (mul_le_mul_of_nonneg_right upper' (two_zpow_pos e).le)

/-- What lies below a binade is not rounded beyond its first number. -/
theorem nearest_le_bottom {e : ℤ} (least : f.least ≤ e) {x : ℚ}
    (under : x < 2 ^ (e + f.precision - 1)) : f.nearest x ≤ 2 ^ (f.precision - 1) * 2 ^ e := by
  rw [f.binade_bottom] at under
  have kept := f.nearest_mono under.le
  have first := f.nearest_multiple (n := 2 ^ (f.precision - 1)) least le_rfl
    (pow_le_pow_right₀ (by norm_num) (by omega))
  push_cast at first
  rwa [first] at kept

section Threshold

variable {n : ℤ} {e : ℤ} (least : f.least ≤ e) (lower : 2 ^ (f.precision - 1) < n)
  (upper : n ≤ 2 ^ f.precision)

include least lower upper

/-- A number with an even significand is reached from the middle between it and the one below. -/
theorem le_nearest_iff (even : Even n) (x : ℚ) :
    n * 2 ^ e ≤ f.nearest x ↔ n * 2 ^ e - 2 ^ e / 2 ≤ x := by
  have scale := two_zpow_pos e
  have lower' : (2 : ℚ) ^ (f.precision - 1) + 1 ≤ n := by exact_mod_cast lower
  -- the number below is still in the binade
  have spaced : (2 : ℚ) ^ (f.precision - 1) * 2 ^ e ≤ n * 2 ^ e - 2 ^ e := by
    linarith [mul_le_mul_of_nonneg_right lower' scale.le]
  rcases le_or_gt (n * 2 ^ e : ℚ) x with above | below
  · have kept := f.nearest_mono above
    rw [f.nearest_multiple least lower.le upper] at kept
    exact ⟨fun _ => by linarith, fun _ => kept⟩
  · rcases le_or_gt ((2 : ℚ) ^ (e + f.precision - 1)) x with inside | under
    · -- in the binade of the number the threshold is the one of `roundEven`
      rw [f.nearest_of_nonneg ((two_zpow_pos _).le.trans inside), magnitude,
        f.exponent_of_lt least upper inside below, mul_le_mul_iff_left₀ scale, Int.cast_le,
        le_roundEven_iff even, le_div_iff₀ scale, sub_mul, one_div, inv_mul_eq_div]
    · -- below the binade neither holds
      have kept := f.nearest_le_bottom least under
      rw [f.binade_bottom] at under
      exact ⟨fun _ => by linarith, fun _ => by linarith⟩

/-- There is nothing between a number and the one below. -/
theorem nearest_le_of_lt {x : ℚ} (below : f.nearest x < n * 2 ^ e) :
    f.nearest x ≤ (n - 1) * 2 ^ e := by
  have scale := two_zpow_pos e
  have lower' : (2 : ℚ) ^ (f.precision - 1) + 1 ≤ n := by exact_mod_cast lower
  -- a number that is not below would be rounded to what it reaches
  have less : x < n * 2 ^ e := by
    by_contra reached
    have kept := f.nearest_mono (not_lt.mp reached)
    rw [f.nearest_multiple least lower.le upper] at kept
    linarith
  rcases le_or_gt ((2 : ℚ) ^ (e + f.precision - 1)) x with inside | under
  · -- on the grid of the number, integers differ by one at least
    rw [f.nearest_of_nonneg ((two_zpow_pos _).le.trans inside), magnitude,
      f.exponent_of_lt least upper inside less] at below ⊢
    have rounded : roundEven (x / 2 ^ e) < n := by
      exact_mod_cast lt_of_mul_lt_mul_right below scale.le
    have rounded' : (roundEven (x / 2 ^ e) : ℚ) ≤ n - 1 := by
      have : roundEven (x / 2 ^ e) ≤ n - 1 := by omega
      exact_mod_cast this
    exact mul_le_mul_of_nonneg_right rounded' scale.le
  · -- below the binade its first number bounds what is rounded
    exact (f.nearest_le_bottom least under).trans
      (mul_le_mul_of_nonneg_right (by linarith) scale.le)

end Threshold

/-! ### Storing -/

theorem store_eq_some_iff (x y : ℚ) :
    f.store x = some y ↔ f.nearest x = y ∧ |y| < 2 ^ f.top := by
  unfold store
  split
  next fits =>
    rw [Option.some.injEq]
    constructor
    · rintro rfl
      exact ⟨rfl, fits⟩
    · exact And.left
  next large =>
    constructor
    · intro impossible
      cases impossible
    · rintro ⟨rfl, fits⟩
      exact absurd fits large

theorem store_eq_none_iff (x : ℚ) : f.store x = none ↔ 2 ^ f.top ≤ |f.nearest x| := by
  unfold store
  split <;> simp_all

end Format

end Binary
