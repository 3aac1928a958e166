import Mathlib.Algebra.Order.Round
import Mathlib.Algebra.Order.Floor.Ring
import Mathlib.Data.Rat.Floor
import Mathlib.Tactic.Linarith
import Mathlib.Tactic.FieldSimp

/-!
# Rounding to the nearest integer, ties away from zero

Mathlib's `round` sends every tie upwards. Here ties move away from zero, so the
function is odd. Everything the users need follows from two facts: the result is
within one half of its input, and on positive integers `n ≤ roundAway x` is the
threshold test `n - 1/2 ≤ x`.
-/
namespace Rounding

variable {α : Type*} [Field α] [LinearOrder α] [IsStrictOrderedRing α] [FloorRing α]

/-- The nearest integer, with ties away from zero. -/
def roundAway (x : α) : ℤ := if 0 ≤ x then ⌊x + 1 / 2⌋ else -⌊-x + 1 / 2⌋

omit [IsStrictOrderedRing α] in
theorem roundAway_of_nonneg {x : α} (nonneg : 0 ≤ x) : roundAway x = ⌊x + 1 / 2⌋ := by
  simp [roundAway, nonneg]

omit [IsStrictOrderedRing α] in
theorem roundAway_of_neg {x : α} (negative : x < 0) : roundAway x = -⌊-x + 1 / 2⌋ := by
  simp [roundAway, not_le.mpr negative]

@[simp] theorem roundAway_zero : roundAway (0 : α) = 0 := by
  rw [roundAway_of_nonneg le_rfl, Int.floor_eq_iff]
  norm_num

@[simp] theorem roundAway_neg (x : α) : roundAway (-x) = -roundAway x := by
  rcases lt_trichotomy x 0 with negative | rfl | positive
  · rw [roundAway_of_nonneg (by linarith), roundAway_of_neg negative, neg_neg]
  · simp
  · rw [roundAway_of_neg (by linarith), roundAway_of_nonneg positive.le, neg_neg]

/-- The result is at most one half away. -/
theorem abs_roundAway_sub_le (x : α) : |(roundAway x : α) - x| ≤ 1 / 2 := by
  rw [abs_le]
  by_cases nonneg : 0 ≤ x
  · rw [roundAway_of_nonneg nonneg]
    have lower := Int.floor_le (x + 1 / 2)
    have upper := Int.lt_floor_add_one (x + 1 / 2)
    constructor <;> linarith
  · rw [roundAway_of_neg (not_le.mp nonneg)]
    have lower := Int.floor_le (-x + 1 / 2)
    have upper := Int.lt_floor_add_one (-x + 1 / 2)
    push_cast
    constructor <;> linarith

/-- Above zero, rounding is a threshold test. -/
theorem le_roundAway_iff {x : α} {n : ℤ} (positive : 0 < n) :
    n ≤ roundAway x ↔ (n : α) - 1 / 2 ≤ x := by
  have one_le : (1 : α) ≤ n := by exact_mod_cast positive
  constructor
  · intro reached
    have reached' : (n : α) ≤ roundAway x := by exact_mod_cast reached
    have close := (abs_le.mp (abs_roundAway_sub_le x)).2
    linarith
  · intro above
    rw [roundAway_of_nonneg (by linarith), Int.le_floor]
    linarith

theorem one_le_roundAway_iff {x : α} : 1 ≤ roundAway x ↔ 1 / 2 ≤ x := by
  rw [le_roundAway_iff one_pos]
  norm_num

theorem roundAway_nonneg {x : α} (nonneg : 0 ≤ x) : 0 ≤ roundAway x := by
  rw [roundAway_of_nonneg nonneg]
  exact Int.floor_nonneg.mpr (by linarith)

/-- Exactly the inputs closer than one half to zero vanish. -/
theorem roundAway_eq_zero_iff {x : α} : roundAway x = 0 ↔ |x| < 1 / 2 := by
  have upper : 1 ≤ roundAway x ↔ 1 / 2 ≤ x := one_le_roundAway_iff
  have lower : 1 ≤ roundAway (-x) ↔ 1 / 2 ≤ -x := one_le_roundAway_iff
  rw [roundAway_neg] at lower
  rw [abs_lt]
  constructor
  · intro zero
    -- `x` and `-x` both fail the threshold test for 1
    have notUpper : ¬ 1 / 2 ≤ x := fun h => by have := upper.mpr h; omega
    have notLower : ¬ 1 / 2 ≤ -x := fun h => by have := lower.mpr h; omega
    constructor <;> linarith
  · rintro ⟨above, below⟩
    have notUpper : ¬ 1 ≤ roundAway x := fun h => by have := upper.mp h; linarith
    have notLower : ¬ 1 ≤ -roundAway x := fun h => by have := lower.mp h; linarith
    omega

/-- Dividing by three or more moves every result that is not zero. -/
theorem roundAway_div_eq_iff {x k : α} (three_le : 3 ≤ k) :
    roundAway (x / k) = roundAway x ↔ |x| < 1 / 2 := by
  have positive : 0 < k := by linarith
  have shrink : |x / k| ≤ |x| := by
    rw [abs_div, abs_of_pos positive]
    exact div_le_self (abs_nonneg x) (by linarith)
  constructor
  · intro same
    by_contra far
    have close := abs_roundAway_sub_le x
    have close' := abs_roundAway_sub_le (x / k)
    rw [same] at close'
    -- the integer `r` is within one half of both `x` and `x / k`, and at least 1 in size
    have nonzero : roundAway x ≠ 0 := fun zero => far (roundAway_eq_zero_iff.mp zero)
    have size : (1 : α) ≤ |(roundAway x : α)| := by
      exact_mod_cast Int.one_le_abs nonzero
    have scaled : |x / k| * k = |x| := by
      rw [abs_div, abs_of_pos positive, div_mul_cancel₀ _ positive.ne']
    have below : |(roundAway x : α)| - 1 / 2 ≤ |x / k| := by
      have := abs_sub_abs_le_abs_sub (roundAway x : α) (x / k)
      linarith
    have above : |x| ≤ |(roundAway x : α)| + 1 / 2 := by
      have := abs_sub_abs_le_abs_sub x (roundAway x : α)
      rw [abs_sub_comm] at this
      linarith
    -- with `k = 3` the two bounds only meet at `x = 3/2`, which rounds to 2
    have grow : |x / k| * 3 ≤ |x| := by
      rw [← scaled]
      exact mul_le_mul_of_nonneg_left three_le (abs_nonneg _)
    have one : |(roundAway x : α)| = 1 := by linarith
    have x_eq : |x| = 3 / 2 := by linarith
    rcases abs_choice x with same | flipped
    · have two : (2 : ℤ) ≤ roundAway x := by
        rw [le_roundAway_iff (by norm_num)]
        norm_num
        linarith
      have two' : (2 : α) ≤ roundAway x := by exact_mod_cast two
      linarith [le_abs_self (roundAway x : α)]
    · have two : (2 : ℤ) ≤ roundAway (-x) := by
        rw [le_roundAway_iff (by norm_num)]
        norm_num
        linarith
      rw [roundAway_neg] at two
      have two' : (2 : α) ≤ -roundAway x := by exact_mod_cast two
      linarith [neg_le_abs (roundAway x : α)]
  · intro near
    rw [roundAway_eq_zero_iff.mpr near, roundAway_eq_zero_iff.mpr (lt_of_le_of_lt shrink near)]

end Rounding
