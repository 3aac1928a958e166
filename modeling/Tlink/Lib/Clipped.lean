import Mathlib.Algebra.Order.BigOperators.Group.Multiset
import Mathlib.Algebra.Order.Group.Int

/-!
# Sums of clipped differences

A count that must not be negative is often clipped at zero. Clipping every part of a sum instead of the
sum can only make it larger, and it makes no difference exactly when no part makes up for another.
-/
namespace Clipped

def clip (x : ℤ) : ℤ := max 0 x

theorem clip_nonneg (x : ℤ) : 0 ≤ clip x := le_max_left 0 x

theorem le_clip (x : ℤ) : x ≤ clip x := le_max_right 0 x

theorem clip_eq_self_iff (x : ℤ) : clip x = x ↔ 0 ≤ x := max_eq_right_iff

theorem clip_eq_zero_iff (x : ℤ) : clip x = 0 ↔ x ≤ 0 := max_eq_left_iff

theorem sum_le_sum_clip (xs : Multiset ℤ) : xs.sum ≤ (xs.map clip).sum := by
  simpa using Multiset.sum_map_le_sum_map (fun x => x) clip (fun x _ => le_clip x)

theorem sum_clip_nonneg (xs : Multiset ℤ) : 0 ≤ (xs.map clip).sum := by
  apply Multiset.sum_nonneg
  intro x member
  obtain ⟨y, _, rfl⟩ := Multiset.mem_map.mp member
  exact clip_nonneg y

theorem clip_sum_le (xs : Multiset ℤ) : clip xs.sum ≤ (xs.map clip).sum :=
  max_le (sum_clip_nonneg xs) (sum_le_sum_clip xs)

/-- A sum of clipped parts is the plain sum if nothing was clipped. -/
theorem sum_clip_eq_sum_iff (xs : Multiset ℤ) : (xs.map clip).sum = xs.sum ↔ ∀ x ∈ xs, 0 ≤ x := by
  induction xs using Multiset.induction with
  | empty => simp
  | cons x xs ih =>
    have atLeast := sum_le_sum_clip xs
    have first := le_clip x
    rw [Multiset.map_cons, Multiset.sum_cons, Multiset.sum_cons, Multiset.forall_mem_cons, ← ih,
      ← clip_eq_self_iff]
    omega

theorem sum_clip_eq_zero_iff (xs : Multiset ℤ) : (xs.map clip).sum = 0 ↔ ∀ x ∈ xs, x ≤ 0 := by
  induction xs using Multiset.induction with
  | empty => simp
  | cons x xs ih =>
    have rest := sum_clip_nonneg xs
    have first := clip_nonneg x
    rw [Multiset.map_cons, Multiset.sum_cons, Multiset.forall_mem_cons, ← ih, ← clip_eq_zero_iff]
    omega

theorem clip_sum_eq_iff (xs : Multiset ℤ) :
    clip xs.sum = (xs.map clip).sum ↔ (∀ x ∈ xs, 0 ≤ x) ∨ ∀ x ∈ xs, x ≤ 0 := by
  rw [← sum_clip_eq_sum_iff, ← sum_clip_eq_zero_iff, clip]
  have notNegative := sum_clip_nonneg xs
  have atLeast := sum_le_sum_clip xs
  omega

end Clipped
