import Mathlib.Data.List.Basic
import Mathlib.Data.Nat.ModEq
import Mathlib.Logic.Function.Basic

/-!
# A ring between one writer and one reader

The writer fills the slot after its index and then moves the index, the reader moves its index and
then uses the slot. Counting from the beginning, the message with number `i` goes to slot `i + 1`, all
taken round the ring. One slot stays out of use, the one the reader was given last.
-/
namespace Ring

variable {α : Type*}

/-- The index after this one, round the ring. -/
def next (size i : ℕ) : ℕ := if i + 1 = size then 0 else i + 1

theorem next_lt (size i : ℕ) (inside : i < size) : next size i < size := by
  unfold next
  split
  · omega
  · omega

theorem next_mod (size n : ℕ) (positive : 0 < size) : next size (n % size) = (n + 1) % size := by
  have inside := Nat.mod_lt n positive
  have onward : (n + 1) % size = (n % size + 1) % size := (Nat.mod_add_mod n size 1).symm
  rw [next, onward]
  by_cases last : n % size + 1 = size
  · rw [if_pos last, last, Nat.mod_self]
  · have small : n % size + 1 < size := by omega
    rw [if_neg last, Nat.mod_eq_of_lt small]

/-- Counts less than a round apart do not meet. -/
theorem mod_ne (size a c : ℕ) (before : a < c) (within : c < a + size) : a % size ≠ c % size := by
  intro met
  have apart : size ∣ c - a := (Nat.modEq_iff_dvd' before.le).mp met
  have round := Nat.le_of_dvd (by omega) apart
  omega

/-- Less than a round lies between the two counts, and the slots in between hold what was sent, the
slot that was given out last included. -/
structure Layout (size : ℕ) (data : ℕ → α) (sent : List α) (taken : ℕ) : Prop where
  taken_le : taken ≤ sent.length
  room : sent.length < taken + size
  slots : ∀ i m, taken ≤ i + 1 → sent[i]? = some m → data ((i + 1) % size) = m

namespace Layout

variable {size taken : ℕ} {data : ℕ → α} {sent : List α}

theorem start (size : ℕ) (data : ℕ → α) (positive : 0 < size) : Layout size data [] 0 := by
  refine ⟨Nat.le_refl 0, by simpa using positive, ?_⟩
  intro i m _ found
  simp at found

theorem positive (layout : Layout size data sent taken) : 0 < size := by
  have bound := layout.taken_le
  have room := layout.room
  omega

/-- The indices meet where nothing is left. -/
theorem empty_iff (layout : Layout size data sent taken) :
    sent.length % size = taken % size ↔ sent.length = taken := by
  constructor
  · intro met
    by_contra left
    have bound := layout.taken_le
    exact mod_ne size taken sent.length (by omega) layout.room met.symm
  · rintro same
    rw [same]

/-- The writer is about to meet the reader where all slots but one are in use. -/
theorem full_iff (layout : Layout size data sent taken) :
    next size (sent.length % size) = taken % size ↔ sent.length + 1 = taken + size := by
  have bound := layout.taken_le
  have room := layout.room
  rw [next_mod size _ layout.positive]
  constructor
  · intro met
    by_contra free
    exact mod_ne size taken (sent.length + 1) (by omega) (by omega) met.symm
  · rintro full
    rw [full, Nat.add_mod_right]

/-- Writing the next slot spares the others, also the one that was given out. -/
theorem write (layout : Layout size data sent taken) (free : sent.length + 1 < taken + size) (m : α) :
    Layout size (Function.update data ((sent.length + 1) % size) m) sent taken := by
  refine ⟨layout.taken_le, layout.room, ?_⟩
  intro i m' later found
  obtain ⟨bound, _⟩ := List.getElem?_eq_some_iff.mp found
  have other : (i + 1) % size ≠ (sent.length + 1) % size :=
    mod_ne size (i + 1) (sent.length + 1) (by omega) (by omega)
  rw [Function.update_of_ne other]
  exact layout.slots i m' later found

theorem publish (layout : Layout size data sent taken) (free : sent.length + 1 < taken + size) (m : α)
    (written : data ((sent.length + 1) % size) = m) : Layout size data (sent ++ [m]) taken := by
  have bound := layout.taken_le
  refine ⟨by simp; omega, by simpa using free, ?_⟩
  intro i m' later found
  rcases Nat.lt_trichotomy i sent.length with old | rfl | beyond
  · rw [List.getElem?_append_left old] at found
    exact layout.slots i m' later found
  · obtain rfl : m = m' := by simpa using found
    exact written
  · rw [List.getElem?_eq_none (by simp; omega)] at found
    cases found

theorem take (layout : Layout size data sent taken) (left : taken < sent.length) :
    Layout size data sent (taken + 1) := by
  have room := layout.room
  refine ⟨left, by omega, ?_⟩
  intro i m later found
  exact layout.slots i m (by omega) found

/-- The slot that was given out last still holds its message. -/
theorem given (layout : Layout size data sent (taken + 1)) :
    sent[taken]? = some (data ((taken + 1) % size)) := by
  have bound := layout.taken_le
  have found := List.getElem?_eq_getElem (l := sent) (i := taken) (by omega)
  rw [layout.slots taken _ (Nat.le_refl _) found]
  exact found

end Layout

end Ring
