import Mathlib.Data.List.Basic
import Mathlib.Data.Nat.Notation

/-!
# Parties that come to rest

Several parties act on one state, in an order nobody controls, but over and over again: a round is a
stretch of the schedule in which every party acts at least once. If an act either leaves the state as it
is or makes some measure smaller, then after as many rounds as the measure allows nobody has anything
left to do.
-/
namespace Rounds

variable {ι σ : Type*} (act : ι → σ → σ)

def run (s : σ) (schedule : List ι) : σ := schedule.foldl (fun s i => act i s) s

/-- The schedule has at least `n` rounds. -/
inductive Fair : ℕ → List ι → Prop
  | start (schedule : List ι) : Fair 0 schedule
  | round {n : ℕ} (stretch later : List ι) : (∀ i, i ∈ stretch) → Fair n later →
      Fair (n + 1) (stretch ++ later)

/-- Nobody has anything to do. -/
def AtRest (s : σ) : Prop := ∀ i, act i s = s

variable {act} {Inv : σ → Prop}

theorem run_append (s : σ) (schedule later : List ι) :
    run act s (schedule ++ later) = run act (run act s schedule) later :=
  List.foldl_append

theorem run_invariant (kept : ∀ i s, Inv s → Inv (act i s)) (s : σ) (schedule : List ι)
    (holds : Inv s) : Inv (run act s schedule) := by
  induction schedule generalizing s with
  | nil => exact holds
  | cons i schedule ih => exact ih (act i s) (kept i s holds)

theorem AtRest.run {s : σ} (rest : AtRest act s) (schedule : List ι) : run act s schedule = s := by
  induction schedule with
  | nil => rfl
  | cons i schedule ih =>
    change Rounds.run act (act i s) schedule = s
    rw [rest i]
    exact ih

variable {measure : σ → ℕ}

theorem run_measure_le (kept : ∀ i s, Inv s → Inv (act i s))
    (moves : ∀ i s, Inv s → act i s = s ∨ measure (act i s) < measure s) (s : σ) (schedule : List ι)
    (holds : Inv s) : measure (run act s schedule) ≤ measure s := by
  induction schedule generalizing s with
  | nil => exact Nat.le_refl _
  | cons i schedule ih =>
    have later := ih (act i s) (kept i s holds)
    rcases moves i s holds with same | less
    · rw [same] at later
      change measure (run act (act i s) schedule) ≤ _
      rwa [same]
    · exact Nat.le_trans later (Nat.le_of_lt less)

/-- A stretch that brings nothing forward leaves everybody in it where he was. -/
theorem stretch_still (kept : ∀ i s, Inv s → Inv (act i s))
    (moves : ∀ i s, Inv s → act i s = s ∨ measure (act i s) < measure s) (s : σ) (stretch : List ι)
    (holds : Inv s) (still : ¬ measure (run act s stretch) < measure s) :
    ∀ i ∈ stretch, act i s = s := by
  induction stretch with
  | nil => simp
  | cons j stretch ih =>
    rcases moves j s holds with same | less
    · have onward : run act s (j :: stretch) = run act s stretch := by
        change run act (act j s) stretch = _
        rw [same]
      rw [onward] at still
      intro i member
      rcases List.mem_cons.mp member with rfl | later
      · exact same
      · exact ih still i later
    · have below := run_measure_le kept moves (act j s) stretch (kept j s holds)
      exact absurd (Nat.lt_of_le_of_lt below less) still

theorem atRest_of_fair (kept : ∀ i s, Inv s → Inv (act i s))
    (moves : ∀ i s, Inv s → act i s = s ∨ measure (act i s) < measure s) {n : ℕ} {schedule : List ι}
    (fair : Fair n schedule) (s : σ) (holds : Inv s) (enough : measure s ≤ n) :
    AtRest act (run act s schedule) := by
  induction fair generalizing s with
  | start schedule =>
    have rest : AtRest act s := by
      intro i
      rcases moves i s holds with same | less
      · exact same
      · omega
    rwa [rest.run]
  | round stretch later everyone fair ih =>
    rw [run_append]
    by_cases forward : measure (run act s stretch) < measure s
    · exact ih _ (run_invariant kept s stretch holds) (by omega)
    · have rest : AtRest act s := fun i => stretch_still kept moves s stretch holds forward i (everyone i)
      rw [rest.run, rest.run]
      exact rest

end Rounds
