import Mathlib.Data.List.Induction
import Tlink.Properties.Ticks

/-!
# How long a profile stays in force

A run of the scheduler is a sequence of periods, one for each selected profile. The counter
is compared before it is reset and incremented after that, so it numbers the ticks of a period
from 1, and the period is over when it has reached the duration. The class changes belong to
the first tick of a period.
-/
namespace Tlink.Properties

open Tlink.Runtime

variable (a : Arithmetic)

/-- The state every tick leaves and the commands it issues. -/
def tickTrace (qos : Bool) (t : TrunksConfig) (draws : List ℕ) :
    Except Panic (List (TrunksConfig × List Command)) :=
  PartialRun.trace (fun t draw => runACM a t qos draw) t draws

/-- The length of a period: the duration, but never less than the tick that selects. -/
def stay (acm : ACM) : ℕ := (max 1 acm.duration.toInt).toNat

/-- What one tick of a period leaves and issues; the ticks are numbered from 0. -/
def periodTick (t : TrunksConfig) (qos : Bool) (acm : ACM) (i : ℕ) : TrunksConfig × List Command :=
  ({ t with currentACM := some acm, acmCounter := Int64.ofNat (i + 1) },
    if i = 0 then changeCapacity a t qos acm.weight else [])

/-- The first ticks of a period. -/
def period (t : TrunksConfig) (qos : Bool) (acm : ACM) (k : ℕ) :
    List (TrunksConfig × List Command) :=
  (List.range k).map (periodTick a t qos acm)

theorem period_succ (t : TrunksConfig) (qos : Bool) (acm : ACM) (k : ℕ) :
    period a t qos acm (k + 1) = period a t qos acm k ++ [periodTick a t qos acm k] := by
  simp [period, List.range_succ]

/-! ### One tick of a period -/

theorem one_le_stay (acm : ACM) : 1 ≤ stay acm := by
  unfold stay
  omega

/-- Within a period a the counter is far from its bound. -/
theorem counter_toInt (acm : ACM) (i : ℕ) (within : i < stay acm) :
    (Int64.ofNat (i + 1)).toInt = i + 1 := by
  have upper := Int64.toInt_lt acm.duration
  have below : i + 1 < 2 ^ 63 := by
    unfold stay at within
    omega
  rw [Int64.toInt_ofNat_of_lt below]
  rfl

/-- The period ends with the tick that fills it. -/
theorem dwellOver_periodTick (t : TrunksConfig) (qos : Bool) (acm : ACM) (i : ℕ)
    (within : i < stay acm) :
    dwellOver (periodTick a t qos acm i).1 = true ↔ i + 1 = stay acm := by
  have counter := counter_toInt acm i within
  unfold stay at within ⊢
  simp only [dwellOver, periodTick, decide_eq_true_eq, Int64.le_iff_toInt_le, counter]
  omega

theorem runACM_stands (t : TrunksConfig) (qos : Bool) (acm : ACM) (i draw : ℕ)
    (within : i + 1 < stay acm) :
    runACM a (periodTick a t qos acm i).1 qos draw = .ok (periodTick a t qos acm (i + 1)) := by
  have stands : dwellOver (periodTick a t qos acm i).1 = false := by
    by_contra ended
    have full := (dwellOver_periodTick a t qos acm i (by omega)).mp (by simpa using ended)
    omega
  rw [runACM_dwell a _ qos draw stands]
  simp [periodTick]

/-- Whatever was in force before, a tick that selects opens a new period. -/
theorem runACM_selects (t : TrunksConfig) (qos : Bool) (draw : ℕ) (nonempty : t.acmList ≠ [])
    (present : none ∉ t.acmList) (current : Option ACM) (counter : Int64)
    (ended : dwellOver { t with currentACM := current, acmCounter := counter } = true) :
    ∃ acm, some acm ∈ t.acmList ∧
      runACM a { t with currentACM := current, acmCounter := counter } qos draw =
        .ok (periodTick a t qos acm 0) := by
  obtain ⟨s, cmds, tick, _⟩ :=
    runACM_progress a { t with currentACM := current, acmCounter := counter } qos draw nonempty present
  rcases runACM_cases a _ s qos draw cmds tick with ⟨stands, _, _⟩ | ⟨_, acm, member, rfl, rfl⟩
  · rw [ended] at stands
    cases stands
  · exact ⟨acm, member, tick⟩

/-! ### Whole runs -/

/-- The steps of a run, cut into full periods and the one that is under way. -/
structure Periods (t : TrunksConfig) (qos : Bool) (profiles : List ACM) (last : ACM) (k : ℕ)
    (steps : List (TrunksConfig × List Command)) : Prop where
  known : ∀ acm ∈ profiles ++ [last], some acm ∈ t.acmList
  begun : 1 ≤ k
  within : k ≤ stay last
  steps_eq : steps =
    profiles.flatMap (fun acm => period a t qos acm (stay acm)) ++ period a t qos last k

variable {a} {t : TrunksConfig} {qos : Bool} {profiles : List ACM} {last : ACM} {k : ℕ}
  {steps : List (TrunksConfig × List Command)}

theorem Periods.final (periods : Periods a t qos profiles last k steps) (s : TrunksConfig) :
    PartialRun.final s steps = (periodTick a t qos last (k - 1)).1 := by
  obtain ⟨j, rfl⟩ := Nat.exists_eq_add_of_le' periods.begun
  rw [periods.steps_eq, period_succ, ← List.append_assoc, PartialRun.final_concat]
  rfl

/-- Another tick belongs to the period under way, or it opens the next one. -/
theorem Periods.tick (periods : Periods a t qos profiles last k steps) (nonempty : t.acmList ≠ [])
    (present : none ∉ t.acmList) (s : TrunksConfig) (draw : ℕ) :
    ∃ profiles' last' k' step, runACM a (PartialRun.final s steps) qos draw = .ok step ∧
      Periods a t qos profiles' last' k' (steps ++ [step]) := by
  obtain ⟨j, rfl⟩ := Nat.exists_eq_add_of_le' periods.begun
  have within := periods.within
  rw [periods.final s]
  by_cases room : j + 1 < stay last
  · refine ⟨profiles, last, j + 1 + 1, _, runACM_stands a t qos last j draw room, ?_⟩
    refine ⟨periods.known, by omega, by omega, ?_⟩
    rw [period_succ a t qos last (j + 1), ← List.append_assoc, ← periods.steps_eq]
  · have full : j + 1 = stay last := by omega
    have ended := (dwellOver_periodTick a t qos last j (by omega)).mpr full
    obtain ⟨acm, member, tick⟩ :=
      runACM_selects a t qos draw nonempty present (some last) (Int64.ofNat (j + 1)) ended
    refine ⟨profiles ++ [last], acm, 1, _, tick, ?_, le_rfl, one_le_stay acm, ?_⟩
    · intro other other_member
      rcases List.mem_append.mp other_member with earlier | new
      · exact periods.known other earlier
      · rw [List.mem_singleton.mp new]
        exact member
    · rw [periods.steps_eq, full]
      simp [period]

theorem trace_periods (a : Arithmetic) (t : TrunksConfig) (qos : Bool) (draws : List ℕ)
    (nonempty : t.acmList ≠ [])
    (present : none ∉ t.acmList) (idle : t.currentACM = none) (started : draws ≠ []) :
    ∃ profiles last k steps, tickTrace a qos t draws = .ok steps ∧
      Periods a t qos profiles last k steps := by
  -- induction on the number of ticks, the last one taken off
  induction draws using List.reverseRecOn with
  | nil => exact absurd rfl started
  | append_singleton draws draw ih =>
    by_cases first : draws = []
    · subst first
      have ended : dwellOver t = true := by simp [dwellOver, idle]
      obtain ⟨acm, member, tick⟩ :=
        runACM_selects a t qos draw nonempty present t.currentACM t.acmCounter ended
      refine ⟨[], acm, 1, _, PartialRun.trace_concat _ t [] draw [] _ rfl tick, ?_⟩
      exact ⟨by simpa using member, le_rfl, one_le_stay acm, rfl⟩
    · obtain ⟨profiles, last, k, steps, traced, periods⟩ := ih first
      obtain ⟨profiles', last', k', step, tick, periods'⟩ := periods.tick nonempty present t draw
      exact ⟨profiles', last', k', _, PartialRun.trace_concat _ t draws draw steps step traced tick,
        periods'⟩

/-- Every step of a run is a numbered tick of some period, and the counter is that number. -/
theorem Periods.numbered (periods : Periods a t qos profiles last k steps)
    (step : TrunksConfig × List Command) (member : step ∈ steps) :
    ∃ acm i, some acm ∈ t.acmList ∧ i < stay acm ∧ step = periodTick a t qos acm i := by
  have counted (acm : ACM) (n : ℕ) (known : some acm ∈ t.acmList) (within : n ≤ stay acm)
      (inside : step ∈ period a t qos acm n) :
      ∃ acm i, some acm ∈ t.acmList ∧ i < stay acm ∧ step = periodTick a t qos acm i := by
    obtain ⟨i, below, rfl⟩ := List.mem_map.mp inside
    exact ⟨acm, i, known, (List.mem_range.mp below).trans_le within, rfl⟩
  rw [periods.steps_eq] at member
  rcases List.mem_append.mp member with earlier | current
  · obtain ⟨acm, selected, inside⟩ := List.mem_flatMap.mp earlier
    exact counted acm (stay acm) (periods.known acm (List.mem_append_left _ selected)) le_rfl inside
  · exact counted last k (periods.known last (by simp)) periods.within current

/-- Both devices are changed, and nothing else is done. -/
theorem changeCapacity_commands (a : Arithmetic) (t : TrunksConfig) (qos : Bool) (weight : ℚ) :
    (changeCapacity a t qos weight).map (fun c => (c.tool, c.args.take 2, c.device)) =
      [(.tc, ["class", "change"], some t.nic.gw), (.tc, ["class", "change"], some t.nic.st)] := by
  cases qos <;> rfl

/-- From a start without a profile every run is a sequence of full periods and one that is under
way: the counter stays between one and the duration, and the classes of both devices are changed
by the first tick of each period and by no other. -/
theorem dwell_time (a : Arithmetic) (t : TrunksConfig) (qos : Bool) (draws : List ℕ)
    (nonempty : t.acmList ≠ [])
    (present : none ∉ t.acmList) (idle : t.currentACM = none) (started : draws ≠ []) :
    ∃ profiles last k steps, tickTrace a qos t draws = .ok steps ∧ steps.length = draws.length ∧
      ticks a qos t draws = .ok (PartialRun.final t steps, steps.flatMap Prod.snd) ∧
      Periods a t qos profiles last k steps ∧
      (∀ step ∈ steps, ∃ acm i, some acm ∈ t.acmList ∧ step = periodTick a t qos acm i ∧
        step.1.currentACM = some acm ∧ step.1.acmCounter.toInt = i + 1 ∧
        1 ≤ step.1.acmCounter.toInt ∧ step.1.acmCounter.toInt ≤ max 1 acm.duration.toInt) ∧
      ∀ weight, (changeCapacity a t qos weight).map (fun c => (c.tool, c.args.take 2, c.device)) =
        [(.tc, ["class", "change"], some t.nic.gw), (.tc, ["class", "change"], some t.nic.st)] := by
  obtain ⟨profiles, last, k, steps, traced, periods⟩ :=
    trace_periods a t qos draws nonempty present idle started
  refine ⟨profiles, last, k, steps, traced, PartialRun.length_trace _ t draws steps traced,
    PartialRun.run_of_trace _ t draws steps traced, periods, ?_, changeCapacity_commands a t qos⟩
  intro step member
  obtain ⟨acm, i, known, within, rfl⟩ := periods.numbered step member
  have counter := counter_toInt acm i within
  have bound : (i : ℤ) + 1 ≤ max 1 acm.duration.toInt := by
    unfold stay at within
    omega
  refine ⟨acm, i, known, rfl, rfl, counter, ?_, counter.trans_le bound⟩
  exact le_of_le_of_eq (by omega) counter.symm

/-- Two profiles, of which the second has a duration of zero. -/
def sampleProfiles : TrunksConfig := { sampleConfig with acmList := [some ⟨1, 2⟩, some ⟨0.5, 0⟩] }

theorem dwell_time_sample :
    ∃ profiles last k steps, tickTrace .float64 false sampleProfiles [0, 5, 1, 0] = .ok steps ∧
      Periods .float64 sampleProfiles false profiles last k steps := by
  obtain ⟨profiles, last, k, steps, traced, _, _, periods, _⟩ :=
    dwell_time .float64 sampleProfiles false [0, 5, 1, 0] (by decide) (by decide) rfl (by decide)
  exact ⟨profiles, last, k, steps, traced, periods⟩

end Tlink.Properties
