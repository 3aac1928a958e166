import Tlink.Net.Reference
import Tlink.Net.Setup
import Tlink.Properties.QosLink
import Tlink.Properties.Ticks

/-!
# The rates of the scheduler and those of the setup

The setup rounds a bandwidth to whole kbit/s and a profile scales it first. The scheduler
writes the same numbers with the unit `mbit`, and it does not keep them positive.
-/
namespace Tlink.Properties

open Rounding Numeral Tlink.Runtime Tlink.Net

/-! ### The commands that set rates -/

/-- The class that carries the scaled rate. -/
def scaledClass (qos : Bool) : String := if qos then "1:20" else "1:1"

/-- What is left of a number to that class. -/
def leftOf (a : Arithmetic) (qos : Bool) (n : ℤ) : ℤ := if qos then a.pred n else n

/-- What the setup gives that class, in kbit/s. -/
def installedKbit (a : Arithmetic) (qos : Bool) (bandwidth : ℚ) : ℤ :=
  leftOf a qos (linkKbit a bandwidth)

/-- What a profile asks for, in Mbit/s. -/
def scaledMbit (a : Arithmetic) (qos : Bool) (bandwidth weight : ℚ) : ℤ :=
  leftOf a qos (a.int64Round (a.mul (some bandwidth) (some weight)))

theorem rates_changeCapacity (a : Arithmetic) (t : TrunksConfig) (qos : Bool) (weight : ℚ) :
    (changeCapacity a t qos weight).filterMap classRateOf =
      [⟨t.nic.gw, scaledClass qos, print (scaledMbit a qos t.bandwidth.retun weight) "mbit"⟩,
        ⟨t.nic.st, scaledClass qos,
          print (scaledMbit a qos t.bandwidth.forward weight) "mbit"⟩] := by
  cases qos <;> rfl

/-- The rates one block of the setup installs. -/
def installedRates (a : Arithmetic) (qos : Bool) (dev : String) (link : ℚ) : List ClassRate :=
  if qos then
    [⟨dev, "1:1", print (linkKbit a link) "kbit"⟩, ⟨dev, "1:10", print 2 "kbit"⟩,
      ⟨dev, "1:20", print (restKbit a link) "kbit"⟩]
  else [⟨dev, "1:1", print (linkKbit a link) "kbit"⟩]

theorem rates_run (a : Arithmetic) (t : TrunksConfig) (uname : Except Error String) :
    (run a t uname).filterMap classRateOf =
      installedRates a t.qos t.nic.gw t.bandwidth.retun ++
        installedRates a t.qos t.nic.st t.bandwidth.forward := by
  rw [filterMap_run classRateOf (fun _ => ⟨rfl, rfl⟩)]
  unfold blockGW blockST installedRates
  split <;> rfl

/-! ### Positive rates -/

/-- At least one unit. -/
def Positive (rate : String) : Prop := ∃ r ∈ read rate, 1 ≤ r.1

instance (rate : String) : Decidable (Positive rate) :=
  inferInstanceAs (Decidable (∃ r ∈ read rate, 1 ≤ r.1))

theorem positive_print_iff (n : ℤ) (unit : String) (isUnit : IsUnit unit) :
    Positive (print n unit) ↔ 1 ≤ n := by
  simp [Positive, read_print n unit isUnit]

/-- The least bandwidth that leaves a unit. -/
def least (qos : Bool) : ℚ := if qos then 3 / 2 else 1 / 2

/-- The least product of a bandwidth and a weight that does: what lies no more than half a last bit
below the least bandwidth is rounded to it. -/
def leastScaled (qos : Bool) : ℚ := if qos then 3 / 2 - 1 / 2 ^ 53 else 1 / 2 - 1 / 2 ^ 55

theorem installedRates_positive_iff (qos : Bool) (dev : String) (link : ℚ)
    (has : Arithmetic.float64.Has link) :
    (∀ r ∈ installedRates .float64 qos dev link, Positive r.rate) ↔
      least qos ≤ link ∧ link < 2 ^ 63 := by
  have kbit : IsUnit "kbit" := by decide
  -- no number of the format is between 2^63 - 1/2 and 2^63
  have top : link < 2 ^ 63 - 1 / 2 ↔ link < 2 ^ 63 := by
    constructor
    · intro below
      linarith
    · intro below
      have := Arithmetic.Has.lt_top has below
      norm_num at this ⊢
      linarith
  cases qos with
  | false =>
    have threshold := Arithmetic.le_int64Round_iff one_pos link
    rw [top, show ((1 : ℤ) : ℚ) - 1 / 2 = 1 / 2 by norm_num] at threshold
    simp only [installedRates, Bool.false_eq_true, if_false, List.forall_mem_singleton,
      positive_print_iff _ _ kbit, least]
    exact threshold
  | true =>
    have threshold := Arithmetic.le_int64Round_iff two_pos link
    rw [top, show ((2 : ℤ) : ℚ) - 1 / 2 = 3 / 2 by norm_num] at threshold
    -- what is left of the link is one less, so the link has to be two
    have both : 1 ≤ linkKbit .float64 link ∧ 1 ≤ restKbit .float64 link ↔
        2 ≤ Arithmetic.float64.int64Round (some link) := by
      constructor
      · rintro ⟨whole, rest⟩
        rw [restKbit, linkKbit, Arithmetic.pred_of_pos _ _ (by unfold linkKbit at whole; omega)]
          at rest
        omega
      · intro whole
        rw [restKbit, linkKbit, Arithmetic.pred_of_pos _ _ (by omega)]
        omega
    simp only [installedRates, if_true, List.forall_mem_cons, positive_print_iff _ _ kbit, least]
    rw [← threshold, ← both]
    simp

/-- A product that is not beyond `int64`, which a weight of at most one cannot bring about. -/
theorem one_le_scaledMbit_iff (qos : Bool) (bandwidth weight : ℚ)
    (nonneg : 0 ≤ bandwidth * weight) (top : bandwidth * weight < 2 ^ 63 - 2 ^ 9) :
    1 ≤ scaledMbit .float64 qos bandwidth weight ↔ leastScaled qos ≤ bandwidth * weight := by
  have one := Arithmetic.one_le_int64Round_keep_iff (bandwidth * weight)
  have two := Arithmetic.two_le_int64Round_keep_iff (bandwidth * weight)
  rw [and_iff_left top] at one two
  cases qos with
  | false =>
    simp only [leastScaled, Bool.false_eq_true, if_false]
    exact one
  | true =>
    simp only [leastScaled, if_true, scaledMbit, leftOf, Arithmetic.mul_some]
    rw [← two]
    have kept : 0 ≤ Arithmetic.float64.int64Round (Arithmetic.float64.keep (bandwidth * weight)) := by
      by_contra negative
      have less := not_le.mp (mt one.mpr (by omega))
      have zero := (Arithmetic.int64Round_keep_eq_zero_iff (bandwidth * weight)).mpr
        (by rwa [abs_of_nonneg nonneg])
      omega
    have range := Arithmetic.int64Round_range (Arithmetic.float64.keep (bandwidth * weight))
    rw [Arithmetic.pred_of_fits _ (by omega) range.2]
    omega

/-- Five times 0.3 is less than 3/2, and rounded to it. -/
example : scaledMbit .float64 true 5 (decimal 0.3) = 1 ∧ scaledMbit .exact true 5 (decimal 0.3) = 0 := by
  decide +kernel

theorem changeCapacity_positive_iff (t : TrunksConfig) (qos : Bool) (weight : ℚ)
    (weight_pos : 0 < weight) (weight_le : weight ≤ 1)
    (retun : 0 ≤ t.bandwidth.retun ∧ t.bandwidth.retun < 2 ^ 63 - 2 ^ 9)
    (forward : 0 ≤ t.bandwidth.forward ∧ t.bandwidth.forward < 2 ^ 63 - 2 ^ 9) :
    (∀ r ∈ (changeCapacity .float64 t qos weight).filterMap classRateOf, Positive r.rate) ↔
      leastScaled qos ≤ t.bandwidth.forward * weight ∧
        leastScaled qos ≤ t.bandwidth.retun * weight := by
  have mbit : IsUnit "mbit" := by decide
  have scaled {bandwidth : ℚ} (range : 0 ≤ bandwidth ∧ bandwidth < 2 ^ 63 - 2 ^ 9) :
      1 ≤ scaledMbit .float64 qos bandwidth weight ↔ leastScaled qos ≤ bandwidth * weight := by
    apply one_le_scaledMbit_iff qos bandwidth weight (mul_nonneg range.1 weight_pos.le)
    exact lt_of_le_of_lt (mul_le_of_le_one_right range.1 weight_le) range.2
  rw [rates_changeCapacity]
  simp [positive_print_iff _ _ mbit, scaled retun, scaled forward, and_comm]

/-- Every rate is positive in every run exactly where no bandwidth is beyond `int64` and nothing
falls below the threshold. -/
theorem rates_positive_iff (t : TrunksConfig) (uname : Except Error String)
    (hasForward : Arithmetic.float64.Has t.bandwidth.forward)
    (hasReturn : Arithmetic.float64.Has t.bandwidth.retun)
    (weights : ∀ acm, some acm ∈ t.acmList → 0 < acm.weight ∧ acm.weight ≤ 1) :
    ((∀ r ∈ (run .float64 t uname).filterMap classRateOf, Positive r.rate) ∧
      ∀ draws t' cmds, ticks .float64 t.qos t draws = .ok (t', cmds) →
        ∀ r ∈ cmds.filterMap classRateOf, Positive r.rate) ↔
      (least t.qos ≤ t.bandwidth.retun ∧ t.bandwidth.retun < 2 ^ 63) ∧
      (least t.qos ≤ t.bandwidth.forward ∧ t.bandwidth.forward < 2 ^ 63) ∧
        ∀ acm, some acm ∈ t.acmList → leastScaled t.qos ≤ t.bandwidth.forward * acm.weight ∧
          leastScaled t.qos ≤ t.bandwidth.retun * acm.weight := by
  rw [rates_run, List.forall_mem_append, installedRates_positive_iff _ _ _ hasReturn,
    installedRates_positive_iff _ _ _ hasForward, and_assoc]
  refine and_congr_right fun retun => and_congr_right fun forward => ?_
  have least_nonneg : 0 ≤ least t.qos := by
    unfold least
    split <;> norm_num
  have change (acm : ACM) (member : some acm ∈ t.acmList) :=
    changeCapacity_positive_iff t t.qos acm.weight (weights acm member).1 (weights acm member).2
      ⟨least_nonneg.trans retun.1, Arithmetic.Has.lt_top hasReturn retun.2⟩
      ⟨least_nonneg.trans forward.1, Arithmetic.Has.lt_top hasForward forward.2⟩
  constructor
  · intro kept acm member
    -- some run selects the profile
    obtain ⟨draws, t', _, _, returned⟩ := ticks_reach .float64 t.qos t acm member
    exact (change acm member).mp (kept draws t' _ returned)
  · intro enough draws t' cmds returned r member
    obtain ⟨profiles, selected⟩ := ticks_selected .float64 t.qos t t' draws cmds returned
    rw [selected.issued, List.filterMap_flatMap, List.mem_flatMap] at member
    obtain ⟨acm, known, member⟩ := member
    exact (change acm (selected.known acm known)).mpr (enough acm (selected.known acm known)) r
      member

theorem sample_weights : ∀ acm, some acm ∈ sampleConfig.acmList → 0 < acm.weight ∧ acm.weight ≤ 1 := by
  have all : ∀ entry ∈ sampleConfig.acmList, ∀ acm ∈ entry, 0 < acm.weight ∧ acm.weight ≤ 1 := by
    decide +kernel
  exact fun acm member => all (some acm) member acm rfl

/-- The sample configuration keeps all its rates positive. -/
theorem rates_positive_sample :
    (∀ r ∈ (run .float64 sampleConfig (.ok "")).filterMap classRateOf, Positive r.rate) ∧
      ∀ draws t' cmds, ticks .float64 sampleConfig.qos sampleConfig draws = .ok (t', cmds) →
        ∀ r ∈ cmds.filterMap classRateOf, Positive r.rate := by
  have enough : ∀ entry ∈ sampleConfig.acmList, ∀ acm ∈ entry,
      leastScaled sampleConfig.qos ≤ sampleConfig.bandwidth.forward * acm.weight ∧
        leastScaled sampleConfig.qos ≤ sampleConfig.bandwidth.retun * acm.weight := by
    decide +kernel
  exact (rates_positive_iff sampleConfig (.ok "") (by decide +kernel) (by decide +kernel)
    sample_weights).mpr ⟨by decide +kernel, by decide +kernel,
      fun acm member => enough (some acm) member acm rfl⟩

/-- A link of 4 kbit/s in both directions and the profiles of the sample configuration. -/
def sampleSlow : TrunksConfig := { sampleConfig with bandwidth := ⟨4, 4⟩ }

/-- The profile of weight 0.1 asks for a rate of zero. -/
theorem rates_zero_sample :
    ¬ ∀ draws t' cmds, ticks .float64 sampleSlow.qos sampleSlow draws = .ok (t', cmds) →
      ∀ r ∈ cmds.filterMap classRateOf, Positive r.rate := by
  intro kept
  have zero := kept [5] { sampleSlow with currentACM := some ⟨decimal 0.1, 10⟩, acmCounter := 1 }
    (changeCapacity .float64 sampleSlow false (decimal 0.1)) (by decide +kernel)
  revert zero
  decide +kernel

/-! ### The rate last commanded -/

/-- What a command says about the rate of one class of one device; `none` is unreadable. -/
def commands (dev id : String) (r : ClassRate) : Option (Option ℤ) :=
  if r.device = dev ∧ r.classid = id then some (readRate r.rate) else none

/-- The rate last commanded, in bit/s. -/
def commanded (dev id : String) (cs : List Command) : Option ℤ :=
  LastMatch.eval (commands dev id) (cs.filterMap classRateOf) none

/-- The bandwidth in force on a device; the block of the terminal comes last. -/
def linkBandwidth (t : TrunksConfig) (dev : String) : ℚ :=
  if dev = t.nic.st then t.bandwidth.forward else t.bandwidth.retun

theorem commanded_setup (a : Arithmetic) (t : TrunksConfig) (uname : Except Error String)
    (dev : String) (configured : dev = t.nic.gw ∨ dev = t.nic.st) :
    commanded dev (scaledClass t.qos) (run a t uname) =
      some (1000 * installedKbit a t.qos (linkBandwidth t dev)) := by
  rw [commanded, rates_run]
  cases t.qos with
  | false =>
    rcases configured with rfl | rfl
    · by_cases same : t.nic.st = t.nic.gw <;>
        simp [installedRates, commands, scaledClass, linkBandwidth, installedKbit, leftOf, same,
          eq_comm (a := t.nic.gw)]
    · simp [installedRates, commands, scaledClass, linkBandwidth, installedKbit, leftOf]
  | true =>
    rcases configured with rfl | rfl
    · by_cases same : t.nic.st = t.nic.gw <;>
        simp [installedRates, commands, scaledClass, linkBandwidth, installedKbit, leftOf, restKbit,
          same, eq_comm (a := t.nic.gw)]
    · simp [installedRates, commands, scaledClass, linkBandwidth, installedKbit, leftOf, restKbit]

/-- A selected profile commands its number in Mbit/s. -/
theorem commanded_change (a : Arithmetic) (t : TrunksConfig) (cs : List Command) (weight : ℚ)
    (dev : String) (configured : dev = t.nic.gw ∨ dev = t.nic.st) :
    commanded dev (scaledClass t.qos) (cs ++ changeCapacity a t t.qos weight) =
      some (1000000 * scaledMbit a t.qos (linkBandwidth t dev) weight) := by
  rw [commanded, List.filterMap_append, rates_changeCapacity, LastMatch.eval_append]
  rcases configured with rfl | rfl
  · by_cases same : t.nic.st = t.nic.gw <;>
      simp [commands, linkBandwidth, same, eq_comm (a := t.nic.gw)]
  · simp [commands, linkBandwidth]

/-! ### Agreement with the setup -/

/-- The rate in force is the one the setup would install for the scaled bandwidth; full weight
restores the rate that was installed, and no weight up to one exceeds it. -/
def AgreesOn (t : TrunksConfig) (uname : Except Error String) (cmds : List Command) (weight : ℚ)
    (dev : String) (bandwidth : ℚ) : Prop :=
  ∃ rate setup, commanded dev (scaledClass t.qos) (run .float64 t uname ++ cmds) = some rate ∧
    commanded dev (scaledClass t.qos) (run .float64 t uname) = some setup ∧
    -- the number of a profile, in the unit of the setup
    rate = 1000 * scaledMbit .float64 t.qos bandwidth weight ∧
    (weight = 1 → rate = setup) ∧ (weight ≤ 1 → rate ≤ setup)

/-- After any ticks the rates of both devices agree with the profile in force. -/
def ScalingAgrees (t : TrunksConfig) (uname : Except Error String) : Prop :=
  ∀ draws, draws ≠ [] → ∃ t' cmds acm, ticks .float64 t.qos t draws = .ok (t', cmds) ∧
    t'.currentACM = some acm ∧
    AgreesOn t uname cmds acm.weight t.nic.gw t.bandwidth.retun ∧
    AgreesOn t uname cmds acm.weight t.nic.st t.bandwidth.forward

/-- Subtracting one loses nothing. -/
theorem leftOf_inj (qos : Bool) {n m : ℤ} (n_range : -2 ^ 63 ≤ n ∧ n < 2 ^ 63)
    (m_range : -2 ^ 63 ≤ m ∧ m < 2 ^ 63) :
    leftOf .float64 qos n = leftOf .float64 qos m ↔ n = m := by
  constructor
  · intro same
    cases qos with
    | false => exact same
    | true =>
      simp only [leftOf, if_true, Arithmetic.pred_float64, Int.bmod_def] at same
      split at same <;> split at same <;> omega
  · rintro rfl
    rfl

/-- A bandwidth and a product are rounded to one number. -/
def SameNumber (bandwidth product : ℚ) : Prop :=
  Arithmetic.float64.int64Round (some bandwidth) =
    Arithmetic.float64.int64Round (Arithmetic.float64.keep product)

/-- A profile that nothing was commanded for must leave the rounded bandwidth alone. -/
theorem agreesOn_silent_iff (t : TrunksConfig) (uname : Except Error String) (weight : ℚ)
    (dev : String) (bandwidth : ℚ) (configured : dev = t.nic.gw ∨ dev = t.nic.st) :
    AgreesOn t uname [] weight dev bandwidth ↔
      SameNumber (linkBandwidth t dev) (bandwidth * weight) := by
  have setup := commanded_setup .float64 t uname dev configured
  have numbers : installedKbit .float64 t.qos (linkBandwidth t dev) =
      scaledMbit .float64 t.qos bandwidth weight ↔
        SameNumber (linkBandwidth t dev) (bandwidth * weight) :=
    leftOf_inj t.qos (Arithmetic.int64Round_range _) (Arithmetic.int64Round_range _)
  rw [← numbers]
  constructor
  · rintro ⟨rate, _, now, _, scaled, _⟩
    rw [List.append_nil, setup, Option.some.injEq] at now
    omega
  · intro same
    exact ⟨_, _, by rw [List.append_nil, setup], setup, by rw [same], fun _ => rfl, fun _ => le_rfl⟩

/-- Nothing is left of the product of a bandwidth and a weight, in whatever unit. -/
def Vanishes (qos : Bool) (product : ℚ) : Prop :=
  if qos then 1 / 2 - 1 / 2 ^ 55 ≤ product ∧ product < 3 / 2 - 1 / 2 ^ 53
  else |product| < 1 / 2 - 1 / 2 ^ 55

instance (qos : Bool) (product : ℚ) : Decidable (Vanishes qos product) :=
  inferInstanceAs (Decidable (ite _ _ _))

theorem scaledMbit_eq_zero_iff (qos : Bool) (bandwidth weight : ℚ) :
    scaledMbit .float64 qos bandwidth weight = 0 ↔ Vanishes qos (bandwidth * weight) := by
  cases qos with
  | false =>
    simp only [Vanishes, Bool.false_eq_true, if_false]
    exact Arithmetic.int64Round_keep_eq_zero_iff (bandwidth * weight)
  | true =>
    have one := Arithmetic.one_le_int64Round_keep_iff (bandwidth * weight)
    have two := Arithmetic.two_le_int64Round_keep_iff (bandwidth * weight)
    have range := Arithmetic.int64Round_range (Arithmetic.float64.keep (bandwidth * weight))
    -- what is left is zero for the number one only
    have exactly : scaledMbit .float64 true bandwidth weight = 0 ↔
        Arithmetic.float64.int64Round (Arithmetic.float64.keep (bandwidth * weight)) = 1 := by
      simp only [scaledMbit, leftOf, if_true, Arithmetic.mul_some, Arithmetic.pred_float64,
        Int.bmod_def]
      split <;> omega
    rw [exactly]
    simp only [Vanishes, if_true]
    constructor
    · intro single
      obtain ⟨above, top⟩ := one.mp (by omega)
      refine ⟨above, ?_⟩
      by_contra reached
      have := two.mpr ⟨not_lt.mp reached, top⟩
      omega
    · rintro ⟨above, below⟩
      have top : bandwidth * weight < 2 ^ 63 - 2 ^ 9 := by
        norm_num at below ⊢
        linarith
      have reached := one.mpr ⟨above, top⟩
      have missed : ¬ 2 ≤ Arithmetic.float64.int64Round
          (Arithmetic.float64.keep (bandwidth * weight)) := by
        intro again
        linarith [(two.mp again).1]
      omega

/-- What is scaled by one is what was installed. -/
theorem scaledMbit_one (qos : Bool) (bandwidth : ℚ) (has : Arithmetic.float64.Has bandwidth) :
    scaledMbit .float64 qos bandwidth 1 = installedKbit .float64 qos bandwidth := by
  rw [scaledMbit, Arithmetic.mul_some, mul_one, has]
  rfl

/-- In a selected profile the factor between the units has to act on zero. -/
theorem agreesOn_change_iff (t : TrunksConfig) (uname : Except Error String) (before : List Command)
    (weight : ℚ) (dev : String) (bandwidth : ℚ) (le_one : weight ≤ 1)
    (has : Arithmetic.float64.Has (linkBandwidth t dev))
    (configured : dev = t.nic.gw ∨ dev = t.nic.st) :
    AgreesOn t uname (before ++ changeCapacity .float64 t t.qos weight) weight dev bandwidth ↔
      1000 * scaledMbit .float64 t.qos (linkBandwidth t dev) weight =
          scaledMbit .float64 t.qos bandwidth weight ∧
        (weight = 1 → scaledMbit .float64 t.qos (linkBandwidth t dev) weight = 0) ∧
        1000 * scaledMbit .float64 t.qos (linkBandwidth t dev) weight ≤
          installedKbit .float64 t.qos (linkBandwidth t dev) := by
  have setup := commanded_setup .float64 t uname dev configured
  have change : commanded dev (scaledClass t.qos)
      (run .float64 t uname ++ (before ++ changeCapacity .float64 t t.qos weight)) =
        some (1000000 * scaledMbit .float64 t.qos (linkBandwidth t dev) weight) := by
    rw [← List.append_assoc]
    exact commanded_change .float64 t _ weight dev configured
  -- a weight of one is the installed number in the other unit
  have restored := scaledMbit_one t.qos _ has
  unfold AgreesOn
  rw [change, setup]
  simp only [Option.some.injEq]
  constructor
  · rintro ⟨_, _, rfl, rfl, scaled, full, below⟩
    have below' := below le_one
    refine ⟨by omega, ?_, by omega⟩
    rintro rfl
    have full' := full rfl
    omega
  · rintro ⟨scaled, full, below⟩
    refine ⟨_, _, rfl, rfl, by omega, ?_, fun _ => by omega⟩
    rintro rfl
    have full' := full rfl
    omega

/-- The gateway has its own bandwidth unless it is the terminal as well. -/
theorem linkBandwidth_gw (t : TrunksConfig) :
    linkBandwidth t t.nic.gw = t.bandwidth.forward ∨
      linkBandwidth t t.nic.gw = t.bandwidth.retun := by
  unfold linkBandwidth
  split
  · exact .inl rfl
  · exact .inr rfl

theorem linkBandwidth_st (t : TrunksConfig) : linkBandwidth t t.nic.st = t.bandwidth.forward :=
  if_pos rfl

/-- What the setup installs without QoS is not negative. -/
def Installs (bandwidth : ℚ) : Prop := -(1 / 2) < bandwidth ∧ bandwidth < 2 ^ 63

theorem installedKbit_nonneg_iff (bandwidth : ℚ) (has : Arithmetic.float64.Has bandwidth) :
    0 ≤ installedKbit .float64 false bandwidth ↔ Installs bandwidth := by
  have negated : roundAway (-bandwidth) = -roundAway bandwidth := roundAway_neg bandwidth
  have lower := one_le_roundAway_iff (x := -bandwidth)
  have upper := le_roundAway_iff (x := bandwidth) (n := 2 ^ 63) (by norm_num)
  push_cast at upper
  have number : installedKbit .float64 false bandwidth =
      Arithmetic.float64.int64 (roundAway bandwidth) := rfl
  rw [number, Arithmetic.int64_float64]
  constructor
  · intro nonneg
    split at nonneg
    next fits =>
      constructor
      · by_contra below
        have := lower.mpr (by linarith)
        omega
      · by_contra above
        have := upper.mpr (by linarith)
        omega
    next => omega
  · rintro ⟨above, below⟩
    have small := Arithmetic.Has.lt_top has below
    -- a number that is not below zero is not rounded below it
    have notLess : ¬ 1 ≤ roundAway (-bandwidth) := fun less => by
      have := lower.mp less
      linarith
    have notMore : ¬ 2 ^ 63 ≤ roundAway bandwidth := fun more => by
      have := upper.mp more
      norm_num at this small
      linarith
    split <;> omega

/-- With QoS a bandwidth that can be scaled to one unit leaves something, or wraps. -/
theorem installedKbit_nonneg_of_vanishes (bandwidth weight : ℚ)
    (has : Arithmetic.float64.Has bandwidth) (weight_pos : 0 < weight) (le_one : weight ≤ 1)
    (vanishes : Vanishes true (bandwidth * weight)) :
    0 ≤ installedKbit .float64 true bandwidth := by
  obtain ⟨above, _⟩ := vanishes
  have bandwidth_pos : 0 < bandwidth := by
    by_contra negative
    have := mul_nonpos_of_nonpos_of_nonneg (not_lt.mp negative) weight_pos.le
    norm_num at above
    linarith
  have whole : bandwidth * weight ≤ bandwidth := mul_le_of_le_one_right bandwidth_pos.le le_one
  have half := Arithmetic.Has.half_le has (above.trans whole)
  have one := one_le_roundAway_iff.mpr half
  have number : installedKbit .float64 true bandwidth =
      Arithmetic.float64.pred (Arithmetic.float64.int64 (roundAway bandwidth)) := rfl
  rw [number, Arithmetic.int64_float64, Arithmetic.pred_float64, Int.bmod_def]
  split <;> split <;> omega

/-- On both devices at once, a selected profile has to scale both rates to zero. -/
theorem selected_agrees_iff (t : TrunksConfig) (uname : Except Error String)
    (hasForward : Arithmetic.float64.Has t.bandwidth.forward)
    (hasReturn : Arithmetic.float64.Has t.bandwidth.retun) (before : List Command) (weight : ℚ)
    (weight_pos : 0 < weight) (le_one : weight ≤ 1) :
    AgreesOn t uname (before ++ changeCapacity .float64 t t.qos weight) weight t.nic.gw
        t.bandwidth.retun ∧
      AgreesOn t uname (before ++ changeCapacity .float64 t t.qos weight) weight t.nic.st
        t.bandwidth.forward ↔
    (Vanishes t.qos (t.bandwidth.retun * weight) ∧ Vanishes t.qos (t.bandwidth.forward * weight)) ∧
    (t.qos = false →
      Installs (linkBandwidth t t.nic.gw) ∧ Installs (linkBandwidth t t.nic.st)) := by
  have terminal := linkBandwidth_st t
  have has : Arithmetic.float64.Has (linkBandwidth t t.nic.gw) := by
    rcases linkBandwidth_gw t with same | same <;> rw [same] <;> assumption
  rw [agreesOn_change_iff t uname before weight t.nic.gw _ le_one has (.inl rfl),
    agreesOn_change_iff t uname before weight t.nic.st _ le_one (by rwa [terminal]) (.inr rfl),
    ← scaledMbit_eq_zero_iff, ← scaledMbit_eq_zero_iff, terminal]
  -- what cannot be scaled to more than zero was installed as zero or more
  have kept (bandwidth : ℚ) (has : Arithmetic.float64.Has bandwidth)
      (zero : scaledMbit .float64 t.qos bandwidth weight = 0) :
      0 ≤ installedKbit .float64 t.qos bandwidth ↔ (t.qos = false → Installs bandwidth) := by
    cases qos : t.qos with
    | false => simp [installedKbit_nonneg_iff bandwidth has]
    | true =>
      rw [qos, scaledMbit_eq_zero_iff] at zero
      simp [installedKbit_nonneg_of_vanishes bandwidth weight has weight_pos le_one zero]
  constructor
  · rintro ⟨⟨gw, _, gwBelow⟩, ⟨st, _, stBelow⟩⟩
    -- a thousand times a number is the number only for zero
    have zeroForward : scaledMbit .float64 t.qos t.bandwidth.forward weight = 0 := by omega
    have zeros : scaledMbit .float64 t.qos (linkBandwidth t t.nic.gw) weight = 0 ∧
        scaledMbit .float64 t.qos t.bandwidth.retun weight = 0 := by
      rcases linkBandwidth_gw t with same | same <;> rw [same] at gw ⊢ <;> omega
    refine ⟨⟨zeros.2, zeroForward⟩, fun plain => ⟨?_, ?_⟩⟩
    · exact (kept _ has zeros.1).mp (by omega) plain
    · exact (kept _ hasForward zeroForward).mp (by omega) plain
  · rintro ⟨⟨zeroReturn, zeroForward⟩, installs⟩
    have zero : scaledMbit .float64 t.qos (linkBandwidth t t.nic.gw) weight = 0 := by
      rcases linkBandwidth_gw t with same | same <;> rw [same] <;> assumption
    have gwNonneg := (kept _ has zero).mpr fun plain => (installs plain).1
    have stNonneg := (kept _ hasForward zeroForward).mpr fun plain => (installs plain).2
    exact ⟨⟨by omega, fun _ => zero, by omega⟩, ⟨by omega, fun _ => zeroForward, by omega⟩⟩

/-- Scheduler and setup agree in every run exactly where nothing is left of both bandwidths in every
listed profile, whatever the unit, and a profile in force from the start changes neither number. -/
theorem scaling_agrees_iff (t : TrunksConfig) (uname : Except Error String)
    (hasForward : Arithmetic.float64.Has t.bandwidth.forward)
    (hasReturn : Arithmetic.float64.Has t.bandwidth.retun)
    (nonempty : t.acmList ≠ []) (present : none ∉ t.acmList)
    (weights : ∀ acm, some acm ∈ t.acmList → 0 < acm.weight ∧ acm.weight ≤ 1) :
    ScalingAgrees t uname ↔
      (∀ acm, t.currentACM = some acm → t.acmCounter < acm.duration →
        SameNumber (linkBandwidth t t.nic.gw) (t.bandwidth.retun * acm.weight) ∧
        SameNumber (linkBandwidth t t.nic.st) (t.bandwidth.forward * acm.weight)) ∧
      (∀ acm, some acm ∈ t.acmList → Vanishes t.qos (t.bandwidth.retun * acm.weight) ∧
        Vanishes t.qos (t.bandwidth.forward * acm.weight)) ∧
      (t.qos = false →
        Installs (linkBandwidth t t.nic.gw) ∧ Installs (linkBandwidth t t.nic.st)) := by
  constructor
  · intro agrees
    -- a run that selects a given profile and issues nothing else
    have listed (acm : ACM) (member : some acm ∈ t.acmList) :
        (Vanishes t.qos (t.bandwidth.retun * acm.weight) ∧
          Vanishes t.qos (t.bandwidth.forward * acm.weight)) ∧
        (t.qos = false →
          Installs (linkBandwidth t t.nic.gw) ∧ Installs (linkBandwidth t t.nic.st)) := by
      obtain ⟨draws, s, started, current, returned⟩ := ticks_reach .float64 t.qos t acm member
      obtain ⟨t', cmds, acm', returned', current', both⟩ := agrees draws started
      obtain ⟨rfl, rfl⟩ := Prod.mk.inj (Except.ok.inj (returned.symm.trans returned'))
      obtain rfl := Option.some.inj (current.symm.trans current')
      exact (selected_agrees_iff t uname hasForward hasReturn [] acm.weight (weights acm member).1
        (weights acm member).2).mp both
    obtain ⟨first, some_first⟩ := List.exists_mem_of_ne_nil t.acmList nonempty
    cases first with
    | none => exact absurd some_first present
    | some acm =>
      refine ⟨?_, fun other member => (listed other member).1, (listed acm some_first).2⟩
      -- one tick of a profile that still stands
      intro acm current below
      have stands : dwellOver t = false := by
        simpa [dwellOver, current] using below
      obtain ⟨t', cmds, acm', returned, current', onGw, onSt⟩ := agrees [0] (by simp)
      rw [ticks, PartialRun.run, runACM_dwell .float64 t t.qos 0 stands] at returned
      obtain ⟨rfl, rfl⟩ := Prod.mk.inj (Except.ok.inj returned)
      obtain rfl := Option.some.inj (current.symm.trans current')
      exact ⟨(agreesOn_silent_iff t uname _ _ _ (.inl rfl)).mp onGw,
        (agreesOn_silent_iff t uname _ _ _ (.inr rfl)).mp onSt⟩
  · rintro ⟨initial, listed, installs⟩ draws started
    obtain ⟨t', cmds, returned⟩ := ticks_safe .float64 t.qos t draws nonempty present
    obtain ⟨profiles, selected⟩ := ticks_selected .float64 t.qos t t' draws cmds returned
    rcases List.eq_nil_or_concat profiles with rfl | ⟨earlier, acm, rfl⟩
    · -- nothing was selected: the profile of the start still stands
      have silent : cmds = [] := selected.issued
      subst silent
      have stands := stands_of_silent .float64 t.qos t t' draws started returned
      cases current : t.currentACM with
      | none => simp [dwellOver, current] at stands
      | some acm =>
        have below : t.acmCounter < acm.duration := by
          simpa [dwellOver, current] using stands
        have same := initial acm current below
        refine ⟨t', [], acm, returned, ?_, ?_, ?_⟩
        · simpa [current] using selected.inForce
        · exact (agreesOn_silent_iff t uname _ _ _ (.inl rfl)).mpr same.1
        · exact (agreesOn_silent_iff t uname _ _ _ (.inr rfl)).mpr same.2
    · -- the last selection decides
      have member : some acm ∈ t.acmList := selected.known acm (by simp)
      have issued : cmds = earlier.flatMap (fun acm => changeCapacity .float64 t t.qos acm.weight) ++
          changeCapacity .float64 t t.qos acm.weight := by
        simpa using selected.issued
      refine ⟨t', cmds, acm, returned, by simpa using selected.inForce, ?_⟩
      rw [issued]
      exact (selected_agrees_iff t uname hasForward hasReturn _ acm.weight (weights acm member).1
        (weights acm member).2).mpr ⟨listed acm member, installs⟩

theorem scaling_agrees_sample : ¬ ScalingAgrees sampleSlow (.ok "") := by
  intro agrees
  have listed := ((scaling_agrees_iff sampleSlow (.ok "") (by decide +kernel) (by decide +kernel)
    (by decide +kernel) (by decide +kernel) sample_weights).mp agrees).2.1 ⟨1, 10⟩
    (by decide +kernel)
  exact absurd listed.1 (by decide +kernel)

/-- A profile of weight 1 turns the installed 20 kbit/s into 20 Mbit/s. -/
theorem scaling_jumps_sample :
    commanded "eth1" "1:1" (run .float64 sampleConfig (.ok "")) = some 20000 ∧
    commanded "eth1" "1:1"
      (run .float64 sampleConfig (.ok "") ++ changeCapacity .float64 sampleConfig false 1) =
      some 20000000 ∧
    ¬ ScalingAgrees sampleConfig (.ok "") := by
  have setup : commanded "eth1" "1:1" (run .float64 sampleConfig (.ok "")) = some 20000 := by
    decide +kernel
  have change : commanded "eth1" "1:1"
      (run .float64 sampleConfig (.ok "") ++ changeCapacity .float64 sampleConfig false 1) =
        some 20000000 := by
    decide +kernel
  refine ⟨setup, change, ?_⟩
  intro agrees
  obtain ⟨t', cmds, acm, returned, current, ⟨rate, installed, now, before, _, full, _⟩, _⟩ :=
    agrees [0] (by simp)
  have evaluated : ticks .float64 sampleConfig.qos sampleConfig [0] =
      .ok ({ sampleConfig with currentACM := some ⟨1, 10⟩, acmCounter := 1 },
        changeCapacity .float64 sampleConfig false 1) := by decide +kernel
  rw [evaluated] at returned
  obtain ⟨rfl, rfl⟩ := Prod.mk.inj (Except.ok.inj returned)
  obtain rfl := Option.some.inj current
  -- the rate of a whole profile would have to be the installed one
  have jumped : (20000000 : ℤ) = 20000 :=
    calc (20000000 : ℤ) = rate := Option.some.inj (change.symm.trans now)
      _ = installed := full rfl
      _ = 20000 := Option.some.inj (before.symm.trans setup)
  omega

end Tlink.Properties
