import Tlink.Net.Setup
import Tlink.Net.Reference
import Tlink.Properties.QosLink

/-!
# Queue lengths

Each netem queue is given a limit from a bandwidth and the delay. The formula takes the
bandwidths for Mbit/s where the classes take them for kbit/s, and it rounds small products
to zero packets.
-/
namespace Tlink.Properties

open Rounding Numeral Binary Tlink.Runtime Tlink.Net

/-! ### The formula -/

/-- 1.5 * bandwidth[bits/s] * latency[s] / mtu[bits], rounded -/
def queueLength (bandwidth latency : ℚ) : ℤ := roundAway (1.5 * bandwidth * latency / (8 * 1500))

/-- Without loss the program evaluates the formula, at a thousand times the rate. -/
theorem queueLimit_exact (bandwidth denomination : ℚ) :
    queueLimit .exact (some bandwidth) denomination =
      queueLength (bandwidth * 1000000) (denomination / (2 * 1000)) := rfl

theorem queueLength_mega (bandwidth denomination : ℚ) :
    queueLength (bandwidth * 1000000) (denomination / (2 * 1000)) =
      roundAway (bandwidth * denomination / 16) := by
  unfold queueLength
  congr 1
  ring

theorem queueLength_kilo (bandwidth denomination : ℚ) :
    queueLength (1000 * bandwidth) (denomination / 2 / 1000) =
      roundAway (bandwidth * denomination / 16 / 1000) := by
  unfold queueLength
  congr 1
  ring

theorem abs_sixteenth_lt_iff (x : ℚ) : |x / 16| < 1 / 2 ↔ |x| < 8 := by
  rw [abs_div, abs_of_pos (by norm_num : (0 : ℚ) < 16), div_lt_iff₀ (by norm_num)]
  norm_num

/-- The two units agree exactly on limits that round to zero. -/
theorem units_agree_iff (bandwidth denomination : ℚ) :
    queueLength (bandwidth * 1000000) (denomination / (2 * 1000)) =
        queueLength (1000 * bandwidth) (denomination / 2 / 1000) ↔
      |bandwidth * denomination| < 8 := by
  rw [queueLength_mega, queueLength_kilo, eq_comm, roundAway_div_eq_iff (by norm_num),
    abs_sixteenth_lt_iff]

theorem queueLength_mega_eq_zero_iff (bandwidth denomination : ℚ) :
    queueLength (bandwidth * 1000000) (denomination / (2 * 1000)) = 0 ↔
      |bandwidth * denomination| < 8 := by
  rw [queueLength_mega, roundAway_eq_zero_iff, abs_sixteenth_lt_iff]

theorem queueLength_kilo_eq_zero (bandwidth denomination : ℚ)
    (small : |bandwidth * denomination| < 8000) :
    queueLength (1000 * bandwidth) (denomination / 2 / 1000) = 0 := by
  rw [queueLength_kilo, roundAway_eq_zero_iff, abs_div, abs_div,
    abs_of_pos (by norm_num : (0 : ℚ) < 16), abs_of_pos (by norm_num : (0 : ℚ) < 1000)]
  linarith

/-! ### The queues of the setup -/

theorem print_ne_of_unread (n : ℤ) (unit word : String) (isUnit : IsUnit unit)
    (unread : read word = none) : print n unit ≠ word := by
  rintro rfl
  rw [read_print n unit isUnit] at unread
  cases unread

@[simp] theorem netem_limit (a : Arithmetic) (t : TrunksConfig) (uname : Except Error String)
    (handle parent : String) (l : ℤ) :
    (⟨handle, parent, netemArgs a t uname l⟩ : Netem).limit = some l := by
  -- the search for the keyword must not stop at a time
  have noTime (n : ℤ) : print n "ms" ≠ "limit" :=
    print_ne_of_unread n "ms" "limit" (by decide) (by decide)
  unfold netemArgs delayed distributed
  split <;> simp [Netem.limit, argsAfter, noTime]

@[simp] theorem netem_limit_restST (a : Arithmetic) (t : TrunksConfig)
    (uname : Except Error String) (handle parent : String) (l : ℤ) :
    (⟨handle, parent, netemArgsRestST a t uname l⟩ : Netem).limit = some l := by
  unfold netemArgsRestST undelayed
  split
  · exact netem_limit a t uname handle parent l
  · simp [Netem.limit, argsAfter]

theorem netems_run (a : Arithmetic) (t : TrunksConfig) (uname : Except Error String) :
    (run a t uname).filterMap netemOf =
      (blockGW a t uname).filterMap netemOf ++ (blockST a t uname).filterMap netemOf :=
  filterMap_run netemOf (fun _ => ⟨rfl, rfl⟩) a t uname

/-! ### Limits and rates -/

/-- What a class gets before rounding to whole kbit/s, on a link of the given bandwidth. -/
def classBandwidth (link : ℚ) (classid : String) : ℚ :=
  if classid = "1:10" then 2 else if classid = "1:20" then link - 1 else link

/-- The `class add` commands of a block round these bandwidths. -/
def AddsClasses (link : ℚ) (cs : List Command) : Prop :=
  ∀ r ∈ cs.filterMap classRateOf, ∃ n : ℤ, readRate r.rate = some (1000 * n) ∧
    |(n : ℚ) - classBandwidth link r.classid| ≤ 1 / 2

/-- Every queue of a block holds what the formula gives for its class, in bit/s and seconds. -/
def QueuesFollow (link denomination : ℚ) (cs : List Command) : Prop :=
  ∀ q ∈ cs.filterMap netemOf, q.limit =
    some (queueLength (1000 * classBandwidth link q.parent) (denomination / 2 / 1000))

instance (link denomination : ℚ) (cs : List Command) :
    Decidable (QueuesFollow link denomination cs) :=
  inferInstanceAs (Decidable (∀ q ∈ cs.filterMap netemOf, _))

theorem addsClasses_plain (dev mark : String) (netem : List String) (link : ℚ) :
    AddsClasses link (plainBlock dev (linkKbit .exact link) netem mark) := by
  intro r member
  rw [rates_plainBlock, List.mem_singleton] at member
  subst member
  exact ⟨_, readRate_kbit _, by simpa [classBandwidth, linkKbit] using abs_roundAway_sub_le link⟩

theorem addsClasses_qos (dev leafParent markVoIP markRest : String)
    (netemVoIP netemRest : List String) (link : ℚ) :
    AddsClasses link (qosBlock dev leafParent (linkKbit .exact link) 2 (restKbit .exact link)
      netemVoIP netemRest markVoIP markRest) := by
  have close := abs_roundAway_sub_le link
  intro r member
  rw [rates_qosBlock] at member
  simp only [List.mem_cons, List.not_mem_nil, or_false] at member
  rcases member with rfl | rfl | rfl
  · exact ⟨_, readRate_kbit _, by simpa [classBandwidth, linkKbit] using close⟩
  · exact ⟨_, readRate_kbit _, by simp [classBandwidth]⟩
  · refine ⟨_, readRate_kbit _, ?_⟩
    simpa [classBandwidth, restKbit, linkKbit] using close

theorem addsClasses_blocks (t : TrunksConfig) (uname : Except Error String) :
    AddsClasses t.bandwidth.retun (blockGW .exact t uname) ∧
    AddsClasses t.bandwidth.forward (blockST .exact t uname) := by
  unfold blockGW blockST
  split
  · exact ⟨addsClasses_qos _ _ _ _ _ _ _, addsClasses_qos _ _ _ _ _ _ _⟩
  · exact ⟨addsClasses_plain _ _ _ _, addsClasses_plain _ _ _ _⟩

/-- The queue of a block without QoS has the length of the link in the wrong unit. -/
theorem queuesFollow_plain_iff (t : TrunksConfig) (uname : Except Error String)
    (dev mark : String) (rate : ℤ) (link : ℚ) :
    QueuesFollow link t.delay.denomination (plainBlock dev rate
        (netemArgs .exact t uname (queueLimit .exact (some link) t.delay.denomination)) mark) ↔
      |link * t.delay.denomination| < 8 := by
  rw [← units_agree_iff, QueuesFollow, netems_plainBlock]
  simp [queueLimit_exact, classBandwidth]

/-- On the gateway side both queues are computed from the bandwidth of the link. -/
theorem queuesFollow_gw_iff (t : TrunksConfig) (uname : Except Error String) :
    QueuesFollow t.bandwidth.retun t.delay.denomination (qosBlockGW .exact t uname) ↔
      queueLength (t.bandwidth.retun * 1000000) (t.delay.denomination / (2 * 1000)) =
          queueLength (1000 * 2) (t.delay.denomination / 2 / 1000) ∧
        queueLength (t.bandwidth.retun * 1000000) (t.delay.denomination / (2 * 1000)) =
          queueLength (1000 * (t.bandwidth.retun - 1)) (t.delay.denomination / 2 / 1000) := by
  rw [QueuesFollow, qosBlockGW, netems_qosBlock]
  simp [queueLimit_exact, classBandwidth]

theorem queuesFollow_st_iff (t : TrunksConfig) (uname : Except Error String) :
    QueuesFollow t.bandwidth.forward t.delay.denomination (qosBlockST .exact t uname) ↔
      |2 * t.delay.denomination| < 8 ∧ |(t.bandwidth.forward - 1) * t.delay.denomination| < 8 := by
  rw [← units_agree_iff, ← units_agree_iff, QueuesFollow, qosBlockST, netems_qosBlock]
  simp [queueLimit_exact, classBandwidth, restBandwidth]

/-- The limits follow the classes only where all of them round to zero. -/
theorem queue_sizing (t : TrunksConfig) (uname : Except Error String)
    (forward : 0 < t.bandwidth.forward) (retun : 0 < t.bandwidth.retun)
    (delay : 0 ≤ t.delay.denomination) :
    (run .exact t uname).filterMap netemOf =
      (blockGW .exact t uname).filterMap netemOf ++ (blockST .exact t uname).filterMap netemOf ∧
    AddsClasses t.bandwidth.retun (blockGW .exact t uname) ∧
    AddsClasses t.bandwidth.forward (blockST .exact t uname) ∧
    (QueuesFollow t.bandwidth.retun t.delay.denomination (blockGW .exact t uname) ∧
        QueuesFollow t.bandwidth.forward t.delay.denomination (blockST .exact t uname) ↔
      if t.qos then t.delay.denomination < 4 ∧ t.bandwidth.retun * t.delay.denomination < 8 ∧
        (t.bandwidth.forward - 1) * t.delay.denomination < 8
      else t.bandwidth.forward * t.delay.denomination < 8 ∧
        t.bandwidth.retun * t.delay.denomination < 8) := by
  refine ⟨netems_run .exact t uname, (addsClasses_blocks t uname).1, (addsClasses_blocks t uname).2, ?_⟩
  have forwardDelay : 0 ≤ t.bandwidth.forward * t.delay.denomination :=
    mul_nonneg forward.le delay
  have retunDelay : 0 ≤ t.bandwidth.retun * t.delay.denomination := mul_nonneg retun.le delay
  unfold blockGW blockST
  cases qos : t.qos with
  | false =>
    simp only [Bool.false_eq_true, if_false]
    rw [plainBlockGW, plainBlockST, queuesFollow_plain_iff, queuesFollow_plain_iff,
      abs_of_nonneg forwardDelay, abs_of_nonneg retunDelay, and_comm]
  | true =>
    simp only [if_true]
    rw [queuesFollow_gw_iff, queuesFollow_st_iff]
    constructor
    · rintro ⟨⟨gwVoIP, _⟩, stVoIP, stRest⟩
      rw [abs_lt] at stVoIP stRest
      have short : t.delay.denomination < 4 := by linarith
      -- the queue of the small class is empty, so the one computed for it has to be
      rw [queueLength_kilo_eq_zero 2 _ (by rw [abs_lt]; constructor <;> linarith),
        queueLength_mega_eq_zero_iff, abs_of_nonneg retunDelay] at gwVoIP
      exact ⟨short, gwVoIP, stRest.2⟩
    · rintro ⟨short, gwRest, stRest⟩
      -- all four limits are zero, and so is what the formula gives
      have zero := (queueLength_mega_eq_zero_iff t.bandwidth.retun t.delay.denomination).mpr
        (by rwa [abs_of_nonneg retunDelay])
      refine ⟨⟨?_, ?_⟩, ?_, ?_⟩
      · rw [zero, queueLength_kilo_eq_zero 2 _ (by rw [abs_lt]; constructor <;> linarith)]
      · rw [zero, queueLength_kilo_eq_zero (t.bandwidth.retun - 1) _
          (by rw [abs_lt]; constructor <;> linarith)]
      · rw [abs_lt]
        constructor <;> linarith
      · rw [abs_lt]
        constructor <;> linarith

theorem queue_sizing_sample :
    ¬ (QueuesFollow 20 40 (blockGW .exact sampleConfig (.ok "")) ∧
      QueuesFollow 40 40 (blockST .exact sampleConfig (.ok ""))) :=
  fun follow => absurd ((queue_sizing sampleConfig (.ok "") (by decide +kernel) (by decide +kernel)
    (by decide +kernel)).2.2.2.mp follow) (by decide +kernel)

/-- The sample link of 20 kbit/s gets a queue of 50 packets instead of none. -/
theorem queue_oversized :
    ((blockGW .exact sampleConfig (.ok "")).filterMap netemOf).map Netem.limit = [some 50] ∧
    ¬ QueuesFollow sampleConfig.bandwidth.retun sampleConfig.delay.denomination
      (blockGW .exact sampleConfig (.ok "")) := by
  decide +kernel

/-! ### Queues that hold nothing -/

/-- 1.5 * bandwidth[bits/s], as a `float64`. -/
def scaledBits (bandwidth : Option ℚ) : Option ℚ :=
  Arithmetic.float64.mul (some 1.5) (Arithmetic.float64.mul bandwidth (some 1000000))

/-- The latency in seconds, as a `float64`. -/
def latency (denomination : ℚ) : Option ℚ :=
  Arithmetic.float64.div (some denomination) (some (2 * 1000))

/-- The product of the two reaches half a packet, and it is not beyond `int64`. -/
def Fills (bandwidth : Option ℚ) (denomination : ℚ) : Prop :=
  ∃ w ∈ scaledBits bandwidth, ∃ s ∈ latency denomination,
    6000 - 1 / 2 ^ 41 ≤ w * s ∧ w * s < 12000 * 2 ^ 63 - 2 ^ 23

/-- Half a packet and the end of `int64`, seen from the product before it is divided. -/
theorem one_le_packets_iff (x : ℚ) :
    1 ≤ Arithmetic.float64.int64Round
        (Arithmetic.float64.div (Arithmetic.float64.keep x) (some (8 * 1500))) ↔
      6000 - 1 / 2 ^ 41 ≤ x ∧ x < 12000 * 2 ^ 63 - 2 ^ 23 := by
  have half := binary64.le_nearest_iff (n := 6000 * 2 ^ 40) (e := -40) (by decide) (by decide)
    (by decide) (by decide) x
  have most := binary64.le_nearest_iff (n := 12000 * 2 ^ 39) (e := 24) (by decide) (by decide)
    (by decide) (by decide) x
  norm_num at half most
  cases stored : Arithmetic.float64.keep x with
  | none =>
    have large := (binary64.store_eq_none_iff x).mp stored
    have huge : (2 : ℚ) ^ (80 : ℤ) ≤ |binary64.nearest x| :=
      le_trans (zpow_le_zpow_right₀ (by norm_num) (by decide)) large
    constructor
    · intro impossible
      exact absurd impossible (by decide)
    · rintro ⟨above, below⟩
      norm_num at above below
      have reached := half.mpr (by linarith)
      have missed := mt most.mp (by linarith)
      rw [abs_of_nonneg (by linarith)] at huge
      norm_num at huge
      linarith
  | some p =>
    obtain ⟨rfl, _⟩ := (binary64.store_eq_some_iff x p).mp stored
    rw [Arithmetic.div_some, Arithmetic.one_le_int64Round_keep_iff]
    -- the numbers near 6000 are 2^-40 apart
    have below_half : binary64.nearest x < 6000 → binary64.nearest x ≤ 6000 - 1 / 2 ^ 40 := by
      intro less
      have gap := binary64.nearest_le_of_lt (n := 6000 * 2 ^ 40) (e := -40) (by decide) (by decide)
        (by decide) (x := x) (by norm_num; linarith)
      norm_num at gap ⊢
      linarith
    -- and those near the end of int64 packets 2^24
    have below_most : binary64.nearest x < 12000 * 2 ^ 63 →
        binary64.nearest x ≤ 12000 * 2 ^ 63 - 2 ^ 24 := by
      intro less
      have gap := binary64.nearest_le_of_lt (n := 12000 * 2 ^ 39) (e := 24) (by decide) (by decide)
        (by decide) (x := x) (by norm_num at less ⊢; linarith)
      norm_num at gap ⊢
      linarith
    norm_num at below_half below_most ⊢
    constructor
    · rintro ⟨above, below⟩
      refine ⟨half.mp ?_, ?_⟩
      · by_contra less
        have := below_half (not_le.mp less)
        linarith
      · by_contra reached
        have := most.mpr (by linarith)
        linarith
    · rintro ⟨above, below⟩
      have reached := half.mpr above
      have less := below_most (by
        by_contra not_less
        have := most.mp (by linarith)
        linarith)
      constructor <;> linarith

theorem one_le_queueLimit_iff (bandwidth : Option ℚ) (denomination : ℚ) :
    1 ≤ queueLimit .float64 bandwidth denomination ↔ Fills bandwidth denomination := by
  unfold queueLimit Fills
  change 1 ≤ Arithmetic.float64.int64Round (Arithmetic.float64.div
    (Arithmetic.float64.mul (scaledBits bandwidth) (latency denomination)) (some (8 * 1500))) ↔ _
  cases scaledBits bandwidth with
  | none => simp [Arithmetic.mul, Arithmetic.div, Arithmetic.int64Round]
  | some w =>
    cases latency denomination with
    | none => simp [Arithmetic.mul, Arithmetic.div, Arithmetic.int64Round]
    | some s => simpa using one_le_packets_iff (w * s)

/-- What rounding one factor does to a product. -/
theorem keep_mul {x y c : ℚ} (nonneg : 0 ≤ x) (kept : Arithmetic.float64.keep x = some y)
    (c_nonneg : 0 ≤ c) (finite : c ≤ 2 ^ (1024 : ℤ)) :
    (1 - 1 / 2 ^ 53) * (x * c) - 1 / 2 ^ 51 ≤ y * c ∧
      y * c ≤ (1 + 1 / 2 ^ 53) * (x * c) + 1 / 2 ^ 51 := by
  obtain ⟨rfl, _⟩ := (binary64.store_eq_some_iff x y).mp kept
  have close := binary64.abs_nearest_sub_le x
  rw [abs_of_nonneg nonneg, show binary64.precision = 53 from rfl,
    show binary64.least = -1074 from rfl, abs_le] at close
  have least : (2 : ℚ) ^ (-1074 : ℤ) / 2 * c ≤ 1 / 2 ^ 51 := by
    have scaled := mul_le_mul_of_nonneg_left finite (zpow_nonneg (by norm_num : (0 : ℚ) ≤ 2) (-1074))
    rw [← zpow_add₀ (by norm_num : (2 : ℚ) ≠ 0), show (-1074 : ℤ) + 1024 = -50 by norm_num] at scaled
    rw [div_mul_eq_mul_div]
    refine (div_le_div_of_nonneg_right scaled two_pos.le).trans ?_
    norm_num
  have lower := mul_le_mul_of_nonneg_right close.1 c_nonneg
  have upper := mul_le_mul_of_nonneg_right close.2 c_nonneg
  rw [sub_mul] at lower upper
  constructor <;> nlinarith

/-- The three roundings of the product of a bandwidth and a delay. -/
theorem product_bracket {bandwidth denomination w s : ℚ} (nonneg : 0 ≤ bandwidth)
    (delay : 0 ≤ denomination) (has : Arithmetic.float64.Has denomination)
    (bits : scaledBits (some bandwidth) = some w) (seconds : latency denomination = some s) :
    (1 - 1 / 2 ^ 51) * (750 * (bandwidth * denomination)) - 1 / 2 ^ 49 ≤ w * s ∧
      w * s ≤ (1 + 1 / 2 ^ 51) * (750 * (bandwidth * denomination)) + 1 / 2 ^ 49 := by
  obtain ⟨same, finite⟩ := (Arithmetic.has_iff denomination).mp has
  rw [abs_of_nonneg delay] at finite
  rw [scaledBits, Arithmetic.mul_some] at bits
  cases kept : Arithmetic.float64.keep (bandwidth * 1000000) with
  | none => simp [kept, Arithmetic.mul] at bits
  | some m =>
    rw [kept, Arithmetic.mul_some] at bits
    have m_nonneg : 0 ≤ m := by
      obtain ⟨rfl, _⟩ := (binary64.store_eq_some_iff _ m).mp kept
      exact binary64.nearest_nonneg (by positivity)
    have w_range : 0 ≤ w ∧ w < 2 ^ (1024 : ℤ) := by
      obtain ⟨rfl, below⟩ := (binary64.store_eq_some_iff _ w).mp bits
      have nonneg' := binary64.nearest_nonneg (x := 1.5 * m) (by positivity)
      rw [abs_of_nonneg nonneg'] at below
      exact ⟨nonneg', below⟩
    have share : denomination / 2000 ≤ 2 ^ (1024 : ℤ) :=
      (div_le_self delay (by norm_num)).trans finite.le
    -- the bits, then the factor 1.5, then the seconds
    have first := keep_mul (by positivity) kept (by positivity : 0 ≤ denomination / 2000) share
    have second := keep_mul (by positivity) bits (by positivity : 0 ≤ denomination / 2000) share
    have third := keep_mul (by positivity) seconds w_range.1 w_range.2.le
    have total : 0 ≤ bandwidth * denomination := by positivity
    norm_num at first second third ⊢
    constructor <;> linarith

/-- A queue with room for a packet, in terms of the configuration itself: the product of bandwidth and
delay reaches 8, up to what the three roundings can do. -/
theorem product_of_fills {bandwidth denomination : ℚ} (nonneg : 0 ≤ bandwidth)
    (delay : 0 ≤ denomination) (has : Arithmetic.float64.Has denomination)
    (fills : Fills (some bandwidth) denomination) : 8 - 1 / 2 ^ 46 ≤ bandwidth * denomination := by
  obtain ⟨w, bits, s, seconds, reached, _⟩ := fills
  have bracket := product_bracket nonneg delay has bits seconds
  norm_num at reached bracket ⊢
  linarith

theorem fills_of_product {bandwidth denomination : ℚ} (nonneg : 0 ≤ bandwidth)
    (below : bandwidth ≤ 2 ^ 100) (delay : 0 ≤ denomination)
    (has : Arithmetic.float64.Has denomination)
    (reached : 8 + 1 / 2 ^ 46 ≤ bandwidth * denomination)
    (within : bandwidth * denomination ≤ 2 ^ 66) : Fills (some bandwidth) denomination := by
  obtain ⟨m, kept, m_nonneg, m_le⟩ := Arithmetic.keep_le
    (by positivity : 0 ≤ bandwidth * 1000000)
    (by norm_num at below ⊢; linarith : bandwidth * 1000000 ≤ 2 ^ 121) (by norm_num)
  obtain ⟨w, kept', _, _⟩ := Arithmetic.keep_le (by positivity : 0 ≤ 1.5 * m)
    (by norm_num at m_le ⊢; linarith : 1.5 * m ≤ 2 ^ 123) (by norm_num)
  have bits : scaledBits (some bandwidth) = some w := by
    rw [scaledBits, Arithmetic.mul_some, kept, Arithmetic.mul_some, kept']
  obtain ⟨s, seconds⟩ : ∃ s, latency denomination = some s := by
    obtain ⟨same, finite⟩ := (Arithmetic.has_iff denomination).mp has
    -- a number that is divided stays finite
    have smaller := binary64.nearest_mono (div_le_self delay (by norm_num : (1 : ℚ) ≤ 2 * 1000))
    have quotient := binary64.nearest_nonneg (x := denomination / (2 * 1000)) (by positivity)
    rw [same] at smaller
    rw [abs_of_nonneg delay] at finite
    refine ⟨_, (binary64.store_eq_some_iff _ _).mpr ⟨rfl, ?_⟩⟩
    rw [abs_of_nonneg quotient]
    exact lt_of_le_of_lt smaller finite
  have bracket := product_bracket nonneg delay has bits seconds
  refine ⟨w, bits, s, seconds, ?_, ?_⟩
  · norm_num at reached bracket ⊢
    linarith
  · norm_num at within bracket ⊢
    linarith

/-- Every queue has room for a packet exactly where no product falls below the threshold and none is
too large to be converted. For a bandwidth and a delay, the threshold is 8 up to the roundings. -/
theorem queues_nonempty_iff (t : TrunksConfig) (uname : Except Error String)
    (delay : 0 ≤ t.delay.denomination) (has : Arithmetic.float64.Has t.delay.denomination) :
    ((∀ q ∈ (run .float64 t uname).filterMap netemOf, ∃ l ∈ q.limit, 1 ≤ l) ↔
      if t.qos then Fills (some t.bandwidth.retun) t.delay.denomination ∧
        Fills (some 2) t.delay.denomination ∧
        Fills (Arithmetic.float64.sub (some t.bandwidth.forward) (some 1)) t.delay.denomination
      else Fills (some t.bandwidth.forward) t.delay.denomination ∧
        Fills (some t.bandwidth.retun) t.delay.denomination) ∧
    ∀ bandwidth : ℚ, 0 ≤ bandwidth →
      (Fills (some bandwidth) t.delay.denomination →
        8 - 1 / 2 ^ 46 ≤ bandwidth * t.delay.denomination) ∧
      (bandwidth ≤ 2 ^ 100 → 8 + 1 / 2 ^ 46 ≤ bandwidth * t.delay.denomination →
        bandwidth * t.delay.denomination ≤ 2 ^ 66 →
        Fills (some bandwidth) t.delay.denomination) := by
  refine ⟨?_, fun bandwidth nonneg => ⟨product_of_fills nonneg delay has, fun below =>
    fills_of_product nonneg below delay has⟩⟩
  rw [netems_run]
  unfold blockGW blockST
  cases qos : t.qos with
  | false =>
    simp only [Bool.false_eq_true, if_false, plainBlockGW, plainBlockST, netems_plainBlock]
    simp [one_le_queueLimit_iff, and_comm]
  | true =>
    simp only [if_true, qosBlockGW, qosBlockST, netems_qosBlock]
    simp [one_le_queueLimit_iff, restBandwidth]

theorem queues_nonempty_sample :
    ((run .float64 sampleConfig (.ok "")).filterMap netemOf).length = 2 ∧
    ∀ q ∈ (run .float64 sampleConfig (.ok "")).filterMap netemOf, ∃ l ∈ q.limit, 1 ≤ l := by
  obtain ⟨exactly, products⟩ :=
    queues_nonempty_iff sampleConfig (.ok "") (by decide +kernel) (by decide +kernel)
  refine ⟨by decide +kernel, ?_⟩
  exact exactly.mpr
    ⟨(products _ (by decide +kernel)).2 (by decide +kernel) (by decide +kernel) (by decide +kernel),
      (products _ (by decide +kernel)).2 (by decide +kernel) (by decide +kernel) (by decide +kernel)⟩

/-- A link of 100 kbit/s over 3 ms. -/
def sampleShort : TrunksConfig := { sampleQos with bandwidth := ⟨100, 100⟩, delay := ⟨3, 0⟩ }

/-- All VoIP traffic towards the terminal is dropped. -/
theorem queue_empty_sample :
    ((run .float64 sampleShort (.ok "")).filterMap netemOf).map Netem.limit =
      [some 19, some 19, some 0, some 19] ∧
    ¬ ∀ q ∈ (run .float64 sampleShort (.ok "")).filterMap netemOf, ∃ l ∈ q.limit, 1 ≤ l := by
  decide +kernel

/-- The product is 8 and a little more, and what is left of it is not. -/
example : (8 : ℚ) < decimal 26.666666666666668 * decimal 0.3 ∧
    queueLimit .float64 (some (decimal 26.666666666666668)) (decimal 0.3) = 0 := by
  decide +kernel

end Tlink.Properties
