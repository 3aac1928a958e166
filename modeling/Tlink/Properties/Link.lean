import Tlink.Net.Build
import Tlink.Net.Reference

/-!
# The link without QoS

A packet is delayed and shaped exactly when it crosses from one configured device to
the other, by the one class and the one queue of the device it leaves by. This is so as long
as `tc` takes the numbers: a rate beyond its range leaves no class, and a distribution around
a delay of 0 ms leaves no queue.
-/
namespace Tlink.Properties

open Rounding Numeral Tlink.Runtime Tlink.Net

variable {b : Backend Table Tree} {takes : Intake}

/-- In by one end, out by the other. -/
def Crosses (t : TrunksConfig) (p : Packet) : Prop :=
  (p.ingress = t.nic.st ∧ p.egress = t.nic.gw) ∨ (p.ingress = t.nic.gw ∧ p.egress = t.nic.st)

instance (t : TrunksConfig) (p : Packet) : Decidable (Crosses t p) :=
  inferInstanceAs (Decidable (_ ∨ _))

/-- The bandwidth of the direction that leaves by a device. -/
def egressBandwidth (t : TrunksConfig) (egress : String) : ℚ :=
  if egress = t.nic.st then t.bandwidth.forward else t.bandwidth.retun

theorem hasJitter_iff (t : TrunksConfig) (uname : Except Error String) :
    hasJitter t uname = true ↔ 1 < t.delay.jitter ∧ isKernelVersionBugged t uname = false := by
  simp [hasJitter]

/-! ### The route, whatever the numbers are -/

/-- A packet with the mark of the filter meets the class, if there is one, and the queue below it. -/
theorem plainBuilt_own_path (takes : Intake) (link : ℤ) (netem : List String) (n : ℕ) :
    Tree.path (some (plainBuilt takes link netem n)) n =
      if takes.Rate (1000 * link) then
        ⟨[linkClass (1000 * link)], queueIf takes ⟨"2:0", "1:1", netem⟩⟩
      else ⟨[], []⟩ := by
  by_cases taken : takes.Rate (1000 * link)
  · have queues : (queueIf takes ⟨"2:0", "1:1", netem⟩).filter (·.parent = "1:1") =
        queueIf takes ⟨"2:0", "1:1", netem⟩ := by
      rw [filter_queueIf, if_pos rfl]
    rw [if_pos taken, plainBuilt_of_taken takes link netem n taken]
    simp [Tree.path, plainTree, Htb.classify, Htb.leaf, Htb.isLeaf, Htb.lineage, linkClass, queues]
  · have refused : (Htb.root "1:30").RefusesClass takes (linkClass (1000 * link)) :=
      fun admitted => taken admitted.2
    have classes : (plainBuilt takes link netem n).classes = [] := by
      rw [plainBuilt, Htb.addFilter, Htb.addNetemIf_classes,
        Htb.addClassIf_of_refused takes _ _ refused]
      rfl
    have unclassified : (plainBuilt takes link netem n).classify n = none := by
      simp [Htb.classify, Htb.leaf, classes]
    rw [if_neg taken]
    simp only [Tree.path, unclassified]

/-- A mark without a filter goes the way of the default class. -/
theorem classify_unfiltered (htb : Htb) (mark : ℕ) (unfiltered : ∀ f ∈ htb.filters, f.mark ≠ mark) :
    htb.classify mark = htb.leaf htb.dflt := by
  have none_found : htb.filters.find? (·.mark = mark) = none := by simpa using unfiltered
  simp [Htb.classify, none_found]

/-- The default class of a block without QoS does not exist. -/
theorem plainBuilt_path (takes : Intake) (link : ℤ) (netem : List String) (n mark : ℕ)
    (other : mark ≠ n) : Tree.path (some (plainBuilt takes link netem n)) mark = ⟨[], []⟩ := by
  have noDefault : (plainBuilt takes link netem n).classify mark = none := by
    rw [classify_unfiltered]
    · have only : ∀ c ∈ (plainBuilt takes link netem n).classes, c.id ≠ "1:30" := by
        intro c member
        rw [plainBuilt, Htb.addFilter, Htb.addNetemIf_classes] at member
        rcases Htb.mem_addClassIf _ _ _ c member with old | rfl
        · cases old
        · simp [linkClass]
      have absent : (plainBuilt takes link netem n).classes.find? (·.id = "1:30") = none := by
        simpa using only
      have dflt : (plainBuilt takes link netem n).dflt = "1:30" := by
        simp [plainBuilt, Htb.addFilter, Htb.root]
      rw [Htb.leaf, dflt, absent, ite_self]
    · simp [plainBuilt, Htb.addFilter, Htb.root, Ne.symm other]
  simp only [Tree.path, noDefault]

/-- Without QoS the mark names the ingress device. -/
theorem plainRules_mark (t : TrunksConfig) (p : Packet) :
    LastMatch.eval (MarkRule.verdict p) (plainRules t) p.mark =
      if p.ingress = t.nic.gw then 20 else if p.ingress = t.nic.st then 10 else p.mark := by
  by_cases gw : t.nic.gw = p.ingress <;> by_cases st : t.nic.st = p.ingress <;>
    simp [plainRules, MarkRule.verdict, gw, st, eq_comm (a := p.ingress)]

/-- The queue a crossing packet meets. -/
def plainQueue (a : Arithmetic) (t : TrunksConfig) (uname : Except Error String)
    (egress : String) : Netem :=
  ⟨"2:0", "1:1", netemArgs a t uname
    (queueLimit a (some (egressBandwidth t egress)) t.delay.denomination)⟩

/-- Where a packet is led that crosses the link. -/
def plainRoute (takes : Intake) (a : Arithmetic) (t : TrunksConfig) (uname : Except Error String)
    (egress : String) : Route :=
  if takes.Rate (1000 * linkKbit a (egressBandwidth t egress)) then
    ⟨[linkClass (1000 * linkKbit a (egressBandwidth t egress))],
      queueIf takes (plainQueue a t uname egress)⟩
  else ⟨[], []⟩

theorem plain_transit (a : Arithmetic) (t : TrunksConfig) (laws : LinkLawsOn b takes t.nic)
    (uname : Except Error String) (start : Network Table Tree) (noQos : t.qos = false)
    (distinct : t.nic.st ≠ t.nic.gw) (emptyChain : start.table "PREROUTING" = [])
    (bare : ∀ dev, start.tree dev = none) (p : Packet) (unmarked : p.mark = 0) :
    transit (b.execAll start (run a t uname)) p =
      if Crosses t p then plainRoute takes a t uname p.egress else ⟨[], []⟩ := by
  have mark : (b.execAll start (run a t uname)).table.markOf p =
      if p.ingress = t.nic.gw then 20 else if p.ingress = t.nic.st then 10 else 0 := by
    rw [Table.markOf, run_prerouting a t laws, emptyChain, noQos, List.nil_append, ← unmarked]
    exact plainRules_mark t p
  have plain : ¬ t.qos = true := by simp [noQos]
  rw [transit, mark, run_built a t laws uname start distinct bare, builtGW, builtST, if_neg plain,
    if_neg plain]
  -- a device only has a filter for the mark of the other end
  by_cases gw : p.egress = t.nic.gw
  · rw [if_pos gw]
    by_cases fromSt : p.ingress = t.nic.st
    · have crosses : Crosses t p := .inl ⟨fromSt, gw⟩
      rw [if_neg (by rwa [fromSt]), if_pos fromSt, if_pos crosses, plainBuilt_own_path]
      simp [plainRoute, plainQueue, egressBandwidth, gw, distinct.symm]
    · have stays : ¬ Crosses t p := by
        rintro (⟨st, _⟩ | ⟨_, st⟩)
        · exact fromSt st
        · exact distinct (st.symm.trans gw)
      rw [if_neg fromSt, if_neg stays, plainBuilt_path]
      split <;> decide
  · rw [if_neg gw]
    by_cases st : p.egress = t.nic.st
    · rw [if_pos st]
      by_cases fromGw : p.ingress = t.nic.gw
      · have crosses : Crosses t p := .inr ⟨fromGw, st⟩
        rw [if_pos fromGw, if_pos crosses, plainBuilt_own_path]
        simp [plainRoute, plainQueue, egressBandwidth, st]
      · have stays : ¬ Crosses t p := by
          rintro (⟨_, gw'⟩ | ⟨gw', _⟩)
          · exact gw gw'
          · exact fromGw gw'
        rw [if_neg fromGw, if_neg stays, plainBuilt_path]
        split <;> decide
    · have stays : ¬ Crosses t p := by
        rintro (⟨_, gw'⟩ | ⟨_, st'⟩)
        · exact gw gw'
        · exact st st'
      rw [if_neg st, if_neg stays]
      rfl

/-! ### Numbers that are taken -/

/-- Where the queue would fit the limits of `tc` without any loss, it does. -/
theorem queueLimit_range {bandwidth denomination : ℚ} {most : ℤ} (bandwidth_nonneg : 0 ≤ bandwidth)
    (bandwidth_le : bandwidth ≤ 2 ^ 64) (denomination_nonneg : 0 ≤ denomination)
    (denomination_le : denomination ≤ 2 ^ 64) (most_lt : most < 2 ^ 32)
    (within : bandwidth * denomination ≤ 16 * most) :
    0 ≤ queueLimit .float64 (some bandwidth) denomination ∧
      queueLimit .float64 (some bandwidth) denomination ≤ most := by
  have most_lt' : (most : ℚ) < 2 ^ 32 := by exact_mod_cast most_lt
  have product_nonneg := mul_nonneg bandwidth_nonneg denomination_nonneg
  have most_nonneg : 0 ≤ most := by
    by_contra negative
    have negative' : (most : ℚ) < 0 := by exact_mod_cast not_le.mp negative
    linarith
  obtain ⟨bits, bits_eq, bits_nonneg, bits_le⟩ := Arithmetic.keep_le (x := bandwidth * 1000000)
    (by linarith) le_rfl (by norm_num at bandwidth_le ⊢; linarith)
  obtain ⟨share, share_eq, share_nonneg, share_le⟩ := Arithmetic.keep_le (x := 1.5 * bits)
    (by linarith) le_rfl (by norm_num at bandwidth_le bits_le ⊢; linarith)
  obtain ⟨latency, latency_eq, latency_nonneg, latency_le⟩ :=
    Arithmetic.keep_le (x := denomination / (2 * 1000)) (by linarith) le_rfl
      (by norm_num at denomination_le ⊢; linarith)
  -- the product of the two rounded factors is still close to the exact one
  have volume_le : share * latency ≤ 12000 * most + 1 := by
    have bound := mul_le_mul share_le latency_le latency_nonneg (share_nonneg.trans share_le)
    have factor := mul_le_mul_of_nonneg_right bits_le denomination_nonneg
    norm_num at bandwidth_le denomination_le bits_le bound factor within most_lt' ⊢
    linarith
  obtain ⟨volume, volume_eq, volume_nonneg, volume_le'⟩ := Arithmetic.keep_le
    (mul_nonneg share_nonneg latency_nonneg) volume_le (by norm_num at most_lt' ⊢; linarith)
  have count_le : volume / (8 * 1500) ≤ most + 1 / 4 := by
    rw [div_le_iff₀ (by norm_num)]
    norm_num at volume_le' most_lt' ⊢
    linarith
  obtain ⟨count, count_eq, count_nonneg, count_le'⟩ := Arithmetic.keep_le
    (div_nonneg volume_nonneg (by norm_num)) count_le (by norm_num at most_lt' ⊢; linarith)
  have rounded_nonneg : 0 ≤ roundAway count := roundAway_nonneg count_nonneg
  have rounded_le : roundAway count ≤ most := by
    by_contra above
    have reached := (le_roundAway_iff (x := count) (n := most + 1) (by omega)).mp (by omega)
    push_cast at reached
    norm_num at count_le' most_lt' reached
    linarith
  have limit : queueLimit .float64 (some bandwidth) denomination = roundAway count := by
    rw [queueLimit, Arithmetic.mul_some, bits_eq, Arithmetic.mul_some, share_eq,
      Arithmetic.div_some, latency_eq, Arithmetic.mul_some, volume_eq, Arithmetic.div_some, count_eq]
    exact Arithmetic.int64_of_fits .float64 (n := roundAway count) (by omega) (by omega)
  rw [limit]
  exact ⟨rounded_nonneg, rounded_le⟩

/-- Half of both times and the queues of both directions are in the range of `tc`. -/
structure Moderate (takes : Intake) (t : TrunksConfig) : Prop where
  delay : roundAway (t.delay.denomination / 2) ≤ takes.maxTime
  jitter : roundAway (t.delay.jitter / 2) ≤ takes.maxTime
  forward : t.bandwidth.forward * t.delay.denomination ≤ 16 * takes.maxLimit
  retun : t.bandwidth.retun * t.delay.denomination ≤ 16 * takes.maxLimit

/-- Where a jitter is passed, the delay it varies is not 0 ms. -/
def Varies (t : TrunksConfig) (uname : Except Error String) : Prop :=
  1 < t.delay.jitter → isKernelVersionBugged t uname = false → 1 ≤ t.delay.denomination

/-- A rate that is taken is converted faithfully. -/
theorem linkKbit_of_taken (bandwidth : ℚ) (nonneg : 0 ≤ roundAway bandwidth)
    (taken : 1000 * roundAway bandwidth ≤ takes.maxRate) :
    linkKbit .float64 bandwidth = roundAway bandwidth := by
  have bound := takes.rates.2
  exact Arithmetic.int64_of_fits .float64 (n := roundAway bandwidth) (by omega) (by omega)

theorem halfMs_of_taken (time : ℚ) (nonneg : 0 ≤ time) (has : Arithmetic.float64.Has time)
    (taken : roundAway (time / 2) ≤ takes.maxTime) :
    halfMs .float64 time = roundAway (time / 2) := by
  have bound := takes.times
  have half_nonneg : 0 ≤ roundAway (time / 2) := roundAway_nonneg (by linarith)
  rw [halfMs, Arithmetic.int64Round_half nonneg has]
  exact Arithmetic.int64_of_fits .float64 (by omega) (by omega)

/-- A time that is taken is far below the bound of its type. -/
theorem time_le (time : ℚ) (taken : roundAway (time / 2) ≤ takes.maxTime) : time ≤ 2 ^ 45 := by
  have bound := takes.times
  by_contra large
  have reached : 2 ^ 44 ≤ roundAway (time / 2) := by
    rw [le_roundAway_iff (by norm_num)]
    push_cast
    linarith
  omega

/-- The options are complete and in range. -/
theorem netem_taken (t : TrunksConfig) (uname : Except Error String) (limit : ℤ)
    (delay : 0 ≤ t.delay.denomination) (jitter : 0 ≤ t.delay.jitter)
    (has : Arithmetic.float64.Has t.delay.denomination)
    (has' : Arithmetic.float64.Has t.delay.jitter) (moderate : Moderate takes t)
    (varies : Varies t uname) (limit_nonneg : 0 ≤ limit) (limit_le : limit ≤ takes.maxLimit) :
    takes.netem (netemArgs .float64 t uname limit) = true := by
  have half_nonneg : 0 ≤ roundAway (t.delay.denomination / 2) := roundAway_nonneg (by linarith)
  rw [netemArgs, halfMs_of_taken _ delay has moderate.delay,
    halfMs_of_taken _ jitter has' moderate.jitter]
  split
  next active =>
    obtain ⟨above, sound⟩ := (hasJitter_iff t uname).mp active
    have delay_pos : 1 ≤ roundAway (t.delay.denomination / 2) := by
      have := varies above sound
      exact one_le_roundAway_iff.mpr (by linarith)
    have jitter_pos : 1 ≤ roundAway (t.delay.jitter / 2) :=
      one_le_roundAway_iff.mpr (by linarith)
    exact takes.takesDistributed _ _ _ delay_pos moderate.delay jitter_pos moderate.jitter
      limit_nonneg limit_le
  next => exact takes.takesDelayed _ _ half_nonneg moderate.delay limit_nonneg limit_le

/-- There is no distribution around 0 ms. -/
theorem netem_refused (t : TrunksConfig) (uname : Except Error String) (limit : ℤ)
    (delay : 0 ≤ t.delay.denomination) (has : Arithmetic.float64.Has t.delay.denomination)
    (taken : roundAway (t.delay.denomination / 2) ≤ takes.maxTime)
    (active : hasJitter t uname = true) (still : t.delay.denomination < 1) :
    takes.netem (netemArgs .float64 t uname limit) = false := by
  have zero : roundAway (t.delay.denomination / 2) = 0 := by
    rw [roundAway_eq_zero_iff, abs_of_nonneg (by linarith)]
    linarith
  rw [netemArgs, if_pos active, halfMs_of_taken _ delay has taken, zero]
  exact takes.refusesStill _ _ _ (.inl rfl)

/-- A bandwidth whose rate is taken is far below the bound of its type. -/
theorem egressBandwidth_range (t : TrunksConfig) (egress : String)
    (positive : 1 ≤ roundAway (egressBandwidth t egress))
    (taken : 1000 * roundAway (egressBandwidth t egress) ≤ takes.maxRate) :
    0 ≤ egressBandwidth t egress ∧ egressBandwidth t egress ≤ 2 ^ 64 := by
  have bound := takes.rates.2
  have close := (abs_le.mp (abs_roundAway_sub_le (egressBandwidth t egress))).1
  have small : roundAway (egressBandwidth t egress) ≤ 2 ^ 63 := by omega
  have small' : (roundAway (egressBandwidth t egress) : ℚ) ≤ 2 ^ 63 := by exact_mod_cast small
  have above := one_le_roundAway_iff.mp positive
  norm_num at small' ⊢
  constructor <;> linarith

/-- With numbers that are taken there is a class and a queue. -/
theorem plainRoute_taken (t : TrunksConfig) (uname : Except Error String) (egress : String)
    (positive : 1 ≤ roundAway (egressBandwidth t egress))
    (taken : 1000 * roundAway (egressBandwidth t egress) ≤ takes.maxRate)
    (delay : 0 ≤ t.delay.denomination) (jitter : 0 ≤ t.delay.jitter)
    (has : Arithmetic.float64.Has t.delay.denomination)
    (has' : Arithmetic.float64.Has t.delay.jitter) (moderate : Moderate takes t)
    (varies : Varies t uname) :
    plainRoute takes .float64 t uname egress =
      ⟨[linkClass (1000 * roundAway (egressBandwidth t egress))],
        [plainQueue .float64 t uname egress]⟩ := by
  have link := linkKbit_of_taken (egressBandwidth t egress) (by omega) taken
  obtain ⟨bandwidth_nonneg, bandwidth_le⟩ := egressBandwidth_range t egress positive taken
  have within : egressBandwidth t egress * t.delay.denomination ≤ 16 * takes.maxLimit := by
    unfold egressBandwidth
    split
    · exact moderate.forward
    · exact moderate.retun
  have denomination_le := time_le t.delay.denomination moderate.delay
  obtain ⟨limit_nonneg, limit_le⟩ := queueLimit_range bandwidth_nonneg bandwidth_le delay
    (denomination_le.trans (by norm_num)) takes.limits within
  have queue : takes.netem (plainQueue .float64 t uname egress).opts = true :=
    netem_taken t uname _ delay jitter has has' moderate varies limit_nonneg limit_le
  rw [plainRoute, link, if_pos ⟨by omega, taken⟩, queueIf, if_pos queue]

@[simp] theorem netem_delay (a : Arithmetic) (t : TrunksConfig) (uname : Except Error String)
    (handle parent : String) (limit : ℤ) :
    (⟨handle, parent, netemArgs a t uname limit⟩ : Netem).delay =
      some (halfMs a t.delay.denomination) := by
  unfold netemArgs
  split <;> simp [Netem.delay, argsAfter, distributed, delayed]

@[simp] theorem netem_jitter (a : Arithmetic) (t : TrunksConfig) (uname : Except Error String)
    (handle parent : String) (limit : ℤ) :
    (⟨handle, parent, netemArgs a t uname limit⟩ : Netem).jitter =
      if hasJitter t uname then some (halfMs a t.delay.jitter) else none := by
  have noTime : readMs "limit" = none := by decide
  unfold netemArgs
  split <;> simp [Netem.jitter, argsAfter, distributed, delayed, noTime]

/-- Two one-way delays miss the configured delay by the two roundings at most. -/
theorem two_way_delay (denomination : ℚ) :
    |((roundAway (denomination / 2) + roundAway (denomination / 2) : ℤ) : ℚ) - denomination| ≤ 1 := by
  have close := abs_le.mp (abs_roundAway_sub_le (denomination / 2))
  rw [abs_le]
  push_cast
  constructor <;> linarith [close.1, close.2]

/-! ### The law -/

/-- The link law without QoS: who is queued, in what, and how a request and its reply add up. -/
theorem link_law (t : TrunksConfig) (laws : LinkLawsOn b takes t.nic)
    (uname : Except Error String) (start : Network Table Tree) (noQos : t.qos = false)
    (distinct : t.nic.st ≠ t.nic.gw) (forward : 1 ≤ roundAway t.bandwidth.forward)
    (retun : 1 ≤ roundAway t.bandwidth.retun)
    (takenForward : 1000 * roundAway t.bandwidth.forward ≤ takes.maxRate)
    (takenReturn : 1000 * roundAway t.bandwidth.retun ≤ takes.maxRate)
    (delay : 0 ≤ t.delay.denomination) (jitter : 0 ≤ t.delay.jitter)
    (has : Arithmetic.float64.Has t.delay.denomination)
    (has' : Arithmetic.float64.Has t.delay.jitter) (moderate : Moderate takes t)
    (varies : Varies t uname) (emptyChain : start.table "PREROUTING" = [])
    (bare : ∀ dev, start.tree dev = none) :
    (∀ p : Packet, p.mark = 0 →
      ((transit (b.execAll start (run .float64 t uname)) p).netems ≠ [] ↔ Crosses t p)) ∧
    (∀ p : Packet, p.mark = 0 → Crosses t p → ∃ c q,
      transit (b.execAll start (run .float64 t uname)) p = ⟨[c], [q]⟩ ∧
      (p.egress = t.nic.st → c.rate = 1000 * roundAway t.bandwidth.forward) ∧
      (p.egress = t.nic.gw → c.rate = 1000 * roundAway t.bandwidth.retun) ∧
      q.delay = some (roundAway (t.delay.denomination / 2)) ∧
      q.jitter =
        (if 1 < t.delay.jitter ∧ isKernelVersionBugged t uname = false then
          some (roundAway (t.delay.jitter / 2)) else none) ∧
      (q.jitter.isSome → 1 ≤ roundAway (t.delay.jitter / 2))) ∧
    (∀ request reply : Packet, request.mark = 0 → reply.mark = 0 → Crosses t request →
      reply.ingress = request.egress → reply.egress = request.ingress → ∃ d d' : ℤ,
        (transit (b.execAll start (run .float64 t uname)) request).delay = some d ∧
        (transit (b.execAll start (run .float64 t uname)) reply).delay = some d' ∧
        |((d + d' : ℤ) : ℚ) - t.delay.denomination| ≤ 1) := by
  have delayed := halfMs_of_taken _ delay has moderate.delay
  have varied := halfMs_of_taken _ jitter has' moderate.jitter
  have path (p : Packet) (unmarked : p.mark = 0) (crosses : Crosses t p) :
      transit (b.execAll start (run .float64 t uname)) p =
        ⟨[linkClass (1000 * roundAway (egressBandwidth t p.egress))],
          [plainQueue .float64 t uname p.egress]⟩ := by
    rw [plain_transit .float64 t laws uname start noQos distinct emptyChain bare p unmarked,
      if_pos crosses]
    exact plainRoute_taken t uname p.egress (by unfold egressBandwidth; split <;> assumption)
      (by unfold egressBandwidth; split <;> assumption) delay jitter has has' moderate varies
  refine ⟨?_, ?_, ?_⟩
  · intro p unmarked
    by_cases crosses : Crosses t p
    · simp [path p unmarked crosses, crosses]
    · rw [plain_transit .float64 t laws uname start noQos distinct emptyChain bare p unmarked,
        if_neg crosses]
      simp [crosses]
  · intro p unmarked crosses
    refine ⟨_, _, path p unmarked crosses, ?_, ?_, ?_, ?_, ?_⟩
    · intro st
      simp [linkClass, egressBandwidth, st]
    · intro gw
      simp [linkClass, egressBandwidth, gw, distinct.symm]
    · rw [plainQueue, netem_delay, delayed]
    · simp only [plainQueue, netem_jitter, hasJitter_iff, varied]
    · intro present
      rw [plainQueue, netem_jitter] at present
      have active : hasJitter t uname = true := by
        by_contra inactive
        simp [inactive] at present
      -- a jitter that is passed exceeds 1 ms, so its half does not round to zero
      have above := ((hasJitter_iff t uname).mp active).1
      exact one_le_roundAway_iff.mpr (by linarith)
  · intro request reply unmarked unmarked' crosses back forth
    have crosses' : Crosses t reply := by
      rcases crosses with ⟨ingress, egress⟩ | ⟨ingress, egress⟩
      · exact .inr ⟨back.trans egress, forth.trans ingress⟩
      · exact .inl ⟨back.trans egress, forth.trans ingress⟩
    refine ⟨_, _, ?_, ?_, two_way_delay t.delay.denomination⟩
    · rw [path request unmarked crosses]
      simp [Route.delay, plainQueue, delayed]
    · rw [path reply unmarked' crosses']
      simp [Route.delay, plainQueue, delayed]

theorem link_law_sample :
    (transit (reference.execAll fresh (run .float64 sampleConfig (.ok "#1 SMP")))
      ⟨"eth0", "eth1", 0, 0⟩).netems ≠ [] := by
  have moderate : Moderate referenceIntake sampleConfig :=
    ⟨by decide +kernel, by decide +kernel, by decide +kernel, by decide +kernel⟩
  have varies : Varies sampleConfig (.ok "#1 SMP") := fun _ _ => by decide +kernel
  exact ((link_law sampleConfig (reference_linkLawsOn _) (.ok "#1 SMP") fresh rfl (by decide)
    (by decide +kernel) (by decide +kernel) (by decide +kernel) (by decide +kernel)
    (by decide +kernel) (by decide +kernel) (by decide +kernel) (by decide +kernel) moderate varies
    rfl (fun _ => rfl)).1 ⟨"eth0", "eth1", 0, 0⟩ rfl).mpr (by decide)

/-- Bandwidths beyond `int64`, a distribution around 0 ms, a time and a queue beyond the range. -/
def sampleExtremes : List TrunksConfig :=
  [ { sampleConfig with bandwidth := ⟨10 ^ 19, 10 ^ 19⟩ },
    { sampleConfig with delay := ⟨0.75, 2⟩ },
    { sampleConfig with delay := ⟨2 ^ 45, 0⟩ },
    { sampleConfig with bandwidth := ⟨2 ^ 30, 2 ^ 30⟩, delay := ⟨2 ^ 10, 0⟩ } ]

/-- What the law does not exclude without a look at the ranges. -/
def Plain (t : TrunksConfig) : Prop :=
  t.qos = false ∧ t.nic.st ≠ t.nic.gw ∧
    1 ≤ roundAway t.bandwidth.forward ∧ 1 ≤ roundAway t.bandwidth.retun ∧
    0 ≤ t.delay.denomination ∧ 0 ≤ t.delay.jitter ∧
    Arithmetic.float64.Has t.bandwidth.forward ∧ Arithmetic.float64.Has t.bandwidth.retun ∧
    Arithmetic.float64.Has t.delay.denomination ∧ Arithmetic.float64.Has t.delay.jitter

instance (t : TrunksConfig) : Decidable (Plain t) := inferInstanceAs (Decidable (_ ∧ _))

/-- They round to one and more, and still a crossing packet meets no queue. -/
theorem link_unqueued_sample :
    (∀ t ∈ sampleExtremes, Plain t ∧ Crosses t ⟨"eth0", "eth1", 0, 0⟩ ∧
      (transit (reference.execAll fresh (run .float64 t (.ok "")))
        ⟨"eth0", "eth1", 0, 0⟩).netems = []) ∧
    ¬ ∀ t : TrunksConfig, Plain t → ∀ p : Packet, p.mark = 0 → Crosses t p →
      (transit (reference.execAll fresh (run .float64 t (.ok ""))) p).netems ≠ [] := by
  have unqueued : ∀ t ∈ sampleExtremes, Plain t ∧ Crosses t ⟨"eth0", "eth1", 0, 0⟩ ∧
      (transit (reference.execAll fresh (run .float64 t (.ok "")))
        ⟨"eth0", "eth1", 0, 0⟩).netems = [] := by
    decide +kernel
  refine ⟨unqueued, ?_⟩
  intro queued
  obtain ⟨plain, crosses, none⟩ := unqueued _ (.head _)
  exact queued _ plain _ rfl crosses none

/-- The rate `tc` is given for the first of them. -/
example :
    runTC ["class", "add", "dev", "eth1", "parent", "1:0", "classid", "1:1", "htb", "rate",
        "-9223372036854775808kbit", "burst", "30k", "cburst", "30k"] ∈
      run .float64 { sampleConfig with bandwidth := ⟨10 ^ 19, 10 ^ 19⟩ } (.ok "") := by
  decide +kernel

end Tlink.Properties
