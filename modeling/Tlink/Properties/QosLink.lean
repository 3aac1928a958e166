import Tlink.Properties.Link

/-!
# The link with QoS

The marks and filters separate the two traffic classes in both directions. The queues
below them carry the delay of the branch without QoS, except for the queue of class
`1:20` on the terminal side when there is no jitter: its delay value is missing.
-/
namespace Tlink.Properties

open Rounding Numeral Tlink.Runtime Tlink.Net

variable {b : Backend Table Tree} {takes : Intake}

def VoIP (p : Packet) : Prop := p.dscp = 0x2c ∨ p.dscp = 0x2e

instance (p : Packet) : Decidable (VoIP p) := inferInstanceAs (Decidable (_ ∨ _))

/-! ### The state after the setup -/

/-- With QoS the mark names the ingress device and the traffic class. -/
theorem qosRules_mark (t : TrunksConfig) (p : Packet) :
    LastMatch.eval (MarkRule.verdict p) (qosRules t) p.mark =
      if p.ingress = t.nic.gw then (if VoIP p then 21 else 20)
      else if p.ingress = t.nic.st then (if VoIP p then 11 else 10)
      else p.mark := by
  -- the last rule of an interface is the one for 0x2e
  by_cases ef : p.dscp = 0x2e
  · by_cases gw : t.nic.gw = p.ingress <;> by_cases st : t.nic.st = p.ingress <;>
      simp [qosRules, MarkRule.verdict, VoIP, gw, st, ef, eq_comm (a := p.ingress)]
  · by_cases va : p.dscp = 0x2c
    · by_cases gw : t.nic.gw = p.ingress <;> by_cases st : t.nic.st = p.ingress <;>
        simp [qosRules, MarkRule.verdict, VoIP, gw, st, va, eq_comm (a := p.ingress)]
    · by_cases gw : t.nic.gw = p.ingress <;> by_cases st : t.nic.st = p.ingress <;>
        simp [qosRules, MarkRule.verdict, VoIP, gw, st, ef, va, eq_comm (a := p.ingress),
          eq_comm (a := (44 : ℕ)), eq_comm (a := (46 : ℕ))]

def qosTreeGW (takes : Intake) (a : Arithmetic) (t : TrunksConfig)
    (uname : Except Error String) : Htb :=
  qosTree "1:1" (linkKbit a t.bandwidth.retun) 2 (restKbit a t.bandwidth.retun)
    (qosQueues takes
      (netemArgs a t uname (queueLimit a (some t.bandwidth.retun) t.delay.denomination))
      (netemArgs a t uname (queueLimit a (some t.bandwidth.retun) t.delay.denomination))) 11 10

def qosTreeST (takes : Intake) (a : Arithmetic) (t : TrunksConfig)
    (uname : Except Error String) : Htb :=
  qosTree "1:0" (linkKbit a t.bandwidth.forward) 2 (restKbit a t.bandwidth.forward)
    (qosQueues takes (netemArgs a t uname (queueLimit a (some 2) t.delay.denomination))
      (netemArgsRestST a t uname
        (queueLimit a (restBandwidth a t.bandwidth.forward) t.delay.denomination))) 21 20

/-- What is left of a rate that is taken is taken, unless it is nothing. -/
theorem rate_rest (a : Arithmetic) (bandwidth : ℚ) (above : 2 ≤ linkKbit a bandwidth)
    (taken : takes.Rate (1000 * linkKbit a bandwidth)) :
    takes.Rate (1000 * restKbit a bandwidth) := by
  have rest : restKbit a bandwidth = linkKbit a bandwidth - 1 :=
    Arithmetic.pred_of_pos a (some bandwidth) (by unfold linkKbit at above; omega)
  obtain ⟨_, below⟩ := taken
  rw [rest]
  exact ⟨by omega, by omega⟩

theorem builtGW_of_qos (a : Arithmetic) (t : TrunksConfig) (uname : Except Error String)
    (qos : t.qos = true) (above : 2 ≤ linkKbit a t.bandwidth.retun)
    (taken : takes.Rate (1000 * linkKbit a t.bandwidth.retun)) :
    builtGW takes a t uname = qosTreeGW takes a t uname := by
  rw [builtGW, if_pos qos]
  exact qosBuilt_of_taken takes "1:1" _ _ _ _ _ 11 10 (.inr rfl) taken (rate_voip takes)
    (rate_rest a _ above taken)

theorem builtST_of_qos (a : Arithmetic) (t : TrunksConfig) (uname : Except Error String)
    (qos : t.qos = true) (above : 2 ≤ linkKbit a t.bandwidth.forward)
    (taken : takes.Rate (1000 * linkKbit a t.bandwidth.forward)) :
    builtST takes a t uname = qosTreeST takes a t uname := by
  rw [builtST, if_pos qos]
  exact qosBuilt_of_taken takes "1:0" _ _ _ _ _ 21 20 (.inl rfl) taken (rate_voip takes)
    (rate_rest a _ above taken)

/-! ### The way of a packet -/

theorem qosTree_classify (leafParent : String) (link voip rest : ℤ) (queues : List Netem)
    (n m mark : ℕ) (parent : leafParent = "1:0" ∨ leafParent = "1:1") :
    (qosTree leafParent link voip rest queues n m).classify mark =
      some (if mark = n then voipClass leafParent (1000 * voip)
        else restClass leafParent (1000 * rest)) := by
  by_cases isN : n = mark
  · rcases parent with rfl | rfl <;>
      simp [Htb.classify, qosTree, Htb.leaf, Htb.isLeaf, linkClass, voipClass, restClass, isN]
  · -- the default class is the one of the second filter
    by_cases isM : m = mark <;> rcases parent with rfl | rfl <;>
      simp [Htb.classify, qosTree, Htb.leaf, Htb.isLeaf, linkClass, voipClass, restClass, isN, isM,
        Ne.symm isN]

theorem lineage_head (htb : Htb) (fuel : ℕ) (c : HtbClass) :
    ∃ above, htb.lineage fuel c = c :: above := by
  cases fuel with
  | zero => exact ⟨[], rfl⟩
  | succ fuel =>
    unfold Htb.lineage
    split
    · exact ⟨[], rfl⟩
    · exact ⟨_, rfl⟩

theorem path_of_classify (htb : Htb) (mark : ℕ) (c : HtbClass)
    (classified : htb.classify mark = some c) :
    ∃ above, Tree.path (some htb) mark =
      ⟨c :: above, htb.netems.filter (·.parent = c.id)⟩ := by
  obtain ⟨above, lineage_eq⟩ := lineage_head htb htb.classes.length c
  exact ⟨above, by simp only [Tree.path, classified, lineage_eq]⟩

/-- The mark picks a leaf and with it the one queue that may hang there. -/
theorem qosTree_path (takes : Intake) (leafParent : String) (link voip rest : ℤ)
    (netemVoIP netemRest : List String) (n m mark : ℕ)
    (parent : leafParent = "1:0" ∨ leafParent = "1:1") :
    ∃ c above, c.id = (if mark = n then "1:10" else "1:20") ∧
      Tree.path (some (qosTree leafParent link voip rest (qosQueues takes netemVoIP netemRest)
        n m)) mark =
        ⟨c :: above, queueIf takes
          (if mark = n then ⟨"110:", "1:10", netemVoIP⟩ else ⟨"120:", "1:20", netemRest⟩)⟩ := by
  obtain ⟨above, path⟩ := path_of_classify _ mark _ (qosTree_classify leafParent link voip rest
    (qosQueues takes netemVoIP netemRest) n m mark parent)
  by_cases isN : mark = n
  · refine ⟨voipClass leafParent (1000 * voip), above, by rw [if_pos isN]; rfl, path.trans ?_⟩
    simp [qosTree, qosQueues, filter_queueIf, voipClass, isN]
  · refine ⟨restClass leafParent (1000 * rest), above, by rw [if_neg isN]; rfl, path.trans ?_⟩
    simp [qosTree, qosQueues, filter_queueIf, restClass, isN]

/-- The queue under the class of a crossing packet, if `tc` accepts it. -/
def qosQueue (a : Arithmetic) (t : TrunksConfig) (uname : Except Error String) (p : Packet) :
    Netem :=
  if p.egress = t.nic.gw then
    if VoIP p then
      ⟨"110:", "1:10",
        netemArgs a t uname (queueLimit a (some t.bandwidth.retun) t.delay.denomination)⟩
    else
      ⟨"120:", "1:20",
        netemArgs a t uname (queueLimit a (some t.bandwidth.retun) t.delay.denomination)⟩
  else
    if VoIP p then
      ⟨"110:", "1:10", netemArgs a t uname (queueLimit a (some 2) t.delay.denomination)⟩
    else
      ⟨"120:", "1:20", netemArgsRestST a t uname
        (queueLimit a (restBandwidth a t.bandwidth.forward) t.delay.denomination)⟩

theorem qos_transit (a : Arithmetic) (t : TrunksConfig) (laws : LinkLawsOn b takes t.nic)
    (uname : Except Error String) (start : Network Table Tree) (qos : t.qos = true)
    (distinct : t.nic.st ≠ t.nic.gw) (emptyChain : start.table "PREROUTING" = [])
    (bare : ∀ dev, start.tree dev = none) (p : Packet) (crosses : Crosses t p)
    (above : 2 ≤ linkKbit a (egressBandwidth t p.egress))
    (taken : takes.Rate (1000 * linkKbit a (egressBandwidth t p.egress))) :
    ∃ c above, c.id = (if VoIP p then "1:10" else "1:20") ∧
      transit (b.execAll start (run a t uname)) p =
        ⟨c :: above, queueIf takes (qosQueue a t uname p)⟩ := by
  -- the rule for the DSCP comes after the one for the interface
  have mark : (b.execAll start (run a t uname)).table.markOf p =
      if p.ingress = t.nic.gw then (if VoIP p then 21 else 20)
      else if p.ingress = t.nic.st then (if VoIP p then 11 else 10)
      else p.mark := by
    rw [Table.markOf, run_prerouting a t laws, emptyChain, qos, List.nil_append]
    exact qosRules_mark t p
  rw [transit, mark, run_built a t laws uname start distinct bare]
  rcases crosses with ⟨ingress, egress⟩ | ⟨ingress, egress⟩
  · have bandwidth : egressBandwidth t p.egress = t.bandwidth.retun := by
      simp [egressBandwidth, egress, distinct.symm]
    rw [bandwidth] at above taken
    rw [if_pos egress, builtGW_of_qos a t uname qos above taken]
    obtain ⟨c, above, id, path⟩ := qosTree_path takes "1:1" (linkKbit a t.bandwidth.retun) 2
      (restKbit a t.bandwidth.retun)
      (netemArgs a t uname (queueLimit a (some t.bandwidth.retun) t.delay.denomination))
      (netemArgs a t uname (queueLimit a (some t.bandwidth.retun) t.delay.denomination)) 11 10
      (if VoIP p then 11 else 10) (.inr rfl)
    refine ⟨c, above, ?_, ?_⟩
    · by_cases voip : VoIP p <;> simpa [voip] using id
    · by_cases voip : VoIP p <;>
        simpa [voip, ingress, egress, distinct, qosTreeGW, qosQueue] using path
  · have bandwidth : egressBandwidth t p.egress = t.bandwidth.forward := by
      simp [egressBandwidth, egress]
    rw [bandwidth] at above taken
    -- on ST the leaves hang below 1:0, which the path does not depend on
    have notGw : p.egress ≠ t.nic.gw := by rwa [egress]
    rw [if_neg notGw, if_pos egress, builtST_of_qos a t uname qos above taken]
    obtain ⟨c, above, id, path⟩ := qosTree_path takes "1:0" (linkKbit a t.bandwidth.forward) 2
      (restKbit a t.bandwidth.forward)
      (netemArgs a t uname (queueLimit a (some 2) t.delay.denomination))
      (netemArgsRestST a t uname
        (queueLimit a (restBandwidth a t.bandwidth.forward) t.delay.denomination)) 21 20
      (if VoIP p then 21 else 20) (.inl rfl)
    refine ⟨c, above, ?_, ?_⟩
    · by_cases voip : VoIP p <;> simpa [voip] using id
    · by_cases voip : VoIP p <;>
        simpa [voip, ingress, egress, distinct, qosTreeST, qosQueue] using path

/-- The one queue whose delay value is left out. -/
def DelayMissing (t : TrunksConfig) (uname : Except Error String) (p : Packet) : Prop :=
  p.egress = t.nic.st ∧ ¬ VoIP p ∧ hasJitter t uname = false

/-- Every other queue is given its delay and a limit for some bandwidth. -/
theorem qosQueue_complete (a : Arithmetic) (t : TrunksConfig) (uname : Except Error String)
    (p : Packet) (crosses : Crosses t p) (given : ¬ DelayMissing t uname p) :
    ∃ handle parent bandwidth, qosQueue a t uname p =
        ⟨handle, parent, netemArgs a t uname (queueLimit a bandwidth t.delay.denomination)⟩ ∧
      ((p.egress = t.nic.gw ∧ bandwidth = some t.bandwidth.retun) ∨ bandwidth = some 2 ∨
        (p.egress = t.nic.st ∧ bandwidth = restBandwidth a t.bandwidth.forward)) := by
  unfold qosQueue
  split
  next gw =>
    split
    · exact ⟨_, _, _, rfl, .inl ⟨gw, rfl⟩⟩
    · exact ⟨_, _, _, rfl, .inl ⟨gw, rfl⟩⟩
  next notGw =>
    have st : p.egress = t.nic.st := by
      rcases crosses with ⟨_, gw⟩ | ⟨_, st⟩
      · exact absurd gw notGw
      · exact st
    split
    · exact ⟨_, _, _, rfl, .inr (.inl rfl)⟩
    next notVoIP =>
      have jitter : hasJitter t uname = true := by
        by_contra none
        exact given ⟨st, notVoIP, by simpa using none⟩
      exact ⟨"120:", "1:20", _, by rw [netemArgsRestST, if_pos jitter], .inr (.inr ⟨st, rfl⟩)⟩

/-- Without its value the delay cannot be read. -/
theorem qosQueue_unread (a : Arithmetic) (t : TrunksConfig) (uname : Except Error String)
    (p : Packet) (distinct : t.nic.st ≠ t.nic.gw) (missing : DelayMissing t uname p) :
    (qosQueue a t uname p).delay = none := by
  obtain ⟨st, notVoIP, noJitter⟩ := missing
  have notGw : p.egress ≠ t.nic.gw := by
    rw [st]
    exact distinct
  have noTime : readMs "limit" = none := by decide
  rw [qosQueue, if_neg notGw, if_neg notVoIP, netemArgsRestST, if_neg (by simp [noJitter])]
  simp [Netem.delay, argsAfter, undelayed, noTime]

/-- What is left of a bandwidth is not more than the whole. -/
theorem restBandwidth_range (bandwidth : ℚ) (has : Arithmetic.float64.Has bandwidth)
    (above : 1 ≤ bandwidth) :
    ∃ rest, restBandwidth .float64 bandwidth = some rest ∧ 0 ≤ rest ∧ rest ≤ bandwidth := by
  obtain ⟨same, finite⟩ := (Arithmetic.has_iff bandwidth).mp has
  have rest_nonneg := Binary.binary64.nearest_nonneg (x := bandwidth - 1) (by linarith)
  have rest_le := Binary.binary64.nearest_mono (x := bandwidth - 1) (y := bandwidth) (by linarith)
  rw [same] at rest_le
  rw [abs_of_nonneg (by linarith)] at finite
  refine ⟨_, (Binary.binary64.store_eq_some_iff _ _).mpr ⟨rfl, ?_⟩, rest_nonneg, rest_le⟩
  rw [abs_of_nonneg rest_nonneg]
  exact lt_of_le_of_lt rest_le finite

/-- The options of all other queues are taken. -/
theorem qosQueue_taken (t : TrunksConfig) (uname : Except Error String) (p : Packet)
    (above : 2 ≤ roundAway (egressBandwidth t p.egress))
    (taken : 1000 * roundAway (egressBandwidth t p.egress) ≤ takes.maxRate)
    (distinct : t.nic.st ≠ t.nic.gw)
    (delay : 0 ≤ t.delay.denomination) (jitter : 0 ≤ t.delay.jitter)
    (hasForward : Arithmetic.float64.Has t.bandwidth.forward)
    (has : Arithmetic.float64.Has t.delay.denomination)
    (has' : Arithmetic.float64.Has t.delay.jitter) (moderate : Moderate takes t)
    (voip : 2 * t.delay.denomination ≤ 16 * takes.maxLimit) (varies : Varies t uname)
    (crosses : Crosses t p) (given : ¬ DelayMissing t uname p) :
    takes.netem (qosQueue .float64 t uname p).opts = true := by
  have large := egressBandwidth_range t p.egress (by omega) taken
  have above' := (le_roundAway_iff two_pos).mp above
  push_cast at above'
  have short := time_le t.delay.denomination moderate.delay
  obtain ⟨handle, parent, bandwidth, queue, kinds⟩ :=
    qosQueue_complete .float64 t uname p crosses given
  -- the queue is one for the whole bandwidth, for the share of VoIP or for the rest
  have bounded : ∃ x, bandwidth = some x ∧ 0 ≤ x ∧ x ≤ 2 ^ 64 ∧
      x * t.delay.denomination ≤ 16 * takes.maxLimit := by
    rcases kinds with ⟨gw, rfl⟩ | rfl | ⟨st, rfl⟩
    · have whole : egressBandwidth t p.egress = t.bandwidth.retun := by
        simp [egressBandwidth, gw, distinct.symm]
      rw [whole] at large
      exact ⟨_, rfl, large.1, large.2, moderate.retun⟩
    · exact ⟨2, rfl, by norm_num, by norm_num, voip⟩
    · have whole : egressBandwidth t p.egress = t.bandwidth.forward := by
        simp [egressBandwidth, st]
      rw [whole] at large above'
      obtain ⟨rest, rest_eq, rest_nonneg, rest_le⟩ :=
        restBandwidth_range t.bandwidth.forward hasForward (by linarith)
      exact ⟨rest, rest_eq, rest_nonneg, rest_le.trans large.2,
        (mul_le_mul_of_nonneg_right rest_le delay).trans moderate.forward⟩
  obtain ⟨x, rfl, x_nonneg, x_le, within⟩ := bounded
  obtain ⟨limit_nonneg, limit_le⟩ := queueLimit_range x_nonneg x_le delay
    (short.trans (by norm_num)) takes.limits within
  rw [queue]
  exact netem_taken t uname _ delay jitter has has' moderate varies limit_nonneg limit_le

/-! ### The law and where it fails -/

theorem queueIf_eq_singleton (takes : Intake) (queue q : Netem)
    (there : queueIf takes queue = [q]) : q = queue ∧ takes.netem queue.opts = true := by
  unfold queueIf at there
  split at there
  next accepted => exact ⟨(List.singleton_inj.mp there).symm, accepted⟩
  next => cases there

/-- The packet is put into the class of its kind and delayed as without QoS. -/
def QosShaped (b : Backend Table Tree) (t : TrunksConfig) (uname : Except Error String)
    (start : Network Table Tree) (p : Packet) : Prop :=
  ∃ c above q c' q',
    transit (b.execAll start (run .float64 t uname)) p = ⟨c :: above, [q]⟩ ∧
    transit (b.execAll start (run .float64 { t with qos := false } uname)) p = ⟨[c'], [q']⟩ ∧
    c.id = (if VoIP p then "1:10" else "1:20") ∧
    q.delay = some (roundAway (t.delay.denomination / 2)) ∧ q.delay = q'.delay ∧
    q.jitter = (if 1 < t.delay.jitter ∧ isKernelVersionBugged t uname = false then
      some (roundAway (t.delay.jitter / 2)) else none) ∧
    q.jitter = q'.jitter

/-- A packet that is shaped without QoS has a class, whose rate was taken, and a queue, whose options
were. -/
theorem plainRoute_inv (t : TrunksConfig) (uname : Except Error String) (egress : String)
    (c : HtbClass) (q : Netem)
    (route : plainRoute takes .float64 t uname egress = ⟨[c], [q]⟩) :
    1000 * roundAway (egressBandwidth t egress) ≤ takes.maxRate ∧
      takes.netem (plainQueue .float64 t uname egress).opts = true := by
  unfold plainRoute at route
  split at route
  next taken =>
    obtain ⟨_, queues⟩ := Route.mk.inj route
    refine ⟨?_, (queueIf_eq_singleton takes _ q queues).2⟩
    -- a rate that does not fit is converted to a negative one
    obtain ⟨positive, below⟩ := taken
    rw [linkKbit, Arithmetic.int64Round, Arithmetic.int64_float64] at positive below
    split at positive
    next fits => rwa [if_pos fits] at below
    next => omega
  next => cases route

/-- The classes are right wherever the rate is taken; the queue is the one of the branch without
QoS except for other traffic towards the terminal when no jitter is installed, and there is none for
a jitter around 0 ms. -/
theorem qos_link_law (t : TrunksConfig) (laws : LinkLawsOn b takes t.nic)
    (uname : Except Error String) (start : Network Table Tree) (qos : t.qos = true)
    (distinct : t.nic.st ≠ t.nic.gw) (forward : 2 ≤ roundAway t.bandwidth.forward)
    (retun : 2 ≤ roundAway t.bandwidth.retun) (delay : 0 ≤ t.delay.denomination)
    (jitter : 0 ≤ t.delay.jitter) (hasForward : Arithmetic.float64.Has t.bandwidth.forward)
    (has : Arithmetic.float64.Has t.delay.denomination)
    (has' : Arithmetic.float64.Has t.delay.jitter) (moderate : Moderate takes t)
    (voip : 2 * t.delay.denomination ≤ 16 * takes.maxLimit)
    (emptyChain : start.table "PREROUTING" = []) (bare : ∀ dev, start.tree dev = none)
    (p : Packet) (unmarked : p.mark = 0) (crosses : Crosses t p) :
    (1000 * roundAway (egressBandwidth t p.egress) ≤ takes.maxRate →
      ∃ c above queues, transit (b.execAll start (run .float64 t uname)) p = ⟨c :: above, queues⟩ ∧
        c.id = if VoIP p then "1:10" else "1:20") ∧
    (QosShaped b t uname start p ↔
      1000 * roundAway (egressBandwidth t p.egress) ≤ takes.maxRate ∧
      if 1 < t.delay.jitter ∧ isKernelVersionBugged t uname = false then 1 ≤ t.delay.denomination
      else p.egress = t.nic.gw ∨ VoIP p) := by
  have above : 2 ≤ roundAway (egressBandwidth t p.egress) := by
    unfold egressBandwidth
    split <;> assumption
  have plain := plain_transit .float64 { t with qos := false } laws uname start rfl distinct
    emptyChain bare p unmarked
  rw [if_pos (show Crosses { t with qos := false } p from crosses)] at plain
  have path (taken : 1000 * roundAway (egressBandwidth t p.egress) ≤ takes.maxRate) :
      ∃ c above, c.id = (if VoIP p then "1:10" else "1:20") ∧
        transit (b.execAll start (run .float64 t uname)) p =
          ⟨c :: above, queueIf takes (qosQueue .float64 t uname p)⟩ := by
    have link := linkKbit_of_taken (egressBandwidth t p.egress) (by omega) taken
    exact qos_transit .float64 t laws uname start qos distinct emptyChain bare p crosses
      (by omega) (by rw [link]; exact ⟨by omega, taken⟩)
  refine ⟨?_, ?_⟩
  · intro taken
    obtain ⟨c, above, id, route⟩ := path taken
    exact ⟨c, above, _, route, id⟩
  simp only [← hasJitter_iff t uname]
  constructor
  · rintro ⟨c', above', q, c'', q'', path', plain', _, delayed, _, _, _⟩
    obtain ⟨taken, accepted⟩ := plainRoute_inv { t with qos := false } uname p.egress c'' q''
      (plain.symm.trans plain')
    refine ⟨taken, ?_⟩
    obtain ⟨c, above, _, route⟩ := path taken
    -- the only queue the path can have is the one of the packet's kind
    have single := (queueIf_eq_singleton _ _ _ (Route.mk.inj (route.symm.trans path')).2).1
    split
    next active =>
      by_contra still
      have refused := @netem_refused takes { t with qos := false } uname
        (queueLimit .float64 (some (egressBandwidth t p.egress)) t.delay.denomination) delay has
        moderate.delay active (not_le.mp still)
      exact Bool.false_ne_true (refused.symm.trans accepted)
    next inactive =>
      by_contra out
      simp only [not_or] at out
      obtain ⟨notGw, notVoIP⟩ := out
      have st : p.egress = t.nic.st := by
        rcases crosses with ⟨_, gw⟩ | ⟨_, st⟩
        · exact absurd gw notGw
        · exact st
      rw [single, qosQueue_unread .float64 t uname p distinct
        ⟨st, notVoIP, by simpa using inactive⟩] at delayed
      cases delayed
  · rintro ⟨taken, good⟩
    have varies : Varies t uname := by
      intro jittered sound
      rwa [if_pos ((hasJitter_iff t uname).mpr ⟨jittered, sound⟩)] at good
    have given : ¬ DelayMissing t uname p := by
      rintro ⟨st, notVoIP, noJitter⟩
      rw [if_neg (by simp [noJitter])] at good
      rcases good with gw | voip
      · exact distinct (st.symm.trans gw)
      · exact notVoIP voip
    have there := qosQueue_taken t uname p above taken distinct delay jitter hasForward has has'
      moderate voip varies crosses given
    obtain ⟨handle, parent, bandwidth, queue, _⟩ :=
      qosQueue_complete .float64 t uname p crosses given
    obtain ⟨c, upper, id, route⟩ := path taken
    rw [queueIf, if_pos there] at route
    rw [plainRoute_taken { t with qos := false } uname p.egress (one_le_two.trans above) taken
      delay jitter has has' ⟨moderate.delay, moderate.jitter, moderate.forward, moderate.retun⟩
      varies] at plain
    have delayed := halfMs_of_taken _ delay has moderate.delay
    have varied := halfMs_of_taken _ jitter has' moderate.jitter
    refine ⟨c, upper, _, _, _, route, plain, id, ?_, ?_, ?_, ?_⟩
    · rw [queue, netem_delay, delayed]
    · rw [queue, netem_delay, plainQueue, netem_delay]
    · rw [queue, netem_jitter, varied]
      simp only [hasJitter_iff]
    · rw [queue, netem_jitter, plainQueue, netem_jitter]
      rfl

theorem qos_link_law_sample :
    QosShaped reference sampleQos (.ok "#1 SMP") fresh ⟨"eth0", "eth1", 0, 0⟩ := by
  have moderate : Moderate referenceIntake sampleQos :=
    ⟨by decide +kernel, by decide +kernel, by decide +kernel, by decide +kernel⟩
  exact (qos_link_law sampleQos (reference_linkLawsOn _) (.ok "#1 SMP") fresh rfl (by decide)
    (by decide +kernel) (by decide +kernel) (by decide +kernel) (by decide +kernel)
    (by decide +kernel) (by decide +kernel) (by decide +kernel) moderate (by decide +kernel) rfl
    (fun _ => rfl) ⟨"eth0", "eth1", 0, 0⟩ rfl (by decide)).2.mpr (by decide +kernel)

/-- Other traffic towards the terminal meets no queue at all. -/
theorem qos_terminal_undelayed :
    Crosses sampleQos ⟨"eth1", "eth0", 0, 0⟩ ∧
    ¬ QosShaped reference sampleQos (.ok "#1 SMP") fresh ⟨"eth1", "eth0", 0, 0⟩ := by
  have bare : (transit (reference.execAll fresh (run .float64 sampleQos (.ok "#1 SMP")))
      ⟨"eth1", "eth0", 0, 0⟩).netems = [] := by decide +kernel
  refine ⟨by decide, ?_⟩
  rintro ⟨c, above, q, c', q', path, _⟩
  rw [path] at bare
  cases bare

end Tlink.Properties
