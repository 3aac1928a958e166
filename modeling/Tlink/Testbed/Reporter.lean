import Mathlib.Algebra.Order.Group.Int
import Mathlib.Logic.Function.Basic
import Tlink.Testbed.PacketRing

/-!
What the reporter thread does with the packets of a UDP server (`Reporter.c`). Counters are integers
without bounds. Latency, jitter and rates are in floating point and left out, as are isochronous and
full duplex tests, which are switched off.
-/
namespace Tlink.Testbed

/-! ### The data -/

inductive ReadWriteExtReturnVals where
  | readSuccess
  | readTimeo
  | readTimeoFatal
  | readErrLen
  | readNoAccount
  | writeSuccess
  | writeSelectRetry
  | writeErrAccount
  | writeErrFatal
  | writeTimeo
  | writeNoAccount
  | nullEvent
  deriving DecidableEq

/-- The three bits of `l2errors`. -/
structure L2Errors where
  unknown : Bool
  lengtherr : Bool
  udpcsumerr : Bool
  deriving DecidableEq

def L2Errors.any (e : L2Errors) : Bool := e.unknown || e.lengtherr || e.udpcsumerr

structure ReportStruct where
  packetID : ℤ
  packetLen : ℤ
  errReadwrite : ReadWriteExtReturnVals
  emptyreport : Bool
  l2errors : L2Errors
  deriving DecidableEq

/-- `calloc` and `memset` -/
def ReportStruct.zeroed : ReportStruct := ⟨0, 0, .nullEvent, false, ⟨false, false, false⟩⟩

/-- A total and what it was at the last report. -/
structure ShiftCounter where
  current : ℤ
  prev : ℤ
  deriving DecidableEq

namespace ShiftCounter

def zero : ShiftCounter := ⟨0, 0⟩

def add (c : ShiftCounter) (n : ℤ) : ShiftCounter := { c with current := c.current + n }

def shift (c : ShiftCounter) : ShiftCounter := { c with prev := c.current }

/-- What has come in since the last report. -/
def delta (c : ShiftCounter) : ℤ := c.current - c.prev

@[simp] theorem add_zero (c : ShiftCounter) : c.add 0 = c := by
  simp [add]

@[simp] theorem add_current (c : ShiftCounter) (n : ℤ) : (c.add n).current = c.current + n := rfl
@[simp] theorem add_prev (c : ShiftCounter) (n : ℤ) : (c.add n).prev = c.prev := rfl
@[simp] theorem shift_current (c : ShiftCounter) : c.shift.current = c.current := rfl
@[simp] theorem shift_prev (c : ShiftCounter) : c.shift.prev = c.current := rfl

end ShiftCounter

structure ShiftCounters where
  bytes : ShiftCounter
  lost : ShiftCounter
  outofOrder : ShiftCounter
  datagrams : ShiftCounter
  ipg : ShiftCounter
  deriving DecidableEq

structure L2Stats where
  cnt : ℤ
  unknown : ℤ
  udpcsumerr : ℤ
  lengtherr : ℤ
  totCnt : ℤ
  totUnknown : ℤ
  totUdpcsumerr : ℤ
  totLengtherr : ℤ
  deriving DecidableEq

structure ReadStats where
  cntRead : ℤ
  cntReadTimeo : ℤ
  cntReadErrLen : ℤ
  readCnt : ShiftCounter
  readTimeoCnt : ShiftCounter
  readErrLenCnt : ShiftCounter
  deriving DecidableEq

/-- `struct TransferInfo`; the `cnt` fields are what is printed. -/
structure TransferInfo where
  cntBytes : ℤ
  cntError : ℤ
  cntOutofOrder : ℤ
  cntDatagrams : ℤ
  cntIPG : ℤ
  packetID : ℤ
  total : ShiftCounters
  read : ReadStats
  l2counts : L2Stats
  deriving DecidableEq

def TransferInfo.zeroed : TransferInfo where
  cntBytes := 0
  cntError := 0
  cntOutofOrder := 0
  cntDatagrams := 0
  cntIPG := 0
  packetID := 0
  total := ⟨.zero, .zero, .zero, .zero, .zero⟩
  read := ⟨0, 0, 0, .zero, .zero, .zero⟩
  l2counts := ⟨0, 0, 0, 0, 0, 0, 0, 0⟩

/-! ### One packet -/

/-- The counters of `reporter_compute_packet_pps`. -/
def reporterComputePacketPps (stats : TransferInfo) (packet : ReportStruct) : TransferInfo :=
  if packet.emptyreport then stats
  else { stats with total := { stats.total with
    datagrams := stats.total.datagrams.add 1, ipg := stats.total.ipg.add 1 } }

def l2dropFilterCounter : ℤ := 100

def bit (b : Bool) : ℤ := if b then 1 else 0

/-- The accounting of link layer errors, which starts after a number of datagrams. -/
def countL2 (stats : TransferInfo) (packet : ReportStruct) : TransferInfo :=
  if packet.l2errors.any ∧ l2dropFilterCounter < stats.total.datagrams.current then
    { stats with l2counts :=
      { cnt := stats.l2counts.cnt + 1
        totCnt := stats.l2counts.totCnt + 1
        unknown := stats.l2counts.unknown + bit packet.l2errors.unknown
        totUnknown := stats.l2counts.totUnknown + bit packet.l2errors.unknown
        lengtherr := stats.l2counts.lengtherr + bit packet.l2errors.lengtherr
        totLengtherr := stats.l2counts.totLengtherr + bit packet.l2errors.lengtherr
        udpcsumerr := stats.l2counts.udpcsumerr + bit packet.l2errors.udpcsumerr
        totUdpcsumerr := stats.l2counts.totUdpcsumerr + bit packet.l2errors.udpcsumerr } }
  else stats

/-- A gap in the datagram numbers counts as lost, a number that is not new as out of order. -/
def countSequence (stats : TransferInfo) (packetID : ℤ) : TransferInfo :=
  let stats :=
    if packetID ≠ stats.packetID + 1 then
      if packetID < stats.packetID + 1 then
        { stats with total := { stats.total with outofOrder := stats.total.outofOrder.add 1 } }
      else
        { stats with total := { stats.total with
          lost := stats.total.lost.add (packetID - stats.packetID - 1) } }
    else stats
  if stats.packetID < packetID then { stats with packetID := packetID } else stats

/-- Whether the datagram takes part in the accounting. -/
def Counted (packet : ReportStruct) : Prop := packet.emptyreport = false ∧ 0 < packet.packetID

instance (packet : ReportStruct) : Decidable (Counted packet) := inferInstanceAs (Decidable (_ ∧ _))

def reporterHandlePacketServerUdp (stats : TransferInfo) (packet : ReportStruct) : TransferInfo :=
  let stats :=
    if Counted packet then
      let stats := countSequence stats packet.packetID
      let stats := countL2 stats packet
      let stats :=
        if packet.errReadwrite = .readErrLen then
          { stats with read := { stats.read with readErrLenCnt := stats.read.readErrLenCnt.add 1 } }
        else stats
      let stats := { stats with total :=
        { stats.total with bytes := stats.total.bytes.add packet.packetLen } }
      reporterComputePacketPps stats packet
    else stats
  if packet.errReadwrite ≠ .readNoAccount then
    if packet.emptyreport then
      { stats with read := { stats.read with readTimeoCnt := stats.read.readTimeoCnt.add 1 } }
    else { stats with read := { stats.read with readCnt := stats.read.readCnt.add 1 } }
  else stats

/-! ### What one packet changes -/

theorem countSequence_eq (stats : TransferInfo) (id : ℤ) :
    countSequence stats id = { stats with
      packetID := max stats.packetID id
      total := { stats.total with
        outofOrder := stats.total.outofOrder.add (bit (decide (id ≤ stats.packetID)))
        lost := stats.total.lost.add (max 0 (id - stats.packetID - 1)) } } := by
  rcases lt_trichotomy id (stats.packetID + 1) with late | next | gap
  · have old : id ≤ stats.packetID := by omega
    have nothing : id - stats.packetID - 1 ≤ 0 := by omega
    have other : id ≠ stats.packetID + 1 := by omega
    simp only [countSequence, if_pos other, if_pos late, if_neg (not_lt.mpr old), max_eq_left old,
      max_eq_left nothing, decide_eq_true old, bit, if_true, ShiftCounter.add_zero]
  · subst next
    simp [countSequence, bit]
  · have newer : stats.packetID < id := by omega
    have some : 0 ≤ id - stats.packetID - 1 := by omega
    have other : id ≠ stats.packetID + 1 := by omega
    simp [countSequence, other, not_lt.mpr gap.le, newer, max_eq_right newer.le, max_eq_right some,
      not_le.mpr newer, bit]

@[simp] theorem countL2_packetID (stats : TransferInfo) (packet : ReportStruct) :
    (countL2 stats packet).packetID = stats.packetID := by
  unfold countL2
  split
  · rfl
  · rfl

@[simp] theorem countL2_total (stats : TransferInfo) (packet : ReportStruct) :
    (countL2 stats packet).total = stats.total := by
  unfold countL2
  split
  · rfl
  · rfl

@[simp] theorem countL2_read (stats : TransferInfo) (packet : ReportStruct) :
    (countL2 stats packet).read = stats.read := by
  unfold countL2
  split
  · rfl
  · rfl

theorem handle_counted (stats : TransferInfo) (packet : ReportStruct) (counted : Counted packet) :
    let stats' := reporterHandlePacketServerUdp stats packet
    stats'.packetID = max stats.packetID packet.packetID ∧
    stats'.total = {
      bytes := stats.total.bytes.add packet.packetLen
      lost := stats.total.lost.add (max 0 (packet.packetID - stats.packetID - 1))
      outofOrder := stats.total.outofOrder.add (bit (decide (packet.packetID ≤ stats.packetID)))
      datagrams := stats.total.datagrams.add 1
      ipg := stats.total.ipg.add 1 } ∧
    stats'.read = { stats.read with
      readCnt := stats.read.readCnt.add (bit (decide (packet.errReadwrite ≠ .readNoAccount)))
      readErrLenCnt :=
        stats.read.readErrLenCnt.add (bit (decide (packet.errReadwrite = .readErrLen))) } := by
  have some : packet.emptyreport = false := counted.1
  intro stats'
  simp only [stats', reporterHandlePacketServerUdp, if_pos counted, reporterComputePacketPps, some,
    countSequence_eq]
  by_cases account : packet.errReadwrite = .readNoAccount
  · simp [account, bit, ShiftCounter.add]
  · by_cases errLen : packet.errReadwrite = .readErrLen
    · simp [errLen, bit, ShiftCounter.add]
    · simp [account, errLen, bit, ShiftCounter.add]

theorem handle_uncounted (stats : TransferInfo) (packet : ReportStruct) (ignored : ¬ Counted packet) :
    let stats' := reporterHandlePacketServerUdp stats packet
    stats'.packetID = stats.packetID ∧ stats'.total = stats.total ∧
    stats'.read = { stats.read with
      readCnt := stats.read.readCnt.add
        (bit (decide (packet.emptyreport = false ∧ packet.errReadwrite ≠ .readNoAccount)))
      readTimeoCnt := stats.read.readTimeoCnt.add
        (bit (decide (packet.emptyreport = true ∧ packet.errReadwrite ≠ .readNoAccount))) } := by
  intro stats'
  simp only [stats', reporterHandlePacketServerUdp, if_neg ignored]
  by_cases account : packet.errReadwrite = .readNoAccount
  · simp [account, bit, ShiftCounter.add]
  · cases packet.emptyreport with
    | false => simp [account, bit, ShiftCounter.add]
    | true => simp [account, bit, ShiftCounter.add]

/-! ### Reports -/

def reporterResetTransferStatsServerUdp (stats : TransferInfo) : TransferInfo :=
  { stats with
    total :=
      { bytes := stats.total.bytes.shift
        -- the datagram numbers take the place of the count
        datagrams := { stats.total.datagrams with prev := stats.packetID }
        outofOrder := stats.total.outofOrder.shift
        lost := stats.total.lost.shift
        ipg := stats.total.ipg.shift }
    read := { stats.read with
      readCnt := stats.read.readCnt.shift
      readTimeoCnt := stats.read.readTimeoCnt.shift
      readErrLenCnt := stats.read.readErrLenCnt.shift }
    l2counts := { stats.l2counts with cnt := 0, unknown := 0, udpcsumerr := 0, lengtherr := 0 } }

/-- What has come in since the last report, as it is printed. -/
def intervalCounts (stats : TransferInfo) : TransferInfo :=
  { stats with
    cntBytes := stats.total.bytes.delta
    cntOutofOrder := stats.total.outofOrder.delta
    -- out of order datagrams were counted as lost before
    cntError := max 0 (stats.total.lost.delta - stats.total.outofOrder.delta)
    cntDatagrams := stats.packetID - stats.total.datagrams.prev
    cntIPG := stats.total.ipg.delta
    read := { stats.read with
      cntRead := stats.read.readCnt.delta
      cntReadTimeo := stats.read.readTimeoCnt.delta
      cntReadErrLen := stats.read.readErrLenCnt.delta } }

/-- What has come in at all. -/
def totalCounts (stats : TransferInfo) : TransferInfo :=
  { stats with
    cntOutofOrder := stats.total.outofOrder.current
    cntError := max 0 (stats.total.lost.current - stats.total.outofOrder.current)
    cntDatagrams := stats.packetID
    cntIPG := stats.total.ipg.current
    cntBytes := stats.total.bytes.current
    l2counts := { stats.l2counts with
      cnt := stats.l2counts.totCnt
      unknown := stats.l2counts.totUnknown
      udpcsumerr := stats.l2counts.totUdpcsumerr
      lengtherr := stats.l2counts.totLengtherr }
    read := { stats.read with
      cntRead := stats.read.readCnt.current
      cntReadTimeo := stats.read.readTimeoCnt.current
      cntReadErrLen := stats.read.readErrLenCnt.current } }

/-- What one report adds to the report over all threads. -/
def addToSum (sumstats stats : TransferInfo) : TransferInfo :=
  { sumstats with
    total :=
      { outofOrder := sumstats.total.outofOrder.add stats.total.outofOrder.delta
        lost := sumstats.total.lost.add stats.total.lost.delta
        datagrams := sumstats.total.datagrams.add (stats.packetID - stats.total.datagrams.prev)
        bytes := sumstats.total.bytes.add stats.cntBytes
        ipg := sumstats.total.ipg.add stats.cntIPG }
    read := { sumstats.read with
      cntRead := sumstats.read.cntRead + stats.read.cntRead
      cntReadTimeo := sumstats.read.cntReadTimeo + stats.read.cntReadTimeo
      cntReadErrLen := sumstats.read.cntReadErrLen + stats.read.cntReadErrLen } }

/-- The statistics of a thread and of all threads, and what is printed. `significant` says that there
are interval reports and that enough time has passed since the last one. -/
def reporterTransferProtocolServerUdp (stats sumstats : TransferInfo) (final significant : Bool) :
    TransferInfo × TransferInfo × List TransferInfo :=
  let stats := intervalCounts stats
  let sumstats := addToSum sumstats stats
  if final then
    let partialReport := if 0 < stats.cntBytes ∧ significant then [stats] else []
    (totalCounts stats, sumstats, partialReport ++ [totalCounts stats])
  else (reporterResetTransferStatsServerUdp stats, sumstats, [stats])

/-- The same for all threads together. Where the output is masked nothing is printed. -/
def reporterTransferProtocolSumServerUdp (sumstats : TransferInfo) (final masked : Bool) :
    TransferInfo × List TransferInfo :=
  let sumstats :=
    if final then
      { sumstats with
        cntOutofOrder := sumstats.total.outofOrder.current
        cntError := max 0 (sumstats.total.lost.current - sumstats.total.outofOrder.current)
        cntDatagrams := sumstats.total.datagrams.current
        cntBytes := sumstats.total.bytes.current
        cntIPG := sumstats.total.ipg.current }
    else
      { sumstats with
        cntOutofOrder := sumstats.total.outofOrder.delta
        cntError := max 0 (sumstats.total.lost.delta - sumstats.total.outofOrder.delta)
        cntDatagrams := sumstats.total.datagrams.delta
        cntBytes := sumstats.total.bytes.delta
        cntIPG := sumstats.total.ipg.delta }
  let printed := if masked then [] else [sumstats]
  let sumstats :=
    if masked then sumstats
    else { sumstats with total := { sumstats.total with bytes := sumstats.total.bytes.shift } }
  if final then (sumstats, printed)
  else
    -- the sum has no datagram numbers of its own
    let sumstats := { sumstats with packetID := sumstats.total.datagrams.current }
    (reporterResetTransferStatsServerUdp sumstats, printed)

/-! ### The threads of a group -/

/-- The packet `EndJob` enqueues when a traffic thread is done. -/
def finalPacket (packetLen : ℤ) : ReportStruct :=
  { ReportStruct.zeroed with packetID := -1, packetLen := packetLen }

/-- Where a thread is: `Iperf_push_host` counts it into the group and `Iperf_remove_host` out again. -/
inductive Place where
  | outside
  | inside
  | gone
  deriving DecidableEq

/-- The reports of the threads of a group and `struct SumReport`, of which `count` and `maxcount` are
`reference`. -/
structure ReportGroup (ι : Type) where
  isSumOnly : Bool
  place : ι → Place
  threads : ι → TransferInfo
  finished : ι → Bool
  sumstats : TransferInfo
  isMaskOutput : Bool
  count : ℤ
  maxcount : ℤ
  finalThreadUpcount : ℤ

/-- What the reporter does for one thread. An interval report of the thread may bring one of the group
with it. -/
inductive Handling where
  | packet (packet : ReportStruct) (significant : Bool)
  | interval (sum : Bool)
  deriving DecidableEq

inductive GroupMove where
  | join
  | leave
  | handling (handling : Handling)
  deriving DecidableEq

/-- What no thread does: to come twice or too late, to go before it came, to go on after its end. -/
inductive Misuse where
  | registered
  | freed
  | absent
  | ended
  deriving DecidableEq

namespace ReportGroup

variable {ι : Type}

/-- `InitSumReport` -/
def zeroed (isSumOnly : Bool) : ReportGroup ι :=
  ⟨isSumOnly, fun _ => .outside, fun _ => .zeroed, fun _ => false, .zeroed, false, 0, 0, 0⟩

def incrSumReportRefCounter (g : ReportGroup ι) : ReportGroup ι :=
  let count := g.count + 1
  { g with count := count, maxcount := if count > g.maxcount then count else g.maxcount }

/-- `DecrSumReportRefCounter`; the last thread frees the sum report. -/
def decrSumReportRefCounter (g : ReportGroup ι) : ReportGroup ι := { g with count := g.count - 1 }

def Freed (g : ReportGroup ι) : Prop := g.count = 0 ∧ g.maxcount ≠ 0

instance (g : ReportGroup ι) : Decidable g.Freed := inferInstanceAs (Decidable (_ ∧ _))

def printedBy (i : Option ι) (reports : List TransferInfo) : List (Option ι × TransferInfo) :=
  reports.map fun report => (i, report)

/-- Where only sums are wanted the threads have no `output_handler`. -/
def output (g : ReportGroup ι) (i : ι) (reports : List TransferInfo) :
    List (Option ι × TransferInfo) :=
  printedBy (some i) (if g.isSumOnly then [] else reports)

variable [DecidableEq ι]

/-- The body of the loop in `reporter_process_transfer_report` for a packet of a thread. -/
def handle (g : ReportGroup ι) (i : ι) (packet : ReportStruct) (significant : Bool) :
    ReportGroup ι × List (Option ι × TransferInfo) :=
  let stats := reporterHandlePacketServerUdp (g.threads i) packet
  if packet.packetID < 0 then
    -- the last packet event
    let (stats, sumstats, printed) :=
      reporterTransferProtocolServerUdp stats g.sumstats true significant
    let g : ReportGroup ι := { g with
      threads := Function.update g.threads i stats
      finished := Function.update g.finished i true
      sumstats := sumstats
      finalThreadUpcount := g.finalThreadUpcount + 1 }
    if g.finalThreadUpcount = g.maxcount ∧ (g.maxcount > 1 ∨ g.isSumOnly) then
      let (sumstats, sumPrinted) :=
        reporterTransferProtocolSumServerUdp g.sumstats true g.isMaskOutput
      ({ g with sumstats := sumstats }, g.output i printed ++ printedBy none sumPrinted)
    else (g, g.output i printed)
  else ({ g with threads := Function.update g.threads i stats }, [])

/-- `reporter_condprint_time_interval_report` when the interval is over, and with `sum` for all threads
of the group. -/
def report (g : ReportGroup ι) (i : ι) (sum : Bool) :
    ReportGroup ι × List (Option ι × TransferInfo) :=
  let (stats, sumstats, printed) :=
    reporterTransferProtocolServerUdp (g.threads i) g.sumstats false false
  let g := { g with threads := Function.update g.threads i stats, sumstats := sumstats }
  if sum then
    let g := { g with isMaskOutput := !(decide (g.count > 1) || g.isSumOnly) }
    let (sumstats, sumPrinted) :=
      reporterTransferProtocolSumServerUdp g.sumstats false g.isMaskOutput
    ({ g with sumstats := sumstats }, g.output i printed ++ printedBy none sumPrinted)
  else (g, g.output i printed)

def step (g : ReportGroup ι) (move : ι × GroupMove) :
    Except Misuse (ReportGroup ι × List (Option ι × TransferInfo)) :=
  let i := move.1
  match move.2, g.place i with
  | .join, .outside =>
    if g.Freed then .error .freed
    else .ok ({ g.incrSumReportRefCounter with place := Function.update g.place i .inside }, [])
  | .join, _ => .error .registered
  | .leave, .inside =>
    .ok ({ g.decrSumReportRefCounter with place := Function.update g.place i .gone }, [])
  | .handling handling, .inside =>
    if g.finished i then .error .ended
    else
      match handling with
      | .packet packet significant => .ok (g.handle i packet significant)
      | .interval sum => .ok (g.report i sum)
  | _, _ => .error .absent

end ReportGroup

end Tlink.Testbed
