import Mathlib.Algebra.BigOperators.Group.List.Basic
import Mathlib.Data.Finset.Card
import Mathlib.Data.List.GetD
import Mathlib.Data.List.Induction
import Mathlib.Tactic.Linarith
import Tlink.Lib.Interleave
import Tlink.Lib.PartialRun
import Tlink.Testbed.Reporter

/-!
# Lost, late and counted twice

The server numbers nothing itself: from the numbers of the datagrams that arrive, in whatever order
and however often, it concludes which ones did not. Lost and received datagrams make up the numbers
seen so far plus those that came late, so what is reported as lost in the end is the number of missing
datagrams less the number of duplicates.
-/
namespace Tlink.Properties

open Tlink.Testbed

/-! ### What arrived -/

/-- The numbers of the datagrams that take part in the accounting, as they came. -/
def numbers (packets : List ReportStruct) : List ℤ :=
  (packets.filter fun packet => Counted packet).map fun packet => packet.packetID

def highest (ids : List ℤ) : ℤ := ids.foldl max 0

/-- How many came after a number at least as high. -/
def late (ids : List ℤ) : ℕ :=
  ((Finset.range ids.length).filter fun i => ∃ j < i, ids.getD i 0 ≤ ids.getD j 0).card

/-- How many numbers up to the highest did not come. -/
def missing (ids : List ℤ) : ℕ :=
  ((Finset.range (highest ids).toNat).filter fun k : ℕ => (k : ℤ) + 1 ∉ ids).card

/-- How many came again. -/
def duplicates (ids : List ℤ) : ℕ := ids.length - ids.toFinset.card

theorem numbers_concat (packets : List ReportStruct) (packet : ReportStruct) :
    numbers (packets ++ [packet]) =
      numbers packets ++ if Counted packet then [packet.packetID] else [] := by
  by_cases counted : Counted packet
  · simp [numbers, counted]
  · simp [numbers, counted]

theorem numbers_positive (packets : List ReportStruct) : ∀ n ∈ numbers packets, 0 < n := by
  intro n member
  obtain ⟨packet, inside, rfl⟩ := List.mem_map.mp member
  have counted : Counted packet := by simpa using (List.mem_filter.mp inside).2
  exact counted.2

theorem highest_concat (ids : List ℤ) (n : ℤ) : highest (ids ++ [n]) = max (highest ids) n := by
  rw [highest, List.foldl_append]
  rfl

theorem highest_nonneg (ids : List ℤ) : 0 ≤ highest ids := by
  induction ids using List.reverseRecOn with
  | nil => exact le_rfl
  | append_singleton ids n ih =>
    rw [highest_concat]
    exact ih.trans (le_max_left _ _)

/-- A number is late if it does not exceed the highest so far. -/
theorem le_highest_iff (ids : List ℤ) (n : ℤ) (positive : 0 < n) :
    n ≤ highest ids ↔ ∃ m ∈ ids, n ≤ m := by
  induction ids using List.reverseRecOn with
  | nil => simp [highest, positive]
  | append_singleton ids m ih => simp [highest_concat, ih, or_and_right, exists_or]

theorem late_concat (ids : List ℤ) (n : ℤ) (positive : 0 < n) :
    (late (ids ++ [n]) : ℤ) = late ids + bit (decide (n ≤ highest ids)) := by
  -- the positions before the new one see the same numbers as before
  have before : ((Finset.range ids.length).filter fun i =>
      ∃ j < i, (ids ++ [n]).getD i 0 ≤ (ids ++ [n]).getD j 0) =
      (Finset.range ids.length).filter fun i => ∃ j < i, ids.getD i 0 ≤ ids.getD j 0 := by
    apply Finset.filter_congr
    intro i inside
    have bound := Finset.mem_range.mp inside
    refine exists_congr fun j => and_congr_right fun earlier => ?_
    rw [List.getD_append _ _ _ _ bound, List.getD_append _ _ _ _ (earlier.trans bound)]
  -- the new one looks back at all of them
  have new : (∃ j < ids.length, (ids ++ [n]).getD ids.length 0 ≤ (ids ++ [n]).getD j 0) ↔
      n ≤ highest ids := by
    rw [le_highest_iff ids n positive]
    constructor
    · rintro ⟨j, bound, atMost⟩
      rw [List.getD_append _ _ _ _ bound, List.getD_eq_getElem _ _ bound] at atMost
      exact ⟨ids[j], List.getElem_mem bound, by simpa using atMost⟩
    · rintro ⟨m, member, atMost⟩
      obtain ⟨j, bound, rfl⟩ := List.getElem_of_mem member
      refine ⟨j, bound, ?_⟩
      rw [List.getD_append _ _ _ _ bound, List.getD_eq_getElem _ _ bound]
      simpa using atMost
  rw [late, List.length_append, List.length_singleton, Finset.range_add_one, Finset.filter_insert,
    before]
  by_cases old : n ≤ highest ids
  · rw [if_pos (new.mpr old), Finset.card_insert_of_notMem (by simp)]
    simp [late, old, bit]
  · rw [if_neg (fun seen => old (new.mp seen))]
    simp [late, old, bit]

/-- Every number up to the highest came or is missing, and what came makes up the length if the
repetitions are counted. -/
theorem missing_sub_duplicates (ids : List ℤ) (positive : ∀ n ∈ ids, 0 < n) :
    (missing ids : ℤ) - duplicates ids = highest ids - ids.length := by
  have notNegative := highest_nonneg ids
  have fewer : ids.toFinset.card ≤ ids.length := List.toFinset_card_le ids
  -- the numbers that came are those up to the highest that are not missing
  have came : ids.toFinset =
      ((Finset.range (highest ids).toNat).filter fun k : ℕ => (k : ℤ) + 1 ∈ ids).image
        fun k : ℕ => (k : ℤ) + 1 := by
    ext n
    simp only [List.mem_toFinset, Finset.mem_image, Finset.mem_filter, Finset.mem_range]
    constructor
    · intro member
      have least := positive n member
      have most := (le_highest_iff ids n least).mpr ⟨n, member, le_rfl⟩
      have back : ((n - 1).toNat : ℤ) + 1 = n := by omega
      exact ⟨(n - 1).toNat, ⟨by omega, by rwa [back]⟩, back⟩
    · rintro ⟨k, ⟨_, member⟩, rfl⟩
      exact member
  have distinct : ids.toFinset.card =
      ((Finset.range (highest ids).toNat).filter fun k : ℕ => (k : ℤ) + 1 ∈ ids).card := by
    rw [came]
    apply Finset.card_image_of_injective
    intro k l same
    simpa using same
  -- what came and what is missing make up the numbers to the highest
  have all := Finset.card_filter_add_card_filter_not (s := Finset.range (highest ids).toNat)
    fun k : ℕ => (k : ℤ) + 1 ∈ ids
  rw [Finset.card_range] at all
  rw [missing, duplicates]
  omega

/-! ### The counters -/

def bytes (packets : List ReportStruct) : ℤ :=
  ((packets.filter fun packet => Counted packet).map fun packet => packet.packetLen).sum

/-- Every packet that is not the report of a timeout counts as read, the last one included. -/
def reads (packets : List ReportStruct) : ℕ :=
  packets.countP fun packet => packet.emptyreport = false ∧ packet.errReadwrite ≠ .readNoAccount

def timeouts (packets : List ReportStruct) : ℕ :=
  packets.countP fun packet => packet.emptyreport = true ∧ packet.errReadwrite ≠ .readNoAccount

def wrongLengths (packets : List ReportStruct) : ℕ :=
  packets.countP fun packet => Counted packet ∧ packet.errReadwrite = .readErrLen

/-- What the counters hold after these packets. -/
structure Tally (packets : List ReportStruct) (stats : TransferInfo) : Prop where
  packetID : stats.packetID = highest (numbers packets)
  outofOrder : stats.total.outofOrder.current = late (numbers packets)
  ipg : stats.total.ipg.current = (numbers packets).length
  bytes : stats.total.bytes.current = bytes packets
  read : stats.read.readCnt.current = reads packets
  readTimeo : stats.read.readTimeoCnt.current = timeouts packets
  readErrLen : stats.read.readErrLenCnt.current = wrongLengths packets
  /-- Lost and received make up the numbers so far and those that came late. -/
  balanced : stats.total.lost.current + stats.total.ipg.current =
    stats.packetID + stats.total.outofOrder.current

theorem tally_zeroed : Tally [] .zeroed := by
  constructor
  all_goals rfl

theorem bytes_concat (packets : List ReportStruct) (packet : ReportStruct) :
    bytes (packets ++ [packet]) = bytes packets + if Counted packet then packet.packetLen else 0 := by
  by_cases counted : Counted packet
  · simp [bytes, counted]
  · simp [bytes, counted]

theorem countP_concat {α : Type} (p : α → Bool) (xs : List α) (x : α) :
    ((xs ++ [x]).countP p : ℤ) = xs.countP p + bit (p x) := by
  cases chosen : p x with
  | false => simp [chosen, bit]
  | true => simp [chosen, bit]

theorem Tally.packet {packets : List ReportStruct} {stats : TransferInfo} (tally : Tally packets stats)
    (packet : ReportStruct) :
    Tally (packets ++ [packet]) (reporterHandlePacketServerUdp stats packet) := by
  -- a packet with a number adds to the counters of datagrams, any other only to those of reads
  by_cases counted : Counted packet
  · obtain ⟨packetID, total, read⟩ := handle_counted stats packet counted
    have ids : numbers (packets ++ [packet]) = numbers packets ++ [packet.packetID] := by
      rw [numbers_concat, if_pos counted]
    have balanced := tally.balanced
    constructor
    · rw [packetID, ids, highest_concat, tally.packetID]
    · rw [total, ids, late_concat _ _ counted.2, ← tally.packetID, ← tally.outofOrder]
      rfl
    · rw [total, ids, List.length_append, Nat.cast_add, ← tally.ipg]
      rfl
    · rw [total, bytes_concat, if_pos counted, ← tally.bytes]
      rfl
    · rw [read, reads, countP_concat, ← reads, ← tally.read]
      simp [counted.1]
    · rw [read, timeouts, countP_concat, ← timeouts, ← tally.readTimeo]
      simp [counted.1, bit]
    · rw [read, wrongLengths, countP_concat, ← wrongLengths, ← tally.readErrLen]
      simp [counted]
    · rw [packetID, total]
      simp only [ShiftCounter.add_current, bit, decide_eq_true_eq]
      -- a late packet takes back a loss, a gap adds its width
      by_cases old : packet.packetID ≤ stats.packetID
      · rw [if_pos old]
        omega
      · rw [if_neg old]
        omega
  · obtain ⟨packetID, total, read⟩ := handle_uncounted stats packet counted
    have ids : numbers (packets ++ [packet]) = numbers packets := by
      rw [numbers_concat, if_neg counted, List.append_nil]
    constructor
    · rw [packetID, ids, tally.packetID]
    · rw [total, ids, tally.outofOrder]
    · rw [total, ids, tally.ipg]
    · rw [total, bytes_concat, if_neg counted, add_zero, tally.bytes]
    · rw [read, reads, countP_concat, ← reads, ← tally.read]
      rfl
    · rw [read, timeouts, countP_concat, ← timeouts, ← tally.readTimeo]
      rfl
    · rw [read, wrongLengths, countP_concat, ← wrongLengths, ← tally.readErrLen]
      simp [counted, bit]
    · rw [packetID, total, tally.balanced]

/-! ### The figures of a report -/

/-- What a report counts. -/
inductive Figure where
  | bytes
  | outofOrder
  | datagrams
  | ipg
  | read
  | readTimeo
  | readErrLen

namespace Figure

/-- The counter a figure is taken from. For the datagrams it is the highest number. -/
def meter (stats : TransferInfo) : Figure → ShiftCounter
  | .bytes => stats.total.bytes
  | .outofOrder => stats.total.outofOrder
  | .datagrams => ⟨stats.packetID, stats.total.datagrams.prev⟩
  | .ipg => stats.total.ipg
  | .read => stats.read.readCnt
  | .readTimeo => stats.read.readTimeoCnt
  | .readErrLen => stats.read.readErrLenCnt

def shown (report : TransferInfo) : Figure → ℤ
  | .bytes => report.cntBytes
  | .outofOrder => report.cntOutofOrder
  | .datagrams => report.cntDatagrams
  | .ipg => report.cntIPG
  | .read => report.read.cntRead
  | .readTimeo => report.read.cntReadTimeo
  | .readErrLen => report.read.cntReadErrLen

/-- What the packets come to. -/
def counted (packets : List ReportStruct) : Figure → ℤ
  | .bytes => Properties.bytes packets
  | .outofOrder => late (numbers packets)
  | .datagrams => highest (numbers packets)
  | .ipg => (numbers packets).length
  | .read => reads packets
  | .readTimeo => timeouts packets
  | .readErrLen => wrongLengths packets

/-- What has been added to the figure of the group. -/
def gathered (sumstats : TransferInfo) : Figure → ℤ
  | .bytes => sumstats.total.bytes.current
  | .outofOrder => sumstats.total.outofOrder.current
  | .datagrams => sumstats.total.datagrams.current
  | .ipg => sumstats.total.ipg.current
  | .read => sumstats.read.cntRead
  | .readTimeo => sumstats.read.cntReadTimeo
  | .readErrLen => sumstats.read.cntReadErrLen

variable (stats sumstats : TransferInfo) (figure : Figure)

theorem counted_nil : figure.counted [] = 0 := by
  cases figure
  all_goals rfl

theorem shown_intervalCounts : figure.shown (intervalCounts stats) = (figure.meter stats).delta := by
  cases figure
  all_goals rfl

theorem meter_intervalCounts : figure.meter (intervalCounts stats) = figure.meter stats := by
  cases figure
  all_goals rfl

theorem shown_totalCounts : figure.shown (totalCounts stats) = (figure.meter stats).current := by
  cases figure
  all_goals rfl

theorem meter_reset :
    figure.meter (reporterResetTransferStatsServerUdp stats) = (figure.meter stats).shift := by
  cases figure
  all_goals rfl

theorem gathered_addToSum : figure.gathered (addToSum sumstats (intervalCounts stats)) =
    figure.gathered sumstats + (figure.meter stats).delta := by
  cases figure
  all_goals rfl

/-- Packets are counted, nothing is reported of them yet. -/
theorem meter_prev_handle (packet : ReportStruct) :
    (figure.meter (reporterHandlePacketServerUdp stats packet)).prev =
      (figure.meter stats).prev := by
  by_cases counted : Counted packet
  · obtain ⟨_, total, read⟩ := handle_counted stats packet counted
    cases figure
    all_goals simp [meter, total, read]
  · obtain ⟨_, total, read⟩ := handle_uncounted stats packet counted
    cases figure
    all_goals simp [meter, total, read]

theorem gathered_sum (final masked : Bool) :
    figure.gathered (reporterTransferProtocolSumServerUdp sumstats final masked).1 =
      figure.gathered sumstats := by
  cases final
  all_goals cases masked
  all_goals cases figure
  all_goals rfl

end Figure

theorem Tally.current {packets : List ReportStruct} {stats : TransferInfo} (tally : Tally packets stats)
    (figure : Figure) : (figure.meter stats).current = figure.counted packets := by
  cases figure with
  | bytes => exact tally.bytes
  | outofOrder => exact tally.outofOrder
  | datagrams => exact tally.packetID
  | ipg => exact tally.ipg
  | read => exact tally.read
  | readTimeo => exact tally.readTimeo
  | readErrLen => exact tally.readErrLen

theorem lost_sum (sumstats : TransferInfo) (final masked : Bool) :
    (reporterTransferProtocolSumServerUdp sumstats final masked).1.total.lost.current =
      sumstats.total.lost.current := by
  cases final
  all_goals cases masked
  all_goals rfl

end Tlink.Properties
