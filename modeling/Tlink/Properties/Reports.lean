import Mathlib.Algebra.BigOperators.Fin
import Mathlib.Data.List.DropRight
import Tlink.Lib.Clipped
import Tlink.Properties.Accounting

/-!
# Reports of threads

A thread reports what came in since its last report, and at its end what came in at all. Its reports add
up, and its group knows of each thread what the thread has reported, in whatever order the reporter takes
packets and reports of the threads. Only the lost datagrams need care: they are clipped at zero in every
report, so late datagrams of one interval do not make up for lost ones of another.
-/
namespace Tlink.Properties

open Tlink.Testbed Interleave

variable {ι : Type} [DecidableEq ι]

def packetsIn (handlings : List Handling) : List ReportStruct :=
  handlings.filterMap fun handling =>
    match handling with
    | .packet packet _ => some packet
    | .interval _ => none

/-- What the reporter does for one thread. -/
def handled (i : ι) (moves : List (ι × GroupMove)) : List Handling :=
  (issuedBy i moves).filterMap fun move =>
    match move with
    | .handling handling => some handling
    | _ => none

/-- What has been done up to the last report of the thread, the last packet included. -/
def reported (handlings : List Handling) : List Handling :=
  handlings.rdropWhile fun handling =>
    match handling with
    | .packet packet _ => decide (0 ≤ packet.packetID)
    | .interval _ => false

/-- Datagrams that were counted were lost or received or both: what is late takes back a loss. -/
def Coherent (report : TransferInfo) : Prop :=
  report.cntError = Clipped.clip (report.cntDatagrams - report.cntIPG)

/-- Where datagrams add up, the errors of the parts are at least the error of the whole. -/
theorem Coherent.parts {total : TransferInfo} (coherent : Coherent total) (reports : Multiset TransferInfo)
    (parts : ∀ report ∈ reports, Coherent report)
    (adds : ∀ figure : Figure, (reports.map figure.shown).sum = figure.shown total) :
    total.cntError ≤ (reports.map (·.cntError)).sum ∧
    (total.cntError = (reports.map (·.cntError)).sum ↔
      (∀ report ∈ reports, report.cntIPG ≤ report.cntDatagrams) ∨
      ∀ report ∈ reports, report.cntDatagrams ≤ report.cntIPG) := by
  have errors : reports.map (·.cntError) =
      (reports.map fun report => report.cntDatagrams - report.cntIPG).map Clipped.clip := by
    rw [Multiset.map_map]
    exact Multiset.map_congr rfl parts
  have whole : total.cntError =
      Clipped.clip (reports.map fun report => report.cntDatagrams - report.cntIPG).sum := by
    rw [Multiset.sum_map_sub]
    exact coherent.trans (congrArg Clipped.clip
      (congrArg₂ (· - ·) (adds .datagrams).symm (adds .ipg).symm))
  rw [whole, errors]
  refine ⟨Clipped.clip_sum_le _, (Clipped.clip_sum_eq_iff _).trans ?_⟩
  simp

/-! ### One thread -/

/-- A thread that has work to do. -/
structure Open (handlings : List Handling) (reports : List TransferInfo) (stats : TransferInfo) :
    Prop where
  tally : Tally (packetsIn handlings) stats
  balanced : stats.total.lost.prev + stats.total.ipg.prev =
    stats.total.datagrams.prev + stats.total.outofOrder.prev
  sum : ∀ figure : Figure, (reports.map figure.shown).sum = (figure.meter stats).prev
  known : ∀ figure : Figure, (figure.meter stats).prev = figure.counted (packetsIn (reported handlings))
  coherent : ∀ report ∈ reports, Coherent report
  goesOn : ∀ packet ∈ packetsIn handlings, 0 ≤ packet.packetID

/-- A thread that has printed its last report, the total of all others. -/
structure Closed (handlings : List Handling) (reports : List TransferInfo) (stats : TransferInfo)
    (last : Bool) (intervals : List TransferInfo) (rest : TransferInfo) : Prop where
  ended : ∃ before packet, handlings = before ++ [.packet packet last] ∧ packet.packetID < 0
  tally : Tally (packetsIn handlings) stats
  total : ∀ figure : Figure, figure.shown stats = (figure.meter stats).current
  reports : reports =
    intervals ++ (if 0 < rest.cntBytes ∧ last then [rest] else []) ++ [stats]
  sum : ∀ figure : Figure, ((intervals ++ [rest]).map figure.shown).sum = figure.shown stats
  coherent : ∀ report ∈ intervals ++ [rest, stats], Coherent report

theorem coherent_intervalCounts (stats : TransferInfo)
    (balanced : stats.total.lost.prev + stats.total.ipg.prev =
      stats.total.datagrams.prev + stats.total.outofOrder.prev)
    (balanced' : stats.total.lost.current + stats.total.ipg.current =
      stats.packetID + stats.total.outofOrder.current) :
    Coherent (intervalCounts stats) := by
  have same : stats.total.lost.delta - stats.total.outofOrder.delta =
      stats.packetID - stats.total.datagrams.prev - stats.total.ipg.delta := by
    simp only [ShiftCounter.delta]
    omega
  exact congrArg Clipped.clip same

theorem coherent_totalCounts (stats : TransferInfo)
    (balanced : stats.total.lost.current + stats.total.ipg.current =
      stats.packetID + stats.total.outofOrder.current) :
    Coherent (totalCounts stats) := by
  have same : stats.total.lost.current - stats.total.outofOrder.current =
      stats.packetID - stats.total.ipg.current := by omega
  exact congrArg Clipped.clip same

theorem open_zeroed : Open [] [] .zeroed := by
  refine ⟨tally_zeroed, rfl, ?_, ?_, by simp, by simp [packetsIn]⟩
  · intro figure
    cases figure
    all_goals rfl
  · intro figure
    rw [reported, List.rdropWhile_nil, packetsIn, List.filterMap_nil, Figure.counted_nil]
    cases figure
    all_goals rfl

theorem packetsIn_packet (handlings : List Handling) (packet : ReportStruct) (significant : Bool) :
    packetsIn (handlings ++ [.packet packet significant]) = packetsIn handlings ++ [packet] := by
  simp [packetsIn]

theorem packetsIn_interval (handlings : List Handling) (sum : Bool) :
    packetsIn (handlings ++ [.interval sum]) = packetsIn handlings := by
  simp [packetsIn]

theorem reported_packet (handlings : List Handling) (packet : ReportStruct) (significant : Bool)
    (goesOn : ¬ packet.packetID < 0) :
    reported (handlings ++ [.packet packet significant]) = reported handlings :=
  List.rdropWhile_concat_pos _ _ _ (by simpa using goesOn)

theorem reported_interval (handlings : List Handling) (sum : Bool) :
    reported (handlings ++ [.interval sum]) = handlings ++ [.interval sum] :=
  List.rdropWhile_concat_neg _ _ _ (by simp)

theorem reported_last (handlings : List Handling) (packet : ReportStruct) (significant : Bool)
    (final : packet.packetID < 0) :
    reported (handlings ++ [.packet packet significant]) = handlings ++ [.packet packet significant] :=
  List.rdropWhile_concat_neg _ _ _ (by simpa using final)

theorem handle_balanced_prev (stats : TransferInfo) (packet : ReportStruct)
    (balanced : stats.total.lost.prev + stats.total.ipg.prev =
      stats.total.datagrams.prev + stats.total.outofOrder.prev) :
    let stats' := reporterHandlePacketServerUdp stats packet
    stats'.total.lost.prev + stats'.total.ipg.prev =
      stats'.total.datagrams.prev + stats'.total.outofOrder.prev := by
  intro stats'
  by_cases counted : Counted packet
  · obtain ⟨_, total, _⟩ := handle_counted stats packet counted
    rw [total]
    exact balanced
  · obtain ⟨_, total, _⟩ := handle_uncounted stats packet counted
    rw [total]
    exact balanced

variable {handlings : List Handling} {reports : List TransferInfo} {stats : TransferInfo}

theorem Open.packet (running : Open handlings reports stats) (packet : ReportStruct)
    (significant : Bool) (goesOn : ¬ packet.packetID < 0) :
    Open (handlings ++ [.packet packet significant]) reports
      (reporterHandlePacketServerUdp stats packet) := by
  refine ⟨?_, handle_balanced_prev stats packet running.balanced, ?_, ?_, running.coherent, ?_⟩
  · rw [packetsIn_packet]
    exact running.tally.packet packet
  · intro figure
    rw [running.sum, Figure.meter_prev_handle]
  · intro figure
    rw [Figure.meter_prev_handle, running.known, reported_packet _ _ _ goesOn]
  · rw [packetsIn_packet]
    intro other member
    rcases List.mem_append.mp member with old | new
    · exact running.goesOn other old
    · obtain rfl := List.mem_singleton.mp new
      omega

theorem Open.interval (running : Open handlings reports stats) (sum : Bool) :
    Open (handlings ++ [.interval sum]) (reports ++ [intervalCounts stats])
      (reporterResetTransferStatsServerUdp (intervalCounts stats)) := by
  have tally := running.tally
  have here := coherent_intervalCounts stats running.balanced tally.balanced
  refine ⟨?_, tally.balanced, ?_, ?_, ?_, ?_⟩
  · rw [packetsIn_interval]
    -- shifting leaves the totals alone
    exact ⟨tally.packetID, tally.outofOrder, tally.ipg, tally.bytes, tally.read, tally.readTimeo,
      tally.readErrLen, tally.balanced⟩
  · intro figure
    rw [List.map_append, List.sum_append, running.sum, Figure.meter_reset,
      Figure.meter_intervalCounts, List.map_singleton, List.sum_singleton,
      Figure.shown_intervalCounts, ShiftCounter.delta, ShiftCounter.shift_prev]
    omega
  · intro figure
    rw [reported_interval, packetsIn_interval, Figure.meter_reset, ShiftCounter.shift_prev,
      Figure.meter_intervalCounts]
    exact tally.current figure
  · intro report member
    rcases List.mem_append.mp member with old | new
    · exact running.coherent report old
    · obtain rfl := List.mem_singleton.mp new
      exact here
  · rw [packetsIn_interval]
    exact running.goesOn

theorem Open.last (running : Open handlings reports stats) (packet : ReportStruct)
    (significant : Bool) (final : packet.packetID < 0) :
    let rest := intervalCounts (reporterHandlePacketServerUdp stats packet)
    Closed (handlings ++ [.packet packet significant])
      (reports ++ ((if 0 < rest.cntBytes ∧ significant then [rest] else []) ++ [totalCounts rest]))
      (totalCounts rest) significant reports rest := by
  intro rest
  have tally := running.tally.packet packet
  have prev := handle_balanced_prev stats packet running.balanced
  -- the partial report is an interval like the others, printed or not
  have here : Coherent rest := coherent_intervalCounts _ prev tally.balanced
  refine ⟨⟨handlings, packet, rfl, final⟩, ?_, ?_, (List.append_assoc ..).symm, ?_, ?_⟩
  · rw [packetsIn_packet]
    exact ⟨tally.packetID, tally.outofOrder, tally.ipg, tally.bytes, tally.read, tally.readTimeo,
      tally.readErrLen, tally.balanced⟩
  · intro figure
    cases figure
    all_goals rfl
  · intro figure
    -- the intervals and the rest make up the total, whether the rest is printed or not
    rw [List.map_append, List.sum_append, running.sum, List.map_singleton, List.sum_singleton,
      Figure.shown_intervalCounts, Figure.shown_totalCounts, Figure.meter_intervalCounts,
      ← Figure.meter_prev_handle stats figure packet, ShiftCounter.delta]
    omega
  · intro report member
    simp only [List.mem_append, List.mem_cons, List.not_mem_nil, or_false] at member
    rcases member with old | rfl | rfl
    · exact running.coherent report old
    · exact here
    · exact coherent_totalCounts rest tally.balanced

/-! ### The group -/

def Kept (handlings : List Handling) (reports : List TransferInfo) (stats : TransferInfo)
    (finished : Bool) : Prop :=
  if finished then ∃ last intervals rest, Closed handlings reports stats last intervals rest
  else Open handlings reports stats

/-- What the group has been told of a thread. -/
def told (stats : TransferInfo) (finished : Bool) (figure : Figure) : ℤ :=
  if finished then figure.shown stats else (figure.meter stats).prev

theorem Kept.told {finished : Bool} (kept : Kept handlings reports stats finished)
    (figure : Figure) :
    told stats finished figure = figure.counted (packetsIn (reported handlings)) := by
  cases finished with
  | true =>
    obtain ⟨_, _, _, closed⟩ := kept
    obtain ⟨before, packet, split, final⟩ := closed.ended
    rw [split, reported_last _ _ _ final, ← split]
    exact (closed.total figure).trans (closed.tally.current figure)
  | false =>
    have running : Open handlings reports stats := kept
    exact running.known figure

/-- What one move can do. -/
inductive Stepped (g : ReportGroup ι) :
    ι × GroupMove → ReportGroup ι × List (Option ι × TransferInfo) → Prop
  | join (i : ι) (outside : g.place i = .outside) (allocated : ¬ g.Freed) :
    Stepped g (i, .join)
      ({ g.incrSumReportRefCounter with place := Function.update g.place i .inside }, [])
  | leave (i : ι) (inside : g.place i = .inside) :
    Stepped g (i, .leave)
      ({ g.decrSumReportRefCounter with place := Function.update g.place i .gone }, [])
  | packet (i : ι) (packet : ReportStruct) (significant : Bool) (inside : g.place i = .inside)
    (job : g.finished i = false) :
    Stepped g (i, .handling (.packet packet significant)) (g.handle i packet significant)
  | interval (i : ι) (sum : Bool) (inside : g.place i = .inside) (job : g.finished i = false) :
    Stepped g (i, .handling (.interval sum)) (g.report i sum)

theorem group_step_cases (g : ReportGroup ι) (move : ι × GroupMove)
    (r : ReportGroup ι × List (Option ι × TransferInfo)) (stepped : g.step move = .ok r) :
    Stepped g move r := by
  obtain ⟨i, move⟩ := move
  cases place : g.place i with
  | outside =>
    cases move with
    | join =>
      -- a group that everybody has left is not joined again
      by_cases freed : g.Freed
      · simp [ReportGroup.step, place, freed] at stepped
      · simp only [ReportGroup.step, place, if_neg freed, Except.ok.injEq] at stepped
        exact stepped ▸ .join i place freed
    | leave => simp [ReportGroup.step, place] at stepped
    | handling handling => simp [ReportGroup.step, place] at stepped
  | inside =>
    cases move with
    | join => simp [ReportGroup.step, place] at stepped
    | leave =>
      simp only [ReportGroup.step, place, Except.ok.injEq] at stepped
      exact stepped ▸ .leave i place
    | handling handling =>
      -- after its last packet there is nothing left to handle
      cases job : g.finished i with
      | true => simp [ReportGroup.step, place, job] at stepped
      | false =>
        cases handling with
        | packet packet significant =>
          have handled : g.handle i packet significant = r := by
            simpa [ReportGroup.step, place, job] using stepped
          exact handled ▸ .packet i packet significant place job
        | interval sum =>
          have reported : g.report i sum = r := by
            simpa [ReportGroup.step, place, job] using stepped
          exact reported ▸ .interval i sum place job
  | gone =>
    cases move with
    | join => simp [ReportGroup.step, place] at stepped
    | leave => simp [ReportGroup.step, place] at stepped
    | handling handling => simp [ReportGroup.step, place] at stepped

/-- Lost and received datagrams of the group. -/
def Balanced (sumstats : TransferInfo) : Prop :=
  sumstats.total.lost.current + Figure.ipg.gathered sumstats =
    Figure.datagrams.gathered sumstats + Figure.outofOrder.gathered sumstats

structure Books [Fintype ι] (g : ReportGroup ι) (moves : List (ι × GroupMove))
    (printed : List (Option ι × TransferInfo)) : Prop where
  threads : ∀ i, ∃ reports, Kept (handled i moves) reports (g.threads i) (g.finished i) ∧
    issuedBy (some i) printed = if g.isSumOnly then [] else reports
  gathered : ∀ figure : Figure,
    figure.gathered g.sumstats = ∑ i, told (g.threads i) (g.finished i) figure
  balanced : Balanced g.sumstats

theorem handled_concat (i j : ι) (moves : List (ι × GroupMove)) (handling : Handling) :
    handled j (moves ++ [(i, .handling handling)]) =
      handled j moves ++ if i = j then [handling] else [] := by
  by_cases same : i = j
  · simp [handled, same]
  · simp [handled, same]

theorem handled_moved (i j : ι) (moves : List (ι × GroupMove)) (move : GroupMove)
    (moved : move = .join ∨ move = .leave) : handled j (moves ++ [(i, move)]) = handled j moves := by
  by_cases same : i = j
  · rcases moved with rfl | rfl
    · simp [handled, same]
    · simp [handled, same]
  · simp [handled, same]

theorem issuedBy_output (g : ReportGroup ι) (i j : ι) (own sums : List TransferInfo) :
    issuedBy (some j) (g.output i own ++ ReportGroup.printedBy none sums) =
      if i = j then (if g.isSumOnly then [] else own) else [] := by
  by_cases same : i = j
  · simp [ReportGroup.output, ReportGroup.printedBy, same]
  · simp [ReportGroup.output, ReportGroup.printedBy, same]

theorem sum_update [Fintype ι] (f : ι → ℤ) (i : ι) (v : ℤ) :
    ∑ j, Function.update f i v j = ∑ j, f j + (v - f i) := by
  rw [Finset.sum_update_of_mem (Finset.mem_univ i),
    ← Finset.add_sum_erase Finset.univ f (Finset.mem_univ i), Finset.sdiff_singleton_eq_erase]
  omega

/-- What the reporter does for one thread concerns this thread and the group. -/
theorem Books.update [Fintype ι] {g : ReportGroup ι} {moves : List (ι × GroupMove)}
    {printed : List (Option ι × TransferInfo)} (books : Books g moves printed) (i : ι)
    (handling : Handling) (own sums : List TransferInfo) (g' : ReportGroup ι) (stats : TransferInfo)
    (finished : Bool) (job : g.finished i = false)
    (sumOnly : g'.isSumOnly = g.isSumOnly)
    (threads : g'.threads = Function.update g.threads i stats)
    (finishedNow : g'.finished = Function.update g.finished i finished)
    (kept : ∀ reports, Open (handled i moves) reports (g.threads i) →
      Kept (handled i moves ++ [handling]) (reports ++ own) stats finished)
    (gathered : ∀ figure : Figure, figure.gathered g'.sumstats =
      figure.gathered g.sumstats + (told stats finished figure - (figure.meter (g.threads i)).prev))
    (balanced : Balanced g'.sumstats) :
    Books g' (moves ++ [(i, .handling handling)])
      (printed ++ (g.output i own ++ ReportGroup.printedBy none sums)) := by
  refine ⟨?_, ?_, balanced⟩
  · intro j
    obtain ⟨reports, keptBefore, printedBefore⟩ := books.threads j
    rw [threads, finishedNow, handled_concat, issuedBy_append, issuedBy_output, printedBefore, sumOnly]
    -- the other threads have their old books
    by_cases same : i = j
    · subst same
      have running : Open (handled i moves) reports (g.threads i) := by rwa [job] at keptBefore
      refine ⟨reports ++ own, ?_, ?_⟩
      · simpa using kept reports running
      · cases g.isSumOnly with
        | false => simp
        | true => simp
    · have other : ¬ j = i := fun eq => same eq.symm
      exact ⟨reports, by simpa [same, other] using keptBefore, by simp [same]⟩
  · intro figure
    have changed : (fun j => told (g'.threads j) (g'.finished j) figure) =
        Function.update (fun j => told (g.threads j) (g.finished j) figure) i
          (told stats finished figure) := by
      funext j
      rw [threads, finishedNow]
      by_cases same : j = i
      · subst same
        simp
      · simp [same]
    -- a running thread has told what it had at its last report
    have before : told (g.threads i) (g.finished i) figure = (figure.meter (g.threads i)).prev := by
      rw [told, job]
      rfl
    rw [changed, sum_update, before, gathered, books.gathered]

theorem balanced_addToSum (sumstats stats : TransferInfo) (balanced : Balanced sumstats)
    (prev : stats.total.lost.prev + stats.total.ipg.prev =
      stats.total.datagrams.prev + stats.total.outofOrder.prev)
    (current : stats.total.lost.current + stats.total.ipg.current =
      stats.packetID + stats.total.outofOrder.current) :
    Balanced (addToSum sumstats (intervalCounts stats)) := by
  simp only [Balanced, Figure.gathered_addToSum, Figure.meter, ShiftCounter.delta] at balanced ⊢
  change sumstats.total.lost.current + (stats.total.lost.current - stats.total.lost.prev) + _ = _
  omega

theorem balanced_sum (sumstats : TransferInfo) (final masked : Bool)
    (balanced : Balanced sumstats) :
    Balanced (reporterTransferProtocolSumServerUdp sumstats final masked).1 := by
  rw [Balanced, lost_sum, Figure.gathered_sum, Figure.gathered_sum, Figure.gathered_sum]
  exact balanced

theorem zeroed_books [Fintype ι] (isSumOnly : Bool) :
    Books (.zeroed isSumOnly : ReportGroup ι) [] [] := by
  refine ⟨fun _ => ⟨[], open_zeroed, by simp⟩, ?_, rfl⟩
  intro figure
  cases figure
  all_goals simp [ReportGroup.zeroed, Figure.gathered, told, Figure.meter, TransferInfo.zeroed,
    ShiftCounter.zero]

variable [Fintype ι] {g : ReportGroup ι} {moves : List (ι × GroupMove)}
  {printed : List (Option ι × TransferInfo)}

theorem Books.running (books : Books g moves printed) (i : ι) (job : g.finished i = false) :
    ∃ reports, Open (handled i moves) reports (g.threads i) := by
  obtain ⟨reports, kept, _⟩ := books.threads i
  rw [job] at kept
  exact ⟨reports, kept⟩

theorem Books.packet (books : Books g moves printed) (i : ι) (job : g.finished i = false)
    (packet : ReportStruct) (significant : Bool) (goesOn : ¬ packet.packetID < 0) :
    Books (g.handle i packet significant).1 (moves ++ [(i, .handling (.packet packet significant))])
      (printed ++ (g.handle i packet significant).2) := by
  have silent : g.output i [] ++ ReportGroup.printedBy none [] = [] := by
    simp [ReportGroup.output, ReportGroup.printedBy]
  rw [ReportGroup.handle, if_neg goesOn, ← silent]
  refine books.update i (.packet packet significant) [] [] _
    (reporterHandlePacketServerUdp (g.threads i) packet) false job rfl rfl ?_ ?_ ?_ books.balanced
  · rw [← job, Function.update_eq_self]
  · intro reports running
    rw [List.append_nil]
    exact running.packet packet significant goesOn
  · intro figure
    -- the group learns nothing before the next report
    simp [told, Figure.meter_prev_handle]

theorem Books.interval (books : Books g moves printed) (i : ι) (job : g.finished i = false)
    (sum : Bool) :
    Books (g.report i sum).1 (moves ++ [(i, .handling (.interval sum))])
      (printed ++ (g.report i sum).2) := by
  obtain ⟨_, running⟩ := books.running i job
  have gathered : ∀ figure : Figure,
      figure.gathered (addToSum g.sumstats (intervalCounts (g.threads i))) =
      figure.gathered g.sumstats + (told (reporterResetTransferStatsServerUdp
        (intervalCounts (g.threads i))) false figure - (figure.meter (g.threads i)).prev) := by
    intro figure
    rw [Figure.gathered_addToSum, told, if_neg Bool.false_ne_true, Figure.meter_reset,
      Figure.meter_intervalCounts]
    rfl
  have balanced := balanced_addToSum g.sumstats (g.threads i) books.balanced running.balanced
    running.tally.balanced
  have same : Function.update g.finished i false = g.finished := by
    rw [← job, Function.update_eq_self]
  -- for the thread it is the same report with or without one of the group
  have kept : ∀ reports, Open (handled i moves) reports (g.threads i) →
      Kept (handled i moves ++ [.interval sum]) (reports ++ [intervalCounts (g.threads i)])
        (reporterResetTransferStatsServerUdp (intervalCounts (g.threads i))) false :=
    fun reports opened => opened.interval sum
  cases sum with
  | false =>
    have kept' := books.update i (.interval false) [intervalCounts (g.threads i)] []
      (g.report i false).1 _ false job rfl rfl same.symm kept gathered balanced
    have silent : (ReportGroup.printedBy none [] : List (Option ι × TransferInfo)) = [] := rfl
    rw [silent, List.append_nil] at kept'
    exact kept'
  | true =>
    exact books.update i (.interval true) [intervalCounts (g.threads i)]
      (reporterTransferProtocolSumServerUdp
        (addToSum g.sumstats (intervalCounts (g.threads i))) false
        (!(decide (g.count > 1) || g.isSumOnly))).2
      (g.report i true).1 _ false job rfl rfl same.symm kept
      (fun figure => (Figure.gathered_sum _ figure false _).trans (gathered figure))
      (balanced_sum _ false _ balanced)

/-- Whether the last packet of a thread brings the last report of the group. -/
def SumDue (g : ReportGroup ι) : Prop :=
  g.finalThreadUpcount + 1 = g.maxcount ∧ (g.maxcount > 1 ∨ g.isSumOnly)

instance (g : ReportGroup ι) : Decidable (SumDue g) := inferInstanceAs (Decidable (_ ∧ _))

omit [Fintype ι] in
/-- The last packet of a thread, and the report of the group if it is due. -/
theorem handle_last (g : ReportGroup ι) (i : ι) (packet : ReportStruct) (significant : Bool)
    (final : packet.packetID < 0) :
    let rest := intervalCounts (reporterHandlePacketServerUdp (g.threads i) packet)
    let own := (if 0 < rest.cntBytes ∧ significant then [rest] else []) ++ [totalCounts rest]
    let sum := reporterTransferProtocolSumServerUdp (addToSum g.sumstats rest) true g.isMaskOutput
    g.handle i packet significant =
      ({ g with
         threads := Function.update g.threads i (totalCounts rest)
         finished := Function.update g.finished i true
         sumstats := if SumDue g then sum.1 else addToSum g.sumstats rest
         finalThreadUpcount := g.finalThreadUpcount + 1 },
       g.output i own ++ ReportGroup.printedBy none (if SumDue g then sum.2 else [])) := by
  intro rest own sum
  rw [ReportGroup.handle, if_pos final]
  by_cases due : SumDue g
  · rw [if_pos due, if_pos due]
    exact if_pos due
  · rw [if_neg due, if_neg due]
    exact (if_neg due).trans (Prod.ext rfl (List.append_nil _).symm)

theorem Books.last_packet (books : Books g moves printed) (i : ι) (job : g.finished i = false)
    (packet : ReportStruct) (significant : Bool) (final : packet.packetID < 0) :
    Books (g.handle i packet significant).1 (moves ++ [(i, .handling (.packet packet significant))])
      (printed ++ (g.handle i packet significant).2) := by
  obtain ⟨_, running⟩ := books.running i job
  have tally := running.tally.packet packet
  have prev := handle_balanced_prev (g.threads i) packet running.balanced
  have balanced := balanced_addToSum g.sumstats _ books.balanced prev tally.balanced
  -- the sum gets what the thread has not reported yet, the last packet included
  have gathered : ∀ figure : Figure,
      figure.gathered (addToSum g.sumstats (intervalCounts
        (reporterHandlePacketServerUdp (g.threads i) packet))) =
      figure.gathered g.sumstats + (told (totalCounts (intervalCounts
        (reporterHandlePacketServerUdp (g.threads i) packet))) true figure -
          (figure.meter (g.threads i)).prev) := by
    intro figure
    rw [Figure.gathered_addToSum, told, if_pos rfl, Figure.shown_totalCounts,
      Figure.meter_intervalCounts, ShiftCounter.delta, Figure.meter_prev_handle]
  rw [handle_last g i packet significant final]
  refine books.update i (.packet packet significant) _ _ _ _ true job rfl rfl rfl
    (fun reports opened => ⟨_, _, _, opened.last packet significant final⟩) ?_ ?_
  · intro figure
    -- the report of the group changes what is printed, not what was gathered
    by_cases due : SumDue g
    · rw [if_pos due, Figure.gathered_sum]
      exact gathered figure
    · rw [if_neg due]
      exact gathered figure
  · by_cases due : SumDue g
    · rw [if_pos due]
      exact balanced_sum _ true _ balanced
    · rw [if_neg due]
      exact balanced

/-- Coming and going does not concern the reporter. -/
theorem Books.moved {g' : ReportGroup ι} (books : Books g moves printed) (i : ι) (move : GroupMove)
    (moved : move = .join ∨ move = .leave) (sumOnly : g'.isSumOnly = g.isSumOnly)
    (threads : g'.threads = g.threads) (finished : g'.finished = g.finished)
    (sumstats : g'.sumstats = g.sumstats) : Books g' (moves ++ [(i, move)]) (printed ++ []) := by
  refine ⟨?_, ?_, ?_⟩
  · intro j
    rw [handled_moved i j moves move moved, sumOnly, threads, finished, List.append_nil]
    exact books.threads j
  · rw [sumstats, threads, finished]
    exact books.gathered
  · rw [sumstats]
    exact books.balanced

theorem Books.step {move : ι × GroupMove} {r : ReportGroup ι × List (Option ι × TransferInfo)}
    (books : Books g moves printed) (stepped : Stepped g move r) :
    Books r.1 (moves ++ [move]) (printed ++ r.2) := by
  cases stepped with
  | join i _ _ => exact books.moved i .join (.inl rfl) rfl rfl rfl rfl
  | leave i _ => exact books.moved i .leave (.inr rfl) rfl rfl rfl rfl
  | packet i packet significant _ job =>
    by_cases final : packet.packetID < 0
    · exact books.last_packet i job packet significant final
    · exact books.packet i job packet significant final
  | interval i sum _ job => exact books.interval i job sum

/-! ### Whole runs -/

variable {isSumOnly : Bool}

theorem books_kept (ran : PartialRun.run ReportGroup.step (.zeroed isSumOnly) moves = .ok (g, printed)) :
    Books g moves printed := by
  have kept := PartialRun.run_history ReportGroup.step (fun g moves printed => Books g moves printed)
    (fun g _ _ move g' out books stepped => books.step (group_step_cases g move (g', out) stepped))
    (.zeroed isSumOnly) g [] [] moves printed (zeroed_books isSumOnly) ran
  simpa using kept

/-- A thread whose last packet has been handled. -/
def Ended (handlings : List Handling) : Prop :=
  ∃ packet ∈ packetsIn handlings, packet.packetID < 0

theorem Kept.closed {handlings : List Handling} {reports : List TransferInfo} {stats : TransferInfo}
    {finished : Bool} (kept : Kept handlings reports stats finished) (ended : Ended handlings) :
    finished = true ∧ ∃ last intervals rest, Closed handlings reports stats last intervals rest := by
  cases finished with
  | true => exact ⟨rfl, kept⟩
  | false =>
    obtain ⟨packet, member, negative⟩ := ended
    have running : Open handlings reports stats := kept
    have goesOn := running.goesOn packet member
    omega

omit [Fintype ι] in
theorem sumOnly_kept (ran : PartialRun.run ReportGroup.step (.zeroed isSumOnly) moves = .ok (g, printed)) :
    g.isSumOnly = isSumOnly := by
  refine PartialRun.run_invariant ReportGroup.step (fun g _ => g.isSumOnly = isSumOnly) ?_
    (.zeroed isSumOnly) g [] moves printed rfl ran
  intro g _ move g' out same stepped
  have only : ∀ r, Stepped g move r → r.1.isSumOnly = isSumOnly := by
    intro r stepped
    cases stepped with
    | join => exact same
    | leave => exact same
    | packet i packet significant =>
      by_cases final : packet.packetID < 0
      · rw [handle_last g i packet significant final]
        exact same
      · rw [ReportGroup.handle, if_neg final]
        exact same
    | interval i sum =>
      cases sum with
      | false => exact same
      | true => exact same
  exact only (g', out) (group_step_cases g move _ stepped)

/-- A thread that reports for itself. -/
theorem Books.closed (books : Books g moves printed) (single : g.isSumOnly = false) (i : ι)
    (ended : Ended (handled i moves)) :
    ∃ last intervals rest,
      Closed (handled i moves) (issuedBy (some i) printed) (g.threads i) last intervals rest := by
  obtain ⟨reports, kept, printedNow⟩ := books.threads i
  rw [single] at printedNow
  rw [printedNow]
  exact (kept.closed ended).2

/-- What the last report says of the datagrams. -/
theorem Closed.datagrams {stats : TransferInfo} {handlings : List Handling}
    {reports intervals : List TransferInfo} {rest : TransferInfo} {last : Bool}
    (closed : Closed handlings reports stats last intervals rest) :
    stats.cntDatagrams = highest (numbers (packetsIn handlings)) ∧
    stats.cntIPG = (numbers (packetsIn handlings)).length ∧
    stats.cntError = max 0 (highest (numbers (packetsIn handlings)) -
      (numbers (packetsIn handlings)).length) := by
  have datagrams : stats.cntDatagrams = highest (numbers (packetsIn handlings)) :=
    (closed.total .datagrams).trans closed.tally.packetID
  have ipg : stats.cntIPG = (numbers (packetsIn handlings)).length :=
    (closed.total .ipg).trans closed.tally.ipg
  have coherent : Coherent stats := closed.coherent _ (by simp)
  refine ⟨datagrams, ipg, ?_⟩
  rw [← datagrams, ← ipg]
  exact coherent

/-- The missing numbers less those that came again. -/
def excess (packets : List ReportStruct) : ℤ :=
  (missing (numbers packets) : ℤ) - duplicates (numbers packets)

theorem Closed.error {stats : TransferInfo} {handlings : List Handling}
    {reports intervals : List TransferInfo} {rest : TransferInfo} {last : Bool}
    (closed : Closed handlings reports stats last intervals rest) :
    stats.cntError = max 0 (excess (packetsIn handlings)) := by
  rw [excess, missing_sub_duplicates _ (numbers_positive _)]
  exact closed.datagrams.2.2

/-- The last report of a thread tells what its datagrams were, whatever else the reporter did in the
meantime: a duplicate makes up for a missing datagram, and without duplicates the losses are exact. The
datagrams have numbers below 2^63 - 1: the counters of the reporter have 64 bits. -/
theorem loss_report (ran : PartialRun.run ReportGroup.step (.zeroed false) moves = .ok (g, printed))
    (i : ι) (ended : ∃ packet ∈ packetsIn (handled i moves), packet.packetID < 0) :
    let packets := packetsIn (handled i moves)
    let ids := numbers packets
    ∃ earlier report, issuedBy (some i) printed = earlier ++ [report] ∧
      report.cntDatagrams = highest ids ∧
      report.cntOutofOrder = (late ids : ℤ) ∧
      report.cntError = max 0 ((missing ids : ℤ) - duplicates ids) ∧
      (ids.Nodup → report.cntError = (missing ids : ℤ)) ∧
      report.cntBytes = bytes packets ∧
      report.read.cntRead = (reads packets : ℤ) ∧
      report.read.cntReadTimeo = (timeouts packets : ℤ) ∧
      report.read.cntReadErrLen = (wrongLengths packets : ℤ) := by
  intro packets ids
  obtain ⟨last, intervals, rest, closed⟩ := (books_kept ran).closed (sumOnly_kept ran) i ended
  have tally := closed.tally
  have error : (g.threads i).cntError = max 0 ((missing ids : ℤ) - duplicates ids) := closed.error
  refine ⟨_, g.threads i, closed.reports, closed.datagrams.1,
    (closed.total .outofOrder).trans tally.outofOrder, error, ?_,
    (closed.total .bytes).trans tally.bytes, (closed.total .read).trans tally.read,
    (closed.total .readTimeo).trans tally.readTimeo, (closed.total .readErrLen).trans tally.readErrLen⟩
  intro distinct
  -- without repetitions nothing makes up for a loss
  have once : duplicates ids = 0 := by
    rw [duplicates, List.toFinset_card_of_nodup distinct, Nat.sub_self]
  rw [error, once]
  simp

def datagram (id : ℤ) : GroupMove :=
  .handling (.packet ⟨id, 100, .readSuccess, false, ⟨false, false, false⟩⟩ false)

def goodbye : GroupMove := .handling (.packet (finalPacket 0) true)

def repetition : List (Unit × GroupMove) :=
  [((), .join), ((), datagram 1), ((), datagram 2), ((), .handling (.interval false)), ((), datagram 5),
    ((), datagram 4), ((), datagram 4), ((), goodbye)]

/-- The datagram that came twice hides the one that is missing. -/
theorem loss_report_sample :
    ∃ g printed, PartialRun.run ReportGroup.step (.zeroed false) repetition = .ok (g, printed) ∧
      ∃ earlier report, issuedBy (some ()) printed = earlier ++ [report] ∧
        report.cntDatagrams = 5 ∧ report.cntOutofOrder = 2 ∧ report.cntError = 0 := by
  obtain ⟨⟨g, printed⟩, ran⟩ :
      ∃ r, PartialRun.run ReportGroup.step (.zeroed false) repetition = .ok r := ⟨_, rfl⟩
  obtain ⟨earlier, report, last, datagrams, outofOrder, error, _⟩ :=
    loss_report ran () ⟨finalPacket 0, by decide, by decide⟩
  exact ⟨g, printed, ran, earlier, report, last, datagrams, outofOrder, error⟩

/-- The reports of a thread add up to its last one, if what came in after the last interval is taken
into account, which is printed only when there is something in it and enough time has passed. Of the
lost datagrams the intervals report at least as many, and the same number only if they err all in one
direction. The datagrams have numbers below 2^63 - 1. -/
theorem reports_add_up (ran : PartialRun.run ReportGroup.step (.zeroed false) moves = .ok (g, printed))
    (i : ι) (ended : ∃ packet ∈ packetsIn (handled i moves), packet.packetID < 0) :
    ∃ before packet, ∃ significant : Bool, ∃ intervals rest total,
      handled i moves = before ++ [.packet packet significant] ∧ packet.packetID < 0 ∧
      issuedBy (some i) printed =
        intervals ++ (if 0 < rest.cntBytes ∧ significant then [rest] else []) ++ [total] ∧
      (∀ figure : Figure, ((intervals ++ [rest]).map figure.shown).sum = figure.shown total) ∧
      total.cntError ≤ ((intervals ++ [rest]).map (·.cntError)).sum ∧
      (total.cntError = ((intervals ++ [rest]).map (·.cntError)).sum ↔
        (∀ report ∈ intervals ++ [rest], report.cntIPG ≤ report.cntDatagrams) ∨
        ∀ report ∈ intervals ++ [rest], report.cntDatagrams ≤ report.cntIPG) := by
  obtain ⟨last, intervals, rest, closed⟩ := (books_kept ran).closed (sumOnly_kept ran) i ended
  obtain ⟨before, packet, handlings, final⟩ := closed.ended
  obtain ⟨atLeast, exactly⟩ := (closed.coherent (g.threads i) (by simp)).parts
    (intervals ++ [rest] : List TransferInfo)
    (fun report member => closed.coherent report (by
      rw [Multiset.mem_coe, List.mem_append] at member
      rcases member with old | new
      · exact List.mem_append_left _ old
      · exact List.mem_append_right _ (List.mem_cons.mpr (.inl (List.mem_singleton.mp new)))))
    closed.sum
  exact ⟨before, packet, last, intervals, rest, g.threads i, handlings, final, closed.reports,
    closed.sum, atLeast, exactly⟩

theorem reports_add_up_sample :
    ∃ g printed, PartialRun.run ReportGroup.step (.zeroed false) repetition = .ok (g, printed) ∧
      ∃ intervals rest total, issuedBy (some ()) printed =
          intervals ++ (if 0 < rest.cntBytes then [rest] else []) ++ [total] ∧
        ((intervals ++ [rest]).map (·.cntBytes)).sum = total.cntBytes := by
  obtain ⟨⟨g, printed⟩, ran⟩ :
      ∃ r, PartialRun.run ReportGroup.step (.zeroed false) repetition = .ok r := ⟨_, rfl⟩
  obtain ⟨before, packet, significant, intervals, rest, total, handlings, _, reports, sum, _⟩ :=
    reports_add_up ran () ⟨finalPacket 0, by decide, by decide⟩
  have last := congrArg List.getLast? handlings
  rw [List.getLast?_concat] at last
  obtain ⟨_, rfl⟩ := Handling.packet.inj (Option.some.inj last)
  exact ⟨g, printed, ran, intervals, rest, total, by simpa using reports, sum .bytes⟩

end Tlink.Properties
