import Tlink.Properties.Reports

/-!
# The report of a group

A group counts its threads as they come and go, and how many there were at most. It reports for all of
them together when so many have ended. If none came after one had left, these are all threads that ever
were in the group; otherwise the report comes when some of them have not ended, or not come yet.
-/
namespace Tlink.Properties

open Tlink.Testbed Interleave

variable {ι : Type} [DecidableEq ι]

/-! ### Coming and going -/

def joins (moves : List (ι × GroupMove)) : ℕ :=
  moves.countP fun move => match move.2 with | .join => true | _ => false

def leaves (moves : List (ι × GroupMove)) : ℕ :=
  moves.countP fun move => match move.2 with | .leave => true | _ => false

/-- How many threads have ended. -/
def ends (moves : List (ι × GroupMove)) : ℕ :=
  moves.countP fun move =>
    match move.2 with
    | .handling (.packet packet _) => decide (packet.packetID < 0)
    | _ => false

/-- How many threads are in the group. -/
def active (moves : List (ι × GroupMove)) : ℤ := joins moves - leaves moves

/-- How many there were at most. -/
def peak (moves : List (ι × GroupMove)) : ℤ :=
  highest ((List.range (moves.length + 1)).map fun n => active (moves.take n))

/-- The last interval report of the group came when there was only one thread in it. -/
def Masked (isSumOnly : Bool) (moves : List (ι × GroupMove)) : Prop :=
  ∃ before i after, moves = before ++ (i, .handling (.interval true)) :: after ∧
    (∀ j, (j, .handling (.interval true)) ∉ after) ∧ active before ≤ 1 ∧ isSumOnly = false

omit [DecidableEq ι] in
theorem active_concat (moves : List (ι × GroupMove)) (i : ι) (move : GroupMove) :
    active (moves ++ [(i, move)]) =
      match move with
      | .join => active moves + 1
      | .leave => active moves - 1
      | .handling _ => active moves := by
  cases move with
  | join =>
    simp only [active, joins, leaves, List.countP_append, List.countP_singleton, if_true,
      Bool.false_eq_true, if_false]
    omega
  | leave =>
    simp only [active, joins, leaves, List.countP_append, List.countP_singleton, if_true,
      Bool.false_eq_true, if_false]
    omega
  | handling handling => simp [active, joins, leaves]

omit [DecidableEq ι] in
theorem peak_concat (moves : List (ι × GroupMove)) (move : ι × GroupMove) :
    peak (moves ++ [move]) = max (peak moves) (active (moves ++ [move])) := by
  have before : (List.range (moves.length + 1)).map (fun n => active ((moves ++ [move]).take n)) =
      (List.range (moves.length + 1)).map fun n => active (moves.take n) := by
    apply List.map_congr_left
    intro n inside
    rw [List.take_append_of_le_length (Nat.lt_succ_iff.mp (List.mem_range.mp inside))]
  rw [peak, List.length_append, List.length_singleton, List.range_succ, List.map_append,
    List.map_singleton, highest_concat, before, ← peak, List.take_of_length_le (by simp)]

omit [DecidableEq ι] in
theorem active_le_peak (moves : List (ι × GroupMove)) : active moves ≤ peak moves := by
  induction moves using List.reverseRecOn with
  | nil => exact le_rfl
  | append_singleton moves move _ =>
    rw [peak_concat]
    exact le_max_right _ _

/-- Where a list that has grown at its end can be cut. -/
theorem concat_eq_split {α : Type} (xs before after : List α) (x y : α)
    (split : xs ++ [x] = before ++ y :: after) :
    (xs = before ∧ x = y ∧ after = []) ∨ ∃ rest, after = rest ++ [x] ∧ xs = before ++ y :: rest := by
  rcases List.eq_nil_or_concat' after with rfl | ⟨rest, z, rfl⟩
  · obtain ⟨front, last⟩ := List.append_inj' split rfl
    exact .inl ⟨front, List.singleton_inj.mp last, rfl⟩
  · rw [← List.cons_append, ← List.append_assoc] at split
    obtain ⟨front, last⟩ := List.append_inj' split rfl
    exact .inr ⟨rest, by rw [List.singleton_inj.mp last], front⟩

omit [DecidableEq ι] in
theorem masked_concat (isSumOnly : Bool) (moves : List (ι × GroupMove)) (i : ι) (move : GroupMove) :
    Masked isSumOnly (moves ++ [(i, move)]) ↔
      if move = .handling (.interval true) then active moves ≤ 1 ∧ isSumOnly = false
      else Masked isSumOnly moves := by
  by_cases here : move = .handling (.interval true)
  · subst here
    rw [if_pos rfl]
    constructor
    · rintro ⟨before, j, after, split, none, alone⟩
      -- the new report is the last one, so it decides
      rcases concat_eq_split moves before after _ _ split with ⟨rfl, _, rfl⟩ | ⟨rest, rfl, rfl⟩
      · exact alone
      · exact absurd (List.mem_append_right rest List.mem_cons_self) (none i)
    · intro alone
      exact ⟨moves, i, [], rfl, by simp, alone⟩
  · rw [if_neg here]
    constructor
    · rintro ⟨before, j, after, split, none, alone⟩
      rcases concat_eq_split moves before after _ _ split with ⟨_, same, _⟩ | ⟨rest, rfl, rfl⟩
      · -- any other move leaves the last report what it was
        exact absurd (Prod.mk.inj same).2 here
      · exact ⟨before, j, rest, rfl, fun k member => none k (List.mem_append_left _ member), alone⟩
    · rintro ⟨before, j, after, rfl, none, alone⟩
      refine ⟨before, j, after ++ [(i, move)], by simp, ?_, alone⟩
      intro k member
      rcases List.mem_append.mp member with old | new
      · exact none k old
      · exact here (Prod.mk.inj (List.mem_singleton.mp new)).2.symm

structure Roll [Fintype ι] (g : ReportGroup ι) (moves : List (ι × GroupMove)) : Prop where
  count : g.count = active moves
  maxcount : g.maxcount = peak moves
  upcount : g.finalThreadUpcount = ends moves
  mask : g.isMaskOutput = true ↔ Masked g.isSumOnly moves
  came : ∀ i, g.place i ≠ .outside ↔ (i, .join) ∈ moves
  ended : ∀ i, g.finished i = true ↔ Ended (handled i moves)
  known : ∀ i, g.finished i = true → g.place i ≠ .outside
  joined : joins moves = (Finset.univ.filter fun i => g.place i ≠ .outside).card
  done : ends moves = (Finset.univ.filter fun i => g.finished i = true).card

section Card

variable [Fintype ι] {β : Type} (f : ι → β) (i : ι) (b : β) (p : β → Prop) [DecidablePred p]

theorem card_update_new (before : ¬ p (f i)) (after : p b) :
    (Finset.univ.filter fun j => p (Function.update f i b j)).card =
      (Finset.univ.filter fun j => p (f j)).card + 1 := by
  have more : (Finset.univ.filter fun j => p (Function.update f i b j)) =
      insert i (Finset.univ.filter fun j => p (f j)) := by
    ext j
    by_cases same : j = i
    · simp [same, after]
    · simp [same]
  rw [more, Finset.card_insert_of_notMem (by simp [before])]

theorem card_update_old (same : p (f i) ↔ p b) :
    (Finset.univ.filter fun j => p (Function.update f i b j)).card =
      (Finset.univ.filter fun j => p (f j)).card := by
  congr 1
  ext j
  by_cases here : j = i
  · simp [here, same]
  · simp [here]

end Card

variable [Fintype ι] {g : ReportGroup ι} {moves : List (ι × GroupMove)}

theorem Roll.join (roll : Roll g moves) (i : ι) (outside : g.place i = .outside) :
    Roll { g.incrSumReportRefCounter with place := Function.update g.place i .inside }
      (moves ++ [(i, .join)]) := by
  refine ⟨?_, ?_, ?_, ?_, ?_, ?_, ?_, ?_, ?_⟩
  · rw [active_concat, ← roll.count]
    rfl
  · rw [peak_concat, active_concat, ← roll.count, ← roll.maxcount]
    -- the maximum of the counter is the peak
    simp only [ReportGroup.incrSumReportRefCounter]
    split
    next more => exact (max_eq_right more.le).symm
    next enough => exact (max_eq_left (not_lt.mp enough)).symm
  · rw [ends, List.countP_append]
    simpa [ReportGroup.incrSumReportRefCounter, ends] using roll.upcount
  · rw [masked_concat, if_neg (by simp)]
    exact roll.mask
  · intro j
    by_cases same : j = i
    · simp [same]
    · simpa [same] using roll.came j
  · intro j
    rw [handled_moved i j moves .join (.inl rfl)]
    exact roll.ended j
  · intro j finished
    by_cases same : j = i
    · simp [same]
    · simpa [same] using roll.known j finished
  · -- a thread that was outside is one more
    have one : joins (moves ++ [(i, .join)]) = joins moves + 1 := by
      simp [joins]
    rw [one, roll.joined]
    exact (card_update_new g.place i .inside (· ≠ .outside) (by simp [outside]) (by simp)).symm
  · have none : ends (moves ++ [(i, .join)]) = ends moves := by
      simp [ends]
    rw [none]
    exact roll.done

theorem Roll.leave (roll : Roll g moves) (i : ι) (inside : g.place i = .inside) :
    Roll { g.decrSumReportRefCounter with place := Function.update g.place i .gone }
      (moves ++ [(i, .leave)]) := by
  refine ⟨?_, ?_, ?_, ?_, ?_, ?_, ?_, ?_, ?_⟩
  · rw [active_concat, ← roll.count]
    rfl
  · -- a departure is no new peak
    have here := active_le_peak moves
    rw [peak_concat, active_concat, max_eq_left (by simp only; omega)]
    exact roll.maxcount
  · rw [ends, List.countP_append]
    simpa [ReportGroup.decrSumReportRefCounter, ends] using roll.upcount
  · rw [masked_concat, if_neg (by simp)]
    exact roll.mask
  · intro j
    by_cases same : j = i
    · have came := roll.came i
      simp only [inside] at came
      simpa [same] using came
    · simpa [same] using roll.came j
  · intro j
    rw [handled_moved i j moves .leave (.inr rfl)]
    exact roll.ended j
  · intro j finished
    by_cases same : j = i
    · simp [same]
    · simpa [same] using roll.known j finished
  · have none : joins (moves ++ [(i, .leave)]) = joins moves := by
      simp [joins]
    rw [none, roll.joined]
    exact (card_update_old g.place i .gone (· ≠ .outside) (by simp [inside])).symm
  · have none : ends (moves ++ [(i, .leave)]) = ends moves := by
      simp [ends]
    rw [none]
    exact roll.done

/-- Whether this is the last packet of a thread. -/
def isLast : Handling → Bool
  | .packet packet _ => decide (packet.packetID < 0)
  | .interval _ => false

theorem ended_concat (handlings : List Handling) (handling : Handling) :
    Ended (handlings ++ [handling]) ↔ Ended handlings ∨ isLast handling = true := by
  cases handling with
  | packet packet significant => simp [Ended, packetsIn_packet, isLast, or_and_right, exists_or]
  | interval sum => simp [Ended, packetsIn_interval, isLast]

theorem Roll.handling (roll : Roll g moves) (i : ι) (handling : Handling)
    (inside : g.place i = .inside) (job : g.finished i = false) (g' : ReportGroup ι)
    (sumOnly : g'.isSumOnly = g.isSumOnly) (place : g'.place = g.place) (count : g'.count = g.count)
    (maxcount : g'.maxcount = g.maxcount)
    (finished : g'.finished = Function.update g.finished i (isLast handling))
    (upcount : g'.finalThreadUpcount = g.finalThreadUpcount + if isLast handling then 1 else 0)
    (mask : g'.isMaskOutput = true ↔
      if handling = .interval true then g.count ≤ 1 ∧ g.isSumOnly = false
      else g.isMaskOutput = true) : Roll g' (moves ++ [(i, .handling handling)]) := by
  -- only a last packet is an end
  have more : ends (moves ++ [(i, .handling handling)]) =
      ends moves + if isLast handling then 1 else 0 := by
    rw [ends, List.countP_append]
    cases handling with
    | packet packet significant => simp [isLast, ends, List.countP_singleton]
    | interval sum => simp [isLast, ends]
  have none : joins (moves ++ [(i, .handling handling)]) = joins moves := by
    simp [joins]
  refine ⟨?_, ?_, ?_, ?_, ?_, ?_, ?_, ?_, ?_⟩
  · rw [active_concat, count]
    exact roll.count
  · rw [peak_concat, active_concat, max_eq_left (active_le_peak moves), maxcount]
    exact roll.maxcount
  · rw [upcount, more, roll.upcount]
    push_cast
    rfl
  · rw [masked_concat, mask, sumOnly, ← roll.count]
    simp only [GroupMove.handling.injEq]
    -- only an interval report of the group sets the mask
    by_cases here : handling = .interval true
    · rw [if_pos here, if_pos here]
    · rw [if_neg here, if_neg here]
      exact roll.mask
  · intro j
    rw [place]
    simpa using roll.came j
  · intro j
    rw [finished, handled_concat]
    by_cases same : i = j
    · subst same
      have before := roll.ended i
      rw [job] at before
      simp [ended_concat, ← before]
    · have other : ¬ j = i := fun eq => same eq.symm
      simpa [same, other] using roll.ended j
  · intro j finishedNow
    rw [place]
    by_cases same : j = i
    · simp [same, inside]
    · exact roll.known j (by simpa [finished, same] using finishedNow)
  · rw [none, place]
    exact roll.joined
  · rw [more, roll.done, finished]
    -- the thread was not finished, so a last packet makes one more
    cases last : isLast handling with
    | true => exact (card_update_new g.finished i true (· = true) (by simp [job]) rfl).symm
    | false => exact (card_update_old g.finished i false (· = true) (by simp [job])).symm

theorem Roll.step {move : ι × GroupMove}
    {r : ReportGroup ι × List (Option ι × TransferInfo)} (roll : Roll g moves)
    (stepped : Stepped g move r) : Roll r.1 (moves ++ [move]) := by
  cases stepped with
  | join i outside _ => exact roll.join i outside
  | leave i inside => exact roll.leave i inside
  | packet i packet significant inside job =>
    by_cases final : packet.packetID < 0
    · rw [handle_last g i packet significant final]
      refine roll.handling i (.packet packet significant) inside job _ rfl rfl rfl rfl ?_ ?_ ?_
      · simp [isLast, final]
      · simp [isLast, final]
      · simp
    · rw [ReportGroup.handle, if_neg final]
      refine roll.handling i (.packet packet significant) inside job _ rfl rfl rfl rfl ?_ ?_ ?_
      · simp [isLast, final, ← job]
      · simp [isLast, final]
      · simp
  | interval i sum inside job =>
    have unfinished : Function.update g.finished i false = g.finished := by
      rw [← job, Function.update_eq_self]
    cases sum with
    | false =>
      refine roll.handling i (.interval false) inside job _ rfl rfl rfl rfl unfinished.symm ?_ ?_
      · simp [isLast, ReportGroup.report]
      · simp [ReportGroup.report]
    | true =>
      refine roll.handling i (.interval true) inside job _ rfl rfl rfl rfl unfinished.symm ?_ ?_
      · simp [isLast, ReportGroup.report]
      · simp [ReportGroup.report]

variable {isSumOnly : Bool} {printed : List (Option ι × TransferInfo)}

/-- The group knows what its threads have reported. -/
theorem Books.known (books : Books g moves printed) (figure : Figure) :
    figure.gathered g.sumstats = ∑ j, figure.counted (packetsIn (reported (handled j moves))) := by
  rw [books.gathered]
  apply Finset.sum_congr rfl
  intro j _
  obtain ⟨reports, kept, _⟩ := books.threads j
  exact kept.told figure

theorem Books.errors (books : Books g moves printed) (report : TransferInfo)
    (shown : ∀ figure : Figure, figure.shown report = figure.gathered g.sumstats)
    (coherent : Coherent report) :
    let lost := fun j => excess (packetsIn (reported (handled j moves)))
    report.cntError = max 0 (∑ j, lost j) ∧ report.cntError ≤ ∑ j, max 0 (lost j) ∧
      (report.cntError = ∑ j, max 0 (lost j) ↔ (∀ j, 0 ≤ lost j) ∨ ∀ j, lost j ≤ 0) := by
  intro lost
  have datagrams : report.cntDatagrams = _ := (shown .datagrams).trans (books.known .datagrams)
  have ipg : report.cntIPG = _ := (shown .ipg).trans (books.known .ipg)
  -- for each thread, numbers less packets is missing less repeated
  have differences : report.cntDatagrams - report.cntIPG = ∑ j, lost j := by
    rw [datagrams, ipg, ← Finset.sum_sub_distrib]
    apply Finset.sum_congr rfl
    intro j _
    exact (missing_sub_duplicates _ (numbers_positive _)).symm
  have error : report.cntError = max 0 (∑ j, lost j) := by
    rw [← differences]
    exact coherent
  -- clipping a sum and summing what is clipped
  have parts := Clipped.clip_sum_le (Finset.univ.val.map lost)
  have equal := Clipped.clip_sum_eq_iff (Finset.univ.val.map lost)
  rw [Multiset.map_map] at parts equal
  refine ⟨error, error.trans_le parts, ?_⟩
  rw [error]
  refine Iff.trans equal ?_
  simp

theorem Books.total (books : Books g moves printed) (j : ι) (ended : Ended (handled j moves)) :
    reported (handled j moves) = handled j moves ∧
      (g.isSumOnly = false → ∃ total, (issuedBy (some j) printed).getLast? = some total ∧
        (∀ figure : Figure, figure.shown total = figure.counted (packetsIn (handled j moves))) ∧
        total.cntError = max 0 (excess (packetsIn (handled j moves)))) := by
  obtain ⟨reports, kept, _⟩ := books.threads j
  obtain ⟨_, _, _, _, isEnded⟩ := kept.closed ended
  refine ⟨?_, fun single => ?_⟩
  · obtain ⟨before, packet, split, final⟩ := isEnded.ended
    rw [split, reported_last _ _ _ final]
  · obtain ⟨_, _, _, closed⟩ := books.closed single j ended
    refine ⟨g.threads j, by rw [closed.reports, List.getLast?_concat], ?_, closed.error⟩
    intro figure
    exact (closed.total figure).trans (closed.tally.current figure)

/-- Two threads that were in the group together, of which one lost a datagram and the other got one
twice. -/
def together : List (Bool × GroupMove) :=
  [(false, .join), (true, .join), (false, datagram 1), (true, datagram 1), (false, datagram 3),
    (true, datagram 1), (true, goodbye), (true, .leave)]

def staggered : List (Fin 3 × GroupMove) :=
  [(0, .join), (1, .join), (0, datagram 1), (0, goodbye), (0, .leave), (2, .join), (2, datagram 1),
    (1, goodbye)]

/-- There were never more than two, so the report comes before the third has ended. -/
example : ∃ g printed, PartialRun.run ReportGroup.step (.zeroed false) staggered = .ok (g, printed) ∧
    printed.getLast?.map Prod.fst = some none ∧ g.finished 2 = false :=
  ⟨_, _, rfl, rfl, rfl⟩

end Tlink.Properties
