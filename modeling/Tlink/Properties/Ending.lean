import Tlink.Lib.Rounds
import Tlink.Properties.Overflow
import Tlink.Testbed.EndJob

/-!
# A traffic thread takes its leave

A traffic thread that is done hands the reporter a last packet and waits until the reporter has come to
it. It gets away however the two are scheduled, except when the last packet is the one that overflows the
ring: then it is lost with all others, and the thread waits for ever.
-/
namespace Tlink.Properties

open Tlink.Testbed

variable {σ : Type} (handler : σ → ReportStruct → σ × Bool)

/-! ### One turn of the reporter -/

/-- The state of the reporter after these packets. -/
def worked (s : σ) (packets : List ReportStruct) : σ :=
  packets.foldl (fun s packet => (handler s packet).1) s

/-- The loop of the reporter, on the queue the ring stands for. -/
def drain (s : σ) : List ReportStruct → σ × List ReportStruct × Bool
  | [] => (s, [], false)
  | packet :: rest =>
    if packet.packetID < 0 then ((handler s packet).1, rest, true)
    else if (handler s packet).2 then ((handler s packet).1, rest, false)
    else drain (handler s packet).1 rest

theorem process_none (s : σ) (pr : PacketRing ReportStruct)
    (empty : pr.packetringDequeue.1 = none) :
    reporterProcessTransferReport handler s pr = (s, pr, false) := by
  rw [reporterProcessTransferReport]
  split
  next pr' dequeued =>
    -- nothing was taken
    have same : pr' = pr := by
      rw [PacketRing.packetringDequeue] at dequeued
      split at dequeued
      · exact (Prod.mk.inj dequeued).2.symm
      · cases dequeued
    rw [same]
  next packet pr' dequeued =>
    rw [dequeued] at empty
    cases empty

theorem process_some (s : σ) (pr : PacketRing ReportStruct) (packet : ReportStruct)
    (answer : pr.packetringDequeue.1 = some packet) :
    reporterProcessTransferReport handler s pr =
      if packet.packetID < 0 then ((handler s packet).1, pr.packetringDequeue.2, true)
      else if (handler s packet).2 then ((handler s packet).1, pr.packetringDequeue.2, false)
      else reporterProcessTransferReport handler (handler s packet).1 pr.packetringDequeue.2 := by
  rw [reporterProcessTransferReport]
  split
  next pr' dequeued =>
    rw [dequeued] at answer
    cases answer
  next other pr' dequeued =>
    rw [dequeued] at answer ⊢
    obtain rfl := Option.some.inj answer
    rfl

theorem process_drain {count : ℕ} (s : σ) (pr : PacketRing ReportStruct)
    (queue : List ReportStruct) (position : ℕ) (stands : Stands count pr ⟨queue, position⟩) :
    let ended := reporterProcessTransferReport handler s pr
    let drained := drain handler s queue
    ended.1 = drained.1 ∧ ended.2.2 = drained.2.2 ∧
      ∃ position, Stands count ended.2.1 ⟨drained.2.1, position⟩ := by
  induction queue generalizing s pr position with
  | nil =>
    obtain ⟨answer, _⟩ := stands.dequeue
    rw [process_none handler s pr answer]
    exact ⟨rfl, rfl, position, stands⟩
  | cons packet rest ih =>
    obtain ⟨answer, stands'⟩ := stands.dequeue
    rw [process_some handler s pr packet answer, drain]
    by_cases last : packet.packetID < 0
    · rw [if_pos last, if_pos last]
      exact ⟨rfl, rfl, _, stands'⟩
    · rw [if_neg last, if_neg last]
      by_cases advance : (handler s packet).2 = true
      · rw [if_pos advance, if_pos advance]
        exact ⟨rfl, rfl, _, stands'⟩
      · rw [if_neg advance, if_neg advance]
        exact ih (handler s packet).1 _ _ stands'

/-- The last packet, if it is there, ends the turn; another turn ends where a report is printed. -/
theorem drain_spec (s : σ) (front lasts : List ReportStruct)
    (running : ∀ packet ∈ front, 0 ≤ packet.packetID) (final : ∀ packet ∈ lasts, packet.packetID < 0) :
    ∃ taken rest, front = taken ++ rest ∧
      (drain handler s (front ++ lasts) = (worked handler s taken, rest ++ lasts, false) ∧
          (front ++ lasts = [] ∨ taken ≠ []) ∨
        rest = [] ∧ ∃ packet later, lasts = packet :: later ∧
          drain handler s (front ++ lasts) = (worked handler s (front ++ [packet]), later, true)) := by
  induction front generalizing s with
  | nil =>
    cases lasts with
    | nil => exact ⟨[], [], rfl, .inl ⟨rfl, .inl rfl⟩⟩
    | cons packet later =>
      refine ⟨[], [], rfl, .inr ⟨rfl, packet, later, rfl, ?_⟩⟩
      exact if_pos (final packet (by simp))
  | cons packet front ih =>
    have goesOn : ¬ packet.packetID < 0 := by
      have first := running packet (by simp)
      omega
    -- a printed report ends the turn, with packets left behind
    by_cases advance : (handler s packet).2 = true
    · refine ⟨[packet], front, rfl, .inl ⟨?_, .inr (by simp)⟩⟩
      simp [drain, goesOn, advance, worked]
    · obtain ⟨taken, rest, rfl, outcome⟩ := ih (handler s packet).1
        (fun other member => running other (List.mem_cons_of_mem _ member))
      have onward : drain handler s (packet :: (taken ++ rest) ++ lasts) =
          drain handler (handler s packet).1 (taken ++ rest ++ lasts) := by
        simp [drain, goesOn, advance]
      refine ⟨packet :: taken, rest, rfl, ?_⟩
      rw [onward]
      rcases outcome with ⟨left, _⟩ | ⟨rfl, last, later, rfl, left⟩
      · exact .inl ⟨left, .inr (by simp)⟩
      · exact .inr ⟨rfl, last, later, rfl, left⟩

/-! ### Every schedule -/

/-- The count tells how many packets wait. -/
theorem Stands.getcount {α : Type} {count : ℕ} {pr : PacketRing α} {q : Lossy α}
    (stands : Stands count pr q) : pr.packetringGetcount = q.queue.length := by
  obtain ⟨sent, taken, layout, producer, consumer, queue⟩ := stands.laid
  have bound := layout.taken_le
  have room := layout.room
  have inside := Nat.mod_lt taken layout.positive
  have length : q.queue.length = sent.length - taken := by rw [queue, List.length_drop]
  -- the writer is as many slots ahead, taken round the ring
  have ahead : sent.length % count = (taken % count + q.queue.length) % count := by
    rw [length, Nat.mod_add_mod]
    congr 1
    omega
  rw [← producer, ← consumer] at ahead
  rw [← consumer] at inside
  rw [PacketRing.packetringGetcount, stands.maxcount]
  by_cases straight : pr.consumer + q.queue.length < count
  · rw [Nat.mod_eq_of_lt straight] at ahead
    split_ifs
    all_goals omega
  · rw [Nat.mod_eq_sub_mod (by omega), Nat.mod_eq_of_lt (by omega)] at ahead
    split_ifs
    all_goals omega

variable (count : ℕ) (pr : PacketRing ReportStruct) (s : σ) (front : List ReportStruct)
  (final : ReportStruct)

/-- The report is in the queue of jobs. -/
def Posted (e : Ending σ) : Prop := e.isSingleUDP = false ∧ e.queued = true ∧ e.removing = false

/-- How far the two have come. -/
inductive Stage (e : Ending σ) : Prop
  /-- The last packet is not in the ring yet. -/
  | working (taken rest : List ReportStruct) (position : ℕ) (stands : Stands count e.ring ⟨rest, position⟩)
      (handled : e.handled = worked handler s taken) (split : front = taken ++ rest)
      (posted : Posted e) (noted : e.overflowed = false)
      (before : e.leaving = .clear ∨ e.leaving = .enqueue ∧ e.consumerdone = false)
      (untouched : taken = [] → e.ring = pr)
  | waiting (taken rest : List ReportStruct) (position : ℕ)
      (stands : Stands count e.ring ⟨rest ++ [final], position⟩)
      (handled : e.handled = worked handler s taken) (split : front = taken ++ rest)
      (posted : Posted e) (noted : e.overflowed = false) (before : e.leaving = .await)
      (unseen : e.consumerdone = false)
  /-- The last packet went with all others. -/
  | lost (stands : Stands count e.ring ⟨[], 0⟩) (posted : Posted e)
      (noted : e.overflowed = true) (before : e.leaving = .await) (unseen : e.consumerdone = false)
      (overflows : pr.Overflows)
  /-- The report is off the queue, or the reporter is about to take it off. -/
  | done (handled : e.handled = worked handler s (front ++ [final]))
      (dropped : e.queued = e.removing) (noted : e.overflowed = false)
      (after : e.leaving = .await ∧ e.consumerdone = true ∨ e.leaving = .returned)

/-- What is left to do at most. -/
def stepsLeft (e : Ending σ) : ℕ :=
  e.ring.packetringGetcount +
    (match e.leaving with
      | .clear => 4
      | .enqueue => 3
      | .process => 2
      | .await => 1
      | .returned => 0) +
    if e.queued then 1 else 0

theorem Stands.length_lt {α : Type} {count : ℕ} {pr : PacketRing α} {q : Lossy α}
    (stands : Stands count pr q) : q.queue.length < count := by
  obtain ⟨sent, taken, layout, _, _, queue⟩ := stands.laid
  have room := layout.room
  have positive := layout.positive
  rw [queue, List.length_drop]
  omega

theorem worked_append (taken more : List ReportStruct) :
    worked handler s (taken ++ more) = worked handler (worked handler s taken) more :=
  List.foldl_append

variable {handler count pr s front final} {e : Ending σ}

/-- There is nothing for the reporter to do. -/
theorem reporter_idle {position : ℕ} (stands : Stands count e.ring ⟨[], position⟩)
    (posted : Posted e) : e.reporter handler = e := by
  obtain ⟨answer, _⟩ := stands.dequeue
  obtain ⟨isSingleUDP, ring, handled, queued, removing, consumerdone, leaving, overflowed⟩ := e
  obtain ⟨_, inQueue, notYet⟩ := posted
  obtain rfl : queued = true := inQueue
  obtain rfl : removing = false := notYet
  simp [Ending.reporter, process_none handler handled ring answer]

theorem Stage.traffic (start : ∃ position, Stands count pr ⟨front, position⟩)
    (stage : Stage handler count pr s front final e) :
    Stage handler count pr s front final (e.traffic handler final) ∧
      (e.traffic handler final = e ∨ stepsLeft (e.traffic handler final) < stepsLeft e) := by
  cases stage with
  | working taken rest position stands handled split posted noted before untouched =>
    rcases before with clear | ⟨enqueue, unseen⟩
    · have next : e.traffic handler final = { e with consumerdone := false, leaving := .enqueue } := by
        rw [Ending.traffic, clear]
      rw [next]
      refine ⟨.working taken rest position stands handled split posted noted (.inr ⟨rfl, rfl⟩) untouched,
        .inr ?_⟩
      simp [stepsLeft, clear]
    · have outcome := stands.enqueue final
      have full := stands.full
      have bound := stands.length_lt
      cases entered : e.ring.packetringEnqueue final with
      | none =>
        have next : e.traffic handler final = e := by
          rw [Ending.traffic, enqueue]
          simp [entered]
        rw [next]
        exact ⟨.working taken rest position stands handled split posted noted (.inr ⟨enqueue, unseen⟩)
          untouched, .inl rfl⟩
      | some ring =>
        have next : e.traffic handler final = { e with
            ring := ring
            leaving := .await
            overflowed := decide e.ring.Overflows } := by
          rw [Ending.traffic, enqueue]
          simp [entered, posted.1]
        rw [next]
        rw [entered] at outcome
        by_cases free : rest.length + 1 < count
        · have entered' : (⟨rest, position⟩ : Lossy ReportStruct).enqueue count final =
              some ⟨rest ++ [final], position⟩ := if_pos free
          rw [entered'] at outcome
          cases outcome with | some stands' =>
          have room : ¬ e.ring.Overflows := fun overflows => by
            have inUse := full.mpr (.inr overflows)
            simp only at inUse
            omega
          refine ⟨.waiting taken rest position stands' handled split posted (decide_eq_false room) rfl
            unseen, .inr ?_⟩
          simp [stepsLeft, enqueue, stands.getcount, stands'.getcount]
        · have inUse : rest.length + 1 = count := by
            simp only at bound
            omega
          by_cases first : position = 0
          · have entered' : (⟨rest, position⟩ : Lossy ReportStruct).enqueue count final =
                some ⟨[], 0⟩ := (if_neg free).trans (if_pos first)
            rw [entered'] at outcome
            cases outcome with | some stands' =>
            have overflows : e.ring.Overflows := (full.mp inUse).resolve_left fun waits => by
              rw [PacketRing.packetringEnqueue, if_pos waits] at entered
              cases entered
            -- the reporter has not taken anything, or there were room
            have nothing : taken = [] := by
              obtain ⟨position', stands₀⟩ := start
              have whole := stands₀.length_lt
              rw [split] at whole
              apply List.eq_nil_of_length_eq_zero
              simp only [List.length_append] at whole
              omega
            have same := untouched nothing
            refine ⟨.lost stands' posted (decide_eq_true overflows) rfl unseen (same ▸ overflows),
              .inr ?_⟩
            simp [stepsLeft, enqueue, stands'.getcount]
          · have entered' : (⟨rest, position⟩ : Lossy ReportStruct).enqueue count final = none :=
              (if_neg free).trans (if_neg first)
            rw [entered'] at outcome
            cases outcome
  | waiting taken rest position stands handled split posted noted before unseen =>
    have next : e.traffic handler final = e := by
      rw [Ending.traffic, before]
      simp [unseen]
    rw [next]
    exact ⟨.waiting taken rest position stands handled split posted noted before unseen, .inl rfl⟩
  | lost stands posted noted before unseen overflows =>
    have next : e.traffic handler final = e := by
      rw [Ending.traffic, before]
      simp [unseen]
    rw [next]
    exact ⟨.lost stands posted noted before unseen overflows, .inl rfl⟩
  | done handled dropped noted after =>
    rcases after with ⟨await, seen⟩ | returned
    · have next : e.traffic handler final = { e with leaving := .returned } := by
        rw [Ending.traffic, await]
        simp [seen]
      rw [next]
      refine ⟨.done handled dropped noted (.inr rfl), .inr ?_⟩
      simp [stepsLeft, await]
    · have next : e.traffic handler final = e := by
        rw [Ending.traffic, returned]
      rw [next]
      exact ⟨.done handled dropped noted (.inr returned), .inl rfl⟩

variable (handler) in
/-- A turn of the reporter, on the queue the ring stands for. -/
theorem reporter_turn {queue : List ReportStruct} {position : ℕ}
    (stands : Stands count e.ring ⟨queue, position⟩) (posted : Posted e) :
    ∃ ring position', Stands count ring ⟨(drain handler e.handled queue).2.1, position'⟩ ∧
      e.reporter handler =
        { e with
          ring := ring
          handled := (drain handler e.handled queue).1
          removing := (drain handler e.handled queue).2.2
          consumerdone := e.consumerdone || (drain handler e.handled queue).2.2 } := by
  obtain ⟨handled, done, position', stands'⟩ :=
    process_drain handler e.handled e.ring queue position stands
  obtain ⟨_, inQueue, notYet⟩ := posted
  refine ⟨_, position', stands', ?_⟩
  rw [Ending.reporter, notYet, if_neg Bool.false_ne_true, if_pos inQueue, ← handled, ← done]

theorem Stage.reporter (running : ∀ packet ∈ front, 0 ≤ packet.packetID) (last : final.packetID < 0)
    (stage : Stage handler count pr s front final e) :
    Stage handler count pr s front final (e.reporter handler) ∧
      (e.reporter handler = e ∧ (Posted e → e.ring.packetringGetcount = 0) ∨
        stepsLeft (e.reporter handler) < stepsLeft e) := by
  cases stage with
  | working taken rest position stands handled split posted noted before untouched =>
    have ahead : ∀ packet ∈ rest, 0 ≤ packet.packetID := fun packet member =>
      running packet (split ▸ List.mem_append_right _ member)
    -- the last packet is not in the ring yet, so the turn ends without it
    obtain ⟨ring, position', stands', turn⟩ := reporter_turn handler stands posted
    obtain ⟨more, rest', rfl, ⟨drained, forward⟩ | ⟨_, _, _, never, _⟩⟩ :=
      drain_spec handler e.handled rest [] ahead (by simp)
    · rw [List.append_nil] at drained forward
      rcases forward with nothing | something
      · rw [nothing] at stands split
        rw [reporter_idle stands posted]
        exact ⟨.working taken [] position stands handled split posted noted before untouched,
          .inl ⟨rfl, fun _ => stands.getcount⟩⟩
      · rw [drained] at turn stands'
        rw [turn]
        -- every packet that is taken is a step forward
        have shorter := List.length_pos_iff.mpr something
        refine ⟨.working (taken ++ more) rest' position' (by simpa using stands') ?_ ?_
          ⟨posted.1, posted.2.1, rfl⟩ noted ?_ ?_, .inr ?_⟩
        · rw [worked_append, ← handled]
        · rw [split, List.append_assoc]
        · simpa using before
        · intro none
          exact absurd (List.append_eq_nil_iff.mp none).2 something
        · simp only [stepsLeft, stands.getcount, stands'.getcount, List.length_append, List.length_nil]
          omega
    · cases never
  | waiting taken rest position stands handled split posted noted before unseen =>
    have ahead : ∀ packet ∈ rest, 0 ≤ packet.packetID := fun packet member =>
      running packet (split ▸ List.mem_append_right _ member)
    obtain ⟨ring, position', stands', turn⟩ := reporter_turn handler stands posted
    obtain ⟨more, rest', rfl, ⟨drained, forward⟩ | ⟨rfl, packet, later, sole, drained⟩⟩ :=
      drain_spec handler e.handled rest [final] ahead (by simpa using last)
    · -- the ring is not empty: the last packet is in it
      have something : more ≠ [] := forward.resolve_left (by simp)
      have shorter := List.length_pos_iff.mpr something
      rw [drained] at turn stands'
      rw [turn]
      refine ⟨.waiting (taken ++ more) rest' position' stands' ?_ ?_ ⟨posted.1, posted.2.1, rfl⟩ noted
        before ?_, .inr ?_⟩
      · rw [worked_append, ← handled]
      · rw [split, List.append_assoc]
      · simp [unseen]
      · simp only [stepsLeft, stands.getcount, stands'.getcount, List.length_append]
        omega
    · -- the reporter has come to the last packet
      obtain ⟨rfl, rfl⟩ := List.cons.inj sole
      rw [drained] at turn stands'
      rw [turn]
      refine ⟨.done ?_ posted.2.1 noted (.inl ⟨before, by simp⟩), .inr ?_⟩
      · rw [split, List.append_assoc taken, worked_append handler s taken, ← handled]
      · simp only [stepsLeft, stands.getcount, stands'.getcount, List.length_append, List.length_nil,
          List.length_singleton]
        omega
  | lost stands posted noted before unseen overflows =>
    -- the lost packet leaves an empty ring, and nothing to do
    rw [reporter_idle stands posted]
    exact ⟨.lost stands posted noted before unseen overflows, .inl ⟨rfl, fun _ => stands.getcount⟩⟩
  | done handled dropped noted after =>
    -- taking the report off the queue is a step of its own
    cases removing : e.removing with
    | true =>
      have next : e.reporter handler = { e with queued := false, removing := false } := by
        rw [Ending.reporter, if_pos removing]
      rw [next]
      refine ⟨.done handled rfl noted after, .inr ?_⟩
      simp [stepsLeft, dropped, removing]
    | false =>
      have off : e.queued = false := dropped.trans removing
      have next : e.reporter handler = e := by
        rw [Ending.reporter, removing, off]
        rfl
      rw [next]
      refine ⟨.done handled dropped noted after, .inl ⟨rfl, fun posted => ?_⟩⟩
      have still := posted.2.1
      rw [off] at still
      cases still

theorem Stage.act (start : ∃ position, Stands count pr ⟨front, position⟩)
    (running : ∀ packet ∈ front, 0 ≤ packet.packetID) (last : final.packetID < 0) (party : Party)
    (stage : Stage handler count pr s front final e) :
    Stage handler count pr s front final (Ending.act handler final party e) ∧
      (Ending.act handler final party e = e ∨
        stepsLeft (Ending.act handler final party e) < stepsLeft e) := by
  cases party with
  | traffic => exact stage.traffic start
  | reporter =>
    obtain ⟨stage', forward⟩ := stage.reporter running last
    exact ⟨stage', forward.imp_left And.left⟩

/-- The traffic thread gets away when the reporter is done with the report, which it does not touch any
more. -/
theorem Stage.returned (stage : Stage handler count pr s front final e)
    (returned : e.leaving = .returned) :
    e.overflowed = false ∧ e.queued = e.removing ∧ e.handled = worked handler s (front ++ [final]) := by
  cases stage with
  | done handled dropped noted after => exact ⟨noted, dropped, handled⟩
  | working taken rest position stands handled split posted noted before untouched =>
    rcases before with clear | ⟨enqueue, _⟩
    · rw [clear] at returned
      cases returned
    · rw [enqueue] at returned
      cases returned
  | waiting taken rest position stands handled split posted noted before unseen =>
    rw [before] at returned
    cases returned
  | lost stands posted noted before unseen overflows =>
    rw [before] at returned
    cases returned

theorem Stage.run (start : ∃ position, Stands count pr ⟨front, position⟩)
    (running : ∀ packet ∈ front, 0 ≤ packet.packetID) (last : final.packetID < 0)
    (stage : Stage handler count pr s front final e) (schedule : List Party) :
    Stage handler count pr s front final (Rounds.run (Ending.act handler final) e schedule) :=
  Rounds.run_invariant (fun party _ stage => (stage.act start running last party).1) _ _ stage

theorem drain_one (handler : σ → ReportStruct → σ × Bool) (s : σ) (packet : ReportStruct) :
    ∃ done, drain handler s [packet] = ((handler s packet).1, [], done) := by
  rw [drain]
  split_ifs
  · exact ⟨true, rfl⟩
  · exact ⟨false, rfl⟩
  · exact ⟨false, rfl⟩

theorem Stands.enqueue_empty {count position : ℕ} (slots : 1 < count) {pr : PacketRing ReportStruct}
    (stands : Stands count pr ⟨[], position⟩) (packet : ReportStruct) :
    ∃ pr', pr.packetringEnqueue packet = some pr' ∧ Stands count pr' ⟨[packet], position⟩ := by
  have outcome := stands.enqueue packet
  have entered : (⟨[], position⟩ : Lossy ReportStruct).enqueue count packet =
      some ⟨[packet], position⟩ := if_pos (by simpa using slots)
  rw [entered] at outcome
  cases enqueued : pr.packetringEnqueue packet with
  | none =>
    rw [enqueued] at outcome
    cases outcome
  | some pr' =>
    rw [enqueued] at outcome
    cases outcome with | some stands' =>
    exact ⟨pr', rfl, stands'⟩

/-- A thread that does the work of the reporter itself has an empty ring again after every packet. -/
theorem process_one (handler : σ → ReportStruct → σ × Bool) {count position : ℕ} (s : σ)
    {pr : PacketRing ReportStruct} (packet : ReportStruct)
    (stands : Stands count pr ⟨[packet], position⟩) :
    ∃ position', Stands count (reporterProcessTransferReport handler s pr).2.1 ⟨[], position'⟩ ∧
      (reporterProcessTransferReport handler s pr).1 = (handler s packet).1 := by
  obtain ⟨handled, _, position', stands'⟩ := process_drain handler s pr [packet] position stands
  obtain ⟨done, drained⟩ := drain_one handler s packet
  rw [drained] at handled stands'
  exact ⟨position', stands', handled⟩

theorem reported_single (handler : σ → ReportStruct → σ × Bool) {count position : ℕ}
    (slots : 1 < count) (s : σ) (pr : PacketRing ReportStruct)
    (stands : Stands count pr ⟨[], position⟩) (packets : List ReportStruct) :
    ∃ pr' position', packets.foldlM (reportPacket handler true) (s, pr) =
        some (worked handler s packets, pr') ∧ Stands count pr' ⟨[], position'⟩ := by
  induction packets generalizing s pr position with
  | nil => exact ⟨pr, position, rfl, stands⟩
  | cons packet packets ih =>
    obtain ⟨entered, enqueued, inside⟩ := stands.enqueue_empty slots packet
    obtain ⟨position', stands', handled⟩ := process_one handler s packet inside
    obtain ⟨pr', position'', later, empty⟩ := ih (handler s packet).1 _ stands'
    refine ⟨pr', position'', ?_, empty⟩
    have first : reportPacket handler true (s, pr) packet =
        some ((handler s packet).1, (reporterProcessTransferReport handler s entered).2.1) := by
      simp [reportPacket, enqueued, handled]
    rw [List.foldlM_cons, first]
    exact later

/-- How far `EndJob` has come without a reporter. -/
inductive Alone (handler : σ → ReportStruct → σ × Bool) (count : ℕ) (s : σ) (final : ReportStruct)
    (e : Ending σ) : Prop
  | working (position : ℕ) (stands : Stands count e.ring ⟨[], position⟩) (handled : e.handled = s)
      (before : e.leaving = .clear ∨ e.leaving = .enqueue)
  | entered (position : ℕ) (stands : Stands count e.ring ⟨[final], position⟩) (handled : e.handled = s)
      (before : e.leaving = .process)
  | done (handled : e.handled = (handler s final).1) (after : e.leaving = .returned)

/-- No reporter knows of the report. -/
def Unposted (e : Ending σ) : Prop := e.isSingleUDP = true ∧ e.queued = false ∧ e.removing = false

def stepsAlone (e : Ending σ) : ℕ :=
  match e.leaving with
  | .clear => 3
  | .enqueue => 2
  | .process | .await => 1
  | .returned => 0

theorem Alone.traffic {count : ℕ} (slots : 1 < count) (single : e.isSingleUDP = true)
    (alone : Alone handler count s final e) :
    Alone handler count s final (e.traffic handler final) ∧
      (e.leaving = .returned ∨ stepsAlone (e.traffic handler final) < stepsAlone e) := by
  cases alone with
  | working position stands handled before =>
    rcases before with clear | enqueue
    · have next : e.traffic handler final = { e with consumerdone := false, leaving := .enqueue } := by
        rw [Ending.traffic, clear]
      rw [next]
      exact ⟨.working position stands handled (.inr rfl), .inr (by simp [stepsAlone, clear])⟩
    · -- an empty ring of two slots and more has room
      obtain ⟨entered, enqueued, inside⟩ := stands.enqueue_empty slots final
      have next : e.traffic handler final = { e with
          ring := entered
          leaving := .process
          overflowed := decide e.ring.Overflows } := by
        rw [Ending.traffic, enqueue]
        simp [enqueued, single]
      rw [next]
      exact ⟨.entered position inside handled rfl, .inr (by simp [stepsAlone, enqueue])⟩
  | entered position stands handled before =>
    obtain ⟨_, _, done⟩ := process_one handler e.handled final stands
    have next : e.traffic handler final = { e with
        ring := (reporterProcessTransferReport handler e.handled e.ring).2.1
        handled := (handler e.handled final).1
        leaving := .returned } := by
      rw [Ending.traffic, before, ← done]
    rw [next]
    exact ⟨.done (by rw [← handled]) rfl, .inr (by simp [stepsAlone, before])⟩
  | done handled after =>
    have next : e.traffic handler final = e := by
      rw [Ending.traffic, after]
    rw [next]
    exact ⟨.done handled after, .inl after⟩

theorem Unposted.reporter (unposted : Unposted e) : e.reporter handler = e := by
  obtain ⟨_, off, notYet⟩ := unposted
  rw [Ending.reporter, off, notYet]
  rfl

theorem Unposted.traffic (unposted : Unposted e) : Unposted (e.traffic handler final) := by
  rw [Ending.traffic]
  split
  · exact unposted
  · split
    · exact unposted
    · exact unposted
  · exact unposted
  · split_ifs
    · exact unposted
    · exact unposted
  · exact unposted

/-- Without a reporter thread every packet is handled when it is reported, and the last one by `EndJob`,
which need not wait: the ring has always been emptied before. -/
theorem endJob_single (handler : σ → ReportStruct → σ × Bool) (count : ℕ) (slots : 1 < count) (s : σ)
    (packets : List ReportStruct) (final : ReportStruct) (consumerdone : Bool) (schedule : List Party)
    (fair : Rounds.Fair 3 schedule) :
    ∃ pr, packets.foldlM (reportPacket handler true)
        (s, .packetringInit count (by omega) .zeroed) = some (worked handler s packets, pr) ∧
      let e := Rounds.run (Ending.act handler final)
        (.start true pr (worked handler s packets) consumerdone) schedule
      e.leaving = .returned ∧ e.handled = worked handler s (packets ++ [final]) := by
  obtain ⟨pr, position, reported, empty⟩ := reported_single handler slots s _
    (stands_init count (by omega) .zeroed) packets
  refine ⟨pr, reported, ?_⟩
  intro e
  have begun : Alone handler count (worked handler s packets) final
      (.start true pr (worked handler s packets) consumerdone) :=
    .working position empty rfl (.inl rfl)
  -- the reporter never sees a report that was not posted
  have kept : ∀ party e, Alone handler count (worked handler s packets) final e ∧ Unposted e →
      Alone handler count (worked handler s packets) final (Ending.act handler final party e) ∧
        Unposted (Ending.act handler final party e) := by
    rintro party e ⟨alone, unposted⟩
    cases party with
    | traffic => exact ⟨(alone.traffic slots unposted.1).1, unposted.traffic⟩
    | reporter =>
      rw [Ending.act, unposted.reporter]
      exact ⟨alone, unposted⟩
  have moves : ∀ party e, Alone handler count (worked handler s packets) final e ∧ Unposted e →
      Ending.act handler final party e = e ∨
        stepsAlone (Ending.act handler final party e) < stepsAlone e := by
    rintro party e ⟨alone, unposted⟩
    cases party with
    | traffic =>
      refine (alone.traffic slots unposted.1).2.imp_left fun returned => ?_
      rw [Ending.act, Ending.traffic, returned]
    | reporter => exact .inl unposted.reporter
  have rest : Rounds.AtRest (Ending.act handler final) e :=
    Rounds.atRest_of_fair kept moves fair _ ⟨begun, rfl, rfl, rfl⟩ le_rfl
  obtain ⟨alone, unposted⟩ := Rounds.run_invariant kept _ schedule ⟨begun, rfl, rfl, rfl⟩
  -- where the traffic thread has nothing to do it has returned
  have resting : e.traffic handler final = e := rest .traffic
  have returned : e.leaving = .returned := by
    rcases (alone.traffic slots unposted.1).2 with returned | forward
    · exact returned
    · rw [resting] at forward
      exact absurd forward (lt_irrefl _)
  refine ⟨returned, ?_⟩
  cases alone with
  | working position stands handled before =>
    rcases before with clear | enqueue
    · cases returned.symm.trans clear
    · cases returned.symm.trans enqueue
  | entered position stands handled before => cases returned.symm.trans before
  | done handled after => exact handled.trans (worked_append handler s packets [final]).symm

/-- In a ring of two slots: three packets and the last one. -/
theorem endJob_single_sample :
    let handler := fun (n : ℕ) (_ : ReportStruct) => (n + 1, true)
    ∃ pr, [.zeroed, .zeroed, .zeroed].foldlM (reportPacket handler true)
        (0, .packetringInit 2 (by decide) .zeroed) = some (3, pr) ∧
      (Rounds.run (Ending.act handler (finalPacket 0)) (.start true pr 3 false)
        [.traffic, .reporter, .traffic, .reporter, .traffic, .reporter]).handled = 4 := by
  intro handler
  have round : ∀ party, party ∈ [Party.traffic, .reporter] := fun party => by cases party <;> simp
  have fair : Rounds.Fair 3
      [Party.traffic, .reporter, .traffic, .reporter, .traffic, .reporter] :=
    .round _ [.traffic, .reporter, .traffic, .reporter] round
      (.round _ [.traffic, .reporter] round (.round _ [] round (.start [])))
  obtain ⟨pr, reported, _, handled⟩ := endJob_single handler 2 (by decide) 0
    [.zeroed, .zeroed, .zeroed] (finalPacket 0) false _ fair
  exact ⟨pr, reported, handled⟩

end Tlink.Properties
