import Tlink.Lib.PartialRun
import Tlink.Properties.Fifo

/-!
# What is lost in the ring

Called one after the other, the two operations of the ring are those of a queue that empties itself:
an enqueue that finds the queue full while the reader stands at the first slot succeeds, and everything
in the queue is gone, the packet included.
-/
namespace Tlink.Properties

open Tlink.Testbed

variable {α : Type}

/-! ### The queue that empties itself -/

/-- What waits to be read, and the slot the reader stands at. -/
structure Lossy (α : Type) where
  queue : List α
  position : ℕ

namespace Lossy

def enqueue (count : ℕ) (q : Lossy α) (metapacket : α) : Option (Lossy α) :=
  if q.queue.length + 1 < count then some { q with queue := q.queue ++ [metapacket] }
  else if q.position = 0 then some ⟨[], 0⟩
  else none

def dequeue (count : ℕ) (q : Lossy α) : Option α × Lossy α :=
  match q.queue with
  | [] => (none, q)
  | packet :: rest => (some packet, ⟨rest, Ring.next count q.position⟩)

end Lossy

/-- The ring holds the queue. -/
structure Stands (count : ℕ) (pr : PacketRing α) (q : Lossy α) : Prop where
  maxcount : pr.maxcount = count
  position : q.position = pr.consumer
  /-- Since the queue was empty last. -/
  laid : ∃ sent taken, Ring.Layout count pr.data sent taken ∧ pr.producer = sent.length % count ∧
    pr.consumer = taken % count ∧ q.queue = sent.drop taken

theorem stands_init (count : ℕ) (positive : 0 < count) (zeroed : α) :
    Stands count (.packetringInit count positive zeroed) ⟨[], 0⟩ :=
  ⟨rfl, rfl, [], 0, Ring.Layout.start count _ positive, (Nat.zero_mod count).symm,
    (Nat.zero_mod count).symm, rfl⟩

/-- Where the condition to wait is right, the ring is a queue of bounded length. -/
theorem Stands.full {count : ℕ} {pr : PacketRing α} {q : Lossy α} (stands : Stands count pr q) :
    q.queue.length + 1 = count ↔ pr.full = true ∨ pr.Overflows := by
  obtain ⟨sent, taken, layout, producer, consumer, queue⟩ := stands.laid
  have bound := layout.taken_le
  rw [← pr.writeindex_eq_consumer_iff, PacketRing.writeindex, stands.maxcount, producer, consumer,
    layout.full_iff, queue, List.length_drop]
  omega

theorem Stands.enqueue {count : ℕ} {pr : PacketRing α} {q : Lossy α} (stands : Stands count pr q)
    (metapacket : α) :
    Option.Rel (Stands count) (pr.packetringEnqueue metapacket) (q.enqueue count metapacket) := by
  obtain ⟨sent, taken, layout, producer, consumer, queue⟩ := stands.laid
  have bound := layout.taken_le
  have room := layout.room
  have waits := stands.full
  have length : q.queue.length = sent.length - taken := by rw [queue, List.length_drop]
  have slot : pr.writeindex = (sent.length + 1) % count := by
    rw [PacketRing.writeindex, stands.maxcount, producer, Ring.next_mod _ _ layout.positive]
  by_cases free : q.queue.length + 1 < count
  · -- with a free slot the ring is not seen to be full
    have notFull : ¬ pr.full = true := fun full => by
      have full' := waits.mpr (.inl full)
      omega
    rw [PacketRing.packetringEnqueue, if_neg notFull, Lossy.enqueue, if_pos free]
    refine .some ⟨stands.maxcount, stands.position, sent ++ [metapacket], taken, ?_, ?_, consumer, ?_⟩
    · change Ring.Layout count (Function.update pr.data pr.writeindex metapacket) _ _
      rw [slot]
      exact (layout.write (by omega) metapacket).publish (by omega) metapacket
        (Function.update_self _ _ _)
    · change pr.writeindex = (sent ++ [metapacket]).length % count
      rw [slot, List.length_append, List.length_singleton]
    · change q.queue ++ [metapacket] = (sent ++ [metapacket]).drop taken
      rw [queue, List.drop_append_of_le_length bound]
  · have inUse : q.queue.length + 1 = count := by omega
    rw [Lossy.enqueue, if_neg free]
    by_cases overflows : pr.Overflows
    · -- the index comes round to the reader's, as in an empty ring
      have notFull := pr.not_full_of_overflows overflows
      have first : q.position = 0 := stands.position.trans overflows.2
      have wraps : pr.writeindex = 0 := by
        rw [PacketRing.writeindex, Ring.next, if_pos overflows.1]
      rw [PacketRing.packetringEnqueue, notFull, if_neg Bool.false_ne_true, if_pos first]
      refine .some ⟨stands.maxcount, overflows.2.symm, [], 0, Ring.Layout.start count _ layout.positive,
        ?_, ?_, rfl⟩
      · exact wraps.trans (Nat.zero_mod count).symm
      · exact overflows.2.trans (Nat.zero_mod count).symm
    · -- all slots are in use and it is noticed, so both wait
      have full : pr.full = true := (waits.mp inUse).resolve_right overflows
      have later : ¬ q.position = 0 := by
        rw [stands.position]
        intro first
        have producer_lt := pr.producer_lt
        simp only [PacketRing.full, decide_eq_true_eq] at full
        omega
      rw [PacketRing.packetringEnqueue, if_pos full, if_neg later]
      exact .none

theorem Stands.dequeue {count : ℕ} {pr : PacketRing α} {q : Lossy α} (stands : Stands count pr q) :
    pr.packetringDequeue.1 = (q.dequeue count).1 ∧
      Stands count pr.packetringDequeue.2 (q.dequeue count).2 := by
  obtain ⟨sent, taken, layout, producer, consumer, queue⟩ := stands.laid
  have bound := layout.taken_le
  by_cases empty : pr.producer = pr.consumer
  · have nothing : q.queue = [] := by
      rw [producer, consumer, layout.empty_iff] at empty
      rw [queue, List.drop_eq_nil_of_le empty.le]
    rw [PacketRing.packetringDequeue, if_pos empty, Lossy.dequeue, nothing]
    exact ⟨rfl, stands⟩
  · have left : taken < sent.length := by
      rw [producer, consumer, layout.empty_iff] at empty
      omega
    have slot : pr.readindex = (taken + 1) % count := by
      rw [PacketRing.readindex, stands.maxcount, consumer, Ring.next_mod _ _ layout.positive]
    -- the slot holds the packet that was sent at its number
    have packet : pr.data pr.readindex = sent[taken] := by
      rw [slot]
      exact layout.slots taken _ (Nat.le_succ _) (List.getElem?_eq_getElem left)
    have split : q.queue = pr.data pr.readindex :: sent.drop (taken + 1) := by
      rw [queue, packet, List.drop_eq_getElem_cons left]
    rw [PacketRing.packetringDequeue, if_neg empty, Lossy.dequeue, split]
    refine ⟨rfl, stands.maxcount, ?_, sent, taken + 1, layout.take left, producer, slot, rfl⟩
    change Ring.next count q.position = pr.readindex
    rw [PacketRing.readindex, stands.maxcount, stands.position]

/-! ### Whole runs -/

inductive Call (α : Type) where
  | enqueue (metapacket : α)
  | dequeue

/-- A call that has to wait ends the run, since nobody else is there to make room. -/
inductive Waits where
  | forRoom
  deriving DecidableEq

def ringCall (pr : PacketRing α) : Call α → Except Waits (PacketRing α × List α)
  | .enqueue metapacket =>
    match pr.packetringEnqueue metapacket with
    | none => .error .forRoom
    | some pr' => .ok (pr', [])
  | .dequeue => .ok (pr.packetringDequeue.2, pr.packetringDequeue.1.toList)

def lossyCall (count : ℕ) (q : Lossy α) : Call α → Except Waits (Lossy α × List α)
  | .enqueue metapacket =>
    match q.enqueue count metapacket with
    | none => .error .forRoom
    | some q' => .ok (q', [])
  | .dequeue => .ok ((q.dequeue count).2, (q.dequeue count).1.toList)

theorem ringCall_lossyCall {count : ℕ} (pr : PacketRing α) (q : Lossy α) (call : Call α)
    (stands : Stands count pr q) :
    (∃ e, ringCall pr call = .error e ∧ lossyCall count q call = .error e) ∨
    ∃ pr' q' out, ringCall pr call = .ok (pr', out) ∧ lossyCall count q call = .ok (q', out) ∧
      Stands count pr' q' := by
  cases call with
  | enqueue metapacket =>
    -- ring and queue both have room, or both have none
    have outcome := stands.enqueue metapacket
    cases ring : pr.packetringEnqueue metapacket with
    | none =>
      cases lossy : q.enqueue count metapacket with
      | none => exact .inl ⟨.forRoom, by simp [ringCall, ring], by simp [lossyCall, lossy]⟩
      | some q' =>
        rw [ring, lossy] at outcome
        cases outcome
    | some pr' =>
      cases lossy : q.enqueue count metapacket with
      | none =>
        rw [ring, lossy] at outcome
        cases outcome
      | some q' =>
        rw [ring, lossy] at outcome
        cases outcome with | some stands' =>
        exact .inr ⟨pr', q', [], by simp [ringCall, ring], by simp [lossyCall, lossy], stands'⟩
  | dequeue =>
    obtain ⟨same, stands'⟩ := stands.dequeue
    exact .inr ⟨_, _, _, rfl, by rw [lossyCall, same], stands'⟩

/-- What was handed to the ring. -/
def enqueued (calls : List (Call α)) : List α :=
  calls.filterMap fun call =>
    match call with
    | .enqueue metapacket => some metapacket
    | .dequeue => none

/-- The enqueues that found the queue full and the reader at the first slot. -/
def overflows (count : ℕ) : Lossy α → List (Call α) → ℕ
  | _, [] => 0
  | q, .enqueue metapacket :: calls =>
    (if q.queue.length + 1 < count then 0 else 1) +
      overflows count ((q.enqueue count metapacket).getD q) calls
  | q, .dequeue :: calls => overflows count (q.dequeue count).2 calls

/-- Every packet is read, still there, or among the rounds that were lost. -/
theorem lossy_books (count : ℕ) (q q' : Lossy α) (calls : List (Call α)) (got : List α)
    (bound : q.queue.length < count)
    (ran : PartialRun.run (lossyCall count) q calls = .ok (q', got)) :
    q.queue.length + (enqueued calls).length =
      got.length + q'.queue.length + count * overflows count q calls ∧
    (got ++ q'.queue).Sublist (q.queue ++ enqueued calls) ∧
    (overflows count q calls = 0 → got ++ q'.queue = q.queue ++ enqueued calls) := by
  induction calls generalizing q got with
  | nil =>
    obtain ⟨rfl, rfl⟩ := Prod.mk.inj (Except.ok.inj ran)
    simp [enqueued, overflows]
  | cons call calls ih =>
    obtain ⟨q₁, out, rest, first, later, rfl⟩ := (PartialRun.run_cons_ok_iff _ _ _ _ _ _).mp ran
    cases call with
    | dequeue =>
      obtain ⟨rfl, rfl⟩ := Prod.mk.inj (Except.ok.inj first)
      cases queue : q.queue with
      | nil =>
        have same : q.dequeue count = (none, q) := by simp [Lossy.dequeue, queue]
        rw [same] at later ⊢
        -- an empty queue gives nothing
        have books := ih q rest bound later
        rw [queue] at books
        simpa [enqueued, overflows, same] using books
      | cons packet waiting =>
        have next : q.dequeue count = (some packet, ⟨waiting, Ring.next count q.position⟩) := by
          simp [Lossy.dequeue, queue]
        rw [next] at later ⊢
        -- a packet that is read is the first of the queue
        have shorter : waiting.length < count := by
          rw [queue, List.length_cons] at bound
          omega
        obtain ⟨sizes, kept, all⟩ := ih _ rest shorter later
        refine ⟨?_, ?_, ?_⟩
        · simp only [enqueued, overflows, next, List.length_cons, List.filterMap_cons,
            Option.toList_some, List.cons_append, List.nil_append] at sizes ⊢
          omega
        · simpa [enqueued] using kept.cons_cons packet
        · intro none_lost
          have rest_all := all (by simpa [overflows, next] using none_lost)
          simpa [enqueued] using rest_all
    | enqueue metapacket =>
      cases entered : q.enqueue count metapacket with
      | none => simp [lossyCall, entered] at first
      | some q₂ =>
        simp only [lossyCall, entered] at first
        obtain ⟨rfl, rfl⟩ := Prod.mk.inj (Except.ok.inj first)
        by_cases free : q.queue.length + 1 < count
        · -- a packet that enters is the last of the queue
          obtain rfl : { q with queue := q.queue ++ [metapacket] } = q₂ := by
            simpa [Lossy.enqueue, free] using entered
          obtain ⟨sizes, kept, all⟩ := ih _ rest (by simpa using free) later
          refine ⟨?_, ?_, ?_⟩
          · simp only [enqueued, overflows, entered, free, if_pos, Option.getD_some, List.length_append,
              List.length_nil, List.filterMap_cons, List.length_cons, List.nil_append,
              Nat.zero_add] at sizes ⊢
            omega
          · simpa [enqueued] using kept
          · intro none_lost
            have rest_all := all (by simpa [overflows, entered, free] using none_lost)
            simpa [enqueued] using rest_all
        · -- what was in the queue and the packet make up one round
          obtain rfl : ⟨[], 0⟩ = q₂ := by
            rw [Lossy.enqueue, if_neg free] at entered
            split at entered
            · exact Option.some.inj entered
            · cases entered
          obtain ⟨sizes, kept, _⟩ := ih _ rest (by simp; omega) later
          refine ⟨?_, ?_, ?_⟩
          · simp only [enqueued, overflows, entered, free, if_false, Option.getD_some, List.length_nil,
              List.filterMap_cons, List.length_cons, List.nil_append, Nat.mul_add, Nat.mul_one]
              at sizes ⊢
            omega
          · have later_only : (rest ++ q'.queue).Sublist (enqueued calls) := by simpa using kept
            exact (later_only.cons metapacket).trans (List.sublist_append_right _ _)
          · intro none_lost
            simp [overflows, free] at none_lost

/-- Whatever is enqueued and dequeued: the ring waits and answers exactly as the queue that empties
itself, so each overflow loses one round of packets, `maxcount` of them, and without an overflow the
packets come out as they went in. -/
theorem ring_lossy (count : ℕ) (positive : 0 < count) (zeroed : α) (calls : List (Call α)) :
    let ring := PartialRun.run ringCall (.packetringInit count positive zeroed) calls
    let lossy := PartialRun.run (lossyCall count) ⟨[], 0⟩ calls
    (∃ e, ring = .error e ∧ lossy = .error e) ∨
    ∃ pr q got, ring = .ok (pr, got) ∧ lossy = .ok (q, got) ∧ Stands count pr q ∧
      (enqueued calls).length =
        got.length + q.queue.length + count * overflows count ⟨[], 0⟩ calls ∧
      (got ++ q.queue).Sublist (enqueued calls) ∧
      (overflows count ⟨[], 0⟩ calls = 0 → got ++ q.queue = enqueued calls) := by
  intro ring lossy
  rcases PartialRun.run_simulates ringCall (lossyCall count) (Stands count) ringCall_lossyCall _ _ calls
    (stands_init count positive zeroed) with waits | ⟨pr, q, got, ran, ran', stands⟩
  · exact .inl waits
  · right
    obtain ⟨sizes, kept, all⟩ := lossy_books count ⟨[], 0⟩ q calls got positive ran'
    exact ⟨pr, q, got, ran, ran', stands, by simpa using sizes, by simpa using kept,
      by simpa using all⟩

/-- The last of three packets takes the other two with it. -/
theorem ring_lossy_sample :
    ∃ pr, PartialRun.run ringCall (.packetringInit 3 (by decide) 0)
      [.enqueue 1, .enqueue 2, .enqueue 3, .dequeue, .enqueue 4, .dequeue] = .ok (pr, [4]) := by
  rcases ring_lossy 3 (by decide) 0
    [.enqueue 1, .enqueue 2, .enqueue 3, .dequeue, .enqueue 4, .dequeue] with
    ⟨e, _, lossy⟩ | ⟨pr, q, got, ran, lossy, _⟩
  · cases lossy
  · obtain ⟨_, rfl⟩ := Prod.mk.inj (Except.ok.inj lossy)
    exact ⟨pr, ran⟩

end Tlink.Properties
