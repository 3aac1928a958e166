import Tlink.Lib.Ring

/-!
The ring between a traffic thread and the reporter thread (`packet_ring.c`). Each index is written by
one thread only. What the threads use to wake each other up is left out.
-/
namespace Tlink.Testbed

/-- `struct PacketRing`: both indices are slots of `data`. -/
structure PacketRing (α : Type) where
  maxcount : ℕ
  data : ℕ → α
  producer : ℕ
  consumer : ℕ
  producer_lt : producer < maxcount
  consumer_lt : consumer < maxcount

namespace PacketRing

variable {α : Type}

/-- `packetring_init`: the slots are zeroed by `calloc`. -/
def packetringInit (count : ℕ) (positive : 0 < count) (zeroed : α) : PacketRing α :=
  ⟨count, fun _ => zeroed, 0, 0, positive, positive⟩

/-- The condition on which `packetring_enqueue` waits. -/
def full (pr : PacketRing α) : Bool :=
  decide ((pr.producer = pr.maxcount ∧ pr.consumer = 0) ∨ pr.producer + 1 = pr.consumer)

def writeindex (pr : PacketRing α) : ℕ := Ring.next pr.maxcount pr.producer

def readindex (pr : PacketRing α) : ℕ := Ring.next pr.maxcount pr.consumer

/-- The `memcpy` into the slot that comes next. -/
def copied (pr : PacketRing α) (metapacket : α) : PacketRing α :=
  { pr with data := Function.update pr.data pr.writeindex metapacket }

/-- `pr->producer = writeindex` -/
def published (pr : PacketRing α) : PacketRing α :=
  { pr with producer := pr.writeindex, producer_lt := Ring.next_lt _ _ pr.producer_lt }

/-- `pr->consumer = readindex` -/
def advanced (pr : PacketRing α) : PacketRing α :=
  { pr with consumer := pr.readindex, consumer_lt := Ring.next_lt _ _ pr.consumer_lt }

/-- `packetring_enqueue`, which waits as long as there is no result. -/
def packetringEnqueue (pr : PacketRing α) (metapacket : α) : Option (PacketRing α) :=
  if pr.full then none else some (pr.copied metapacket).published

/-- `packetring_dequeue`: the caller gets a pointer into the ring. -/
def packetringDequeue (pr : PacketRing α) : Option α × PacketRing α :=
  if pr.producer = pr.consumer then (none, pr)
  else (some (pr.data pr.readindex), pr.advanced)

/-- The one case in which the condition to wait misses a full ring: the index never reaches
`maxcount`. -/
def Overflows (pr : PacketRing α) : Prop := pr.producer + 1 = pr.maxcount ∧ pr.consumer = 0

instance (pr : PacketRing α) : Decidable pr.Overflows :=
  inferInstanceAs (Decidable (_ ∧ _))

/-- What `full` says of the slot that would be written. -/
theorem writeindex_eq_consumer_iff (pr : PacketRing α) :
    pr.writeindex = pr.consumer ↔ pr.full = true ∨ pr.Overflows := by
  have producer_lt := pr.producer_lt
  have consumer_lt := pr.consumer_lt
  simp only [writeindex, Ring.next, full, Overflows, decide_eq_true_eq]
  split
  · omega
  · omega

/-- The overflow is not noticed. -/
theorem not_full_of_overflows (pr : PacketRing α) (overflows : pr.Overflows) : pr.full = false := by
  have producer_lt := pr.producer_lt
  simp only [full, Overflows, decide_eq_false_iff_not] at overflows ⊢
  omega

end PacketRing

/-! ### The two threads, step by step -/

/-- Where the traffic thread is in `packetring_enqueue`. -/
inductive Writing (α : Type) where
  | idle
  | claimed (metapacket : α)
  | copied (metapacket : α)

/-- `reading`: the reporter has a pointer it has not used yet. What was published and what the reporter
has read so far is kept for the record. -/
structure Threads (α : Type) where
  ring : PacketRing α
  writing : Writing α
  reading : Bool
  sent : List α
  got : List α

inductive Act (α : Type) where
  | claim (metapacket : α)
  | copy
  | publish
  | take
  | read

namespace Threads

variable {α : Type}

def start (count : ℕ) (positive : 0 < count) (zeroed : α) : Threads α :=
  ⟨.packetringInit count positive zeroed, .idle, false, [], []⟩

/-- One access to the shared memory by one of the threads. -/
def step (s : Threads α) : Act α → Option (Threads α)
  | .claim metapacket =>
    match s.writing with
    | .idle => if s.ring.full then none else some { s with writing := .claimed metapacket }
    | _ => none
  | .copy =>
    match s.writing with
    | .claimed metapacket =>
      some { s with ring := s.ring.copied metapacket, writing := .copied metapacket }
    | _ => none
  | .publish =>
    match s.writing with
    | .copied metapacket =>
      some { s with ring := s.ring.published, writing := .idle, sent := s.sent ++ [metapacket] }
    | _ => none
  | .take =>
    if s.reading ∨ s.ring.producer = s.ring.consumer then none
    else some { s with ring := s.ring.advanced, reading := true }
  | .read =>
    if s.reading then
      some { s with reading := false, got := s.got ++ [s.ring.data s.ring.consumer] }
    else none

/-- Undisturbed, the steps of the traffic thread are `packetring_enqueue`. -/
theorem enqueue_steps (s : Threads α) (metapacket : α) (idle : s.writing = .idle) :
    ((s.step (.claim metapacket)).bind fun s => (s.step .copy).bind fun s => s.step .publish) =
      (s.ring.packetringEnqueue metapacket).map fun ring =>
        { s with ring := ring, sent := s.sent ++ [metapacket] } := by
  cases full : s.ring.full with
  | true => simp [step, idle, PacketRing.packetringEnqueue, full]
  | false => simp [step, idle, PacketRing.packetringEnqueue, full]

/-- The steps of the reporter are `packetring_dequeue` and the use of what it returns. -/
theorem dequeue_steps (s : Threads α) (notReading : s.reading = false) :
    ((s.step .take).bind fun s => s.step .read) =
      s.ring.packetringDequeue.1.map fun packet =>
        { s with ring := s.ring.packetringDequeue.2, got := s.got ++ [packet] } := by
  by_cases empty : s.ring.producer = s.ring.consumer
  · simp [step, PacketRing.packetringDequeue, empty]
  · simp [step, PacketRing.packetringDequeue, empty, notReading, PacketRing.advanced]

/-- The states of all runs in which no packet is enqueued into a ring that overflows. -/
inductive Reached (count : ℕ) (positive : 0 < count) (zeroed : α) : Threads α → Prop
  | start : Reached count positive zeroed (start count positive zeroed)
  | step {s s' : Threads α} (act : Act α) : Reached count positive zeroed s → s.step act = some s' →
      (∀ metapacket, act = .claim metapacket → ¬ s.ring.Overflows) →
      Reached count positive zeroed s'

end Threads

end Tlink.Testbed
