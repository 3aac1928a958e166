import Mathlib.Tactic.Common
import Tlink.Testbed.Reporter

/-!
How a traffic thread takes leave of the reporter thread (`Reporter.c`). What happens to a packet in the
reporter is a parameter: it changes the state of the reporter and says whether an interval report was
printed, after which the reporter goes on to its next job.
-/
namespace Tlink.Testbed

namespace PacketRing

variable {α : Type}

/-- `packetring_getcount` -/
def packetringGetcount (pr : PacketRing α) : ℕ :=
  if pr.producer ≠ pr.consumer then
    if pr.producer > pr.consumer then pr.producer - pr.consumer
    else pr.maxcount - pr.consumer + pr.producer
  else 0

theorem getcount_dequeue (pr pr' : PacketRing α) (packet : α)
    (dequeued : pr.packetringDequeue = (some packet, pr')) :
    pr'.packetringGetcount < pr.packetringGetcount := by
  have producer_lt := pr.producer_lt
  have consumer_lt := pr.consumer_lt
  rw [packetringDequeue] at dequeued
  split at dequeued
  · cases dequeued
  · obtain ⟨_, rfl⟩ := Prod.mk.inj dequeued
    simp only [packetringGetcount, advanced, readindex, Ring.next]
    split_ifs
    all_goals omega

end PacketRing

variable {σ : Type} (handler : σ → ReportStruct → σ × Bool)

/-- The loop of `reporter_process_transfer_report`. The answer is `need_free`. -/
def reporterProcessTransferReport (s : σ) (pr : PacketRing ReportStruct) :
    σ × PacketRing ReportStruct × Bool :=
  match _ : pr.packetringDequeue with
  | (none, pr) => (s, pr, false)
  | (some packet, pr') =>
    let (s, advanceJobq) := handler s packet
    -- a last packet event ends the loop in any case
    if packet.packetID < 0 then (s, pr', true)
    else if advanceJobq then (s, pr', false)
    else reporterProcessTransferReport s pr'
termination_by pr.packetringGetcount
decreasing_by exact pr.getcount_dequeue _ _ (by assumption)

/-- `ReportPacket`, which waits as long as there is no result. With `isSingleUDP` there is no reporter
thread to hand the packet to. -/
def reportPacket (isSingleUDP : Bool) (r : σ × PacketRing ReportStruct) (packet : ReportStruct) :
    Option (σ × PacketRing ReportStruct) :=
  (r.2.packetringEnqueue packet).map fun pr =>
    if isSingleUDP then
      let (s, pr, _) := reporterProcessTransferReport handler r.1 pr
      (s, pr)
    else (r.1, pr)

/-! ### The two threads -/

/-- Where the traffic thread is in `EndJob`. -/
inductive Leaving where
  | clear
  | enqueue
  /-- It takes the part of the reporter. -/
  | process
  | await
  | returned
  deriving DecidableEq

/-- `queued` says that the report is in the queue of jobs, and `removing` that the reporter is done with
it and about to take it off. Whether the last packet overflowed the ring is kept for the record. -/
structure Ending (σ : Type) where
  isSingleUDP : Bool
  ring : PacketRing ReportStruct
  handled : σ
  queued : Bool
  removing : Bool
  consumerdone : Bool
  leaving : Leaving
  overflowed : Bool

inductive Party where
  | traffic
  | reporter
  deriving DecidableEq

namespace Ending

/-- With `isSingleUDP` the report was never posted. -/
def start (isSingleUDP : Bool) (pr : PacketRing ReportStruct) (s : σ) (consumerdone : Bool) :
    Ending σ :=
  ⟨isSingleUDP, pr, s, !isSingleUDP, false, consumerdone, .clear, false⟩

/-- The next step of `EndJob`, if it need not wait. -/
def traffic (final : ReportStruct) (e : Ending σ) : Ending σ :=
  match e.leaving with
  | .clear => { e with consumerdone := false, leaving := .enqueue }
  | .enqueue =>
    match e.ring.packetringEnqueue final with
    | none => e
    | some ring =>
      { e with
        ring := ring
        leaving := if e.isSingleUDP then .process else .await
        overflowed := decide e.ring.Overflows }
  | .process =>
    let (s, ring, _) := reporterProcessTransferReport handler e.handled e.ring
    { e with ring := ring, handled := s, leaving := .returned }
  | .await => if e.consumerdone then { e with leaving := .returned } else e
  | .returned => e

/-- `reporter_process_report` when it is the turn of this report. Afterwards `reporter_spawn` takes it off
the queue if it is done. -/
def reporter (e : Ending σ) : Ending σ :=
  if e.removing then { e with queued := false, removing := false }
  else if e.queued then
    let (s, ring, done) := reporterProcessTransferReport handler e.handled e.ring
    { e with
      ring := ring
      handled := s
      removing := done
      consumerdone := e.consumerdone || done }
  else e

def act (final : ReportStruct) : Party → Ending σ → Ending σ
  | .traffic => traffic handler final
  | .reporter => reporter handler

end Ending

end Tlink.Testbed
