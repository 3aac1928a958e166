import Mathlib.Data.List.Basic

/-!
The queue of jobs of the reporter thread (`Reporter.c`). Any thread may post a report at any time; the
reporter goes through its list over and over again and takes in what was posted whenever it is through.
What a report does when it is its turn is not modelled here, only whether it is done.
-/
namespace Tlink.Testbed

/-- The list at `ReportRoot`, cut in two where `work_item` points to, and the list from
`ReportPendingHead` to `ReportPendingTail`. -/
structure JobQueue (ρ : Type) where
  behind : List ρ
  ahead : List ρ
  pending : List ρ

inductive JobMove (ρ : Type) where
  | post (reporthdr : ρ)
  | setRoot
  | process (done : Bool)

/-- The reporter is not there yet. -/
inductive OutOfTurn where
  | through
  | busy

namespace JobQueue

variable {ρ : Type}

def empty : JobQueue ρ := ⟨[], [], []⟩

/-- `PostReport` -/
def postReport (q : JobQueue ρ) (reporthdr : ρ) : JobQueue ρ :=
  { q with pending := q.pending ++ [reporthdr] }

/-- `reporter_jobq_set_root`: what is pending goes to the front, and the reporter starts there. -/
def reporterJobqSetRoot (q : JobQueue ρ) : JobQueue ρ := ⟨[], q.pending ++ q.behind ++ q.ahead, []⟩

/-- Where the loop in `reporter_spawn` goes on after a report. -/
def advance (q : JobQueue ρ) (workItem : ρ) (tmp : List ρ) (done : Bool) : JobQueue ρ :=
  if done then
    match tmp with
    | [] => { q with ahead := [] }
    -- `work_item` moves on from the report that has taken the place of the removed one
    | next :: later => { q with behind := q.behind ++ [next], ahead := later }
  else { q with behind := q.behind ++ [workItem], ahead := tmp }

/-- One move of a traffic thread or of the reporter, and which report had its turn. -/
def step (q : JobQueue ρ) : JobMove ρ → Except OutOfTurn (JobQueue ρ × List (ρ × Bool))
  | .post reporthdr => .ok (q.postReport reporthdr, [])
  | .setRoot =>
    match q.ahead with
    | [] => .ok (q.reporterJobqSetRoot, [])
    | _ :: _ => .error .busy
  | .process done =>
    match q.ahead with
    | [] => .error .through
    | workItem :: tmp => .ok (q.advance workItem tmp done, [(workItem, done)])

end JobQueue

end Tlink.Testbed
