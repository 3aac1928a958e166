import Mathlib.Logic.Function.Basic

/-!
# Commands over a family of independent components

The state is a function from component names to component states. A command
targets at most one component and acts on it alone, so what a batch of commands
does to a component is what the commands aimed at it do, in their order.
-/
namespace LocalState

variable {ι σ κ : Type*} [DecidableEq ι] (target : κ → Option ι) (act : κ → σ → σ)

def step (s : ι → σ) (c : κ) : ι → σ :=
  match target c with
  | none => s
  | some i => Function.update s i (act c (s i))

def run (s : ι → σ) (cs : List κ) : ι → σ := cs.foldl (step target act) s

theorem step_apply (s : ι → σ) (c : κ) (i : ι) :
    step target act s c i = if target c = some i then act c (s i) else s i := by
  cases aimed : target c with
  | none => simp [step, aimed]
  | some j =>
    by_cases same : i = j
    · subst same; simp [step, aimed]
    · simp [step, aimed, same, Ne.symm same]

/-- A component sees exactly the commands aimed at it. -/
theorem run_apply (s : ι → σ) (cs : List κ) (i : ι) :
    run target act s cs i =
      (cs.filter fun c => target c = some i).foldl (fun x c => act c x) (s i) := by
  induction cs generalizing s with
  | nil => rfl
  | cons c cs ih =>
    -- a command aimed elsewhere drops out of the filter and leaves the component alone
    have tail := ih (step target act s c)
    rw [step_apply] at tail
    by_cases aimed : target c = some i
    · simpa [run, aimed] using tail
    · simpa [run, aimed] using tail

theorem run_congr (s s' : ι → σ) (cs : List κ) (i : ι) (same : s i = s' i) :
    run target act s cs i = run target act s' cs i := by
  rw [run_apply, run_apply, same]

end LocalState
