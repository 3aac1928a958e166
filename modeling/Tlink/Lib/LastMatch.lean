import Mathlib.Data.List.Basic
import Mathlib.Data.Nat.Notation

/-!
# Rule chains in which the last matching rule wins

A rule may assign a value and evaluation always goes on with the next rule, so the
value that is left is the one of the last rule that assigned any.
-/
namespace LastMatch

variable {ρ μ : Type*} (verdict : ρ → Option μ)

def eval (rules : List ρ) (start : μ) : μ :=
  rules.foldl (fun value rule => (verdict rule).getD value) start

@[simp] theorem eval_nil (start : μ) : eval verdict [] start = start := rfl

@[simp] theorem eval_cons (rule : ρ) (rules : List ρ) (start : μ) :
    eval verdict (rule :: rules) start = eval verdict rules ((verdict rule).getD start) := rfl

theorem eval_append (before after : List ρ) (start : μ) :
    eval verdict (before ++ after) start = eval verdict after (eval verdict before start) :=
  List.foldl_append

theorem eval_of_no_match (rules : List ρ) (start : μ) (missed : ∀ rule ∈ rules, verdict rule = none) :
    eval verdict rules start = start := by
  induction rules with
  | nil => rfl
  | cons rule rules ih =>
    rw [eval_cons, missed rule (by simp), Option.getD_none]
    exact ih fun other member => missed other (List.mem_cons_of_mem rule member)

/-- Once a rule matches, the value before the chain is forgotten. -/
theorem eval_of_match (rules : List ρ) (start start' : μ)
    (matched : ∃ rule ∈ rules, verdict rule ≠ none) :
    eval verdict rules start = eval verdict rules start' := by
  induction rules generalizing start start' with
  | nil =>
    obtain ⟨rule, member, _⟩ := matched
    cases member
  | cons rule rules ih =>
    rw [eval_cons, eval_cons]
    cases first : verdict rule with
    | some value => rfl
    | none =>
      apply ih
      obtain ⟨other, member, assigns⟩ := matched
      rcases List.mem_cons.mp member with rfl | later
      · exact absurd first assigns
      · exact ⟨other, later, assigns⟩

/-- A chain run on its own result leaves it as it is. -/
theorem eval_again (rules : List ρ) (start : μ) :
    eval verdict rules (eval verdict rules start) = eval verdict rules start := by
  by_cases matched : ∃ rule ∈ rules, verdict rule ≠ none
  · exact eval_of_match verdict rules _ start matched
  · have missed : ∀ rule ∈ rules, verdict rule = none := by
      intro rule member
      by_contra assigns
      exact matched ⟨rule, member, assigns⟩
    rw [eval_of_no_match verdict rules start missed, eval_of_no_match verdict rules start missed]

/-- Repeating a chain changes nothing. -/
theorem eval_replicate (rules : List ρ) (n : ℕ) (start : μ) :
    eval verdict (List.replicate (n + 1) rules).flatten start = eval verdict rules start := by
  induction n with
  | zero => simp
  | succ n ih =>
    rw [List.replicate_succ', List.flatten_append, eval_append, ih, List.flatten_singleton]
    exact eval_again verdict rules start

/-- Rules that do not match may be left out. -/
theorem eval_filter (rules : List ρ) (start : μ) :
    eval verdict (rules.filter fun rule => (verdict rule).isSome) start = eval verdict rules start := by
  induction rules generalizing start with
  | nil => rfl
  | cons rule rules ih =>
    cases outcome : verdict rule with
    | none => simp [outcome, ih]
    | some value => simp [outcome, ih]

/-- Only rules of the chain itself before it: the chain has the last word on all of them. -/
theorem eval_absorbs (before rules : List ρ) (start : μ) (known : ∀ rule ∈ before, rule ∈ rules) :
    eval verdict (before ++ rules) start = eval verdict rules start := by
  rw [eval_append]
  by_cases matched : ∃ rule ∈ rules, verdict rule ≠ none
  · exact eval_of_match verdict rules _ start matched
  · have missed : ∀ rule ∈ before, verdict rule = none := by
      intro rule member
      by_contra assigns
      exact matched ⟨rule, known rule member, assigns⟩
    rw [eval_of_no_match verdict before start missed]

end LastMatch
