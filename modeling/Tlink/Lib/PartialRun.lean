import Mathlib.Data.List.Basic

/-!
# Runs of a step function that may fail and that emits output

`run` feeds a list of inputs to a step and stops at the first failure. The rules
below turn what one step preserves into what a run of any length preserves; the
invariant may speak about everything emitted so far. `trace` keeps the steps apart.
-/
namespace PartialRun

variable {σ ι ε κ : Type*} (step : σ → ι → Except ε (σ × List κ))

def run : σ → List ι → Except ε (σ × List κ)
  | s, [] => .ok (s, [])
  | s, i :: is =>
    match step s i with
    | .error e => .error e
    | .ok (s', out) =>
      match run s' is with
      | .error e => .error e
      | .ok (t, rest) => .ok (t, out ++ rest)

@[simp] theorem run_nil (s : σ) : run step s [] = .ok (s, []) := rfl

theorem run_cons_ok_iff (s t : σ) (i : ι) (is : List ι) (emitted : List κ) :
    run step s (i :: is) = .ok (t, emitted) ↔
      ∃ s' out rest, step s i = .ok (s', out) ∧ run step s' is = .ok (t, rest) ∧
        emitted = out ++ rest := by
  cases first : step s i with
  | error e => simp [run, first]
  | ok r =>
    obtain ⟨s', out⟩ := r
    cases later : run step s' is with
    | error e => simp [run, first, later]
    | ok r' =>
      obtain ⟨t', rest⟩ := r'
      simp only [run, first, later, Except.ok.injEq, Prod.mk.injEq]
      constructor
      · rintro ⟨rfl, rfl⟩
        exact ⟨s', out, rest, ⟨rfl, rfl⟩, later, rfl⟩
      · rintro ⟨s'', out', rest', ⟨rfl, rfl⟩, same, rfl⟩
        rw [later] at same
        obtain ⟨rfl, rfl⟩ := Prod.mk.inj (Except.ok.inj same)
        exact ⟨rfl, rfl⟩

/-- A run splits at every point. -/
theorem run_append_ok_iff (s t : σ) (is js : List ι) (emitted : List κ) :
    run step s (is ++ js) = .ok (t, emitted) ↔
      ∃ s' out rest, run step s is = .ok (s', out) ∧ run step s' js = .ok (t, rest) ∧
        emitted = out ++ rest := by
  induction is generalizing s emitted with
  | nil => simp
  | cons i is ih =>
    rw [List.cons_append, run_cons_ok_iff]
    constructor
    · rintro ⟨s₁, out₁, rest₁, first, later, rfl⟩
      -- the first input belongs to the front part
      obtain ⟨s', out, rest, middle, last, rfl⟩ := (ih s₁ rest₁).mp later
      exact ⟨s', out₁ ++ out, rest,
        (run_cons_ok_iff step s s' i is _).mpr ⟨s₁, out₁, out, first, middle, rfl⟩, last,
        (List.append_assoc ..).symm⟩
    · rintro ⟨s', out, rest, before, last, rfl⟩
      obtain ⟨s₁, out₁, out₂, first, middle, rfl⟩ := (run_cons_ok_iff step s s' i is out).mp before
      exact ⟨s₁, out₁, out₂ ++ rest, first,
        (ih s₁ _).mpr ⟨s', out₂, rest, middle, last, rfl⟩, List.append_assoc ..⟩

/-- An invariant of the state and of all output so far is kept by a whole run. -/
theorem run_invariant (Inv : σ → List κ → Prop)
    (preserved : ∀ s past i s' out, Inv s past → step s i = .ok (s', out) → Inv s' (past ++ out))
    (s t : σ) (past : List κ) (is : List ι) (emitted : List κ) (initial : Inv s past)
    (returned : run step s is = .ok (t, emitted)) : Inv t (past ++ emitted) := by
  induction is generalizing s past emitted with
  | nil =>
    obtain ⟨rfl, rfl⟩ := Prod.mk.inj (Except.ok.inj returned)
    simpa using initial
  | cons i is ih =>
    obtain ⟨s', out, rest, first, later, rfl⟩ := (run_cons_ok_iff step s t i is emitted).mp returned
    rw [← List.append_assoc]
    exact ih s' (past ++ out) rest (preserved s past i s' out initial first) later

/-- The same for an invariant that also speaks about all inputs so far. -/
theorem run_history (Inv : σ → List ι → List κ → Prop)
    (preserved : ∀ s given past i s' out, Inv s given past → step s i = .ok (s', out) →
      Inv s' (given ++ [i]) (past ++ out))
    (s t : σ) (given : List ι) (past : List κ) (is : List ι) (emitted : List κ)
    (initial : Inv s given past) (returned : run step s is = .ok (t, emitted)) :
    Inv t (given ++ is) (past ++ emitted) := by
  induction is generalizing s given past emitted with
  | nil =>
    obtain ⟨rfl, rfl⟩ := Prod.mk.inj (Except.ok.inj returned)
    simpa using initial
  | cons i is ih =>
    obtain ⟨s', out, rest, first, later, rfl⟩ := (run_cons_ok_iff step s t i is emitted).mp returned
    have kept := ih s' (given ++ [i]) (past ++ out) rest
      (preserved s given past i s' out initial first) later
    rwa [List.append_assoc, List.append_assoc, List.singleton_append] at kept

/-- If the invariant rules out failure at every step, no run fails. -/
theorem run_safe (Inv : σ → Prop)
    (progress : ∀ s i, Inv s → ∃ s' out, step s i = .ok (s', out) ∧ Inv s')
    (s : σ) (is : List ι) (initial : Inv s) :
    ∃ t emitted, run step s is = .ok (t, emitted) ∧ Inv t := by
  induction is generalizing s with
  | nil => exact ⟨s, [], rfl, initial⟩
  | cons i is ih =>
    obtain ⟨s', out, first, kept⟩ := progress s i initial
    obtain ⟨t, rest, later, holds⟩ := ih s' kept
    exact ⟨t, out ++ rest, (run_cons_ok_iff step s t i is _).mpr ⟨s', out, rest, first, later, rfl⟩,
      holds⟩

/-- Two steps with the same outcomes on related states have the same outcomes in every run. -/
theorem run_simulates {τ : Type*} (step' : τ → ι → Except ε (τ × List κ)) (R : σ → τ → Prop)
    (same : ∀ s t i, R s t →
      (∃ e, step s i = .error e ∧ step' t i = .error e) ∨
      ∃ s' t' out, step s i = .ok (s', out) ∧ step' t i = .ok (t', out) ∧ R s' t')
    (s : σ) (t : τ) (is : List ι) (related : R s t) :
    (∃ e, run step s is = .error e ∧ run step' t is = .error e) ∨
    ∃ s' t' out, run step s is = .ok (s', out) ∧ run step' t is = .ok (t', out) ∧ R s' t' := by
  induction is generalizing s t with
  | nil => exact .inr ⟨s, t, [], rfl, rfl, related⟩
  | cons i is ih =>
    rcases same s t i related with ⟨e, fails, fails'⟩ | ⟨s', t', out, first, first', related'⟩
    · exact .inl ⟨e, by simp [run, fails], by simp [run, fails']⟩
    · rcases ih s' t' related' with ⟨e, fails, fails'⟩ | ⟨s'', t'', rest, later, later', related''⟩
      · exact .inl ⟨e, by simp [run, first, fails], by simp [run, first', fails']⟩
      · exact .inr ⟨s'', t'', out ++ rest, by simp [run, first, later], by simp [run, first', later'],
          related''⟩

/-! ### Traces -/

/-- The state after each input and the output of that input alone. -/
def trace : σ → List ι → Except ε (List (σ × List κ))
  | _, [] => .ok []
  | s, i :: is =>
    match step s i with
    | .error e => .error e
    | .ok (s', out) =>
      match trace s' is with
      | .error e => .error e
      | .ok rest => .ok ((s', out) :: rest)

/-- The state a trace ends in. -/
def final (s : σ) (steps : List (σ × List κ)) : σ := (steps.getLast?.map Prod.fst).getD s

@[simp] theorem final_nil (s : σ) : final s ([] : List (σ × List κ)) = s := rfl

@[simp] theorem final_cons (s : σ) (first : σ × List κ) (steps : List (σ × List κ)) :
    final s (first :: steps) = final first.1 steps := by
  cases last : steps.getLast? with
  | none => simp [final, List.getLast?_cons, last]
  | some r => simp [final, List.getLast?_cons, last]

@[simp] theorem final_concat (s : σ) (steps : List (σ × List κ)) (last : σ × List κ) :
    final s (steps ++ [last]) = last.1 := by
  simp [final]

theorem trace_cons_ok_iff (s : σ) (i : ι) (is : List ι) (steps : List (σ × List κ)) :
    trace step s (i :: is) = .ok steps ↔
      ∃ s' out rest, step s i = .ok (s', out) ∧ trace step s' is = .ok rest ∧
        steps = (s', out) :: rest := by
  cases first : step s i with
  | error e => simp [trace, first]
  | ok r =>
    obtain ⟨s', out⟩ := r
    cases later : trace step s' is with
    | error e => simp [trace, first, later]
    | ok rest =>
      simp only [trace, first, later, Except.ok.injEq, Prod.mk.injEq]
      constructor
      · rintro rfl
        exact ⟨s', out, rest, ⟨rfl, rfl⟩, later, rfl⟩
      · rintro ⟨s'', out', rest', ⟨rfl, rfl⟩, same, rfl⟩
        rw [Except.ok.inj (later.symm.trans same)]

theorem length_trace (s : σ) (is : List ι) (steps : List (σ × List κ))
    (traced : trace step s is = .ok steps) : steps.length = is.length := by
  induction is generalizing s steps with
  | nil =>
    obtain rfl := Except.ok.inj traced
    rfl
  | cons i is ih =>
    obtain ⟨s', out, rest, _, later, rfl⟩ := (trace_cons_ok_iff step s i is steps).mp traced
    rw [List.length_cons, ih s' rest later, List.length_cons]

/-- A trace grows at its end by a step from the state it ends in. -/
theorem trace_concat (s : σ) (is : List ι) (i : ι) (steps : List (σ × List κ)) (last : σ × List κ)
    (before : trace step s is = .ok steps) (next : step (final s steps) i = .ok last) :
    trace step s (is ++ [i]) = .ok (steps ++ [last]) := by
  induction is generalizing s steps with
  | nil =>
    obtain rfl := Except.ok.inj before
    apply (trace_cons_ok_iff step s i [] [last]).mpr
    exact ⟨last.1, last.2, [], next, rfl, rfl⟩
  | cons j is ih =>
    obtain ⟨s', out, rest, first, later, rfl⟩ := (trace_cons_ok_iff step s j is steps).mp before
    rw [final_cons] at next
    apply (trace_cons_ok_iff step s j (is ++ [i]) _).mpr
    exact ⟨s', out, rest ++ [last], first, ih s' rest later next, rfl⟩

/-- A run is what its trace ends in, with all outputs in order. -/
theorem run_of_trace (s : σ) (is : List ι) (steps : List (σ × List κ))
    (traced : trace step s is = .ok steps) :
    run step s is = .ok (final s steps, steps.flatMap Prod.snd) := by
  induction is generalizing s steps with
  | nil =>
    obtain rfl := Except.ok.inj traced
    rfl
  | cons i is ih =>
    obtain ⟨s', out, rest, first, later, rfl⟩ := (trace_cons_ok_iff step s i is steps).mp traced
    rw [final_cons]
    apply (run_cons_ok_iff step s _ i is _).mpr
    exact ⟨s', out, _, first, ih s' rest later, rfl⟩

end PartialRun
