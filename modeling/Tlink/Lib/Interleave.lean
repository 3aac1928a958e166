import Mathlib.Data.List.Basic

/-!
# Interleavings of several programs

A trace tags every command with the program that issued it. It interleaves the programs if each of
them finds its own commands in the trace, all of them and in its own order; nothing is said about
the order between programs. What only one program does is then done in the order of that program.
-/
namespace Interleave

variable {ι κ : Type*} [DecidableEq ι]

/-- The commands of one program in a trace. -/
def issuedBy (i : ι) (trace : List (ι × κ)) : List κ :=
  (trace.filter fun e => e.1 = i).map Prod.snd

@[simp] theorem issuedBy_nil (i : ι) : issuedBy i ([] : List (ι × κ)) = [] := rfl

@[simp] theorem issuedBy_append (i : ι) (trace more : List (ι × κ)) :
    issuedBy i (trace ++ more) = issuedBy i trace ++ issuedBy i more := by
  simp [issuedBy]

@[simp] theorem issuedBy_tagged (i j : ι) (cs : List κ) :
    issuedBy i (cs.map fun c => (j, c)) = if j = i then cs else [] := by
  by_cases own : j = i
  · simp [issuedBy, own, Function.comp_def, List.filter_map]
  · simp [issuedBy, own, Function.comp_def, List.filter_map]

@[simp] theorem issuedBy_singleton (i : ι) (e : ι × κ) :
    issuedBy i [e] = if e.1 = i then [e.2] else [] := by
  by_cases own : e.1 = i
  · simp [issuedBy, own]
  · simp [issuedBy, own]

def Interleaves (program : ι → List κ) (trace : List (ι × κ)) : Prop :=
  ∀ i, issuedBy i trace = program i

variable {program : ι → List κ} {trace : List (ι × κ)}

theorem Interleaves.mem (interleaved : Interleaves program trace) {e : ι × κ} (member : e ∈ trace) :
    e.2 ∈ program e.1 := by
  rw [← interleaved e.1]
  exact List.mem_map_of_mem (List.mem_filter.mpr ⟨member, by simp⟩)

theorem Interleaves.mem_iff (interleaved : Interleaves program trace) (c : κ) :
    c ∈ trace.map Prod.snd ↔ ∃ i, c ∈ program i := by
  constructor
  · intro member
    obtain ⟨e, inside, rfl⟩ := List.mem_map.mp member
    exact ⟨e.1, interleaved.mem inside⟩
  · rintro ⟨i, member⟩
    rw [← interleaved i] at member
    obtain ⟨e, inside, rfl⟩ := List.mem_map.mp member
    exact List.mem_map_of_mem (List.mem_of_mem_filter inside)

/-- Of the commands that no other program issues, the trace shows what the program says. -/
theorem Interleaves.filter_eq (interleaved : Interleaves program trace) (i : ι) (p : κ → Bool)
    (exclusive : ∀ j, j ≠ i → ∀ c ∈ program j, p c = false) :
    (trace.map Prod.snd).filter p = (program i).filter p := by
  have own : ∀ e ∈ trace, p e.2 = true → e.1 = i := by
    intro e member chosen
    by_contra other
    rw [exclusive e.1 other e.2 (interleaved.mem member)] at chosen
    cases chosen
  rw [← interleaved i, issuedBy, List.filter_map, List.filter_map, List.filter_filter]
  apply congrArg (List.map Prod.snd)
  apply List.filter_congr
  intro e member
  cases chosen : p e.2 with
  | false => simp [chosen]
  | true => simp [chosen, own e member chosen]

/-- What no program issues is not in the trace. -/
theorem Interleaves.filter_eq_nil (interleaved : Interleaves program trace) (p : κ → Bool)
    (never : ∀ j, ∀ c ∈ program j, p c = false) : (trace.map Prod.snd).filter p = [] := by
  rw [List.filter_eq_nil_iff]
  intro c member
  obtain ⟨j, inside⟩ := (interleaved.mem_iff c).mp member
  simp [never j c inside]

end Interleave
