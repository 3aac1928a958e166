import Mathlib.Data.List.Infix
import Mathlib.Data.Nat.Notation

/-!
# Working off a list of commands again from the start

A program works off a list of commands, is cut off somewhere and begins again with the first command.
If the commands that were already carried out add nothing, and the state may differ from the ideal one
in a way that does not matter, no number of broken attempts shows in the end. `Upto s s'` says that
`s'` is as good as `s`.
-/
namespace Redo

variable {σ κ : Type*} (act : κ → σ → σ) (Upto : σ → σ → Prop)

def perform (s : σ) (cs : List κ) : σ := cs.foldl (fun s c => act c s) s

theorem perform_append (s : σ) (cs ds : List κ) :
    perform act s (cs ++ ds) = perform act (perform act s cs) ds :=
  List.foldl_append

/-- The command has nothing to add to this state. -/
def Absorbs (s : σ) (c : κ) : Prop := ∀ s', Upto s s' → Upto s (act c s')

/-- The command does the same to states that are as good as this one. -/
def Carries (s : σ) (c : κ) : Prop := ∀ s', Upto s s' → Upto (act c s) (act c s')

/-- On the way through the list, what was done is absorbed and what is next is carried over. -/
structure Redoable (start : σ) (log : List κ) : Prop where
  absorbs : ∀ done rest, log = done ++ rest → ∀ c ∈ done, Absorbs act Upto (perform act start done) c
  carries : ∀ done c rest, log = done ++ c :: rest → Carries act Upto (perform act start done) c

variable {act Upto} {start : σ} {log : List κ}

theorem absorbs_all (s s' : σ) (cs : List κ) (absorbed : ∀ c ∈ cs, Absorbs act Upto s c)
    (good : Upto s s') : Upto s (perform act s' cs) := by
  induction cs generalizing s' with
  | nil => exact good
  | cons c cs ih =>
    exact ih (act c s') (fun d member => absorbed d (List.mem_cons_of_mem c member))
      (absorbed c (by simp) s' good)

/-- Going on from a state that is as good as the one reached. -/
theorem Redoable.carry_on (redoable : Redoable act Upto start log) (done next rest : List κ)
    (split : log = done ++ (next ++ rest)) (s' : σ) (good : Upto (perform act start done) s') :
    Upto (perform act start (done ++ next)) (perform act s' next) := by
  induction next generalizing done s' with
  | nil => simpa [perform] using good
  | cons c next ih =>
    have carried := redoable.carries done c (next ++ rest) (by simpa using split) s' good
    have reached : perform act start (done ++ [c]) = act c (perform act start done) := by
      rw [perform_append]
      rfl
    rw [← reached] at carried
    have onward := ih (done ++ [c]) (by simpa using split) (act c s') carried
    rwa [List.append_assoc, List.singleton_append] at onward

/-- An attempt repeats what was done and may get further. -/
theorem Redoable.attempt (redoable : Redoable act Upto start log) (done cut : List κ)
    (reached : done <+: log) (tried : cut <+: log) (s' : σ)
    (good : Upto (perform act start done) s') :
    ∃ done', done' <+: log ∧ cut <+: done' ∧ Upto (perform act start done') (perform act s' cut) := by
  rcases List.prefix_or_prefix_of_prefix tried reached with shorter | longer
  · -- everything in the attempt was done before
    obtain ⟨rest, split⟩ := reached
    refine ⟨done, ⟨rest, split⟩, shorter, absorbs_all _ s' cut ?_ good⟩
    intro c member
    exact redoable.absorbs done rest split.symm c (shorter.subset member)
  · obtain ⟨next, rfl⟩ := longer
    obtain ⟨rest, split⟩ := tried
    refine ⟨done ++ next, ⟨rest, split⟩, List.prefix_rfl, ?_⟩
    rw [perform_append act s']
    apply redoable.carry_on done next rest (by simpa using split.symm)
    apply absorbs_all _ s' done _ good
    intro c member
    exact redoable.absorbs done (next ++ rest) (by simpa using split.symm) c member

theorem Redoable.attempts (redoable : Redoable act Upto start log) (cuts : List (List κ))
    (tried : ∀ cut ∈ cuts, cut <+: log) (done : List κ) (reached : done <+: log) (s' : σ)
    (good : Upto (perform act start done) s') :
    ∃ done', done' <+: log ∧ Upto (perform act start done') (perform act s' cuts.flatten) := by
  induction cuts generalizing done s' with
  | nil => exact ⟨done, reached, good⟩
  | cons cut cuts ih =>
    obtain ⟨done', reached', _, good'⟩ :=
      redoable.attempt done cut reached (tried cut (by simp)) s' good
    rw [List.flatten_cons, perform_append]
    exact ih (fun other member => tried other (List.mem_cons_of_mem cut member)) done' reached' _ good'

/-- After any number of broken attempts, one that gets through leaves what it would have left alone. -/
theorem Redoable.recovers (redoable : Redoable act Upto start log) (refl : Upto start start)
    (cuts : List (List κ)) (tried : ∀ cut ∈ cuts, cut <+: log) :
    Upto (perform act start log) (perform act start (cuts.flatten ++ log)) := by
  obtain ⟨done, reached, good⟩ :=
    redoable.attempts cuts tried [] List.nil_prefix start refl
  obtain ⟨done', reached', through, good'⟩ :=
    redoable.attempt done log reached List.prefix_rfl _ good
  have all : done' = log := reached'.eq_of_length_le through.length_le
  rw [all] at good'
  rwa [perform_append]

end Redo
