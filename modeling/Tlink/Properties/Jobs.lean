import Mathlib.Data.List.Count
import Mathlib.Data.List.Perm.Basic
import Mathlib.Data.List.Nodup
import Mathlib.Tactic.MkIffOfInductiveProp
import Tlink.Lib.Interleave
import Tlink.Lib.PartialRun
import Tlink.Testbed.JobQueue

/-!
# Every report gets its turn

Reports are posted by any thread at any time, and the reporter drops a report from its list when it is
done. No report gets lost or comes up again after it is done. But behind a report that is dropped, the
next one is passed over: it has to wait for the next round, where the same may happen to it again. So a
report can be kept waiting by others that come and go, one round for each of them and no longer.
-/
namespace Tlink.Properties

open Tlink.Testbed Interleave

variable {ρ : Type}

def posts (moves : List (JobMove ρ)) : List ρ :=
  moves.filterMap fun move =>
    match move with
    | .post reporthdr => some reporthdr
    | _ => none

def jobRounds (moves : List (JobMove ρ)) : ℕ :=
  moves.countP fun move =>
    match move with
    | .setRoot => true
    | _ => false

/-- The reports that were done with, of those that had a turn. -/
def doneWith (turns : List (ρ × Bool)) : List ρ := (turns.filter (·.2)).map Prod.fst

/-- All reports that are not done yet. -/
def waiting (q : JobQueue ρ) : List ρ := q.behind ++ q.ahead ++ q.pending

theorem posts_append (moves later : List (JobMove ρ)) :
    posts (moves ++ later) = posts moves ++ posts later := by
  simp [posts]

theorem doneWith_append (turns later : List (ρ × Bool)) :
    doneWith (turns ++ later) = doneWith turns ++ doneWith later := by
  simp [doneWith]

/-! ### One move -/

/-- What a move does to the list. -/
theorem step_cases (q q' : JobQueue ρ) (move : JobMove ρ) (turns : List (ρ × Bool))
    (stepped : q.step move = .ok (q', turns)) :
    (∃ reporthdr, move = .post reporthdr ∧ q' = q.postReport reporthdr ∧ turns = []) ∨
    (move = .setRoot ∧ q.ahead = [] ∧ q' = ⟨[], q.pending ++ q.behind, []⟩ ∧ turns = []) ∨
    (∃ job later, move = .process false ∧ q.ahead = job :: later ∧
      q' = ⟨q.behind ++ [job], later, q.pending⟩ ∧ turns = [(job, false)]) ∨
    ∃ job passed later, move = .process true ∧ q.ahead = job :: (passed ++ later) ∧
      passed.length ≤ 1 ∧ q' = ⟨q.behind ++ passed, later, q.pending⟩ ∧ turns = [(job, true)] := by
  cases move with
  | post reporthdr =>
    obtain ⟨rfl, rfl⟩ := Prod.mk.inj (Except.ok.inj stepped)
    exact .inl ⟨reporthdr, rfl, rfl, rfl⟩
  | setRoot =>
    cases ahead : q.ahead with
    | nil =>
      simp only [JobQueue.step, ahead, JobQueue.reporterJobqSetRoot, List.append_nil] at stepped
      obtain ⟨rfl, rfl⟩ := Prod.mk.inj (Except.ok.inj stepped)
      exact .inr (.inl ⟨rfl, rfl, rfl, rfl⟩)
    | cons job later => simp [JobQueue.step, ahead] at stepped
  | process done =>
    cases ahead : q.ahead with
    | nil => simp [JobQueue.step, ahead] at stepped
    | cons job tmp =>
      simp only [JobQueue.step, ahead] at stepped
      obtain ⟨rfl, rfl⟩ := Prod.mk.inj (Except.ok.inj stepped)
      cases done with
      | false => exact .inr (.inr (.inl ⟨job, tmp, rfl, rfl, rfl, rfl⟩))
      | true =>
        refine .inr (.inr (.inr ?_))
        -- the report behind one that is dropped is stepped over
        cases tmp with
        | nil => exact ⟨job, [], [], rfl, rfl, by simp, by simp [JobQueue.advance], rfl⟩
        | cons next later =>
          exact ⟨job, [next], later, rfl, rfl, by simp, by simp [JobQueue.advance], rfl⟩

/-- A report that is posted joins those that wait, one that is done leaves them. -/
theorem step_waiting (q q' : JobQueue ρ) (move : JobMove ρ) (turns : List (ρ × Bool))
    (stepped : q.step move = .ok (q', turns)) :
    (waiting q ++ posts [move]).Perm (doneWith turns ++ waiting q') := by
  rcases step_cases q q' move turns stepped with ⟨reporthdr, rfl, rfl, rfl⟩ |
    ⟨rfl, ahead, rfl, rfl⟩ | ⟨job, later, rfl, ahead, rfl, rfl⟩ |
    ⟨job, passed, later, rfl, ahead, -, rfl, rfl⟩
  · simp [waiting, posts, doneWith, JobQueue.postReport]
  · simp [waiting, posts, doneWith, ahead, List.perm_append_comm]
  · simp [waiting, posts, doneWith, ahead]
  · simp only [waiting, posts, doneWith, ahead, List.filterMap_cons, List.filterMap_nil,
      List.append_nil, List.filter_cons, List.filter_nil, List.map_cons, List.map_nil, if_true,
      List.append_assoc, List.cons_append, List.nil_append]
    exact List.perm_middle

/-- Only reports that wait have a turn. -/
theorem step_turns (q q' : JobQueue ρ) (move : JobMove ρ) (turns : List (ρ × Bool))
    (stepped : q.step move = .ok (q', turns)) : turns = [] ∨ ∃ job done, turns = [(job, done)] ∧
      job ∈ waiting q ∧ (done = false → job ∈ waiting q') := by
  rcases step_cases q q' move turns stepped with ⟨reporthdr, rfl, rfl, rfl⟩ |
    ⟨rfl, ahead, rfl, rfl⟩ | ⟨job, later, rfl, ahead, rfl, rfl⟩ |
    ⟨job, passed, later, rfl, ahead, -, rfl, rfl⟩
  · exact .inl rfl
  · exact .inl rfl
  · exact .inr ⟨job, false, rfl, by simp [waiting, ahead], by simp [waiting]⟩
  · exact .inr ⟨job, true, rfl, by simp [waiting, ahead], fun never => by cases never⟩

/-! ### Nothing lost, nothing twice -/

variable [DecidableEq ρ]

theorem mem_doneWith_iff (job : ρ) (turns : List (ρ × Bool)) :
    job ∈ doneWith turns ↔ true ∈ issuedBy job turns := by
  simp only [doneWith, issuedBy, List.mem_map, List.mem_filter, decide_eq_true_eq]
  constructor
  · rintro ⟨turn, ⟨member, done⟩, rfl⟩
    exact ⟨turn, ⟨member, rfl⟩, done⟩
  · rintro ⟨turn, ⟨member, rfl⟩, done⟩
    exact ⟨turn, ⟨member, done⟩, rfl⟩

/-- Where the reports are that were posted, and that those which are done had no turn after that. -/
structure Accounted (q : JobQueue ρ) (moves : List (JobMove ρ)) (turns : List (ρ × Bool)) : Prop where
  reports : (posts moves).Perm (doneWith turns ++ waiting q)
  last : ∀ job ∈ doneWith turns, ∃ earlier, issuedBy job turns = earlier ++ [true] ∧ true ∉ earlier

theorem Accounted.apart {q : JobQueue ρ} {moves : List (JobMove ρ)} {turns : List (ρ × Bool)}
    (accounted : Accounted q moves turns) (fresh : (posts moves).Nodup) (job : ρ)
    (waits : job ∈ waiting q) : job ∉ doneWith turns := by
  have distinct := accounted.reports.nodup_iff.mp fresh
  exact fun done => (List.nodup_append.mp distinct).2.2 job done job waits rfl

theorem Accounted.step {q q' : JobQueue ρ} {moves : List (JobMove ρ)} {turns next : List (ρ × Bool)}
    (accounted : Accounted q moves turns) (fresh : (posts moves).Nodup) (move : JobMove ρ)
    (stepped : q.step move = .ok (q', next)) : Accounted q' (moves ++ [move]) (turns ++ next) := by
  constructor
  · have here := step_waiting q q' move next stepped
    rw [posts_append, doneWith_append, List.append_assoc]
    refine (accounted.reports.append_right _).trans ?_
    rw [List.append_assoc]
    exact here.append_left _
  · intro job done
    rcases step_turns q q' move next stepped with rfl | ⟨current, ended, rfl, waits, -⟩
    · rw [List.append_nil] at done ⊢
      exact accounted.last job done
    · have going := accounted.apart fresh current waits
      -- a turn of its own ends with it, or it was done before
      by_cases same : current = job
      · subst same
        cases ended with
        | false =>
          -- who is not done is waiting still
          have never : current ∉ doneWith (turns ++ [(current, false)]) := by
            rw [doneWith_append]
            simpa [doneWith] using going
          exact absurd done never
        | true =>
          refine ⟨issuedBy current turns, by simp, ?_⟩
          rwa [← mem_doneWith_iff]
      · have before : job ∈ doneWith turns := by
          rw [mem_doneWith_iff, issuedBy_append, issuedBy_singleton, if_neg same, List.append_nil,
            ← mem_doneWith_iff] at done
          exact done
        rw [issuedBy_append, issuedBy_singleton, if_neg same, List.append_nil]
        exact accounted.last job before

theorem accounted_run {q : JobQueue ρ} {moves : List (JobMove ρ)} {turns : List (ρ × Bool)}
    (ran : PartialRun.run JobQueue.step .empty moves = .ok (q, turns)) (fresh : (posts moves).Nodup) :
    Accounted q moves turns := by
  have kept := PartialRun.run_history JobQueue.step
    (fun q moves turns => (posts moves).Nodup → Accounted q moves turns)
    (fun q moves turns move q' next accounted stepped fresh => by
      have before : (posts moves).Nodup := by
        rw [posts_append] at fresh
        exact (List.nodup_append.mp fresh).1
      exact (accounted before).step before move stepped)
    .empty q [] [] moves turns (fun _ => ⟨.refl _, by simp [doneWith]⟩) ran
  exact kept fresh

/-- However posts and turns interleave: a report that was posted either waits, in one place, or was done
in the last one of its turns, and only once. When the reporter finds nothing to do, all were done. -/
theorem jobs_conserved (moves : List (JobMove ρ)) (q : JobQueue ρ) (turns : List (ρ × Bool))
    (ran : PartialRun.run JobQueue.step .empty moves = .ok (q, turns)) (fresh : (posts moves).Nodup) :
    (waiting q).Nodup ∧
    (∀ job, job ∈ posts moves ↔ job ∈ waiting q ∨ job ∈ doneWith turns) ∧
    (∀ job ∈ waiting q, true ∉ issuedBy job turns) ∧
    (∀ job ∈ doneWith turns, job ∉ waiting q ∧
      ∃ earlier, issuedBy job turns = earlier ++ [true] ∧ true ∉ earlier) ∧
    (∀ q', q.step .setRoot = .ok (q', []) → q'.ahead = [] → (posts moves).Perm (doneWith turns)) := by
  have accounted := accounted_run ran fresh
  have distinct := accounted.reports.nodup_iff.mp fresh
  refine ⟨(List.nodup_append.mp distinct).2.1, fun job => ?_, fun job waits => ?_, fun job done => ?_, ?_⟩
  · rw [accounted.reports.mem_iff, List.mem_append, or_comm]
  · rw [← mem_doneWith_iff]
    exact accounted.apart fresh job waits
  · exact ⟨fun waits => accounted.apart fresh job waits done, accounted.last job done⟩
  · -- taking over the new reports finds none, so none waits
    intro q' stepped idle
    have after := accounted.step fresh .setRoot stepped
    obtain ⟨_, never, _⟩ | ⟨_, ahead, rfl, _⟩ | ⟨_, _, never, _⟩ | ⟨_, _, _, never, _⟩ :=
      step_cases q q' .setRoot [] stepped
    · cases never
    · have reports := after.reports
      have nobody : waiting (⟨[], q.pending ++ q.behind, []⟩ : JobQueue ρ) = [] := by
        simpa [waiting] using idle
      rw [nobody, List.append_nil, List.append_nil, posts_append] at reports
      simpa [posts] using reports
    · cases never
    · cases never

/-- A report with data takes two turns, and a text comes in its way. -/
def twoJobs : List (JobMove String) :=
  [.setRoot, .post "text", .process false, .setRoot, .process true, .setRoot, .process true, .setRoot]

theorem jobs_conserved_sample :
    ∃ q turns, PartialRun.run JobQueue.step .empty (.post "data" :: twoJobs) = .ok (q, turns) ∧
      ∃ earlier, issuedBy "data" turns = earlier ++ [true] ∧ true ∉ earlier := by
  obtain ⟨⟨q, turns⟩, ran⟩ :
      ∃ r, PartialRun.run JobQueue.step .empty (.post "data" :: twoJobs) = .ok r := ⟨_, rfl⟩
  obtain ⟨_, _, _, done, _⟩ := jobs_conserved (.post "data" :: twoJobs) q turns ran (by decide)
  obtain rfl := (Prod.mk.inj (Except.ok.inj ran)).2
  exact ⟨q, _, ran, (done "data" (by decide)).2⟩

/-! ### How long a report may have to wait -/

/-- Every round in which a report has no turn goes to a report that is dropped. A report ahead of the
reporter has not had this round yet. -/
@[mk_iff] structure Patient (job : ρ) (q : JobQueue ρ) (moves : List (JobMove ρ))
    (turns : List (ρ × Bool)) : Prop where
  met : job ∈ q.behind ∨ job ∈ q.pending →
    jobRounds moves ≤ (issuedBy job turns).length + (doneWith turns).length
  ahead : job ∈ q.ahead →
    jobRounds moves ≤ (issuedBy job turns).length + (doneWith turns).length + 1

omit [DecidableEq ρ] in
theorem jobRounds_append (moves later : List (JobMove ρ)) :
    jobRounds (moves ++ later) = jobRounds moves + jobRounds later :=
  List.countP_append

theorem Patient.step {job : ρ} {q q' : JobQueue ρ} {moves : List (JobMove ρ)}
    {turns next : List (ρ × Bool)} (patient : Patient job q moves turns) (move : JobMove ρ)
    (other : job ∉ posts [move]) (stepped : q.step move = .ok (q', next)) :
    Patient job q' (moves ++ [move]) (turns ++ next) := by
  obtain ⟨met, notYet⟩ := patient
  have rounds := jobRounds_append moves [move]
  rcases step_cases q q' move next stepped with ⟨reporthdr, rfl, rfl, rfl⟩ |
    ⟨rfl, -, rfl, rfl⟩ | ⟨current, later, rfl, queue, rfl, rfl⟩ |
    ⟨current, passed, later, rfl, queue, -, rfl, rfl⟩
  · have still : jobRounds [.post reporthdr] = 0 := rfl
    rw [patient_iff, List.append_nil, rounds, still]
    refine ⟨fun place => met ?_, notYet⟩
    have apart : job ≠ reporthdr := by simpa [posts] using other
    simpa [JobQueue.postReport, apart] using place
  · have again : jobRounds [(.setRoot : JobMove ρ)] = 1 := rfl
    rw [patient_iff, List.append_nil, rounds, again]
    refine ⟨by simp, fun place => ?_⟩
    have before := met ((List.mem_append.mp place).symm)
    omega
  · have still : jobRounds [(.process false : JobMove ρ)] = 0 := rfl
    have same : doneWith (turns ++ [(current, false)]) = doneWith turns := by
      simp [doneWith]
    rw [patient_iff, rounds, still, same, issuedBy_append, issuedBy_singleton, List.length_append]
    by_cases own : current = job
    · -- this was its turn
      subst own
      have before := notYet (by simp [queue])
      rw [if_pos rfl, List.length_singleton]
      exact ⟨fun _ => by omega, fun _ => by omega⟩
    · rw [if_neg own]
      refine ⟨fun place => met ?_, fun place => notYet (by simp [queue, place])⟩
      simpa [Ne.symm own] using place
  · have still : jobRounds [(.process true : JobMove ρ)] = 0 := rfl
    have more : (doneWith (turns ++ [(current, true)])).length = (doneWith turns).length + 1 := by
      simp [doneWith]
    have atLeast : (issuedBy job turns).length ≤
        (issuedBy job (turns ++ [(current, true)])).length := by
      rw [issuedBy_append, List.length_append]
      omega
    rw [patient_iff, rounds, still, more]
    refine ⟨fun place => ?_, fun place => ?_⟩
    · by_cases skipped : job ∈ passed
      · -- passed over, at the cost of the one that was dropped
        have before := notYet (by simp [queue, skipped])
        omega
      · have before := met (by simpa [skipped] using place)
        omega
    · have before := notYet (by simp [queue, place])
      omega

theorem patient_run (job : ρ) {q q' : JobQueue ρ} {moves : List (JobMove ρ)}
    {turns : List (ρ × Bool)} (ran : PartialRun.run JobQueue.step q moves = .ok (q', turns))
    (other : job ∉ posts moves) : Patient job q' moves turns := by
  have kept := PartialRun.run_history JobQueue.step
    (fun q moves turns => job ∉ posts moves → Patient job q moves turns)
    (fun q moves turns move q' next patient stepped other => by
      rw [posts_append, List.mem_append, not_or] at other
      exact (patient other.1).step move other.2 stepped)
    q q' [] [] moves turns (fun _ => ⟨fun _ => Nat.zero_le _, fun _ => Nat.zero_le _⟩) ran
  exact kept other

omit [DecidableEq ρ] in
theorem waiting_run {q q' : JobQueue ρ} {moves : List (JobMove ρ)} {turns : List (ρ × Bool)}
    (ran : PartialRun.run JobQueue.step q moves = .ok (q', turns)) :
    (waiting q ++ posts moves).Perm (doneWith turns ++ waiting q') := by
  refine PartialRun.run_history JobQueue.step
    (fun q' moves turns => (waiting q ++ posts moves).Perm (doneWith turns ++ waiting q'))
    (fun q' moves turns move q'' next balanced stepped => ?_)
    q q' [] [] moves turns (by simp [posts, doneWith]) ran
  have here := step_waiting q' q'' move next stepped
  rw [posts_append, doneWith_append, ← List.append_assoc, List.append_assoc (doneWith turns)]
  refine (balanced.append_right _).trans ?_
  rw [List.append_assoc]
  exact here.append_left _

/-- A report waits for its turn at most one round for each report that is dropped meanwhile. So, if every
report is done at the latest in the turn after its `k`-th one, a report is gone after as many rounds as
there were reports and `k` more, whatever was posted in between included. -/
theorem jobs_served (before moves : List (JobMove ρ)) (q q' : JobQueue ρ) (past turns : List (ρ × Bool))
    (start : PartialRun.run JobQueue.step .empty before = .ok (q, past))
    (ran : PartialRun.run JobQueue.step q moves = .ok (q', turns))
    (fresh : (posts (before ++ moves)).Nodup) (job : ρ) (waits : job ∈ waiting q) :
    (job ∈ waiting q' →
      jobRounds moves ≤ (issuedBy job turns).length + (doneWith turns).length + 1) ∧
    (doneWith turns).length + (waiting q').length = (waiting q).length + (posts moves).length ∧
    ∀ k, (issuedBy job turns).count false ≤ k →
      (waiting q).length + (posts moves).length + k < jobRounds moves → job ∈ doneWith turns := by
  rw [posts_append] at fresh
  obtain ⟨freshBefore, _, apart⟩ := List.nodup_append.mp fresh
  have known : job ∈ posts before :=
    (accounted_run start freshBefore).reports.mem_iff.mpr (List.mem_append_right _ waits)
  -- it is not posted again, so its rounds are counted from now on
  have patient := patient_run job ran fun again => apart job known job again rfl
  have balanced := waiting_run ran
  -- what waits or comes is dropped or waits at the end
  have balance : (doneWith turns).length + (waiting q').length =
      (waiting q).length + (posts moves).length := by
    rw [← List.length_append, ← List.length_append]
    exact balanced.length_eq.symm
  have bound : job ∈ waiting q' →
      jobRounds moves ≤ (issuedBy job turns).length + (doneWith turns).length + 1 := by
    intro still
    rw [waiting, List.append_assoc, List.mem_append, List.mem_append] at still
    rcases still with behind | ahead | pending
    · exact Nat.le_succ_of_le (patient.met (.inl behind))
    · exact patient.ahead ahead
    · exact Nat.le_succ_of_le (patient.met (.inr pending))
  refine ⟨bound, balance, fun k soon long => ?_⟩
  have place := balanced.mem_iff.mp (List.mem_append_left (posts moves) waits)
  rcases List.mem_append.mp place with done | still
  · exact done
  · -- all its turns were in vain, so they are few
    by_contra going
    have vain : ∀ done ∈ issuedBy job turns, done = false := by
      intro done member
      cases done with
      | false => rfl
      | true => exact absurd ((mem_doneWith_iff job turns).mpr member) going
    have all : (issuedBy job turns).count false = (issuedBy job turns).length :=
      List.count_eq_length.mpr fun done member => (vain done member).symm
    have rounds := bound still
    have someone := List.length_pos_of_mem still
    omega

/-- The report with data is passed over in the second round. -/
theorem jobs_served_sample :
    ∃ q turns, PartialRun.run JobQueue.step ⟨[], [], ["data"]⟩ twoJobs = .ok (q, turns) ∧
      "data" ∈ doneWith turns := by
  obtain ⟨⟨q, turns⟩, ran⟩ :
      ∃ r, PartialRun.run JobQueue.step ⟨[], [], ["data"]⟩ twoJobs = .ok r := ⟨_, rfl⟩
  obtain ⟨_, _, gone⟩ := jobs_served [.post "data"] twoJobs ⟨[], [], ["data"]⟩ q [] turns
    rfl ran (by decide) "data" (by decide)
  obtain rfl := (Prod.mk.inj (Except.ok.inj ran)).2
  exact ⟨q, _, ran, gone 1 (by decide) (by decide)⟩

/-! ### A report that is never looked at -/

/-- In every round the first report is done with at once and the one behind it, report `0`, is passed
over; before the next round another report is posted. -/
def crowd : ℕ → List (JobMove ℕ)
  | 0 => [.setRoot, .process true]
  | n + 1 => crowd n ++ [.post (n + 2), .setRoot, .process true]

theorem posts_crowd (n : ℕ) : posts (crowd n) = (List.range n).map (· + 2) := by
  induction n with
  | zero => rfl
  | succ n ih =>
    rw [crowd, posts_append, ih, List.range_succ, List.map_append]
    rfl

theorem jobRounds_crowd (n : ℕ) : jobRounds (crowd n) = n + 1 := by
  induction n with
  | zero => rfl
  | succ n ih =>
    rw [crowd, jobRounds_append, ih]
    rfl

/-- Every other report is done in its only turn. -/
theorem crowd_run (n : ℕ) :
    PartialRun.run JobQueue.step .empty (.post 1 :: .post 0 :: crowd n) =
      .ok (⟨[0], [], []⟩, (List.range (n + 1)).map fun k => (k + 1, true)) := by
  induction n with
  | zero => rfl
  | succ n ih =>
    rw [List.range_succ, List.map_append, crowd, ← List.cons_append, ← List.cons_append]
    exact (PartialRun.run_append_ok_iff _ _ _ _ _ _).mpr ⟨_, _, _, ih, rfl, rfl⟩

/-- The bound is needed: with one report in each round that is done in its first turn, a report that was
posted before the first round can be kept waiting forever. -/
theorem jobs_starved (n : ℕ) : ∃ moves q turns,
    PartialRun.run JobQueue.step (.empty : JobQueue ℕ) (.post 1 :: .post 0 :: moves) =
        .ok (q, turns) ∧
      jobRounds moves = n + 1 ∧ posts moves = (List.range n).map (· + 2) ∧
      turns = (List.range (n + 1)).map (fun k => (k + 1, true)) ∧
      waiting q = [0] ∧ issuedBy 0 turns = [] := by
  refine ⟨crowd n, _, _, crowd_run n, jobRounds_crowd n, posts_crowd n, rfl, rfl, ?_⟩
  simp [issuedBy]

end Tlink.Properties
