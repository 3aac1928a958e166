import Tlink.Runtime.Acm

/-!
# Runs of the capacity scheduler

A tick lets the profile in force stand or selects another one. What a run has issued is
therefore the class changes of the profiles it selected, in order, and the profile in
force is the last of them. Every profile of the list is selected by some run.
-/
namespace Tlink.Properties

open Tlink.Runtime

variable (a : Arithmetic)

/-! ### One tick -/

/-- The two things a tick can do. -/
theorem runACM_cases (t t' : TrunksConfig) (qos : Bool) (draw : ℕ) (cmds : List Command)
    (returned : runACM a t qos draw = .ok (t', cmds)) :
    (dwellOver t = false ∧ t' = { t with acmCounter := t.acmCounter + 1 } ∧ cmds = []) ∨
    (dwellOver t = true ∧ ∃ acm, some acm ∈ t.acmList ∧
      t' = { t with currentACM := some acm, acmCounter := 1 } ∧
      cmds = changeCapacity a t qos acm.weight) := by
  unfold runACM at returned
  cases ended : dwellOver t with
  | false =>
    left
    simp only [ended, Bool.false_eq_true, if_false] at returned
    obtain ⟨rfl, rfl⟩ := Prod.mk.inj (Except.ok.inj returned)
    exact ⟨rfl, rfl, rfl⟩
  | true =>
    right
    simp only [ended, if_true, intn] at returned
    -- an empty list and a null entry panic
    split at returned
    · cases returned
    · simp only [bind, Except.bind] at returned
      cases entry : t.acmList[draw % t.acmList.length]? with
      | none => simp [entry] at returned
      | some profile =>
        cases profile with
        | none => simp [entry, deref] at returned
        | some acm =>
          simp only [entry, deref] at returned
          obtain ⟨rfl, rfl⟩ := Prod.mk.inj (Except.ok.inj returned)
          exact ⟨rfl, acm, List.mem_of_getElem? entry, rfl, rfl⟩

theorem runACM_dwell (t : TrunksConfig) (qos : Bool) (draw : ℕ) (stands : dwellOver t = false) :
    runACM a t qos draw = .ok ({ t with acmCounter := t.acmCounter + 1 }, []) := by
  simp [runACM, stands, pure, Except.pure]

/-- Only the remainder of a draw matters. -/
theorem runACM_mod (t : TrunksConfig) (qos : Bool) (draw : ℕ) :
    runACM a t qos (draw % t.acmList.length) = runACM a t qos draw := by
  simp [runACM, intn]

/-- The draw picks the profile. -/
theorem runACM_select (t : TrunksConfig) (qos : Bool) (i : ℕ) (acm : ACM)
    (ended : dwellOver t = true) (entry : t.acmList[i]? = some (some acm)) :
    runACM a t qos i =
      .ok ({ t with currentACM := some acm, acmCounter := 1 }, changeCapacity a t qos acm.weight) := by
  obtain ⟨bound, _⟩ := List.getElem?_eq_some_iff.mp entry
  have nonempty : t.acmList.length ≠ 0 := by omega
  have picked : intn i t.acmList.length = .ok i := by
    rw [intn, if_neg nonempty, Nat.mod_eq_of_lt bound]
  simp only [runACM, ended, if_true, picked, bind, Except.bind, entry, deref]
  rfl

/-! ### Runs -/

/-- The profiles a run has selected explain all it has issued. -/
structure Selected (t : TrunksConfig) (qos : Bool) (profiles : List ACM) (t' : TrunksConfig)
    (cmds : List Command) : Prop where
  nic : t'.nic = t.nic
  bandwidth : t'.bandwidth = t.bandwidth
  acmList : t'.acmList = t.acmList
  known : ∀ acm ∈ profiles, some acm ∈ t.acmList
  issued : cmds = profiles.flatMap fun acm => changeCapacity a t qos acm.weight
  inForce : t'.currentACM = profiles.getLast?.or t.currentACM

theorem changeCapacity_congr (t t' : TrunksConfig) (qos : Bool) (weight : ℚ) (nic : t'.nic = t.nic)
    (bandwidth : t'.bandwidth = t.bandwidth) :
    changeCapacity a t' qos weight = changeCapacity a t qos weight := by
  simp only [changeCapacity, nic, bandwidth]

variable {a} in
/-- Another tick selects at most one more profile. -/
theorem Selected.tick {t t' t'' : TrunksConfig} {qos : Bool} {profiles : List ACM} {draw : ℕ}
    {cmds out : List Command} (selected : Selected a t qos profiles t' cmds)
    (returned : runACM a t' qos draw = .ok (t'', out)) :
    ∃ profiles', Selected a t qos profiles' t'' (cmds ++ out) := by
  rcases runACM_cases a t' t'' qos draw out returned with
    ⟨_, rfl, rfl⟩ | ⟨_, acm, member, rfl, rfl⟩
  · refine ⟨profiles, selected.nic, selected.bandwidth, selected.acmList, selected.known, ?_,
      selected.inForce⟩
    rw [List.append_nil, selected.issued]
  · refine ⟨profiles ++ [acm], selected.nic, selected.bandwidth, selected.acmList, ?_, ?_, ?_⟩
    · intro other other_member
      rcases List.mem_append.mp other_member with earlier | last
      · exact selected.known other earlier
      · rw [List.mem_singleton.mp last, ← selected.acmList]
        exact member
    · rw [changeCapacity_congr a t t' qos acm.weight selected.nic selected.bandwidth, selected.issued]
      simp
    · simp

theorem ticks_selected (qos : Bool) (t t' : TrunksConfig) (draws : List ℕ) (cmds : List Command)
    (returned : ticks a qos t draws = .ok (t', cmds)) :
    ∃ profiles, Selected a t qos profiles t' cmds := by
  refine PartialRun.run_invariant (fun t draw => runACM a t qos draw)
    (fun s past => ∃ profiles, Selected a t qos profiles s past) ?_ t t' [] draws cmds ?_ returned
  · rintro s past draw s' out ⟨profiles, selected⟩ tick
    exact selected.tick tick
  · exact ⟨[], rfl, rfl, rfl, by simp, rfl, by simp⟩

/-- A run that issues nothing found a profile in force and let it stand. -/
theorem stands_of_silent (qos : Bool) (t t' : TrunksConfig) (draws : List ℕ) (started : draws ≠ [])
    (returned : ticks a qos t draws = .ok (t', [])) : dwellOver t = false := by
  obtain ⟨draw, later, rfl⟩ := List.exists_cons_of_ne_nil started
  obtain ⟨s, out, rest, tick, _, issued⟩ :=
    (PartialRun.run_cons_ok_iff (fun t draw => runACM a t qos draw) t t' draw later []).mp returned
  have silent : out = [] := (List.append_eq_nil_iff.mp issued.symm).1
  -- a tick that selects issues two commands
  rcases runACM_cases a t s qos draw out tick with ⟨stands, _, _⟩ | ⟨_, acm, _, _, change⟩
  · exact stands
  · rw [silent] at change
    cases qos <;> cases change

theorem runACM_progress (t : TrunksConfig) (qos : Bool) (draw : ℕ) (nonempty : t.acmList ≠ [])
    (present : none ∉ t.acmList) :
    ∃ t' cmds, runACM a t qos draw = .ok (t', cmds) ∧ t'.acmList = t.acmList := by
  cases ended : dwellOver t with
  | false => exact ⟨_, _, runACM_dwell a t qos draw ended, rfl⟩
  | true =>
    -- a draw is reduced to an index of the list, and every index holds a profile
    have bound := Nat.mod_lt draw (List.length_pos_of_ne_nil nonempty)
    have entry := List.getElem?_eq_getElem bound
    cases picked : t.acmList[draw % t.acmList.length] with
    | none =>
      have member := List.getElem_mem bound
      rw [picked] at member
      exact absurd member present
    | some acm =>
      rw [picked] at entry
      have tick := runACM_select a t qos (draw % t.acmList.length) acm ended entry
      rw [runACM_mod] at tick
      exact ⟨_, _, tick, rfl⟩

/-- With a profile to select at every index no run panics. -/
theorem ticks_safe (qos : Bool) (t : TrunksConfig) (draws : List ℕ) (nonempty : t.acmList ≠ [])
    (present : none ∉ t.acmList) : ∃ t' cmds, ticks a qos t draws = .ok (t', cmds) := by
  have progress (s : TrunksConfig) (draw : ℕ) (same : s.acmList = t.acmList) :
      ∃ s' out, runACM a s qos draw = .ok (s', out) ∧ s'.acmList = t.acmList := by
    rw [← same] at nonempty present
    obtain ⟨s', out, tick, kept⟩ := runACM_progress a s qos draw nonempty present
    exact ⟨s', out, tick, kept.trans same⟩
  obtain ⟨t', cmds, returned, _⟩ := PartialRun.run_safe (fun t draw => runACM a t qos draw)
    (fun s => s.acmList = t.acmList) progress t draws rfl
  exact ⟨t', cmds, returned⟩

/-! ### Reaching a profile -/

/-- The ticks for which the profile in force still stands. -/
def remaining (t : TrunksConfig) : ℕ :=
  match t.currentACM with
  | none => 0
  | some acm => (acm.duration.toInt - t.acmCounter.toInt).toNat

theorem dwellOver_iff (t : TrunksConfig) : dwellOver t = true ↔ remaining t = 0 := by
  unfold dwellOver remaining
  cases t.currentACM with
  | none => simp
  | some acm =>
    simp only [decide_eq_true_eq, Int64.le_iff_toInt_le]
    omega

/-- Below the duration the counter cannot overflow. -/
theorem remaining_dwell (t : TrunksConfig) (stands : dwellOver t = false) :
    remaining { t with acmCounter := t.acmCounter + 1 } + 1 = remaining t := by
  unfold dwellOver at stands
  unfold remaining
  cases current : t.currentACM with
  | none => simp [current] at stands
  | some acm =>
    have below : t.acmCounter.toInt < acm.duration.toInt := by
      simpa [current, Int64.le_iff_toInt_le] using stands
    have lower := Int64.le_toInt t.acmCounter
    have upper := Int64.toInt_lt acm.duration
    have next : (t.acmCounter + 1).toInt = t.acmCounter.toInt + 1 := by
      rw [Int64.toInt_add]
      change (t.acmCounter.toInt + 1).bmod (2 ^ 64) = _
      -- the sum stays within the duration, itself an `int64`
      rw [Int.bmod_eq_of_le] <;> omega
    simp only [next]
    omega

/-- Waiting long enough brings the next selection and issues nothing. -/
theorem ticks_wait (qos : Bool) (t : TrunksConfig) :
    ∃ draws t', ticks a qos t draws = .ok (t', []) ∧ dwellOver t' = true ∧ t'.nic = t.nic ∧
      t'.bandwidth = t.bandwidth ∧ t'.acmList = t.acmList := by
  -- induction on the ticks the present profile still stands
  generalize left_eq : remaining t = left
  induction left generalizing t with
  | zero => exact ⟨[], t, rfl, (dwellOver_iff t).mpr left_eq, rfl, rfl, rfl⟩
  | succ left ih =>
    have stands : dwellOver t = false := by
      by_contra ended
      have none_left := (dwellOver_iff t).mp (by simpa using ended)
      omega
    have step := remaining_dwell t stands
    obtain ⟨draws, t', returned, ended, same⟩ :=
      ih { t with acmCounter := t.acmCounter + 1 } (by omega)
    refine ⟨0 :: draws, t', ?_, ended, same⟩
    rw [ticks, PartialRun.run_cons_ok_iff]
    exact ⟨_, _, _, runACM_dwell a t qos 0 stands, returned, rfl⟩

/-- Whatever is in force now, some run selects the given profile and issues nothing else. -/
theorem ticks_reach (qos : Bool) (t : TrunksConfig) (acm : ACM) (member : some acm ∈ t.acmList) :
    ∃ draws t', draws ≠ [] ∧ t'.currentACM = some acm ∧
      ticks a qos t draws = .ok (t', changeCapacity a t qos acm.weight) := by
  -- wait until the profile in force is over, then draw the index of the given one
  obtain ⟨waiting, s, waited, ended, nic, bandwidth, acmList⟩ := ticks_wait a qos t
  obtain ⟨i, entry⟩ := List.mem_iff_getElem?.mp member
  rw [← acmList] at entry
  have tick := runACM_select a s qos i acm ended entry
  rw [changeCapacity_congr a t s qos acm.weight nic bandwidth] at tick
  refine ⟨waiting ++ [i], { s with currentACM := some acm, acmCounter := 1 }, by simp, rfl, ?_⟩
  rw [ticks, PartialRun.run_append_ok_iff]
  refine ⟨s, [], changeCapacity a t qos acm.weight, waited, ?_, rfl⟩
  simp [PartialRun.run, tick]

/-- An empty list and a missing entry make some run panic. -/
theorem ticks_panics (qos : Bool) (t : TrunksConfig) (bad : t.acmList = [] ∨ none ∈ t.acmList) :
    ∃ draws, ∀ t' cmds, ticks a qos t draws ≠ .ok (t', cmds) := by
  obtain ⟨waiting, s, waited, ended, _, _, acmList⟩ := ticks_wait a qos t
  -- the draw that picks the missing entry, if there is a list to pick from
  obtain ⟨i, picks⟩ : ∃ i, t.acmList[i % t.acmList.length]? = none ∨
      t.acmList[i % t.acmList.length]? = some none := by
    rcases bad with empty | missing
    · exact ⟨0, .inl (by simp [empty])⟩
    · obtain ⟨i, entry⟩ := List.mem_iff_getElem?.mp missing
      obtain ⟨bound, _⟩ := List.getElem?_eq_some_iff.mp entry
      exact ⟨i, .inr (by rw [Nat.mod_eq_of_lt bound, entry])⟩
  refine ⟨waiting ++ [i], ?_⟩
  intro t' cmds returned
  obtain ⟨s', out, rest, first, last, _⟩ :=
    (PartialRun.run_append_ok_iff _ t t' waiting [i] cmds).mp returned
  obtain ⟨rfl, rfl⟩ := Prod.mk.inj (Except.ok.inj (first.symm.trans waited))
  obtain ⟨s'', out', _, tick, _, _⟩ := (PartialRun.run_cons_ok_iff _ s' t' i [] rest).mp last
  rw [runACM, if_pos ended, acmList] at tick
  cases drawn : intn i t.acmList.length with
  | error panic => simp [drawn, bind, Except.bind] at tick
  | ok index =>
    have index_eq : index = i % t.acmList.length := by
      unfold intn at drawn
      split at drawn
      · cases drawn
      · exact (Except.ok.inj drawn).symm
    subst index_eq
    rcases picks with absent | null
    · simp [drawn, absent, bind, Except.bind] at tick
    · simp [drawn, null, deref, bind, Except.bind] at tick

end Tlink.Properties
