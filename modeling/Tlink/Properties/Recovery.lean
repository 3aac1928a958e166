import Tlink.Net.Demands
import Tlink.Properties.Isolation

/-!
# Starts that are cut off

The process ends on a signal at any time, so a setup may stop after any of its commands. Nothing is
rolled back, and a later start without a flush begins with the first command again. This is enough:
the start that gets through leaves what it would have left on an untouched host.
-/
namespace Tlink.Properties

open Numeral Tlink.Runtime Tlink.Net

variable {b : Backend Table Tree} {takes : Intake}

/-- What broken attempts mean for one device. -/
theorem attempts_filter (attempts : List (List Command)) (log block : List Command) (dev : String)
    (only : log.filter (fun c => c.device = some dev) = block)
    (cut : ∀ attempt ∈ attempts, attempt <+: log) :
    ∃ cuts : List (List Command), (∀ c ∈ cuts, c <+: block) ∧
      (attempts.flatten ++ log).filter (fun c => c.device = some dev) = cuts.flatten ++ block := by
  refine ⟨attempts.map (List.filter fun c => c.device = some dev), ?_, ?_⟩
  · intro c member
    obtain ⟨attempt, tried, rfl⟩ := List.mem_map.mp member
    rw [← only]
    exact (cut attempt tried).filter _
  · rw [List.filter_append, List.filter_flatten, only]

theorem recovered_tree (a : Arithmetic) (t : TrunksConfig) (laws : LinkLawsOn b takes t.nic)
    (uname : Except Error String) (start : Network Table Tree) (distinct : t.nic.st ≠ t.nic.gw)
    (bare : ∀ dev, Names t.nic dev → start.tree dev = none) (attempts : List (List Command))
    (cut : ∀ attempt ∈ attempts, attempt <+: run a t uname) (dev : String) (named : Names t.nic dev) :
    TreeAlike ((b.execAll start (run a t uname)).tree dev)
      ((b.execAll start (attempts.flatten ++ run a t uname)).tree dev) := by
  rw [execAll_tree_apply, execAll_tree_apply, bare dev named]
  rcases named with rfl | rfl
  · have only : (run a t uname).filter (fun c => c.device = some t.nic.st) = blockST a t uname := by
      rw [run_filter_device, if_neg distinct.symm, if_pos rfl, List.nil_append]
    obtain ⟨cuts, tried, filtered⟩ := attempts_filter attempts _ _ _ only cut
    rw [only, filtered]
    exact (blockST_redoable a t laws.st uname).recovers .none cuts tried
  · have only : (run a t uname).filter (fun c => c.device = some t.nic.gw) = blockGW a t uname := by
      rw [run_filter_device, if_pos rfl, if_neg distinct, List.append_nil]
    obtain ⟨cuts, tried, filtered⟩ := attempts_filter attempts _ _ _ only cut
    rw [only, filtered]
    exact (blockGW_redoable a t laws.gw uname).recovers .none cuts tried

/-- Any number of starts may be cut off after any of their commands: once a start gets through,
every packet has the mark, the class and the queue it would have had after this start alone. -/
theorem crash_recovery (a : Arithmetic) (t : TrunksConfig) (laws : LinkLawsOn b takes t.nic)
    (uname : Except Error String) (start : Network Table Tree) (distinct : t.nic.st ≠ t.nic.gw)
    (bare : ∀ dev, Names t.nic dev → start.tree dev = none) (attempts : List (List Command))
    (cut : ∀ attempt ∈ attempts, attempt <+: run a t uname) :
    let recovered := b.execAll start (attempts.flatten ++ run a t uname)
    let once := b.execAll start (run a t uname)
    (∀ p : Packet, recovered.table.markOf p = once.table.markOf p ∧
      transit recovered p = transit once p) ∧
    ∀ dev, ¬ Names t.nic dev → recovered.tree dev = start.tree dev := by
  intro recovered once
  have known : ∀ c ∈ attempts.flatten, c ∈ run a t uname := by
    intro c member
    obtain ⟨attempt, tried, inside⟩ := List.mem_flatten.mp member
    exact (cut attempt tried).subset inside
  have owned : ∀ c ∈ attempts.flatten ++ run a t uname, Owned t.nic c := by
    intro c member
    rcases List.mem_append.mp member with before | now
    · exact owned_run a t uname c (known c before)
    · exact owned_run a t uname c now
  have elsewhere := (owned_elsewhere t.nic laws _ owned start).1
  have elsewhere' := (owned_elsewhere t.nic laws _ (owned_run a t uname) start).1
  refine ⟨?_, elsewhere⟩
  intro p
  -- rules that come again after the same rules decide nothing new
  have mark : recovered.table.markOf p = once.table.markOf p := by
    rw [execAll_markOf _ (onlyRules_of_owned fun c member => ⟨t.nic, laws, owned c member⟩),
      execAll_markOf _ (onlyRules_of_owned fun c member =>
        ⟨t.nic, laws, owned_run a t uname c member⟩)]
    exact LastMatch.eval_absorbs (markVerdict p) _ _ _ known
  refine ⟨mark, ?_⟩
  rw [transit, transit, mark]
  by_cases named : Names t.nic p.egress
  · exact (recovered_tree a t laws uname start distinct bare attempts cut p.egress named).path _
  · rw [elsewhere p.egress named, elsewhere' p.egress named]

/-- Cut off twice, in the middle of the gateway's block and one command before the end. -/
theorem crash_recovery_sample :
    transit (reference.execAll fresh ([(run .float64 sampleQos (.ok "")).take 11,
        (run .float64 sampleQos (.ok "")).take 22].flatten ++ run .float64 sampleQos (.ok "")))
      ⟨"eth1", "eth0", 46, 0⟩ =
    transit (reference.execAll fresh (run .float64 sampleQos (.ok ""))) ⟨"eth1", "eth0", 46, 0⟩ := by
  have cut : ∀ attempt ∈ [(run .float64 sampleQos (.ok "")).take 11,
      (run .float64 sampleQos (.ok "")).take 22], attempt <+: run .float64 sampleQos (.ok "") := by
    intro attempt member
    simp only [List.mem_cons, List.not_mem_nil, or_false] at member
    rcases member with rfl | rfl
    · exact List.take_prefix _ _
    · exact List.take_prefix _ _
  exact ((crash_recovery .float64 sampleQos (reference_linkLawsOn _) (.ok "") fresh (by decide)
    (fun _ _ => rfl) _ cut).1 ⟨"eth1", "eth0", 46, 0⟩).2

end Tlink.Properties
