import Tlink.Properties.Recovery

/-!
# Restarting without a flush

A second setup on the state of the first one appends its rules to the chain, where the last match
decides, and everything it asks of `tc` is refused once more or already there: at most a filter is
repeated. So no packet is treated otherwise, whatever was refused the first time.
-/
namespace Tlink.Properties

open Numeral Tlink.Runtime Tlink.Net

variable {b : Backend Table Tree} {takes : Intake}

/-- The setup commands of `n` starts with one configuration. -/
def restarts (a : Arithmetic) (t : TrunksConfig) (uname : Except Error String) (n : ℕ) :
    List Command :=
  (List.replicate n (run a t uname)).flatten

theorem restarts_succ (a : Arithmetic) (t : TrunksConfig) (uname : Except Error String) (n : ℕ) :
    restarts a t uname (n + 1) = restarts a t uname n ++ run a t uname := by
  simp [restarts, List.replicate_succ']

/-- The earlier starts are attempts that got through, so no mark leads a packet another way than
after the first one. -/
theorem restarts_path (a : Arithmetic) (t : TrunksConfig) (laws : LinkLawsOn b takes t.nic)
    (uname : Except Error String) (start : Network Table Tree) (distinct : t.nic.st ≠ t.nic.gw)
    (bare : ∀ dev, start.tree dev = none) (n : ℕ) (dev : String) (mark : ℕ) :
    Tree.path ((b.execAll start (restarts a t uname (n + 1))).tree dev) mark =
      Tree.path ((b.execAll start (run a t uname)).tree dev) mark := by
  rw [restarts_succ]
  by_cases named : Names t.nic dev
  · have whole : ∀ attempt ∈ List.replicate n (run a t uname), attempt <+: run a t uname := by
      intro attempt member
      rw [List.eq_of_mem_replicate member]
    exact (recovered_tree a t laws uname start distinct (fun dev _ => bare dev) _ whole dev
      named).path mark
  · have owned : ∀ c ∈ restarts a t uname n ++ run a t uname, Owned t.nic c := by
      intro c member
      rw [← restarts_succ, restarts] at member
      obtain ⟨attempt, started, inside⟩ := List.mem_flatten.mp member
      rw [List.eq_of_mem_replicate started] at inside
      exact owned_run a t uname c inside
    rw [(owned_elsewhere t.nic laws _ owned start).1 dev named,
      (owned_elsewhere t.nic laws _ (owned_run a t uname) start).1 dev named]

/-- The rules of one start. -/
def rulesOf (t : TrunksConfig) : List MarkRule := if t.qos then qosRules t else plainRules t

theorem restarts_prerouting (a : Arithmetic) (t : TrunksConfig) (laws : LinkLawsOn b takes t.nic)
    (uname : Except Error String) (start : Network Table Tree) (n : ℕ) :
    (b.execAll start (restarts a t uname n)).table "PREROUTING" =
      start.table "PREROUTING" ++ (List.replicate n (rulesOf t)).flatten := by
  induction n with
  | zero => simp [restarts, Backend.execAll]
  | succ n ih =>
    rw [restarts_succ, execAll_append, run_prerouting a t laws, ih, List.append_assoc,
      List.replicate_succ', List.flatten_append, List.flatten_singleton]
    rfl

/-- A packet that enters by one of the two ends is marked in any case. -/
theorem rulesOf_match (t : TrunksConfig) (p : Packet)
    (enters : p.ingress = t.nic.st ∨ p.ingress = t.nic.gw) :
    ∃ rule ∈ rulesOf t, MarkRule.verdict p rule ≠ none := by
  rcases enters with st | gw
  · refine ⟨⟨t.nic.st, none, 10⟩, ?_, by simp [MarkRule.verdict, st]⟩
    unfold rulesOf
    split <;> simp [qosRules, plainRules]
  · refine ⟨⟨t.nic.gw, none, 20⟩, ?_, by simp [MarkRule.verdict, gw]⟩
    unfold rulesOf
    split <;> simp [qosRules, plainRules]

/-- What a chain leaves behind MARK rules of any kind, which may look at anything. -/
def markBehind (prior : List (Packet → ℕ → ℕ)) (rules : List MarkRule) (p : Packet) : ℕ :=
  LastMatch.eval (MarkRule.verdict p) rules (prior.foldl (fun mark rule => rule p mark) p.mark)

/-- No number of starts treats a packet otherwise than one start, and what was in the chain before
has no say in the marks of the link. -/
theorem restart_same (a : Arithmetic) (t : TrunksConfig) (laws : LinkLawsOn b takes t.nic)
    (uname : Except Error String) (start : Network Table Tree) (distinct : t.nic.st ≠ t.nic.gw)
    (emptyChain : start.table "PREROUTING" = []) (bare : ∀ dev, start.tree dev = none) (n : ℕ)
    (started : 1 ≤ n) :
    (∀ p : Packet,
      (b.execAll start (restarts a t uname n)).table.markOf p =
        (b.execAll start (run a t uname)).table.markOf p ∧
      transit (b.execAll start (restarts a t uname n)) p =
        transit (b.execAll start (run a t uname)) p) ∧
    ((b.execAll start (restarts a t uname n)).table "PREROUTING").length =
      n * ((b.execAll start (run a t uname)).table "PREROUTING").length ∧
    (∀ (before : Network Table Tree) (p : Packet), p.ingress = t.nic.st ∨ p.ingress = t.nic.gw →
      (b.execAll before (run a t uname)).table.markOf p =
        (b.execAll start (run a t uname)).table.markOf p) ∧
    ∀ (prior : List (Packet → ℕ → ℕ)) (p : Packet), p.ingress = t.nic.st ∨ p.ingress = t.nic.gw →
      markBehind prior ((b.execAll start (run a t uname)).table "PREROUTING") p =
        (b.execAll start (run a t uname)).table.markOf p := by
  obtain ⟨n, rfl⟩ := Nat.exists_eq_add_of_le' started
  have many := restarts_prerouting a t laws uname start (n + 1)
  have once : (b.execAll start (run a t uname)).table "PREROUTING" = rulesOf t := by
    rw [run_prerouting a t laws, emptyChain]
    rfl
  rw [emptyChain, List.nil_append] at many
  -- a chain of copies of one chain decides as one copy does
  have marked (p : Packet) : (b.execAll start (restarts a t uname (n + 1))).table.markOf p =
      (b.execAll start (run a t uname)).table.markOf p := by
    rw [Table.markOf, Table.markOf, many, once]
    exact LastMatch.eval_replicate (MarkRule.verdict p) (rulesOf t) n p.mark
  refine ⟨?_, ?_, ?_, ?_⟩
  · intro p
    refine ⟨marked p, ?_⟩
    rw [transit, transit, marked p]
    exact restarts_path a t laws uname start distinct bare n p.egress _
  · rw [many, once]
    simp
  · intro before p enters
    -- a packet of the link is matched by the new rules, which come last
    rw [Table.markOf, Table.markOf, once, run_prerouting a t laws, LastMatch.eval_append]
    exact LastMatch.eval_of_match (MarkRule.verdict p) (rulesOf t) _ _ (rulesOf_match t p enters)
  · intro prior p enters
    rw [markBehind, Table.markOf, once]
    exact LastMatch.eval_of_match (MarkRule.verdict p) (rulesOf t) _ _ (rulesOf_match t p enters)

theorem restart_same_sample :
    transit (reference.execAll fresh (restarts .float64 sampleQos (.ok "") 3)) ⟨"eth1", "eth0", 46, 7⟩ =
      transit (reference.execAll fresh (run .float64 sampleQos (.ok ""))) ⟨"eth1", "eth0", 46, 7⟩ :=
  ((restart_same .float64 sampleQos (reference_linkLawsOn _) (.ok "") fresh (by decide) rfl
    (fun _ => rfl) 3 (by decide)).1 ⟨"eth1", "eth0", 46, 7⟩).2

end Tlink.Properties
