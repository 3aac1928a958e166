import Tlink.Net.Setup

/-!
# Batches read rule by rule

What a batch of commands does to the chain, and to the mark of a packet, is said by the rules its
commands append. Nothing here depends on who issued the commands or in what company.
-/
namespace Tlink.Net

open Numeral Tlink.Runtime

variable {b : Backend Table Tree}

/-- The rule a command appends to the chain. -/
def ruleOf : Command → Option MarkRule
  | ⟨.iptables, ["-t", "mangle", "-A", "PREROUTING", "-i", iface, "-j", "MARK", "--set-mark",
      mark]⟩ =>
    (readNat mark).map fun n => ⟨iface, none, n⟩
  | ⟨.iptables, ["-t", "mangle", "-A", "PREROUTING", "-i", iface, "-m", "dscp", "--dscp", dscp,
      "-j", "MARK", "--set-mark", mark]⟩ =>
    (readNat dscp).bind fun d => (readNat mark).map fun n => ⟨iface, some d, n⟩
  | _ => none

/-- The two kinds of rules the program appends, and what they are read as. -/
inductive Appends (dev : String) : Command → MarkRule → Prop
  | mark (mark : String) (n : ℕ) : (mark, n) ∈ handles →
      Appends dev (markCommand dev mark) ⟨dev, none, n⟩
  | dscp (dscp mark : String) (d n : ℕ) : (dscp, d) ∈ dscps → (mark, n) ∈ handles →
      Appends dev (dscpCommand dev dscp mark) ⟨dev, some d, n⟩

theorem readNat_of_handle {handle : String} {n : ℕ} (known : (handle, n) ∈ handles) :
    readNat handle = some n := by
  simp only [handles, List.mem_cons, Prod.mk.injEq, List.not_mem_nil, or_false] at known
  rcases known with ⟨rfl, rfl⟩ | ⟨rfl, rfl⟩ | ⟨rfl, rfl⟩ | ⟨rfl, rfl⟩ <;> decide

theorem readNat_of_dscp {dscp : String} {d : ℕ} (known : (dscp, d) ∈ dscps) :
    readNat dscp = some d := by
  simp only [dscps, List.mem_cons, Prod.mk.injEq, List.not_mem_nil, or_false] at known
  rcases known with ⟨rfl, rfl⟩ | ⟨rfl, rfl⟩ <;> decide

theorem Appends.ruleOf {dev : String} {c : Command} {rule : MarkRule}
    (appends : Appends dev c rule) : ruleOf c = some rule := by
  cases appends with
  | mark mark n known =>
    simp [Net.ruleOf, markCommand, runIPtables, readNat_of_handle known]
  | dscp dscp mark d n knownDscp known =>
    simp [Net.ruleOf, dscpCommand, runIPtables, readNat_of_dscp knownDscp, readNat_of_handle known]

theorem Appends.iface {dev : String} {c : Command} {rule : MarkRule}
    (appends : Appends dev c rule) : rule.iface = dev := by
  cases appends <;> rfl

theorem ruleOf_tool (c : Command) (rule : MarkRule) (appends : ruleOf c = some rule) :
    c.tool = .iptables := by
  unfold ruleOf at appends
  split at appends
  · rfl
  · rfl
  · cases appends

/-- On a lawful device the rule is appended. -/
theorem Appends.onTable {takes : Intake} {dev : String} (laws : LinkLaws b takes dev) {c : Command}
    {rule : MarkRule} (appends : Appends dev c rule) (table : Table) :
    b.onTable c table = table.append "PREROUTING" rule := by
  cases appends with
  | mark mark n known => exact onTable_mark laws mark n table known
  | dscp dscp mark d n knownDscp known => exact onTable_dscp laws dscp mark d n table knownDscp known

/-- A batch whose `iptables` commands all append rules. -/
def OnlyRules (b : Backend Table Tree) (cs : List Command) : Prop :=
  ∀ c ∈ cs, c.tool = .iptables → ∃ rule, ruleOf c = some rule ∧
    ∀ table, b.onTable c table = table.append "PREROUTING" rule

theorem execAll_chain (cs : List Command) (only : OnlyRules b cs) (net : Network Table Tree)
    (chain : String) :
    (b.execAll net cs).table chain =
      if chain = "PREROUTING" then net.table "PREROUTING" ++ cs.filterMap ruleOf
      else net.table chain := by
  induction cs generalizing net with
  | nil => by_cases prerouting : chain = "PREROUTING" <;> simp [Backend.execAll, prerouting]
  | cons c cs ih =>
    have later := ih (fun c' member => only c' (List.mem_cons_of_mem c member)) (b.exec net c).2
    rw [exec_table] at later
    by_cases table : c.tool = .iptables
    · obtain ⟨rule, appends, appended⟩ := only c (by simp) table
      rw [if_pos table, appended] at later
      by_cases prerouting : chain = "PREROUTING"
      · simpa [Backend.execAll, prerouting, appends, Table.append] using later
      · simpa [Backend.execAll, prerouting, Table.append] using later
    · have silent : ruleOf c = none := by
        by_contra appends
        obtain ⟨rule, appends⟩ := Option.ne_none_iff_exists'.mp appends
        exact table (ruleOf_tool c rule appends)
      rw [if_neg table] at later
      simpa [Backend.execAll, silent] using later

/-- What a batch says about the mark of a packet, command by command. -/
def markVerdict (p : Packet) (c : Command) : Option ℕ := (ruleOf c).bind (MarkRule.verdict p)

theorem execAll_markOf (cs : List Command) (only : OnlyRules b cs) (net : Network Table Tree)
    (p : Packet) :
    (b.execAll net cs).table.markOf p = LastMatch.eval (markVerdict p) cs (net.table.markOf p) := by
  rw [Table.markOf, execAll_chain cs only, if_pos rfl, LastMatch.eval_append, ← Table.markOf]
  generalize net.table.markOf p = mark
  induction cs generalizing mark with
  | nil => rfl
  | cons c cs ih =>
    have only' : OnlyRules b cs := fun c' member => only c' (List.mem_cons_of_mem c member)
    cases appended : ruleOf c with
    | none => simpa [markVerdict, appended] using ih only' mark
    | some rule => simpa [markVerdict, appended] using ih only' _

end Tlink.Net
