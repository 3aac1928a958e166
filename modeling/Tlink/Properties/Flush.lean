import Tlink.Net.Reference
import Tlink.Net.Setup
import Tlink.Runtime.Main

/-!
# Restarting after a flush

The setup touches the mangle table and the trees of the two configured devices. The
flush resets exactly these, whichever of its deletions fail, so nothing that was there
before can be seen afterwards. Tables and trees may be of any kind.
-/
namespace Tlink.Properties

open Tlink.Runtime Tlink.Net

section Generic

variable {Table Tree : Type} {b : Backend Table Tree} {emptyTable : Table} {noQdisc : Tree}

/-! ### The flush -/

def flushCommands (t : TrunksConfig) : List Command :=
  [ runIPtables ["-F", "-t", "mangle"],
    runTC ["filter", "del", "dev", t.nic.gw],
    runTC ["qdisc", "del", "dev", t.nic.gw, "root"],
    runTC ["filter", "del", "dev", t.nic.st],
    runTC ["qdisc", "del", "dev", t.nic.st, "root"] ]

theorem flushTables_net (t : TrunksConfig) (net : Network Table Tree) :
    (flushTables b t net).2 = b.execAll net (flushCommands t) := rfl

theorem flushTables_ok (t : TrunksConfig) (net : Network Table Tree) :
    (flushTables b t net).1 = (b.iptables ["-F", "-t", "mangle"] net.table).isSome := by
  simp only [flushTables, Backend.exec, tool_runIPtables, args_runIPtables]
  cases b.iptables ["-F", "-t", "mangle"] net.table <;> rfl

theorem flushTables_table (laws : FlushLaws b emptyTable noQdisc) (t : TrunksConfig)
    (net : Network Table Tree) (ok : (flushTables b t net).1 = true) :
    (flushTables b t net).2.table = emptyTable := by
  rw [flushTables_ok] at ok
  obtain ⟨table', flushed⟩ := Option.isSome_iff_exists.mp ok
  have only : (flushCommands t).filter (fun c => c.tool = .iptables) =
      [runIPtables ["-F", "-t", "mangle"]] := by simp [flushCommands]
  rw [flushTables_net, execAll_table, only, List.foldl_cons, List.foldl_nil, Backend.onTable,
    args_runIPtables, flushed, Option.getD_some]
  exact laws.flush _ _ flushed

/-- Deleting a root qdisc leaves none, also where it fails. -/
theorem onTree_delRoot (laws : FlushLaws b emptyTable noQdisc) (dev : String) (tree : Tree) :
    b.onTree (runTC ["qdisc", "del", "dev", dev, "root"]) tree = noQdisc := by
  rw [Backend.onTree, args_runTC]
  cases outcome : b.tc ["qdisc", "del", "dev", dev, "root"] tree with
  | none => exact laws.del_root_failed dev tree outcome
  | some tree' => exact laws.del_root dev tree tree' outcome

theorem flushTables_tree (laws : FlushLaws b emptyTable noQdisc) (t : TrunksConfig)
    (net : Network Table Tree) (dev : String) :
    (flushTables b t net).2.tree dev =
      if dev = t.nic.gw ∨ dev = t.nic.st then noQdisc else net.tree dev := by
  rw [flushTables_net, execAll_tree_apply]
  -- the last command for a configured device deletes its root qdisc
  by_cases gw : t.nic.gw = dev <;> by_cases st : t.nic.st = dev <;>
    simp [flushCommands, gw, st, onTree_delRoot laws, eq_comm (a := dev)]

/-! ### The setup -/

theorem run_tree_other (a : Arithmetic) (t : TrunksConfig) (uname : Except Error String)
    (net : Network Table Tree) (dev : String) (gw : dev ≠ t.nic.gw) (st : dev ≠ t.nic.st) :
    (b.execAll net (run a t uname)).tree dev = net.tree dev := by
  rw [execAll_tree_apply, run_filter_device, if_neg gw.symm, if_neg st.symm]
  rfl

/-- Two starts that agree on the table and on a device agree there afterwards. -/
theorem execAll_congr (net net' : Network Table Tree) (cs : List Command) (dev : String)
    (table : net.table = net'.table) (tree : net.tree dev = net'.tree dev) :
    (b.execAll net cs).table = (b.execAll net' cs).table ∧
      (b.execAll net cs).tree dev = (b.execAll net' cs).tree dev := by
  constructor
  · rw [execAll_table, execAll_table, table]
  · rw [execAll_tree, execAll_tree]
    exact LocalState.run_congr _ _ _ _ _ _ tree

/-! ### Both together -/

/-- Nothing of the old state survives on what the setup uses, and nothing else is touched. -/
theorem flush_restart (laws : FlushLaws b emptyTable noQdisc) (a : Arithmetic) (t : TrunksConfig)
    (uname : Except Error String) (net : Network Table Tree)
    (ok : (flushTables b t net).1 = true) :
    let restarted := b.execAll (flushTables b t net).2 (run a t uname)
    let started := b.execAll ⟨emptyTable, fun _ => noQdisc⟩ (run a t uname)
    restarted.table = started.table ∧
    restarted.tree t.nic.gw = started.tree t.nic.gw ∧
    restarted.tree t.nic.st = started.tree t.nic.st ∧
    ∀ dev, dev ≠ t.nic.gw → dev ≠ t.nic.st → restarted.tree dev = net.tree dev := by
  intro restarted started
  have table := flushTables_table laws t net ok
  have tree := flushTables_tree laws t net
  have onGw := execAll_congr (b := b) (flushTables b t net).2 ⟨emptyTable, fun _ => noQdisc⟩
    (run a t uname) t.nic.gw table (by simp [tree])
  have onSt := execAll_congr (b := b) (flushTables b t net).2 ⟨emptyTable, fun _ => noQdisc⟩
    (run a t uname) t.nic.st table (by simp [tree])
  -- any other device sees neither the flush nor the setup
  refine ⟨onGw.1, onGw.2, onSt.2, ?_⟩
  intro dev gw st
  have kept := tree dev
  rw [if_neg (by simp [gw, st])] at kept
  exact (run_tree_other a t uname _ dev gw st).trans kept

end Generic

/-- Left by a setup with QoS on one of the devices of the sample configuration. -/
def leftover : Network Table Tree :=
  reference.execAll fresh
    (run .float64 { sampleConfig with qos := true, nic := ⟨"eth0", "eth2"⟩, bandwidth := ⟨7, 7⟩ } (.ok ""))

theorem flush_restart_sample :
    (reference.execAll (flushTables reference sampleConfig leftover).2
        (run .float64 sampleConfig (.ok ""))).tree sampleConfig.nic.st =
      (reference.execAll fresh (run .float64 sampleConfig (.ok ""))).tree sampleConfig.nic.st := by
  have ok : (flushTables reference sampleConfig leftover).1 = true := by
    rw [flushTables_ok]
    rfl
  exact (flush_restart reference_flushLaws .float64 sampleConfig (.ok "") leftover ok).2.2.1

end Tlink.Properties
