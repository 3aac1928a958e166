import Tlink.Lib.LocalState
import Tlink.Runtime.Config

/-!
# External commands and what executing them does

`runIPtables`, `runTC` and `runSYSCTL` start a program with an argument list. The
programs are not part of this repository: a `Backend` says what they do to the
mangle table and to the queueing tree of one device, where `none` is a failure
without effect.
-/
namespace Tlink.Runtime

inductive Tool where
  | iptables
  | tc
  | sysctl
  deriving DecidableEq, Repr

structure Command where
  tool : Tool
  args : List String
  deriving DecidableEq, Repr

def runIPtables (args : List String) : Command := ⟨.iptables, args⟩
def runTC (args : List String) : Command := ⟨.tc, args⟩
def runSYSCTL (args : List String) : Command := ⟨.sysctl, args⟩

/-- The device a `tc` command names; all of them read `tc OBJECT VERB dev NAME ...`. -/
def Command.device : Command → Option String
  | ⟨.tc, _ :: _ :: "dev" :: dev :: _⟩ => some dev
  | _ => none

structure Backend (Table Tree : Type) where
  iptables : List String → Table → Option Table
  tc : List String → Tree → Option Tree

/-- The mangle table and the queueing tree of every device. -/
@[ext] structure Network (Table Tree : Type) where
  table : Table
  tree : String → Tree

variable {Table Tree : Type} (b : Backend Table Tree)

/-- Run one command: whether it succeeded, and the network it leaves. -/
def Backend.exec (net : Network Table Tree) (c : Command) : Bool × Network Table Tree :=
  match c.tool with
  | .sysctl => (true, net)
  | .iptables =>
    match b.iptables c.args net.table with
    | none => (false, net)
    | some table => (true, { net with table := table })
  | .tc =>
    match c.device with
    -- a `tc` command without a device changes no tree
    | none => (false, net)
    | some dev =>
      match b.tc c.args (net.tree dev) with
      | none => (false, net)
      | some tree => (true, { net with tree := Function.update net.tree dev tree })

/-- Run commands in order, ignoring failures. -/
def Backend.execAll (net : Network Table Tree) (cs : List Command) : Network Table Tree :=
  cs.foldl (fun net c => (b.exec net c).2) net

def Backend.onTable (c : Command) (table : Table) : Table := (b.iptables c.args table).getD table
def Backend.onTree (c : Command) (tree : Tree) : Tree := (b.tc c.args tree).getD tree

@[simp] theorem device_runTC (object verb dev : String) (args : List String) :
    (runTC (object :: verb :: "dev" :: dev :: args)).device = some dev := rfl
@[simp] theorem device_runIPtables (args : List String) : (runIPtables args).device = none := rfl
@[simp] theorem device_runSYSCTL (args : List String) : (runSYSCTL args).device = none := rfl
@[simp] theorem args_runTC (args : List String) : (runTC args).args = args := rfl
@[simp] theorem args_runIPtables (args : List String) : (runIPtables args).args = args := rfl
@[simp] theorem tool_runTC (args : List String) : (runTC args).tool = .tc := rfl
@[simp] theorem tool_runIPtables (args : List String) : (runIPtables args).tool = .iptables := rfl
@[simp] theorem tool_runSYSCTL (args : List String) : (runSYSCTL args).tool = .sysctl := rfl

theorem tool_of_device (c : Command) (dev : String) (aimed : c.device = some dev) : c.tool = .tc := by
  unfold Command.device at aimed
  split at aimed
  · rfl
  · cases aimed

theorem exec_table (net : Network Table Tree) (c : Command) :
    (b.exec net c).2.table = if c.tool = .iptables then b.onTable c net.table else net.table := by
  unfold Backend.exec Backend.onTable
  cases tool : c.tool with
  | sysctl => simp
  | iptables => cases outcome : b.iptables c.args net.table <;> simp
  | tc =>
    cases aimed : c.device with
    | none => simp
    | some dev => cases outcome : b.tc c.args (net.tree dev) <;> simp [outcome]

/-- On the trees, a command is a local step of the device it names. -/
theorem exec_tree (net : Network Table Tree) (c : Command) :
    (b.exec net c).2.tree = LocalState.step Command.device b.onTree net.tree c := by
  unfold Backend.exec LocalState.step Backend.onTree
  cases aimed : c.device with
  | none =>
    cases tool : c.tool with
    | sysctl => rfl
    | iptables => cases outcome : b.iptables c.args net.table <;> simp
    | tc => rfl
  | some dev =>
    rw [tool_of_device c dev aimed]
    cases outcome : b.tc c.args (net.tree dev) <;> simp [outcome]

/-- The table sees exactly the `iptables` commands. -/
theorem execAll_table (net : Network Table Tree) (cs : List Command) :
    (b.execAll net cs).table =
      (cs.filter fun c => c.tool = .iptables).foldl (fun table c => b.onTable c table) net.table := by
  induction cs generalizing net with
  | nil => rfl
  | cons c cs ih =>
    have tail := ih (b.exec net c).2
    -- a `tc` or `sysctl` command is filtered out and does not touch the table
    rw [exec_table] at tail
    by_cases table : c.tool = .iptables
    · simpa [Backend.execAll, table] using tail
    · simpa [Backend.execAll, table] using tail

theorem execAll_tree (net : Network Table Tree) (cs : List Command) :
    (b.execAll net cs).tree = LocalState.run Command.device b.onTree net.tree cs := by
  induction cs generalizing net with
  | nil => rfl
  | cons c cs ih =>
    have tail := ih (b.exec net c).2
    rw [exec_tree] at tail
    exact tail

theorem execAll_append (net : Network Table Tree) (cs ds : List Command) :
    b.execAll net (cs ++ ds) = b.execAll (b.execAll net cs) ds :=
  List.foldl_append

/-- What a batch does to one device depends only on the commands that name it. -/
theorem execAll_tree_apply (net : Network Table Tree) (cs : List Command) (dev : String) :
    (b.execAll net cs).tree dev =
      (cs.filter fun c => c.device = some dev).foldl (fun tree c => b.onTree c tree)
        (net.tree dev) := by
  rw [execAll_tree, LocalState.run_apply]

end Tlink.Runtime
