import Tlink.Net.Ledger
import Tlink.Net.Reference
import Tlink.Properties.Flush
import Tlink.Properties.Safety

/-!
# Everything that ever happened on a host

The application is started again and again, with other configurations, with and without a flush; some
of the starts fail and some are killed after any of their commands. Nothing is forgotten except by a
flush. The ledger notes what each command has asked for and reads off it how packets are treated now:
the last rule that names the ingress device decides the mark, the first class and the first queue that
were taken on the egress device decide the shaping.
-/
namespace Tlink.Properties

open Rounding Numeral Tlink.Runtime Tlink.Net

variable {b : Backend Table Tree} {takes : Intake}

/-! ### The ledger -/

/-- What one command is to the ledger. -/
inductive Entry where
  | idle
  | flushed
  | unfilter (dev : String)
  | unroot (dev : String)
  | rule (r : MarkRule)
  | root (dev : String)
  | ask (dev : String) (a : Ask)

/-- The rules in their order, and what was asked of each device since its root qdisc was added. -/
structure Ledger where
  rules : List MarkRule
  links : String → Option (List Ask)

namespace Ledger

def blank : Ledger := ⟨[], fun _ => none⟩

def onLink (ledger : Ledger) (dev : String) (f : Option (List Ask) → Option (List Ask)) : Ledger :=
  { ledger with links := Function.update ledger.links dev (f (ledger.links dev)) }

/-- Whether the command succeeded matters for deletions only. -/
def note (ledger : Ledger) (ok : Bool) : Entry → Ledger
  | .idle => ledger
  | .flushed => if ok then { ledger with rules := [] } else ledger
  | .unfilter dev => if ok then ledger.onLink dev (Option.map unfiltered) else ledger
  | .unroot dev => ledger.onLink dev fun _ => none
  | .rule r => { ledger with rules := ledger.rules ++ [r] }
  -- a root qdisc that is there stays, with all that was asked for below it
  | .root dev => ledger.onLink dev fun asks => some (asks.getD [])
  | .ask dev a => ledger.onLink dev (Option.map (· ++ [a]))

def markOf (ledger : Ledger) (p : Packet) : ℕ :=
  LastMatch.eval (MarkRule.verdict p) ledger.rules p.mark

def transit (takes : Intake) (ledger : Ledger) (p : Packet) : Route :=
  shaping takes ((ledger.links p.egress).getD []) (ledger.markOf p)

end Ledger

/-! ### The commands and their entries -/

/-- The host and its ledger side by side. -/
def record (b : Backend Table Tree) (s : Network Table Tree × Ledger) (step : Command × Entry) :
    Network Table Tree × Ledger :=
  ((b.exec s.1 step.1).2, s.2.note (b.exec s.1 step.1).1 step.2)

def recordAll (b : Backend Table Tree) (s : Network Table Tree × Ledger)
    (steps : List (Command × Entry)) : Network Table Tree × Ledger :=
  steps.foldl (record b) s

theorem recordAll_net (s : Network Table Tree × Ledger) (steps : List (Command × Entry)) :
    (recordAll b s steps).1 = b.execAll s.1 (steps.map Prod.fst) := by
  induction steps generalizing s with
  | nil => rfl
  | cons step steps ih => exact ih (record b s step)

theorem recordAll_append (s : Network Table Tree × Ledger) (steps more : List (Command × Entry)) :
    recordAll b s (steps ++ more) = recordAll b (recordAll b s steps) more :=
  List.foldl_append

def flushSteps (t : TrunksConfig) : List (Command × Entry) :=
  (flushCommands t).zip
    [.flushed, .unfilter t.nic.gw, .unroot t.nic.gw, .unfilter t.nic.st, .unroot t.nic.st]

def markSteps (t : TrunksConfig) : List (Command × Entry) :=
  (runSYSCTL ["net.ipv4.ip_forward=1"], .idle) :: (plainMarks t).zip ((plainRules t).map .rule)

/-- What a block asks for below its root qdisc. -/
def blockAsks (dev : String) (link : ℤ) (netem : List String) (mark : String) (n : ℕ) :
    List (Command × Ask) :=
  (plainBlock dev link netem mark).tail.zip [.link link, .queue netem, .filter n]

def blockSteps (dev : String) (link : ℤ) (netem : List String) (mark : String) (n : ℕ) :
    List (Command × Entry) :=
  (runTC ["qdisc", "add", "dev", dev, "root", "handle", "1:0", "htb", "default", "30"], .root dev) ::
    (blockAsks dev link netem mark n).map fun asked => (asked.1, .ask dev asked.2)

theorem blockSteps_commands (dev : String) (link : ℤ) (netem : List String) (mark : String) (n : ℕ) :
    (blockSteps dev link netem mark n).map Prod.fst = plainBlock dev link netem mark := rfl

/-- The steps of a setup without QoS. -/
def setupSteps (a : Arithmetic) (t : TrunksConfig) (uname : Except Error String) :
    List (Command × Entry) :=
  markSteps t ++
    (blockSteps t.nic.gw (linkKbit a t.bandwidth.retun)
        (netemArgs a t uname (queueLimit a (some t.bandwidth.retun) t.delay.denomination)) "10" 10 ++
      blockSteps t.nic.st (linkKbit a t.bandwidth.forward)
        (netemArgs a t uname (queueLimit a (some t.bandwidth.forward) t.delay.denomination)) "20" 20)

theorem setupSteps_commands (a : Arithmetic) (t : TrunksConfig) (uname : Except Error String)
    (noQos : t.qos = false) : (setupSteps a t uname).map Prod.fst = run a t uname := by
  rw [run_eq, marks, blockGW, blockST, if_neg (by simp [noQos]), if_neg (by simp [noQos]),
    if_neg (by simp [noQos]), setupSteps, List.map_append, List.map_append, blockSteps_commands,
    blockSteps_commands]
  rfl

/-! ### The host -/

/-- One call of the application, with what it finds on the machine, and how many of its commands it
gets through before it is killed. -/
structure Invocation where
  host : Host
  unmarshal : Unmarshal
  uname : Except Error String
  config : String
  flush : Bool
  cut : ℕ

namespace Invocation

/-- `main` leaves the other four parameters at their zero values. -/
def init (i : Invocation) : Except Panic (Option TrunksConfig × Option Error) :=
  initTrunks i.host i.unmarshal i.config false "" false false

def Loads (i : Invocation) (t : TrunksConfig) : Prop := i.init = .ok (some t, none)

/-- All commands of the call, if nobody kills it. -/
def commands (a : Arithmetic) (b : Backend Table Tree) (net : Network Table Tree) (i : Invocation) :
    List Command :=
  match i.init with
  | .ok (some t, none) =>
    if i.flush then flushCommands t ++ if (flushTables b t net).1 then run a t i.uname else []
    else run a t i.uname
  -- whatever goes wrong before the first command
  | _ => []

def steps (a : Arithmetic) (b : Backend Table Tree) (net : Network Table Tree) (i : Invocation) :
    List (Command × Entry) :=
  match i.init with
  | .ok (some t, none) =>
    if i.flush then flushSteps t ++ if (flushTables b t net).1 then setupSteps a t i.uname else []
    else setupSteps a t i.uname
  | _ => []

end Invocation

def invoke (a : Arithmetic) (b : Backend Table Tree) (net : Network Table Tree) (i : Invocation) :
    Network Table Tree :=
  b.execAll net ((i.commands a b net).take i.cut)

def live (a : Arithmetic) (b : Backend Table Tree) (s : Network Table Tree × Ledger)
    (i : Invocation) : Network Table Tree × Ledger :=
  recordAll b s ((i.steps a b s.1).take i.cut)

/-- What many calls leave of a fresh host. -/
def hostAfter (a : Arithmetic) (b : Backend Table Tree) (is : List Invocation) :
    Network Table Tree :=
  is.foldl (invoke a b) fresh

def lives (a : Arithmetic) (b : Backend Table Tree) (is : List Invocation) :
    Network Table Tree × Ledger :=
  is.foldl (live a b) (fresh, .blank)

def ledgerAfter (a : Arithmetic) (b : Backend Table Tree) (is : List Invocation) : Ledger :=
  (lives a b is).2

theorem initTrunks_qos (host : Host) (unmarshal : Unmarshal) (file : String) (qos : Bool)
    (logs : String) (acm disableKernelVersionCheck : Bool) (t : TrunksConfig)
    (returned : initTrunks host unmarshal file qos logs acm disableKernelVersionCheck =
      .ok (some t, none)) : t.qos = qos := by
  cases parsed : parseConf host unmarshal file with
  | error err => simp [initTrunks_unparsed host unmarshal file _ _ _ _ err parsed] at returned
  | ok decoded =>
    cases decoded with
    | none => simp [initTrunks_nil host unmarshal file _ _ _ _ parsed] at returned
    | some t₀ =>
      rcases initTrunks_ok host unmarshal file qos logs acm disableKernelVersionCheck t₀ parsed with
        ⟨err, failed⟩ | ⟨nic, started⟩
      · simp [failed] at returned
      · rw [started] at returned
        simp only [Except.ok.injEq, Prod.mk.injEq, Option.some.injEq, and_true] at returned
        rw [← returned]
        rfl

theorem steps_commands (a : Arithmetic) (net : Network Table Tree) (i : Invocation) :
    (i.steps a b net).map Prod.fst = i.commands a b net := by
  unfold Invocation.steps Invocation.commands
  split
  next t loads =>
    have setup := setupSteps_commands a t i.uname (initTrunks_qos _ _ _ _ _ _ _ t loads)
    have flush : (flushSteps t).map Prod.fst = flushCommands t := rfl
    split
    · split
      · rw [List.map_append, setup, flush]
      · rw [List.append_nil, List.append_nil, flush]
    · exact setup
  next => rfl

theorem live_net (a : Arithmetic) (s : Network Table Tree × Ledger) (i : Invocation) :
    (live a b s i).1 = invoke a b s.1 i := by
  rw [live, recordAll_net, List.map_take, steps_commands, invoke]

theorem lives_concat (a : Arithmetic) (is : List Invocation) (i : Invocation) :
    lives a b (is ++ [i]) = live a b (lives a b is) i := by
  simp [lives]

theorem lives_net (a : Arithmetic) (is : List Invocation) :
    (lives a b is).1 = hostAfter a b is := by
  induction is using List.reverseRecOn with
  | nil => rfl
  | append_singleton is i ih =>
    rw [lives_concat, live_net, ih, hostAfter, hostAfter, List.foldl_concat]

/-- The network an outcome leaves; a panic comes before the first command. -/
def netOf (net : Network Table Tree) : Except Panic (Outcome Table Tree) → Network Table Tree
  | .error _ => net
  | .ok (.exited _ net') => net'
  | .ok (.running _ net') => net'

/-- A call that is not killed is the action of the application. -/
theorem invoke_uncut (a : Arithmetic) (net : Network Table Tree) (i : Invocation)
    (uncut : (i.commands a b net).length ≤ i.cut) :
    invoke a b net i =
      netOf net (action a b i.host i.unmarshal i.uname i.config i.flush false "" false false net) := by
  rw [invoke, List.take_of_length_le uncut, Invocation.commands, Invocation.init]
  unfold action
  cases init : initTrunks i.host i.unmarshal i.config false "" false false with
  | error panic => rfl
  | ok result =>
    obtain ⟨decoded, err⟩ := result
    cases err with
    | some err => cases decoded <;> rfl
    | none =>
      cases decoded with
      | none => rfl
      | some t =>
        cases flush : i.flush with
        | false => rfl
        | true =>
          -- after a flush that fails nothing is set up
          cases ok : (flushTables b t net).1 with
          | false => simp [bind, Except.bind, pure, Except.pure, deref, ok, netOf, flushTables_net]
          | true =>
            simp [bind, Except.bind, pure, Except.pure, deref, ok, netOf, flushTables_net,
              execAll_append]

/-! ### The ledger explains the host -/

structure Explains (takes : Intake) (s : Network Table Tree × Ledger) : Prop where
  table : s.1.table "PREROUTING" = s.2.rules
  tree : ∀ dev, Follows takes (s.2.links dev) (s.1.tree dev)

theorem explains_fresh : Explains takes (fresh, .blank) :=
  ⟨rfl, fun _ => .none⟩

/-- All that is seen of a packet. -/
theorem Explains.packet {s : Network Table Tree × Ledger} (explains : Explains takes s)
    (p : Packet) :
    s.1.table.markOf p = s.2.markOf p ∧ transit s.1 p = s.2.transit takes p := by
  have mark : s.1.table.markOf p = s.2.markOf p := by
    rw [Table.markOf, explains.table, Ledger.markOf]
  refine ⟨mark, ?_⟩
  rw [transit, mark, (explains.tree p.egress).path, Ledger.transit]

/-- A command on a device, where its entry says the same of this device. -/
theorem Explains.onDevice {s : Network Table Tree × Ledger} (explains : Explains takes s)
    {c : Command} {dev : String} (aimed : c.device = some dev)
    {f : Option (List Ask) → Option (List Ask)}
    (follows : Follows takes (f (s.2.links dev)) (b.onTree c (s.1.tree dev))) :
    Explains takes ((b.exec s.1 c).2, s.2.onLink dev f) := by
  constructor
  · have tc : ¬ c.tool = .iptables := by simp [tool_of_device c dev aimed]
    rw [exec_table, if_neg tc]
    exact explains.table
  · intro dev'
    rw [exec_tree, LocalState.step_apply]
    by_cases same : dev' = dev
    · subst same
      simpa [aimed, Ledger.onLink] using follows
    · simpa [aimed, Ledger.onLink, same, Ne.symm same] using explains.tree dev'

/-- A command on no device. -/
theorem Explains.onTable {s : Network Table Tree × Ledger} (explains : Explains takes s)
    {c : Command} (aimless : c.device = none) {rules : List MarkRule}
    (table : (b.exec s.1 c).2.table "PREROUTING" = rules) :
    Explains takes ((b.exec s.1 c).2, { s.2 with rules := rules }) := by
  refine ⟨table, ?_⟩
  intro dev
  rw [exec_tree, LocalState.step_apply, aimless, if_neg (by simp)]
  exact explains.tree dev

/-- What the flush does to filters: `tc` removes all of a device, or fails. -/
structure UnfilterLaws (b : Backend Table Tree) : Prop where
  del_filters : ∀ dev tree tree', b.tc ["filter", "del", "dev", dev] tree = some tree' →
    tree' = tree.map fun htb => { htb with filters := [] }

/-- Steps that can be noted at any time. -/
def Recorded (b : Backend Table Tree) (takes : Intake) (step : Command × Entry) : Prop :=
  ∀ s, Explains takes s → Explains takes (record b s step)

theorem explains_all (steps : List (Command × Entry))
    (kept : ∀ step ∈ steps, Recorded b takes step)
    (s : Network Table Tree × Ledger) (explains : Explains takes s) :
    Explains takes (recordAll b s steps) := by
  induction steps generalizing s with
  | nil => exact explains
  | cons step steps ih =>
    exact ih (fun step' member => kept step' (List.mem_cons_of_mem _ member)) _
      (kept step (by simp) s explains)

theorem kept_flush (flushLaws : FlushLaws b Table.empty (none : Tree)) :
    Recorded b takes (runIPtables ["-F", "-t", "mangle"], .flushed) := by
  intro s explains
  cases outcome : b.iptables ["-F", "-t", "mangle"] s.1.table with
  | none =>
    have failed : b.exec s.1 (runIPtables ["-F", "-t", "mangle"]) = (false, s.1) := by
      simp [Backend.exec, outcome]
    simpa [record, failed, Ledger.note] using explains
  | some table =>
    have emptied := flushLaws.flush _ _ outcome
    have ok : (b.exec s.1 (runIPtables ["-F", "-t", "mangle"])).1 = true := by
      simp [Backend.exec, outcome]
    have noted : record b s (runIPtables ["-F", "-t", "mangle"], .flushed) =
        ((b.exec s.1 (runIPtables ["-F", "-t", "mangle"])).2, { s.2 with rules := [] }) := by
      simp [record, Ledger.note, ok]
    rw [noted]
    refine explains.onTable rfl ?_
    simp [Backend.exec, outcome, emptied, Table.empty]

theorem kept_unfilter (unfilterLaws : UnfilterLaws b) (dev : String) :
    Recorded b takes (runTC ["filter", "del", "dev", dev], .unfilter dev) := by
  intro s explains
  cases outcome : b.tc ["filter", "del", "dev", dev] (s.1.tree dev) with
  | none =>
    have failed : b.exec s.1 (runTC ["filter", "del", "dev", dev]) = (false, s.1) := by
      simp [Backend.exec, outcome]
    simpa [record, failed, Ledger.note] using explains
  | some tree' =>
    have bare := unfilterLaws.del_filters _ _ _ outcome
    have ok : (b.exec s.1 (runTC ["filter", "del", "dev", dev])).1 = true := by
      simp [Backend.exec, outcome]
    have noted : record b s (runTC ["filter", "del", "dev", dev], .unfilter dev) =
        ((b.exec s.1 (runTC ["filter", "del", "dev", dev])).2,
          s.2.onLink dev (Option.map unfiltered)) := by
      simp [record, Ledger.note, ok]
    rw [noted]
    refine explains.onDevice (device_runTC ..) ?_
    rw [Backend.onTree, args_runTC, outcome, Option.getD_some, bare]
    exact (explains.tree dev).unfilter

theorem kept_unroot (flushLaws : FlushLaws b Table.empty (none : Tree)) (dev : String) :
    Recorded b takes (runTC ["qdisc", "del", "dev", dev, "root"], .unroot dev) := by
  intro s explains
  change Explains takes (_, s.2.onLink dev fun _ => none)
  refine explains.onDevice (device_runTC ..) ?_
  rw [onTree_delRoot flushLaws]
  exact .none

theorem kept_rule {dev : String} (laws : LinkLaws b takes dev) {c : Command} {r : MarkRule}
    (appends : Appends dev c r) : Recorded b takes (c, .rule r) := by
  intro s explains
  have aimless : c.device = none := by cases appends <;> rfl
  refine explains.onTable aimless ?_
  rw [exec_table, if_pos (ruleOf_tool c r appends.ruleOf), appends.onTable laws,
    Table.append_same, explains.table]

theorem kept_root {dev : String} (laws : LinkLaws b takes dev) :
    Recorded b takes
      (runTC ["qdisc", "add", "dev", dev, "root", "handle", "1:0", "htb", "default", "30"],
        .root dev) := by
  intro s explains
  change Explains takes (_, s.2.onLink dev fun asks => some (asks.getD []))
  exact explains.onDevice (device_runTC ..) ((explains.tree dev).root laws)

/-- Below a root qdisc any number of commands can be noted. -/
theorem explains_asks {dev : String} (asked : List (Command × Ask))
    (makes : ∀ step ∈ asked, step.1.device = some dev ∧ Makes b takes step.1 step.2.demand)
    (s : Network Table Tree × Ledger) (explains : Explains takes s)
    (opened : (s.2.links dev).isSome = true) :
    Explains takes (recordAll b s (asked.map fun step => (step.1, .ask dev step.2))) := by
  induction asked generalizing s with
  | nil => exact explains
  | cons step asked ih =>
    obtain ⟨aimed, making⟩ := makes step (by simp)
    refine ih (fun step' member => makes step' (List.mem_cons_of_mem _ member)) _ ?_ ?_
    · change Explains takes (_, s.2.onLink dev (Option.map (· ++ [step.2])))
      exact explains.onDevice aimed ((explains.tree dev).make making opened)
    · simpa [record, Ledger.note, Ledger.onLink] using opened

/-- A block that is cut off anywhere. -/
theorem explains_block {dev : String} (laws : LinkLaws b takes dev) (link : ℤ)
    (netem : List String) (shape : NetemArgs netem) (mark : String) (n : ℕ)
    (known : (mark, n) ∈ handles) (k : ℕ) (s : Network Table Tree × Ledger)
    (explains : Explains takes s) :
    Explains takes (recordAll b s ((blockSteps dev link netem mark n).take k)) := by
  cases k with
  | zero => exact explains
  | succ k =>
    rw [blockSteps, List.take_succ_cons, ← List.map_take]
    have opened (c : Command) : ((record b s (c, .root dev)).2.links dev).isSome = true := by
      simp [record, Ledger.note, Ledger.onLink]
    refine explains_asks _ ?_ _ (kept_root laws s explains) (opened _)
    intro step member
    have inside := List.mem_of_mem_take member
    simp only [blockAsks, plainBlock, List.tail_cons, List.zip_cons_cons, List.zip_nil_right,
      List.mem_cons, List.not_mem_nil, or_false] at inside
    rcases inside with rfl | rfl | rfl
    · exact ⟨device_runTC .., makes_class laws _ _ _ link (by decide) (by decide)⟩
    · exact ⟨device_runTC .., makes_queue laws _ _ netem (by decide) shape⟩
    · exact ⟨device_runTC .., makes_filter laws _ _ mark n (by decide) known⟩

theorem explains_setup (a : Arithmetic) (t : TrunksConfig) (laws : LinkLawsOn b takes t.nic)
    (uname : Except Error String) (k : ℕ) (s : Network Table Tree × Ledger)
    (explains : Explains takes s) :
    Explains takes (recordAll b s ((setupSteps a t uname).take k)) := by
  rw [setupSteps, List.take_append, List.take_append, recordAll_append, recordAll_append]
  refine explains_block laws.st _ _ (netemArgs_shape ..) "20" 20 (by decide) _ _ ?_
  refine explains_block laws.gw _ _ (netemArgs_shape ..) "10" 10 (by decide) _ _ ?_
  refine explains_all _ ?_ s explains
  intro step member
  have inside := List.mem_of_mem_take member
  simp only [markSteps, plainMarks, plainRules, List.map_cons, List.map_nil, List.zip_cons_cons,
    List.zip_nil_right, List.mem_cons, List.not_mem_nil, or_false] at inside
  rcases inside with rfl | rfl | rfl
  · exact fun s explains => explains
  · exact kept_rule laws.st (.mark "10" 10 (by decide))
  · exact kept_rule laws.gw (.mark "20" 20 (by decide))

theorem explains_flush (flushLaws : FlushLaws b Table.empty (none : Tree))
    (unfilterLaws : UnfilterLaws b) (t : TrunksConfig) (k : ℕ)
    (s : Network Table Tree × Ledger) (explains : Explains takes s) :
    Explains takes (recordAll b s ((flushSteps t).take k)) := by
  refine explains_all _ ?_ s explains
  intro step member
  have inside := List.mem_of_mem_take member
  simp only [flushSteps, flushCommands, List.zip_cons_cons, List.zip_nil_right, List.mem_cons,
    List.not_mem_nil, or_false] at inside
  rcases inside with rfl | rfl | rfl | rfl | rfl
  · exact kept_flush flushLaws
  · exact kept_unfilter unfilterLaws _
  · exact kept_unroot flushLaws _
  · exact kept_unfilter unfilterLaws _
  · exact kept_unroot flushLaws _

/-- One call, whatever it comes to and wherever it is killed. -/
theorem explains_live (a : Arithmetic) (flushLaws : FlushLaws b Table.empty (none : Tree))
    (unfilterLaws : UnfilterLaws b) (i : Invocation)
    (laws : ∀ t, i.Loads t → LinkLawsOn b takes t.nic) (s : Network Table Tree × Ledger)
    (explains : Explains takes s) : Explains takes (live a b s i) := by
  unfold live Invocation.steps
  split
  next t loads =>
    split
    · rw [List.take_append, recordAll_append]
      have flushed := explains_flush flushLaws unfilterLaws t i.cut s explains
      split
      · exact explains_setup a t (laws t loads) i.uname _ _ flushed
      · simpa [recordAll] using flushed
    · exact explains_setup a t (laws t loads) i.uname i.cut s explains
  next => simpa [recordAll] using explains

theorem explains_lives (a : Arithmetic) (flushLaws : FlushLaws b Table.empty (none : Tree))
    (unfilterLaws : UnfilterLaws b) (is : List Invocation)
    (laws : ∀ i ∈ is, ∀ t, i.Loads t → LinkLawsOn b takes t.nic) :
    Explains takes (lives a b is) := by
  induction is using List.reverseRecOn with
  | nil => exact explains_fresh
  | append_singleton is i ih =>
    rw [lives_concat]
    exact explains_live a flushLaws unfilterLaws i (laws i (by simp)) _
      (ih fun j member => laws j (by simp [member]))

/-- After any sequence of calls on a fresh host, whatever they found, whatever became of them and
after whichever of their commands they were killed, the ledger says of every packet which mark it has
and which class and queue it meets. -/
theorem history_explained (a : Arithmetic) (flushLaws : FlushLaws b Table.empty (none : Tree))
    (unfilterLaws : UnfilterLaws b) (is : List Invocation)
    (laws : ∀ i ∈ is, ∀ t, i.Loads t → LinkLawsOn b takes t.nic) (p : Packet) :
    (hostAfter a b is).table.markOf p = (ledgerAfter a b is).markOf p ∧
      transit (hostAfter a b is) p = (ledgerAfter a b is).transit takes p := by
  rw [← lives_net]
  exact (explains_lives a flushLaws unfilterLaws is laws).packet p

theorem reference_unfilterLaws : UnfilterLaws reference where
  del_filters dev tree tree' deleted := by
    cases tree with
    | none => simp [reference, tcRef] at deleted
    | some htb => simpa [reference, tcRef] using deleted.symm

/-- A call that finds both devices by name. -/
def sampleStart (t : TrunksConfig) (flush : Bool) (cut : ℕ) : Invocation where
  host := hostWith t.nic ""
  unmarshal _ := .ok (some t)
  uname := .ok ""
  config := ""
  flush := flush
  cut := cut

/-- Started, turned around with a flush but killed before the last filter, and started again with
another bandwidth. -/
def sampleHistory : List Invocation :=
  [ sampleStart sampleConfig false 11,
    sampleStart { sampleConfig with nic := ⟨"eth1", "eth0"⟩ } true 15,
    sampleStart { sampleConfig with bandwidth := ⟨7, 7⟩ } false 11 ]

/-- The last start brings the filter for a class and a queue of the one that was killed. -/
theorem history_explained_sample :
    (hostAfter .float64 reference sampleHistory).table.markOf ⟨"eth0", "eth1", 0, 0⟩ = 10 ∧
      transit (hostAfter .float64 reference sampleHistory) ⟨"eth0", "eth1", 0, 0⟩ =
        ⟨[linkClass 40000],
          [⟨"2:0", "1:1", ["delay", "20ms", "5ms", "distribution", "normal", "limit", "100"]⟩]⟩ := by
  obtain ⟨mark, route⟩ := history_explained .float64 reference_flushLaws reference_unfilterLaws
    sampleHistory (fun _ _ t _ => reference_linkLawsOn t.nic) ⟨"eth0", "eth1", 0, 0⟩
  rw [mark, route]
  decide +kernel

/-! ### What only a flush can change -/

/-- What is asked of a device, root qdisc or not. -/
def Ledger.asked (ledger : Ledger) (dev : String) : List Ask := (ledger.links dev).getD []

/-- An entry that deletes nothing. -/
def Entry.Grows : Entry → Prop
  | .flushed | .unfilter _ | .unroot _ => False
  | _ => True

theorem asked_note (ledger : Ledger) (ok : Bool) (e : Entry) (grows : e.Grows) (dev : String) :
    ∃ more, (ledger.note ok e).asked dev = ledger.asked dev ++ more := by
  cases e with
  | idle => exact ⟨[], by simp [Ledger.note]⟩
  | rule r => exact ⟨[], by simp [Ledger.note, Ledger.asked]⟩
  | root dev' =>
    refine ⟨[], ?_⟩
    by_cases same : dev = dev'
    · subst same
      simp [Ledger.note, Ledger.asked, Ledger.onLink]
    · simp [Ledger.note, Ledger.asked, Ledger.onLink, same]
  | ask dev' a =>
    by_cases same : dev = dev'
    · subst same
      cases links : ledger.links dev with
      | none => exact ⟨[], by simp [Ledger.note, Ledger.asked, Ledger.onLink, links]⟩
      | some asks => exact ⟨[a], by simp [Ledger.note, Ledger.asked, Ledger.onLink, links]⟩
    · exact ⟨[], by simp [Ledger.note, Ledger.asked, Ledger.onLink, same]⟩
  | flushed => cases grows
  | unfilter => cases grows
  | unroot => cases grows

theorem asked_recordAll (steps : List (Command × Entry)) (grow : ∀ step ∈ steps, step.2.Grows)
    (s : Network Table Tree × Ledger) (dev : String) :
    ∃ more, (recordAll b s steps).2.asked dev = s.2.asked dev ++ more := by
  induction steps generalizing s with
  | nil => exact ⟨[], by simp [recordAll]⟩
  | cons step steps ih =>
    obtain ⟨more, noted⟩ := asked_note s.2 (b.exec s.1 step.1).1 step.2 (grow step (by simp)) dev
    obtain ⟨later, grown⟩ :=
      ih (fun step' member => grow step' (List.mem_cons_of_mem _ member)) (record b s step)
    refine ⟨more ++ later, ?_⟩
    rw [← List.append_assoc, ← noted]
    exact grown

theorem setupSteps_grow (a : Arithmetic) (t : TrunksConfig) (uname : Except Error String) :
    ∀ step ∈ setupSteps a t uname, step.2.Grows := by
  have block (dev : String) (link : ℤ) (netem : List String) (mark : String) (n : ℕ) :
      ∀ step ∈ blockSteps dev link netem mark n, step.2.Grows := by
    intro step member
    rcases List.mem_cons.mp member with rfl | below
    · trivial
    · obtain ⟨asked, _, rfl⟩ := List.mem_map.mp below
      trivial
  intro step member
  rcases List.mem_append.mp member with rule | member
  · simp only [markSteps, plainMarks, plainRules, List.map_cons, List.map_nil, List.zip_cons_cons,
      List.zip_nil_right, List.mem_cons, List.not_mem_nil, or_false] at rule
    rcases rule with rfl | rfl | rfl <;> trivial
  · rcases List.mem_append.mp member with gw | st
    · exact block _ _ _ _ _ step gw
    · exact block _ _ _ _ _ step st

/-- Without a flush only more is asked of a device, however many calls there are. -/
theorem asked_lives (a : Arithmetic) (is later : List Invocation)
    (unflushed : ∀ i ∈ later, i.flush = false) (dev : String) :
    ∃ more, (ledgerAfter a b (is ++ later)).asked dev = (ledgerAfter a b is).asked dev ++ more := by
  induction later using List.reverseRecOn with
  | nil => exact ⟨[], by simp⟩
  | append_singleton later i ih =>
    obtain ⟨more, grown⟩ := ih fun j member => unflushed j (List.mem_append_left _ member)
    have grow : ∀ step ∈ (i.steps a b (lives a b (is ++ later)).1).take i.cut, step.2.Grows := by
      intro step member
      have inside := List.mem_of_mem_take member
      unfold Invocation.steps at inside
      split at inside
      · rw [unflushed i (by simp), if_neg (by simp)] at inside
        exact setupSteps_grow a _ i.uname step inside
      · cases inside
    obtain ⟨last, noted⟩ := asked_recordAll (b := b) _ grow (lives a b (is ++ later)) dev
    refine ⟨more ++ last, ?_⟩
    rw [← List.append_assoc is, ← List.append_assoc (Ledger.asked _ dev), ← grown, ledgerAfter,
      lives_concat]
    exact noted

/-- A complete shaping is final. -/
theorem shaping_final (asks more : List Ask) (mark : ℕ)
    (queued : (shaping takes asks mark).netems ≠ []) :
    shaping takes (asks ++ more) mark = shaping takes asks mark := by
  unfold shaping at queued ⊢
  split at queued
  next asked =>
    split at queued
    · exact absurd rfl queued
    next bits shaped =>
      obtain ⟨q, found⟩ : ∃ q, firstQueue takes asks = some q := by
        rw [← Option.ne_none_iff_exists']
        rintro none_found
        exact queued (by rw [none_found]; rfl)
      obtain ⟨shaped', found'⟩ := first_append asks more bits q shaped found
      rw [if_pos (List.mem_append_left more asked), if_pos asked, shaped', found', found]
  next => exact absurd rfl queued

/-- A call without a flush is ignored where an earlier one is complete: whatever it asks for and
wherever it is killed, a packet that is marked as before meets the class and the queue it met before. -/
theorem unflushed_starts (a : Arithmetic) (flushLaws : FlushLaws b Table.empty (none : Tree))
    (unfilterLaws : UnfilterLaws b) (is later : List Invocation)
    (laws : ∀ i ∈ is ++ later, ∀ t, i.Loads t → LinkLawsOn b takes t.nic)
    (unflushed : ∀ i ∈ later, i.flush = false) (p : Packet)
    (complete : (transit (hostAfter a b is) p).netems ≠ [])
    (marked : (hostAfter a b (is ++ later)).table.markOf p = (hostAfter a b is).table.markOf p) :
    transit (hostAfter a b (is ++ later)) p = transit (hostAfter a b is) p := by
  obtain ⟨mark, before⟩ := history_explained a flushLaws unfilterLaws is
    (fun i member => laws i (List.mem_append_left _ member)) p
  obtain ⟨mark', after⟩ := history_explained a flushLaws unfilterLaws (is ++ later) laws p
  obtain ⟨more, grown⟩ := asked_lives (b := b) a is later unflushed p.egress
  unfold Ledger.asked at grown
  rw [before, Ledger.transit] at complete
  rw [before, after, Ledger.transit, Ledger.transit, grown, ← mark', marked, mark]
  exact shaping_final _ more _ complete

/-- Another bandwidth, killed before its last filter, and once more to the end. -/
theorem unflushed_starts_sample :
    transit (hostAfter .float64 reference ([sampleStart sampleConfig false 11] ++
        [sampleStart { sampleConfig with bandwidth := ⟨7, 7⟩ } false 10,
          sampleStart { sampleConfig with bandwidth := ⟨7, 7⟩ } false 11])) ⟨"eth0", "eth1", 0, 0⟩ =
      transit (hostAfter .float64 reference [sampleStart sampleConfig false 11])
        ⟨"eth0", "eth1", 0, 0⟩ :=
  unflushed_starts .float64 reference_flushLaws reference_unfilterLaws _ _
    (fun _ _ t _ => reference_linkLawsOn t.nic) (by simp [sampleStart]) ⟨"eth0", "eth1", 0, 0⟩
    (by decide +kernel) (by decide +kernel)

end Tlink.Properties
