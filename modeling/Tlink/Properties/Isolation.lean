import Tlink.Lib.Interleave
import Tlink.Net.Build
import Tlink.Net.Reference
import Tlink.Net.Rules
import Tlink.Properties.Flush
import Tlink.Properties.QosLink
import Tlink.Properties.Ticks

/-!
# Instances side by side

Several instances may run on one host, each on its own pair of devices. Whatever an instance does in
its life, at the start and in the ticks of the scheduler, is a MARK rule for packets that enter by
one of its devices or a `tc` command on one of them. So the order in which instances get their
commands through does not matter, and none of them can tell that the others are there.
-/
namespace Tlink.Properties

open Numeral Tlink.Runtime Tlink.Net Interleave

variable {b : Backend Table Tree} {takes : Intake}

/-! ### What belongs to an instance -/

/-- A rule for packets from a device of the instance, or a `tc` command on one. -/
def Owned (nic : NIC) (c : Command) : Prop :=
  match c.tool with
  | .sysctl => True
  | .iptables => ∃ dev rule, Appends dev c rule ∧ Names nic dev
  | .tc => ∃ dev, c.device = some dev ∧ Names nic dev

theorem owned_mark (nic : NIC) (dev mark : String) (n : ℕ) (known : (mark, n) ∈ handles)
    (named : Names nic dev) : Owned nic (markCommand dev mark) :=
  ⟨dev, _, .mark mark n known, named⟩

theorem owned_dscp (nic : NIC) (dev dscp mark : String) (d n : ℕ) (knownDscp : (dscp, d) ∈ dscps)
    (known : (mark, n) ∈ handles) (named : Names nic dev) :
    Owned nic (dscpCommand dev dscp mark) :=
  ⟨dev, _, .dscp dscp mark d n knownDscp known, named⟩

theorem owned_marks (t : TrunksConfig) : ∀ c ∈ marks t, Owned t.nic c := by
  intro c member
  unfold marks at member
  split at member
  · simp only [qosMarks, List.mem_cons, List.not_mem_nil, or_false] at member
    rcases member with rfl | rfl | rfl | rfl | rfl | rfl
    · exact owned_mark _ _ _ 10 (by decide) (.inl rfl)
    · exact owned_dscp _ _ _ _ 0x2c 11 (by decide) (by decide) (.inl rfl)
    · exact owned_dscp _ _ _ _ 0x2e 11 (by decide) (by decide) (.inl rfl)
    · exact owned_mark _ _ _ 20 (by decide) (.inr rfl)
    · exact owned_dscp _ _ _ _ 0x2c 21 (by decide) (by decide) (.inr rfl)
    · exact owned_dscp _ _ _ _ 0x2e 21 (by decide) (by decide) (.inr rfl)
  · simp only [plainMarks, List.mem_cons, List.not_mem_nil, or_false] at member
    rcases member with rfl | rfl
    · exact owned_mark _ _ _ 10 (by decide) (.inl rfl)
    · exact owned_mark _ _ _ 20 (by decide) (.inr rfl)

theorem owned_of_device (nic : NIC) (c : Command) (dev : String) (aimed : c.device = some dev)
    (named : Names nic dev) : Owned nic c := by
  rw [Owned, tool_of_device c dev aimed]
  exact ⟨dev, aimed, named⟩

theorem owned_run (a : Arithmetic) (t : TrunksConfig) (uname : Except Error String) :
    ∀ c ∈ run a t uname, Owned t.nic c := by
  intro c member
  rw [run_eq, List.mem_cons, List.mem_append, List.mem_append] at member
  rcases member with rfl | rule | gw | st
  · exact trivial
  · exact owned_marks t c rule
  · exact owned_of_device _ c _ (device_blockGW a t uname c gw) (.inr rfl)
  · exact owned_of_device _ c _ (device_blockST a t uname c st) (.inl rfl)

theorem owned_changeCapacity (a : Arithmetic) (t : TrunksConfig) (qos : Bool) (weight : ℚ) :
    ∀ c ∈ changeCapacity a t qos weight, Owned t.nic c := by
  intro c member
  cases qos with
  | false =>
    simp only [changeCapacity, Bool.false_eq_true, if_false, List.mem_cons, List.not_mem_nil,
      or_false] at member
    rcases member with rfl | rfl
    · exact owned_of_device _ _ _ (device_runTC ..) (.inr rfl)
    · exact owned_of_device _ _ _ (device_runTC ..) (.inl rfl)
  | true =>
    simp only [changeCapacity, if_true, List.mem_cons, List.not_mem_nil, or_false] at member
    rcases member with rfl | rfl
    · exact owned_of_device _ _ _ (device_runTC ..) (.inr rfl)
    · exact owned_of_device _ _ _ (device_runTC ..) (.inl rfl)

/-- The whole life of an instance that is not asked to flush. -/
theorem owned_life (a : Arithmetic) (t t' : TrunksConfig) (uname : Except Error String)
    (draws : List ℕ) (changes : List Command)
    (ticked : ticks a t.qos t draws = .ok (t', changes)) :
    ∀ c ∈ run a t uname ++ changes, Owned t.nic c := by
  intro c member
  rcases List.mem_append.mp member with setup | change
  · exact owned_run a t uname c setup
  · obtain ⟨profiles, selected⟩ := ticks_selected a t.qos t t' draws changes ticked
    rw [selected.issued, List.mem_flatMap] at change
    obtain ⟨acm, _, change⟩ := change
    exact owned_changeCapacity a t t.qos acm.weight c change

/-! ### Commands seen from a packet -/

theorem onlyRules_of_owned {cs : List Command}
    (owned : ∀ c ∈ cs, ∃ nic, LinkLawsOn b takes nic ∧ Owned nic c) : OnlyRules b cs := by
  intro c member table
  obtain ⟨nic, laws, own⟩ := owned c member
  rw [Owned, table] at own
  obtain ⟨dev, rule, appends, named⟩ := own
  exact ⟨rule, appends.ruleOf, appends.onTable (laws dev named)⟩

/-- A command only says something about packets from the devices of its instance. -/
theorem markVerdict_of_owned (nic : NIC) (c : Command) (own : Owned nic c) (p : Packet)
    (elsewhere : ¬ Names nic p.ingress) : markVerdict p c = none := by
  cases appended : ruleOf c with
  | none => simp [markVerdict, appended]
  | some rule =>
    rw [Owned, ruleOf_tool c rule appended] at own
    obtain ⟨dev, rule', appends, named⟩ := own
    obtain rfl := Option.some.inj (appended.symm.trans appends.ruleOf)
    have other : rule.iface ≠ p.ingress := by
      rintro same
      exact elsewhere (same ▸ appends.iface ▸ named)
    simp [markVerdict, appended, MarkRule.verdict, other]

theorem device_of_owned (nic : NIC) (c : Command) (own : Owned nic c) (dev : String)
    (elsewhere : ¬ Names nic dev) : c.device ≠ some dev := by
  intro aimed
  rw [Owned, tool_of_device c dev aimed] at own
  obtain ⟨dev', aimed', named⟩ := own
  obtain rfl := Option.some.inj (aimed.symm.trans aimed')
  exact elsewhere named

/-! ### Any interleaving -/

section Interleaved

variable {ι : Type*} [DecidableEq ι] {nics : ι → NIC} {issued : ι → List Command}
  {trace : List (ι × Command)}

theorem interleaved_onlyRules (laws : ∀ i, LinkLawsOn b takes (nics i))
    (owned : ∀ i, ∀ c ∈ issued i, Owned (nics i) c) (interleaved : Interleaves issued trace) :
    OnlyRules b (trace.map Prod.snd) := by
  apply onlyRules_of_owned
  intro c member
  obtain ⟨i, inside⟩ := (interleaved.mem_iff c).mp member
  exact ⟨nics i, laws i, owned i c inside⟩

/-- The mark of a packet is decided by the one instance it enters by. -/
theorem interleaved_mark (laws : ∀ i, LinkLawsOn b takes (nics i))
    (owned : ∀ i, ∀ c ∈ issued i, Owned (nics i) c)
    (interleaved : Interleaves issued trace) (start : Network Table Tree) (i : ι) (p : Packet)
    (alone : ∀ j, j ≠ i → ¬ Names (nics j) p.ingress) :
    (b.execAll start (trace.map Prod.snd)).table.markOf p =
      (b.execAll start (issued i)).table.markOf p := by
  have only : OnlyRules b (issued i) :=
    onlyRules_of_owned fun c member => ⟨nics i, laws i, owned i c member⟩
  rw [execAll_markOf _ (interleaved_onlyRules laws owned interleaved), execAll_markOf _ only,
    ← LastMatch.eval_filter, ← LastMatch.eval_filter (markVerdict p) (issued i)]
  rw [interleaved.filter_eq i (fun c => (markVerdict p c).isSome)]
  intro j other c member
  rw [markVerdict_of_owned (nics j) c (owned j c member) p (alone j other)]
  rfl

/-- The tree of a device is built by the one instance that names it. -/
theorem interleaved_tree (owned : ∀ i, ∀ c ∈ issued i, Owned (nics i) c)
    (interleaved : Interleaves issued trace) (start : Network Table Tree) (i : ι) (dev : String)
    (alone : ∀ j, j ≠ i → ¬ Names (nics j) dev) :
    (b.execAll start (trace.map Prod.snd)).tree dev = (b.execAll start (issued i)).tree dev := by
  rw [execAll_tree_apply, execAll_tree_apply,
    interleaved.filter_eq i (fun c => c.device = some dev)]
  intro j other c member
  simpa using device_of_owned (nics j) c (owned j c member) dev (alone j other)

/-- What no instance names is left as it was. -/
theorem interleaved_untouched (laws : ∀ i, LinkLawsOn b takes (nics i))
    (owned : ∀ i, ∀ c ∈ issued i, Owned (nics i) c) (interleaved : Interleaves issued trace)
    (start : Network Table Tree) :
    (∀ dev, (∀ i, ¬ Names (nics i) dev) →
      (b.execAll start (trace.map Prod.snd)).tree dev = start.tree dev) ∧
    (∀ p : Packet, (∀ i, ¬ Names (nics i) p.ingress) →
      (b.execAll start (trace.map Prod.snd)).table.markOf p = start.table.markOf p) ∧
    ∀ chain, chain ≠ "PREROUTING" →
      (b.execAll start (trace.map Prod.snd)).table chain = start.table chain := by
  have only := interleaved_onlyRules laws owned interleaved
  refine ⟨?_, ?_, ?_⟩
  · intro dev unnamed
    -- none of the commands names the device
    rw [execAll_tree_apply, interleaved.filter_eq_nil (fun c => c.device = some dev)]
    · rfl
    · intro j c member
      simpa using device_of_owned (nics j) c (owned j c member) dev (unnamed j)
  · intro p unnamed
    rw [execAll_markOf _ only]
    apply LastMatch.eval_of_no_match
    -- no rule matches the interface the packet came in by
    intro c member
    obtain ⟨j, inside⟩ := (interleaved.mem_iff c).mp member
    exact markVerdict_of_owned (nics j) c (owned j c inside) p (unnamed j)
  · intro chain other
    rw [execAll_chain _ only, if_neg other]

end Interleaved

/-- Instances on separate devices do not see each other: however their commands interleave, and
wherever each of them has been cut off, every packet of one instance is treated as if only that
instance had run. -/
theorem isolation (a : Arithmetic) {ι : Type*} [DecidableEq ι] (instances : ι → TrunksConfig)
    (laws : ∀ i, LinkLawsOn b takes (instances i).nic) (uname : ι → Except Error String)
    (draws : ι → List ℕ) (ended : ι → TrunksConfig) (changes issued : ι → List Command)
    (ticked : ∀ i, ticks a (instances i).qos (instances i) (draws i) = .ok (ended i, changes i))
    (progress : ∀ i, issued i <+: run a (instances i) (uname i) ++ changes i)
    (apart : ∀ i j dev, Names (instances i).nic dev → Names (instances j).nic dev → i = j)
    (trace : List (ι × Command)) (interleaved : Interleaves issued trace)
    (start : Network Table Tree) :
    let together := b.execAll start (trace.map Prod.snd)
    (∀ i, ∀ p : Packet, Names (instances i).nic p.ingress → Names (instances i).nic p.egress →
      together.table.markOf p = (b.execAll start (issued i)).table.markOf p ∧
      transit together p = transit (b.execAll start (issued i)) p) ∧
    (∀ dev, (∀ i, ¬ Names (instances i).nic dev) → together.tree dev = start.tree dev) ∧
    (∀ p : Packet, (∀ i, ¬ Names (instances i).nic p.ingress) →
      together.table.markOf p = start.table.markOf p) ∧
    ∀ chain, chain ≠ "PREROUTING" → together.table chain = start.table chain := by
  intro together
  -- setup and ticks touch the own devices only, and so does what was issued of them
  have owned (i : ι) : ∀ c ∈ issued i, Owned (instances i).nic c := by
    intro c member
    exact owned_life a (instances i) (ended i) (uname i) (draws i) (changes i) (ticked i) c
      ((progress i).subset member)
  refine ⟨?_, interleaved_untouched laws owned interleaved start⟩
  intro i p enters leaves
  have mark : together.table.markOf p = (b.execAll start (issued i)).table.markOf p := by
    apply interleaved_mark laws owned interleaved start i p
    -- the rules of another instance do not match, as the devices are apart
    intro j other enters'
    exact other (apart j i p.ingress enters' enters)
  have tree : together.tree p.egress = (b.execAll start (issued i)).tree p.egress := by
    apply interleaved_tree owned interleaved start i p.egress
    intro j other leaves'
    exact other (apart j i p.egress leaves' leaves)
  refine ⟨mark, ?_⟩
  rw [transit, transit, mark, tree]

/-- A second instance on two other devices. -/
def sampleNeighbour : TrunksConfig := { sampleQos with nic := ⟨"eth2", "eth3"⟩ }

def samplePair (first : Bool) : TrunksConfig := if first then sampleConfig else sampleNeighbour

/-- The neighbour starts while the first instance is in the middle of its own start. -/
def sampleTrace : List (Bool × Command) :=
  ((run .float64 sampleConfig (.ok "")).take 5).map (true, ·) ++
    ((run .float64 sampleNeighbour (.ok "")).map (false, ·) ++
      ((run .float64 sampleConfig (.ok "")).drop 5).map (true, ·))

theorem sample_apart (dev : String) (here : Names sampleConfig.nic dev) :
    ¬ Names sampleNeighbour.nic dev := by
  rcases here with rfl | rfl
  · exact not_or.mpr ⟨by decide, by decide⟩
  · exact not_or.mpr ⟨by decide, by decide⟩

theorem isolation_sample :
    transit (reference.execAll fresh (sampleTrace.map Prod.snd)) ⟨"eth0", "eth1", 0, 0⟩ =
      transit (reference.execAll fresh (run .float64 sampleConfig (.ok ""))) ⟨"eth0", "eth1", 0, 0⟩ := by
  have apart : ∀ i j dev, Names (samplePair i).nic dev → Names (samplePair j).nic dev → i = j := by
    intro i j dev here there
    cases i <;> cases j
    · rfl
    · exact absurd here (sample_apart dev there)
    · exact absurd there (sample_apart dev here)
    · rfl
  have interleaved : Interleaves (fun i => run .float64 (samplePair i) (.ok "")) sampleTrace := by
    intro i
    cases i <;> decide +kernel
  exact ((isolation .float64 samplePair (fun _ => reference_linkLawsOn _) (fun _ => .ok "")
    (fun _ => []) samplePair
    (fun _ => []) (fun i => run .float64 (samplePair i) (.ok "")) (fun _ => rfl)
    (fun i => List.prefix_append _ _) apart sampleTrace interleaved fresh).1 true
    ⟨"eth0", "eth1", 0, 0⟩ (.inl rfl) (.inr rfl)).2

/-! ### A flush among them -/

/-- A mark whose filter names the default class goes the way of a mark without one. -/
theorem classify_default (htb : Htb) (mark : ℕ) (f : Filter)
    (found : htb.filters.find? (·.mark = mark) = some f) (named : f.flowid = htb.dflt) :
    htb.classify mark = htb.leaf htb.dflt := by
  simp [Htb.classify, found, named, Option.or_self]

/-- With QoS an unmarked packet is treated as one of the best-effort class. -/
theorem qosBuilt_path (takes : Intake) (leafParent : String) (link voip rest : ℤ)
    (netemVoIP netemRest : List String) (n m mark : ℕ) (distinct : n ≠ m) (notN : mark ≠ n)
    (notM : mark ≠ m) :
    Tree.path (some (qosBuilt takes leafParent link voip rest netemVoIP netemRest n m)) mark =
      Tree.path (some (qosBuilt takes leafParent link voip rest netemVoIP netemRest n m)) m := by
  have filters : (qosBuilt takes leafParent link voip rest netemVoIP netemRest n m).filters =
      [⟨n, "1:10"⟩, ⟨m, "1:20"⟩] := by
    simp [qosBuilt, Htb.addFilter, Htb.root]
  have dflt : (qosBuilt takes leafParent link voip rest netemVoIP netemRest n m).dflt = "1:20" := by
    simp [qosBuilt, Htb.addFilter, Htb.root]
  have same : (qosBuilt takes leafParent link voip rest netemVoIP netemRest n m).classify mark =
      (qosBuilt takes leafParent link voip rest netemVoIP netemRest n m).classify m := by
    rw [classify_unfiltered _ mark, classify_default _ m ⟨m, "1:20"⟩]
    · simp [filters, distinct]
    · exact dflt.symm
    · simp [filters, Ne.symm notN, Ne.symm notM]
  simp only [Tree.path, same]

/-- Commands of an instance leave everything alone that another instance names. -/
theorem owned_elsewhere (nic : NIC) (laws : LinkLawsOn b takes nic) (cs : List Command)
    (owned : ∀ c ∈ cs, Owned nic c) (net : Network Table Tree) :
    (∀ dev, ¬ Names nic dev → (b.execAll net cs).tree dev = net.tree dev) ∧
    ∀ p : Packet, ¬ Names nic p.ingress →
      (b.execAll net cs).table.markOf p = net.table.markOf p := by
  constructor
  · intro dev elsewhere
    have none_aimed : cs.filter (fun c => c.device = some dev) = [] := by
      rw [List.filter_eq_nil_iff]
      intro c member
      simpa using device_of_owned nic c (owned c member) dev elsewhere
    rw [execAll_tree_apply, none_aimed]
    rfl
  · intro p elsewhere
    rw [execAll_markOf cs (onlyRules_of_owned fun c member => ⟨nic, laws, owned c member⟩)]
    apply LastMatch.eval_of_no_match
    intro c member
    exact markVerdict_of_owned nic c (owned c member) p elsewhere

/-- A crossing packet without a mark, on the trees of an instance that is set up. -/
theorem unmarked_path (a : Arithmetic) (t : TrunksConfig) (laws : LinkLawsOn b takes t.nic)
    (uname : Except Error String) (start : Network Table Tree) (distinct : t.nic.st ≠ t.nic.gw)
    (emptyChain : start.table "PREROUTING" = []) (bare : ∀ dev, start.tree dev = none)
    (p : Packet) (crosses : Crosses t p) :
    Tree.path ((b.execAll start (run a t uname)).tree p.egress) 0 =
      if t.qos then transit (b.execAll start (run a t uname)) { p with dscp := 0 } else ⟨[], []⟩ := by
  have tree := run_built a t laws uname start distinct bare p.egress
  cases qos : t.qos with
  | false =>
    rw [if_neg (by simp), tree]
    rcases crosses with ⟨_, egress⟩ | ⟨_, egress⟩
    · rw [if_pos egress, builtGW, if_neg (by simp [qos])]
      -- no filter selects the mark 0, and there is no default class
      exact plainBuilt_path takes _ _ 10 0 (by decide)
    · rw [egress, if_neg distinct, if_pos rfl, builtST, if_neg (by simp [qos])]
      exact plainBuilt_path takes _ _ 20 0 (by decide)
  | true =>
    have marked (q : Packet) : (b.execAll start (run a t uname)).table.markOf q =
        if q.ingress = t.nic.gw then (if VoIP q then 21 else 20)
        else if q.ingress = t.nic.st then (if VoIP q then 11 else 10)
        else q.mark := by
      rw [Table.markOf, run_prerouting a t laws, emptyChain, qos]
      exact qosRules_mark t q
    -- the default class with QoS is the one of the packets without priority
    have bestEffort : ¬ VoIP { p with dscp := 0 } := by simp [VoIP]
    rw [if_pos rfl, transit, marked, if_neg bestEffort, if_neg bestEffort, tree]
    rcases crosses with ⟨ingress, egress⟩ | ⟨ingress, egress⟩
    · rw [if_pos egress, if_neg (by simpa [ingress] using distinct), if_pos ingress, builtGW,
        if_pos qos]
      exact qosBuilt_path takes _ _ _ _ _ _ 11 10 0 (by decide) (by decide) (by decide)
    · rw [egress, if_neg distinct, if_pos rfl, if_pos ingress, builtST, if_pos qos]
      exact qosBuilt_path takes _ _ _ _ _ _ 21 20 0 (by decide) (by decide) (by decide)

/-- The flush of one instance undoes the link of every other one: the trees of the others stand,
but no packet is led into them any more. Without QoS it goes unshaped, with QoS all of it is best
effort. -/
theorem flush_unshapes (a : Arithmetic) (t other : TrunksConfig)
    (laws : LinkLawsOn b takes t.nic) (laws' : LinkLawsOn b takes other.nic)
    (flushLaws : FlushLaws b Table.empty (none : Tree)) (uname uname' : Except Error String)
    (start : Network Table Tree) (distinct : t.nic.st ≠ t.nic.gw)
    (emptyChain : start.table "PREROUTING" = []) (bare : ∀ dev, start.tree dev = none)
    (apart : ∀ dev, Names t.nic dev → ¬ Names other.nic dev)
    (flushed : (flushTables b other (b.execAll start (run a t uname))).1 = true)
    (issued : List Command) (progress : issued <+: run a other uname') (p : Packet)
    (unmarked : p.mark = 0) (crosses : Crosses t p) :
    let before := b.execAll start (run a t uname)
    let after := b.execAll (flushTables b other before).2 issued
    after.tree p.egress = before.tree p.egress ∧ after.table.markOf p = 0 ∧
    transit after p = if t.qos then transit before { p with dscp := 0 } else ⟨[], []⟩ := by
  intro before after
  have owned : ∀ c ∈ issued, Owned other.nic c := fun c member =>
    owned_run a other uname' c (progress.subset member)
  obtain ⟨trees, verdicts⟩ := owned_elsewhere other.nic laws' issued owned (flushTables b other before).2
  have ends : Names t.nic p.ingress ∧ Names t.nic p.egress := by
    rcases crosses with ⟨ingress, egress⟩ | ⟨ingress, egress⟩
    · exact ⟨.inl ingress, .inr egress⟩
    · exact ⟨.inr ingress, .inl egress⟩
  -- the flush deletes the trees of its own devices
  have tree : after.tree p.egress = before.tree p.egress := by
    have elsewhere := apart p.egress ends.2
    rw [trees p.egress elsewhere, flushTables_tree flushLaws, if_neg]
    exact fun named => elsewhere named.symm
  -- but the rules of all, and the new ones do not match
  have mark : after.table.markOf p = 0 := by
    rw [verdicts p (apart p.ingress ends.1), flushTables_table flushLaws other before flushed,
      ← unmarked]
    rfl
  refine ⟨tree, mark, ?_⟩
  rw [transit, mark, tree]
  exact unmarked_path a t laws uname start distinct emptyChain bare p crosses

theorem flush_unshapes_sample :
    transit (reference.execAll (flushTables reference sampleNeighbour
        (reference.execAll fresh (run .float64 sampleConfig (.ok "")))).2
        (run .float64 sampleNeighbour (.ok "")))
      ⟨"eth0", "eth1", 0, 0⟩ = ⟨[], []⟩ := by
  have flushed : (flushTables reference sampleNeighbour
      (reference.execAll fresh (run .float64 sampleConfig (.ok "")))).1 = true := by
    rw [flushTables_ok]
    rfl
  exact (flush_unshapes .float64 sampleConfig sampleNeighbour (reference_linkLawsOn _)
    (reference_linkLawsOn _) reference_flushLaws (.ok "") (.ok "") fresh (by decide) rfl
    (fun _ => rfl) sample_apart flushed _ (List.prefix_refl _) ⟨"eth0", "eth1", 0, 0⟩ rfl (by decide)).2.2

end Tlink.Properties
