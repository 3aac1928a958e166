import Tlink.Net.Demands
import Tlink.Properties.InForce
import Tlink.Properties.QosLink

/-!
# The capacity of a device with QoS

The two leaf classes should share the rate of the link class. On the gateway side their
rates add up to one unit more than the link has, and on the terminal side they do not hang
below the link class, which no later rate change mends.
-/
namespace Tlink.Properties

open Rounding Numeral Tlink.Runtime Tlink.Net

variable {b : Backend Table Tree} {takes : Intake}

/-- The rates of the leaves fit into the rate of the link class, which is above both. -/
def CapacityLaw (tree : Tree) : Prop :=
  ∃ htb link voip rest, tree = some htb ∧
    htb.classes.find? (·.id = "1:1") = some link ∧
    htb.classes.find? (·.id = "1:10") = some voip ∧
    htb.classes.find? (·.id = "1:20") = some rest ∧
    voip.rate + rest.rate ≤ link.rate ∧
    link ∈ htb.lineage htb.classes.length voip ∧ link ∈ htb.lineage htb.classes.length rest

/-! ### How the law is broken -/

/-- A leaf class either hangs below the root qdisc or is one of two that fill the link class and ask
for one kbit/s more. -/
structure Crowded (link : ℤ) (classes : List HtbClass) : Prop where
  noRoot : ∀ c ∈ classes, c.id ≠ "1:0"
  leaves : ∀ c ∈ classes, c.parent = "1:0" ∨
    (c = voipClass "1:1" (1000 * 2) ∨ c = restClass "1:1" (1000 * (link - 1))) ∧
      classes.find? (·.id = "1:1") = some (linkClass (1000 * link))

/-- A class whose parent is no class has nothing above it. -/
theorem lineage_top (htb : Htb) (fuel : ℕ) (c : HtbClass)
    (top : ∀ other ∈ htb.classes, other.id ≠ c.parent) : htb.lineage fuel c = [c] := by
  cases fuel with
  | zero => rfl
  | succ fuel =>
    have none_above : htb.classes.find? (·.id = c.parent) = none := by simpa using top
    rw [Htb.lineage, none_above]

/-- A leaf with the link class above it does not hang below the root qdisc. -/
theorem Crowded.below {link : ℤ} {htb : Htb} (crowded : Crowded link htb.classes) (c above : HtbClass)
    (member : c ∈ htb.classes) (distinct : above.id ≠ c.id)
    (inside : above ∈ htb.lineage htb.classes.length c) :
    (c = voipClass "1:1" (1000 * 2) ∨ c = restClass "1:1" (1000 * (link - 1))) ∧
      htb.classes.find? (·.id = "1:1") = some (linkClass (1000 * link)) := by
  rcases crowded.leaves c member with top | below
  · rw [lineage_top htb _ c (by rw [top]; exact crowded.noRoot), List.mem_singleton] at inside
    exact absurd (congrArg HtbClass.id inside) distinct
  · exact below

theorem not_capacity_of_crowded {link : ℤ} (htb : Htb) (crowded : Crowded link htb.classes) :
    ¬ CapacityLaw (some htb) := by
  rintro ⟨htb', above, voip, rest, same, findLink, findVoIP, findRest, fits, aboveVoIP, aboveRest⟩
  obtain rfl := Option.some.inj same
  have link_id : above.id = "1:1" := by simpa using List.find?_some findLink
  have voip_id : voip.id = "1:10" := by simpa using List.find?_some findVoIP
  have rest_id : rest.id = "1:20" := by simpa using List.find?_some findRest
  obtain ⟨voip_is, found⟩ := crowded.below voip above (List.mem_of_find?_eq_some findVoIP)
    (by rw [link_id, voip_id]; decide) aboveVoIP
  obtain ⟨rest_is, _⟩ := crowded.below rest above (List.mem_of_find?_eq_some findRest)
    (by rw [link_id, rest_id]; decide) aboveRest
  have link_rate : above = linkClass (1000 * link) := Option.some.inj (findLink.symm.trans found)
  have voip_rate : voip.rate = 1000 * 2 := by
    rcases voip_is with rfl | rfl
    · rfl
    · simp [restClass] at voip_id
  have rest_rate : rest.rate = 1000 * (link - 1) := by
    rcases rest_is with rfl | rfl
    · simp [voipClass] at rest_id
    · rfl
  rw [voip_rate, rest_rate, link_rate] at fits
  simp only [linkClass] at fits
  omega

/-- Where all classes hang below the root qdisc, whatever their rates are. -/
def Flat (classes : List HtbClass) : Prop := ∀ c ∈ classes, c.id ≠ "1:0" ∧ c.parent = "1:0"

theorem Flat.crowded {classes : List HtbClass} (flat : Flat classes) (link : ℤ) :
    Crowded link classes :=
  ⟨fun c member => (flat c member).1, fun c member => .inl (flat c member).2⟩

theorem Flat.mapClasses {htb : Htb} (flat : Flat htb.classes) {f : HtbClass → HtbClass}
    (keeps : KeepsPlace f) : Flat (Htb.mapClasses htb f).classes := by
  intro c member
  obtain ⟨old, inside, rfl⟩ := List.mem_map.mp member
  rw [keeps.id, keeps.parent]
  exact flat old inside

/-- One more class below the root qdisc. -/
theorem Crowded.addClassIf {link : ℤ} {htb : Htb} (crowded : Crowded link htb.classes) (c : HtbClass)
    (top : c.parent = "1:0") (notRoot : c.id ≠ "1:0") :
    Crowded link (htb.addClassIf takes c).classes := by
  rcases htb.addClassIf_cases takes c with added | ⟨_, same⟩
  · rw [added]
    constructor
    · intro d member
      rcases List.mem_append.mp member with old | new
      · exact crowded.noRoot d old
      · rw [List.mem_singleton.mp new]
        exact notRoot
    · intro d member
      rcases List.mem_append.mp member with old | new
      · refine (crowded.leaves d old).imp_right fun ⟨leaf, found⟩ => ⟨leaf, ?_⟩
        rw [Htb.addClass, List.find?_append, found, Option.some_or]
      · rw [List.mem_singleton.mp new]
        exact .inl top
  · rwa [same]

/-- The leaves of the gateway side, below the link class of their block. -/
theorem Crowded.addLeafIf {link : ℤ} {htb : Htb} (crowded : Crowded link htb.classes) (c : HtbClass)
    (leaf : c = voipClass "1:1" (1000 * 2) ∨ c = restClass "1:1" (1000 * (link - 1)))
    (found : htb.classes.find? (·.id = "1:1") = some (linkClass (1000 * link))) :
    Crowded link (htb.addClassIf takes c).classes ∧
      (htb.addClassIf takes c).classes.find? (·.id = "1:1") = some (linkClass (1000 * link)) := by
  rcases htb.addClassIf_cases takes c with added | ⟨_, same⟩
  · have still : (htb.addClass c).classes.find? (·.id = "1:1") = some (linkClass (1000 * link)) := by
      rw [Htb.addClass, List.find?_append, found, Option.some_or]
    rw [added]
    refine ⟨⟨?_, ?_⟩, still⟩
    · intro d member
      rcases List.mem_append.mp member with old | new
      · exact crowded.noRoot d old
      · rw [List.mem_singleton.mp new]
        rcases leaf with rfl | rfl <;> simp [voipClass, restClass]
    · intro d member
      rcases List.mem_append.mp member with old | new
      · exact (crowded.leaves d old).imp_right fun below => ⟨below.1, still⟩
      · rw [List.mem_singleton.mp new]
        exact .inr ⟨leaf, still⟩
  · rw [same]
    exact ⟨crowded, found⟩

/-! ### The setup -/

/-- Without the link class there is no place for the leaves of the gateway side. -/
theorem addClassIf_orphan (htb : Htb) (c : HtbClass) (parent : c.parent = "1:1")
    (empty : htb.classes = []) : (htb.addClassIf takes c).classes = [] := by
  have refused : htb.RefusesClass takes c := by
    intro admitted
    simpa [Htb.admitsClass, Htb.hasClass, parent, empty] using admitted.1
  rw [Htb.addClassIf_of_refused takes htb c refused, empty]

theorem crowded_gw (a : Arithmetic) (t : TrunksConfig) (uname : Except Error String)
    (qos : t.qos = true) :
    Crowded (linkKbit a t.bandwidth.retun) (builtGW takes a t uname).classes := by
  rw [builtGW, if_pos qos, qosBuilt]
  simp only [Htb.addFilter, Htb.addNetemIf_classes]
  by_cases taken : takes.Rate (1000 * linkKbit a t.bandwidth.retun)
  · have rest : restKbit a t.bandwidth.retun = linkKbit a t.bandwidth.retun - 1 := by
      have positive := taken.1
      exact Arithmetic.pred_of_pos a (some t.bandwidth.retun) (by unfold linkKbit at positive; omega)
    rw [rest, Htb.addClassIf_of_room _ _ (linkClass _) rfl taken]
    have start : Crowded (linkKbit a t.bandwidth.retun)
        ((Htb.root "1:20").addClass (linkClass (1000 * linkKbit a t.bandwidth.retun))).classes := by
      have flat : Flat ((Htb.root "1:20").addClass
          (linkClass (1000 * linkKbit a t.bandwidth.retun))).classes := by
        simp [Flat, Htb.root, Htb.addClass, linkClass]
      exact flat.crowded _
    obtain ⟨voip, found⟩ := @Crowded.addLeafIf takes _ _ start (voipClass "1:1" (1000 * 2))
      (.inl rfl) rfl
    -- the queue in between changes no class
    rw [← Htb.addNetemIf_classes takes _ ⟨"110:", "1:10", _⟩] at voip found
    exact (voip.addLeafIf _ (.inr rfl) found).1
  · have refused : ((Htb.root "1:20").addClassIf takes
        (linkClass (1000 * linkKbit a t.bandwidth.retun))).classes = [] := by
      rw [Htb.addClassIf_of_refused _ _ _ fun admitted => taken admitted.2]
      rfl
    have voip := @addClassIf_orphan takes _ (voipClass "1:1" (1000 * 2)) rfl refused
    rw [← Htb.addNetemIf_classes takes _ ⟨"110:", "1:10", _⟩] at voip
    rw [addClassIf_orphan _ (restClass "1:1" _) rfl voip]
    exact ⟨by simp, by simp⟩

theorem flat_st (a : Arithmetic) (t : TrunksConfig) (uname : Except Error String)
    (qos : t.qos = true) : Flat (builtST takes a t uname).classes := by
  rw [builtST, if_pos qos, qosBuilt]
  simp only [Htb.addFilter, Htb.addNetemIf_classes]
  intro c member
  rcases Htb.mem_addClassIf _ _ _ c member with inside | rfl
  · rw [Htb.addNetemIf_classes] at inside
    rcases Htb.mem_addClassIf _ _ _ c inside with inside | rfl
    · rcases Htb.mem_addClassIf _ _ _ c inside with inside | rfl
      · cases inside
      · simp [linkClass]
    · simp [voipClass]
  · simp [restClass]

/-- On a device that is both, the second block only adds classes below the root qdisc. -/
theorem crowded_meetAll {link : ℤ} (ds : List Demand) (htb : Htb)
    (crowded : Crowded link htb.classes)
    (top : ∀ c, Demand.cls c ∈ ds → c.parent = "1:0" ∧ c.id ≠ "1:0") :
    Crowded link (Demand.meetAll takes ds htb).classes := by
  induction ds using List.reverseRecOn with
  | nil => exact crowded
  | append_singleton ds d ih =>
    have before := ih fun c member => top c (List.mem_append_left _ member)
    rw [Demand.meetAll_concat]
    cases d with
    | cls c =>
      obtain ⟨parent, id⟩ := top c (by simp)
      exact before.addClassIf c parent id
    | queue q =>
      rw [Demand.meet, Htb.addNetemIf_classes]
      exact before
    | filter f => exact before

theorem netems_builtGW (a : Arithmetic) (t : TrunksConfig) (uname : Except Error String)
    (qos : t.qos = true) : ∀ q ∈ (builtGW takes a t uname).netems, q.parent ≠ "1:0" := by
  rw [builtGW, if_pos qos, qosBuilt]
  simp only [Htb.addFilter]
  intro q member
  rcases Htb.mem_addNetemIf takes _ ⟨"120:", "1:20", _⟩ q member with inside | rest
  · rw [Htb.addClassIf_netems] at inside
    rcases Htb.mem_addNetemIf takes _ ⟨"110:", "1:10", _⟩ q inside with inside | voip
    · simp [Htb.root] at inside
    · simp [voip]
  · simp [rest]

theorem filters_builtGW (a : Arithmetic) (t : TrunksConfig) (uname : Except Error String)
    (qos : t.qos = true) :
    (builtGW takes a t uname).filters = [⟨11, "1:10"⟩, ⟨10, "1:20"⟩] := by
  rw [builtGW, if_pos qos, qosBuilt]
  simp [Htb.addFilter, Htb.root]

/-- A block of the terminal side on a device that has another one. -/
theorem qosBlock_crowded {dev : String} (laws : LinkLaws b takes dev) (link voip rest : ℤ)
    (netemVoIP netemRest : List String) (markVoIP markRest : String) (n m : ℕ)
    (shapeVoIP : NetemArgs netemVoIP) (shapeRest : NetemArgs netemRest)
    (knownVoIP : (markVoIP, n) ∈ handles) (knownRest : (markRest, m) ∈ handles) (distinct : n ≠ m)
    {first : ℤ} (htb : Htb) (crowded : Crowded first htb.classes)
    (free : ∀ q ∈ htb.netems, q.parent ≠ "1:0")
    (unmarked : ∀ f ∈ htb.filters, f.mark ≠ n ∧ f.mark ≠ m) :
    ∃ htb', (qosBlock dev "1:0" link voip rest netemVoIP netemRest markVoIP markRest).foldl
        (fun tree c => b.onTree c tree) (some htb) = some htb' ∧ Crowded first htb'.classes := by
  let block := qosDemands laws "1:0" link voip rest netemVoIP netemRest markVoIP markRest n m
    (.inl rfl) shapeVoIP shapeRest knownVoIP knownRest distinct
  -- what the block asks of the device, in its order
  have demands : block.steps.map Prod.snd =
      [ .cls (linkClass (1000 * link)), .cls (voipClass "1:0" (1000 * voip)),
        .queue ⟨"110:", "1:10", netemVoIP⟩, .cls (restClass "1:0" (1000 * rest)),
        .queue ⟨"120:", "1:20", netemRest⟩, .filter ⟨n, "1:10"⟩, .filter ⟨m, "1:20"⟩ ] := rfl
  have fits : ∀ step ∈ block.steps, step.2.Fits htb := by
    intro step member
    have asked := List.mem_map_of_mem (f := Prod.snd) member
    rw [demands] at asked
    generalize step.2 = d at asked
    simp only [List.mem_cons, List.not_mem_nil, or_false] at asked
    rcases asked with rfl | rfl | rfl | rfl | rfl | rfl | rfl
    · exact free
    · exact free
    · trivial
    · exact free
    · trivial
    · exact fun f inside => (unmarked f inside).1
    · exact fun f inside => (unmarked f inside).2
  have performed := perform_makes block.steps block.makes block.spared htb fits
  refine ⟨Demand.meetAll takes (block.steps.map Prod.snd) htb, ?_, ?_⟩
  · rw [← performed]
    change (block.root :: block.steps.map Prod.fst).foldl _ _ = _
    rw [List.foldl_cons, DemandBlock.root, onTree_addRoot_again laws _ block.known]
    rfl
  · -- all three classes are put below the root qdisc
    refine crowded_meetAll _ htb crowded ?_
    intro c member
    rw [demands] at member
    simp only [List.mem_cons, Demand.cls.injEq, reduceCtorEq, List.not_mem_nil, or_false,
      false_or] at member
    rcases member with rfl | rfl | rfl <;> simp [linkClass, voipClass, restClass]

theorem setup_gw (a : Arithmetic) (t : TrunksConfig) (laws : LinkLawsOn b takes t.nic)
    (uname : Except Error String) (start : Network Table Tree) (qos : t.qos = true)
    (bare : ∀ dev, start.tree dev = none) :
    ∃ htb, (b.execAll start (run a t uname)).tree t.nic.gw = some htb ∧
      Crowded (linkKbit a t.bandwidth.retun) htb.classes := by
  rw [execAll_tree_apply, run_filter_device, bare, if_pos rfl, List.foldl_append,
    blockGW_built a t laws.gw uname]
  by_cases same : t.nic.st = t.nic.gw
  · have unmarked : ∀ f ∈ (builtGW takes a t uname).filters, f.mark ≠ 21 ∧ f.mark ≠ 20 := by
      simp [filters_builtGW a t uname qos]
    rw [if_pos same, blockST, if_pos qos]
    exact qosBlock_crowded laws.st _ _ _ _ _ "21" "20" 21 20 (netemArgs_shape ..)
      (netemArgsRestST_shape ..) (by decide) (by decide) (by decide) _ (crowded_gw a t uname qos)
      (netems_builtGW a t uname qos) unmarked
  · rw [if_neg same]
    exact ⟨_, rfl, crowded_gw a t uname qos⟩

/-! ### Setup and ticks -/

/-- On the terminal side the classes stay where they are in every state reached. -/
theorem flat_ticks (a : Arithmetic) (t t' : TrunksConfig) (laws : LinkLawsOn b takes t.nic)
    (uname : Except Error String) (start : Network Table Tree) (qos : t.qos = true)
    (distinct : t.nic.st ≠ t.nic.gw) (bare : ∀ dev, start.tree dev = none) (draws : List ℕ)
    (cmds : List Command) (returned : ticks a t.qos t draws = .ok (t', cmds)) :
    ∃ htb, (b.execAll start (run a t uname ++ cmds)).tree t.nic.st = some htb ∧
      Flat htb.classes := by
  obtain ⟨profiles, selected⟩ := ticks_selected a t.qos t t' draws cmds returned
  have built : (b.execAll start (run a t uname)).tree t.nic.st = some (builtST takes a t uname) := by
    rw [run_built a t laws uname start distinct bare, if_neg distinct, if_pos rfl]
  have changed := changes_tree a t t.qos profiles t.nic.st laws.st t.bandwidth.forward _ _ built
    (by intro weight; simp [changeCapacity_eq, distinct.symm])
  rw [execAll_append, selected.issued, changed]
  exact ⟨_, rfl, (flat_st a t uname qos).mapClasses (keepsPlace_rescale _ _ _)⟩

/-- No configuration keeps the law, whatever its numbers: the setup breaks it on both devices, and on
the terminal side it stays broken in every state reached. -/
theorem capacity_never (a : Arithmetic) (t : TrunksConfig) (laws : LinkLawsOn b takes t.nic)
    (uname : Except Error String) (start : Network Table Tree) (qos : t.qos = true)
    (bare : ∀ dev, start.tree dev = none) :
    (¬ ∀ draws t' cmds, ticks a t.qos t draws = .ok (t', cmds) →
      CapacityLaw ((b.execAll start (run a t uname ++ cmds)).tree t.nic.gw) ∧
      CapacityLaw ((b.execAll start (run a t uname ++ cmds)).tree t.nic.st)) ∧
    ¬ CapacityLaw ((b.execAll start (run a t uname)).tree t.nic.gw) ∧
    ¬ CapacityLaw ((b.execAll start (run a t uname)).tree t.nic.st) ∧
    (t.nic.st ≠ t.nic.gw → ∀ draws t' cmds, ticks a t.qos t draws = .ok (t', cmds) →
      ¬ CapacityLaw ((b.execAll start (run a t uname ++ cmds)).tree t.nic.st)) := by
  -- on the gateway side the leaves exceed the link by one
  have brokenGw : ¬ CapacityLaw ((b.execAll start (run a t uname)).tree t.nic.gw) := by
    obtain ⟨htb, tree, crowded⟩ := setup_gw a t laws uname start qos bare
    rw [tree]
    exact not_capacity_of_crowded htb crowded
  -- on the terminal side they are not below the link at all, which no tick changes
  have brokenSt (distinct : t.nic.st ≠ t.nic.gw) (draws : List ℕ) (t' : TrunksConfig)
      (cmds : List Command) (returned : ticks a t.qos t draws = .ok (t', cmds)) :
      ¬ CapacityLaw ((b.execAll start (run a t uname ++ cmds)).tree t.nic.st) := by
    obtain ⟨htb, tree, flat⟩ :=
      flat_ticks a t t' laws uname start qos distinct bare draws cmds returned
    rw [tree]
    exact not_capacity_of_crowded htb (flat.crowded 0)
  refine ⟨?_, brokenGw, ?_, brokenSt⟩
  · intro kept
    have now := (kept [] t [] rfl).1
    rw [List.append_nil] at now
    exact brokenGw now
  · -- one device that is both ends has the tree of the gateway side first
    by_cases same : t.nic.st = t.nic.gw
    · rw [same]
      exact brokenGw
    · have now := brokenSt same [] t [] rfl
      rwa [List.append_nil] at now

theorem capacity_never_sample :
    ¬ CapacityLaw
      ((reference.execAll fresh (run .float64 sampleQos (.ok ""))).tree sampleQos.nic.gw) :=
  (capacity_never .float64 sampleQos (reference_linkLawsOn _) (.ok "") fresh rfl
    (fun _ => rfl)).2.1

/-- The leaves of the gateway get 2 + 19 kbit/s where the link class has 20. -/
theorem capacity_broken_sample :
    ((reference.execAll fresh (run .float64 sampleQos (.ok ""))).tree "eth1").map
        (fun htb => htb.classes.map (·.rate)) = some [20000, 2000, 19000] ∧
    ¬ ∀ draws t' cmds, ticks .float64 sampleQos.qos sampleQos draws = .ok (t', cmds) →
      CapacityLaw ((reference.execAll fresh (run .float64 sampleQos (.ok "") ++ cmds)).tree "eth1") := by
  refine ⟨by decide +kernel, ?_⟩
  intro kept
  have evaluated : (reference.execAll fresh (run .float64 sampleQos (.ok "") ++ [])).tree "eth1" =
      some (qosTreeGW referenceIntake .float64 sampleQos (.ok "")) := by decide +kernel
  have law := kept [] sampleQos [] rfl
  rw [evaluated] at law
  have crowded := @crowded_gw referenceIntake .float64 sampleQos (.ok "") rfl
  rw [builtGW_of_qos .float64 sampleQos (.ok "") rfl (by decide +kernel) (by decide +kernel)] at crowded
  exact not_capacity_of_crowded _ crowded law

end Tlink.Properties
