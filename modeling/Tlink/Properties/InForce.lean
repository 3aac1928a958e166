import Tlink.Properties.Isolation
import Tlink.Properties.Rates

/-!
# The rate in force

A tick of the scheduler changes the rate of one class on each device, or fails to, and touches
nothing else. So over a whole run every packet keeps its classes and its queue, and the changed class
has the rate of the last selected profile whose rate was accepted: a profile that rounds to zero or
less is selected and logged, but the rate before it stays in force.
-/
namespace Tlink.Properties

open Rounding Numeral Tlink.Runtime Tlink.Net

variable {b : Backend Table Tree} {takes : Intake}

/-! ### Changed classes -/

/-- A change of classes that leaves their place in the tree. -/
structure KeepsPlace (f : HtbClass → HtbClass) : Prop where
  id : ∀ c, (f c).id = c.id
  parent : ∀ c, (f c).parent = c.parent

def Htb.mapClasses (htb : Htb) (f : HtbClass → HtbClass) : Htb :=
  { htb with classes := htb.classes.map f }

def Route.mapClasses (route : Route) (f : HtbClass → HtbClass) : Route :=
  { route with classes := route.classes.map f }

section KeepsPlace

variable {f : HtbClass → HtbClass} (keeps : KeepsPlace f)

include keeps

theorem find_mapClasses (htb : Htb) (id : String) :
    (Htb.mapClasses htb f).classes.find? (·.id = id) = (htb.classes.find? (·.id = id)).map f := by
  simp only [Htb.mapClasses, List.find?_map, Function.comp_def, keeps.id]

theorem leaf_mapClasses (htb : Htb) (id : String) :
    (Htb.mapClasses htb f).leaf id = (htb.leaf id).map f := by
  have leaves : (Htb.mapClasses htb f).isLeaf id = htb.isLeaf id := by
    simp only [Htb.isLeaf, Htb.mapClasses, List.all_map, Function.comp_def, keeps.parent]
  rw [Htb.leaf, Htb.leaf, leaves, find_mapClasses keeps]
  split <;> rfl

theorem classify_mapClasses (htb : Htb) (mark : ℕ) :
    (Htb.mapClasses htb f).classify mark = (htb.classify mark).map f := by
  have filters : (Htb.mapClasses htb f).filters = htb.filters := rfl
  have dflt : (Htb.mapClasses htb f).dflt = htb.dflt := rfl
  rw [Htb.classify, Htb.classify, filters, dflt, leaf_mapClasses keeps]
  cases htb.filters.find? (·.mark = mark) with
  | none => rfl
  | some g =>
    rw [Option.bind_some, Option.bind_some, leaf_mapClasses keeps, Option.map_or]

theorem lineage_mapClasses (htb : Htb) (fuel : ℕ) (c : HtbClass) :
    (Htb.mapClasses htb f).lineage fuel (f c) = (htb.lineage fuel c).map f := by
  induction fuel generalizing c with
  | zero => rfl
  | succ fuel ih =>
    rw [Htb.lineage, Htb.lineage, keeps.parent, find_mapClasses keeps]
    cases htb.classes.find? (·.id = c.parent) with
    | none => rfl
    | some above => simp only [Option.map_some, ih above, List.map_cons]

/-- A packet takes the same way through classes that are changed in place. -/
theorem path_mapClasses (htb : Htb) (mark : ℕ) :
    Tree.path (some (Htb.mapClasses htb f)) mark =
      Route.mapClasses (Tree.path (some htb) mark) f := by
  simp only [Tree.path, classify_mapClasses keeps]
  cases htb.classify mark with
  | none => rfl
  | some c =>
    have size : (Htb.mapClasses htb f).classes.length = htb.classes.length := List.length_map _
    simp only [Option.map_some, size, lineage_mapClasses keeps, keeps.id]
    rfl

end KeepsPlace

/-! ### The class a tick changes -/

def scaledOpts (qos : Bool) : List String := if qos then ["prio", "1"] else []

/-- What a profile asks for in bit/s, the unit the kernel keeps. -/
def scaledRate (a : Arithmetic) (qos : Bool) (bandwidth : ℚ) (acm : ACM) : ℤ :=
  1000000 * scaledMbit a qos bandwidth acm.weight

/-- The last rate that `tc` takes. -/
def inForce (takes : Intake) (rates : List ℤ) : Option ℤ :=
  (rates.filter fun bits => takes.Rate bits).getLast?

/-- The rate of one class replaced, if there is a rate to put in its place. -/
def rescale (id : String) (opts : List String) (rate : Option ℤ) (c : HtbClass) : HtbClass :=
  match rate with
  | none => c
  | some bits => if c.id = id then { c with rate := bits, opts := opts } else c

theorem keepsPlace_rescale (id : String) (opts : List String) (rate : Option ℤ) :
    KeepsPlace (rescale id opts rate) := by
  constructor
  · intro c
    unfold rescale
    split
    · rfl
    · split <;> rfl
  · intro c
    unfold rescale
    split
    · rfl
    · split <;> rfl

theorem inForce_concat (rates : List ℤ) (bits : ℤ) :
    inForce takes (rates ++ [bits]) =
      if takes.Rate bits then some bits else inForce takes rates := by
  by_cases taken : takes.Rate bits <;> simp [inForce, List.filter_append, taken]

/-- A later rate replaces an earlier one. -/
theorem rescale_rescale (id : String) (opts : List String) (rate : Option ℤ) (bits : ℤ)
    (c : HtbClass) :
    rescale id opts (some bits) (rescale id opts rate c) = rescale id opts (some bits) c := by
  cases rate with
  | none => rfl
  | some before => by_cases changed : c.id = id <;> simp [rescale, changed]

def changeCommand (dev id rate : String) (opts : List String) : Command :=
  runTC (["class", "change", "dev", dev, "parent", "1:0", "classid", id, "htb", "rate", rate] ++ opts)

theorem onTree_change {dev : String} (laws : LinkLaws b takes dev) (id : String) (n : ℤ)
    (opts : List String) (htb : Htb) (known : (id, opts) ∈ changeOptions) :
    b.onTree (changeCommand dev id (print n "mbit") opts) (some htb) =
      some (Htb.mapClasses htb
        (rescale id opts (if takes.Rate (1000000 * n) then some (1000000 * n) else none))) := by
  rw [Backend.onTree, changeCommand, args_runTC, laws.change_class id opts n htb known]
  by_cases taken : takes.Rate (1000000 * n)
  · by_cases there : htb.hasClass id = true
    · rw [if_pos ⟨there, taken⟩, if_pos taken]
      rfl
    · -- without the class there is nothing to change
      have absent : ∀ c ∈ htb.classes, rescale id opts (some (1000000 * n)) c = c := by
        intro c member
        have other : c.id ≠ id := by
          intro same
          exact there (List.any_eq_true.mpr ⟨c, member, by simpa using same⟩)
        simp [rescale, other]
      have same : htb.classes.map (rescale id opts (some (1000000 * n))) = htb.classes := by
        simpa using List.map_congr_left absent
      rw [if_neg fun both => there both.1, if_pos taken, Htb.mapClasses, same]
      rfl
  · -- a rate that is not taken leaves the class as it is
    rw [if_neg fun both => taken both.2, if_neg taken]
    have same : htb.classes.map (rescale id opts none) = htb.classes := List.map_id _
    rw [Htb.mapClasses, same]
    rfl

/-- A sequence of rate changes leaves the last one that was taken. -/
theorem onTree_changes {dev : String} (laws : LinkLaws b takes dev) (id : String) (ns : List ℤ)
    (opts : List String) (htb : Htb) (known : (id, opts) ∈ changeOptions) :
    (ns.map fun n => changeCommand dev id (print n "mbit") opts).foldl
        (fun tree c => b.onTree c tree) (some htb) =
      some (Htb.mapClasses htb (rescale id opts (inForce takes (ns.map (1000000 * ·))))) := by
  induction ns using List.reverseRecOn with
  | nil =>
    have same : htb.classes.map (rescale id opts none) = htb.classes := List.map_id _
    simp [inForce, Htb.mapClasses, same]
  | append_singleton ns n ih =>
    rw [List.map_append, List.foldl_append, ih, List.map_append]
    simp only [List.map_cons, List.map_nil, List.foldl_cons, List.foldl_nil]
    rw [onTree_change laws id n opts _ known, inForce_concat]
    by_cases taken : takes.Rate (1000000 * n)
    · rw [if_pos taken, if_pos taken, Htb.mapClasses, Htb.mapClasses, Htb.mapClasses, List.map_map]
      simp only [Function.comp_def, rescale_rescale]
    · rw [if_neg taken, if_neg taken]
      have same (cs : List HtbClass) : cs.map (rescale id opts none) = cs := List.map_id _
      simp [Htb.mapClasses, same]

/-! ### A run of the scheduler -/

theorem changeCapacity_eq (a : Arithmetic) (t : TrunksConfig) (qos : Bool) (weight : ℚ) :
    changeCapacity a t qos weight =
      [ changeCommand t.nic.gw (scaledClass qos)
          (print (scaledMbit a qos t.bandwidth.retun weight) "mbit") (scaledOpts qos),
        changeCommand t.nic.st (scaledClass qos)
          (print (scaledMbit a qos t.bandwidth.forward weight) "mbit") (scaledOpts qos) ] := by
  cases qos <;> rfl

theorem scaledOpts_known (qos : Bool) : (scaledClass qos, scaledOpts qos) ∈ changeOptions := by
  cases qos <;> decide

@[simp] theorem device_changeCommand (dev id rate : String) (opts : List String) :
    (changeCommand dev id rate opts).device = some dev := rfl

@[simp] theorem tool_changeCommand (dev id rate : String) (opts : List String) :
    (changeCommand dev id rate opts).tool = .tc := rfl

/-- Each device sees one change for each selected profile. -/
theorem changes_filter (a : Arithmetic) (t : TrunksConfig) (qos : Bool) (profiles : List ACM)
    (dev : String)
    (bandwidth : ℚ)
    (single : ∀ weight, (changeCapacity a t qos weight).filter (fun c => c.device = some dev) =
      [changeCommand dev (scaledClass qos) (print (scaledMbit a qos bandwidth weight) "mbit")
        (scaledOpts qos)]) :
    (profiles.flatMap fun acm => changeCapacity a t qos acm.weight).filter
        (fun c => c.device = some dev) =
      (profiles.map fun acm => scaledMbit a qos bandwidth acm.weight).map fun n =>
        changeCommand dev (scaledClass qos) (print n "mbit") (scaledOpts qos) := by
  induction profiles with
  | nil => rfl
  | cons acm profiles ih =>
    rw [List.flatMap_cons, List.filter_append, ih, single]
    rfl

theorem changes_filter_other (a : Arithmetic) (t : TrunksConfig) (qos : Bool) (profiles : List ACM)
    (dev : String)
    (other : ¬ Names t.nic dev) :
    (profiles.flatMap fun acm => changeCapacity a t qos acm.weight).filter
        (fun c => c.device = some dev) = [] := by
  rw [List.filter_eq_nil_iff]
  intro c member aimed
  obtain ⟨acm, _, change⟩ := List.mem_flatMap.mp member
  exact device_of_owned t.nic c (owned_changeCapacity a t qos acm.weight c change) dev other
    (by simpa using aimed)

theorem changes_filter_table (a : Arithmetic) (t : TrunksConfig) (qos : Bool) (profiles : List ACM) :
    (profiles.flatMap fun acm => changeCapacity a t qos acm.weight).filter
        (fun c => c.tool = .iptables) = [] := by
  rw [List.filter_eq_nil_iff]
  intro c member
  obtain ⟨acm, _, change⟩ := List.mem_flatMap.mp member
  rw [changeCapacity_eq] at change
  simp only [List.mem_cons, List.not_mem_nil, or_false] at change
  rcases change with rfl | rfl <;> simp

/-- What the scheduler's commands do to a tree. -/
theorem changes_tree (a : Arithmetic) (t : TrunksConfig) (qos : Bool) (profiles : List ACM)
    (dev : String) (laws : LinkLaws b takes dev) (bandwidth : ℚ) (htb : Htb) (net : Network Table Tree)
    (there : net.tree dev = some htb)
    (single : ∀ weight, (changeCapacity a t qos weight).filter (fun c => c.device = some dev) =
      [changeCommand dev (scaledClass qos) (print (scaledMbit a qos bandwidth weight) "mbit")
        (scaledOpts qos)]) :
    (b.execAll net (profiles.flatMap fun acm => changeCapacity a t qos acm.weight)).tree dev =
      some (Htb.mapClasses htb (rescale (scaledClass qos) (scaledOpts qos)
        (inForce takes (profiles.map (scaledRate a qos bandwidth))))) := by
  rw [execAll_tree_apply, changes_filter a t qos profiles dev bandwidth single, there,
    onTree_changes laws _ _ _ htb (scaledOpts_known qos), List.map_map]
  rfl

/-- The route of a packet after the scheduler has put some rates into force on its egress device. -/
def Rescaled (takes : Intake) (a : Arithmetic) (t : TrunksConfig) (bandwidth : ℚ)
    (profiles : List ACM) (before : Route) : Route :=
  Route.mapClasses before (rescale (scaledClass t.qos) (scaledOpts t.qos)
    (inForce takes (profiles.map (scaledRate a t.qos bandwidth))))

/-- However long the scheduler has run, every packet keeps its mark, its classes and its queues, and
the one class a tick touches has the rate of the last selected profile whose rate `tc` took. -/
theorem acm_in_force (a : Arithmetic) (t t' : TrunksConfig) (laws : LinkLawsOn b takes t.nic)
    (uname : Except Error String) (draws : List ℕ) (cmds : List Command) (start : Network Table Tree)
    (distinct : t.nic.st ≠ t.nic.gw) (bare : ∀ dev, start.tree dev = none)
    (ticked : ticks a t.qos t draws = .ok (t', cmds)) :
    let before := b.execAll start (run a t uname)
    let after := b.execAll before cmds
    ∃ profiles, Selected a t t.qos profiles t' cmds ∧ ∀ p : Packet,
      after.table.markOf p = before.table.markOf p ∧
      (p.egress = t.nic.gw →
        transit after p = Rescaled takes a t t.bandwidth.retun profiles (transit before p)) ∧
      (p.egress = t.nic.st →
        transit after p = Rescaled takes a t t.bandwidth.forward profiles (transit before p)) ∧
      (¬ Names t.nic p.egress → transit after p = transit before p) := by
  intro before after
  obtain ⟨profiles, selected⟩ := ticks_selected a t.qos t t' draws cmds ticked
  -- no tick calls iptables
  have table : after.table = before.table := by
    simp only [after, selected.issued]
    rw [execAll_table, changes_filter_table]
    rfl
  refine ⟨profiles, selected, ?_⟩
  intro p
  refine ⟨by rw [table], ?_, ?_, ?_⟩
  · intro egress
    -- every change meets the tree the setup has built
    have there : before.tree t.nic.gw = some (builtGW takes a t uname) := by
      rw [run_built a t laws uname start distinct bare, if_pos rfl]
    have rescaled := changes_tree a t t.qos profiles t.nic.gw laws.gw t.bandwidth.retun _ before there
      (by intro weight; simp [changeCapacity_eq, distinct])
    rw [← selected.issued] at rescaled
    rw [transit, transit, table, egress, rescaled, there]
    exact path_mapClasses (keepsPlace_rescale _ _ _) _ _
  · intro egress
    have there : before.tree t.nic.st = some (builtST takes a t uname) := by
      rw [run_built a t laws uname start distinct bare, if_neg distinct, if_pos rfl]
    have rescaled := changes_tree a t t.qos profiles t.nic.st laws.st t.bandwidth.forward _ before there
      (by intro weight; simp [changeCapacity_eq, Ne.symm distinct])
    rw [← selected.issued] at rescaled
    rw [transit, transit, table, egress, rescaled, there]
    exact path_mapClasses (keepsPlace_rescale _ _ _) _ _
  · intro elsewhere
    -- other devices are not named by a change
    have tree : after.tree p.egress = before.tree p.egress := by
      simp only [after, selected.issued]
      rw [execAll_tree_apply, changes_filter_other a t t.qos profiles p.egress elsewhere]
      rfl
    rw [transit, transit, table, tree]

/-- The second profile would put a rate of zero into force, so the first one stays. -/
def sampleStalled : TrunksConfig :=
  { sampleConfig with acmList := [some ⟨0.5, 1⟩, some ⟨decimal 0.01, 1⟩] }

theorem acm_in_force_sample :
    let before := reference.execAll fresh (run .float64 sampleStalled (.ok ""))
    let cmds := changeCapacity .float64 sampleStalled false 0.5 ++
      changeCapacity .float64 sampleStalled false (decimal 0.01)
    let p : Packet := ⟨"eth0", "eth1", 0, 0⟩
    (transit before p).classes = [linkClass 20000] ∧
    (transit (reference.execAll before cmds) p).classes = [⟨"1:1", "1:0", 10000000, []⟩] ∧
    (transit (reference.execAll before cmds) p).netems = (transit before p).netems := by
  intro before cmds p
  have ticked : ticks .float64 false sampleStalled [0, 1] =
      .ok ({ sampleStalled with currentACM := some ⟨decimal 0.01, 1⟩, acmCounter := 1 }, cmds) := by
    decide +kernel
  obtain ⟨profiles, _, packets⟩ := acm_in_force .float64 sampleStalled _ (reference_linkLawsOn _)
    (.ok "") [0, 1] cmds fresh (by decide) (fun _ => rfl) ticked
  refine ⟨by decide +kernel, by decide +kernel, ?_⟩
  rw [(packets p).2.1 rfl]
  rfl

example : inForce referenceIntake
    ([⟨0.5, 1⟩, ⟨decimal 0.01, 1⟩].map (scaledRate .float64 false 20)) = some 10000000 := by
  decide +kernel

end Tlink.Properties
