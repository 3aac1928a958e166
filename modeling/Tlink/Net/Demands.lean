import Mathlib.Data.Option.Defs
import Tlink.Lib.Redo
import Tlink.Net.Repeat

/-!
# A block as a list of demands

Below the root qdisc a block asks for classes, queues and filters, one command for each. A demand
that was met is met for good, unless a later one makes room for it after all; the blocks of the setup
are free of such pairs. So a block may be cut off anywhere and started again, as often as one likes.
-/
namespace Tlink.Net

open Numeral Tlink.Runtime

variable {b : Backend Table Tree}

/-! ### Trees that treat packets alike -/

/-- The same tree, up to repeated filters. -/
structure Alike (htb htb' : Htb) : Prop where
  dflt : htb'.dflt = htb.dflt
  classes : htb'.classes = htb.classes
  netems : htb'.netems = htb.netems
  filters : ∀ f, f ∈ htb'.filters ↔ f ∈ htb.filters
  first : ∀ mark, htb'.filters.find? (·.mark = mark) = htb.filters.find? (·.mark = mark)

theorem Alike.refl (htb : Htb) : Alike htb htb := ⟨rfl, rfl, rfl, fun _ => Iff.rfl, fun _ => rfl⟩

/-- A filter that is there may be there again. -/
theorem Alike.again {htb htb' : Htb} (alike : Alike htb htb') (f : Filter) (there : f ∈ htb.filters) :
    Alike htb (htb'.addFilter f) := by
  refine ⟨alike.dflt, alike.classes, alike.netems, ?_, ?_⟩
  · intro g
    simp only [Htb.addFilter, List.mem_append, List.mem_singleton, alike.filters]
    constructor
    · rintro (old | rfl)
      · exact old
      · exact there
    · exact .inl
  · intro mark
    rw [Htb.addFilter, List.find?_append, ← alike.first mark]
    cases found : htb'.filters.find? (·.mark = mark) with
    | some g => rfl
    | none =>
      -- the new filter is not the first of its mark
      have other := List.find?_eq_none.mp found f ((alike.filters f).mpr there)
      simpa using other

theorem Alike.path {htb htb' : Htb} (alike : Alike htb htb') (mark : ℕ) :
    Tree.path (some htb') mark = Tree.path (some htb) mark := by
  obtain ⟨dflt, classes, netems, filters⟩ := htb
  obtain ⟨dflt', classes', netems', filters'⟩ := htb'
  obtain ⟨rfl, rfl, rfl, _, first⟩ := alike
  simp only at first
  have leaf (id : String) : (⟨dflt', classes', netems', filters'⟩ : Htb).leaf id =
      (⟨dflt', classes', netems', filters⟩ : Htb).leaf id := rfl
  have lineage (fuel : ℕ) (c : HtbClass) :
      (⟨dflt', classes', netems', filters'⟩ : Htb).lineage fuel c =
        (⟨dflt', classes', netems', filters⟩ : Htb).lineage fuel c := by
    induction fuel generalizing c with
    | zero => rfl
    | succ fuel ih => simp only [Htb.lineage, ih]
  simp only [Tree.path, Htb.classify, first, leaf, lineage]

/-! ### Demands -/

inductive Demand where
  | cls (c : HtbClass)
  | queue (q : Netem)
  | filter (f : Filter)

namespace Demand

variable (takes : Intake)

def meet : Demand → Htb → Htb
  | .cls c, htb => htb.addClassIf takes c
  | .queue q, htb => htb.addNetemIf takes q
  | .filter f, htb => htb.addFilter f

def meetAll (ds : List Demand) (htb : Htb) : Htb := ds.foldl (fun htb d => d.meet takes htb) htb

/-- Nothing is known about a class below a queue, or about a filter for a mark that has another. -/
def Fits : Demand → Htb → Prop
  | .cls c, htb => ∀ q ∈ htb.netems, q.parent ≠ c.parent
  | .queue _, _ => True
  | .filter f, htb => ∀ g ∈ htb.filters, g.mark ≠ f.mark

/-- Asking again changes nothing. -/
def Met : Demand → Htb → Prop
  | .cls c, htb => htb.RefusesClass takes c ∧ ∀ q ∈ htb.netems, q.parent ≠ c.parent
  | .queue q, htb => htb.RefusesNetem takes q
  | .filter f, htb => f ∈ htb.filters

/-- The later demand fits in with the earlier one and makes no room for it. -/
def Spares : Demand → Demand → Prop
  | .cls c, .cls d => d.id ≠ c.parent
  | .cls c, .queue q => q.parent ≠ c.parent
  | .queue q, .cls d => d.id ≠ q.parent ∧ q.parent ≠ d.parent
  | .filter f, .filter g => f.mark ≠ g.mark
  | _, _ => True

theorem meetAll_concat (ds : List Demand) (d : Demand) (htb : Htb) :
    meetAll takes (ds ++ [d]) htb = d.meet takes (meetAll takes ds htb) := by
  simp [meetAll]

variable {takes}

theorem mem_netems_meetAll (ds : List Demand) (htb : Htb) (q : Netem)
    (member : q ∈ (meetAll takes ds htb).netems) : q ∈ htb.netems ∨ .queue q ∈ ds := by
  induction ds using List.reverseRecOn with
  | nil => exact .inl member
  | append_singleton ds d ih =>
    rw [meetAll_concat] at member
    have old (inside : q ∈ (meetAll takes ds htb).netems) :
        q ∈ htb.netems ∨ .queue q ∈ ds ++ [d] :=
      (ih inside).imp_right (List.mem_append_left _)
    cases d with
    | cls c => exact old (by simpa [meet] using member)
    | queue q' =>
      rcases Htb.mem_addNetemIf takes _ q' q member with inside | rfl
      · exact old inside
      · exact .inr (by simp)
    | filter f => exact old member

theorem mem_filters_meetAll (ds : List Demand) (htb : Htb) (f : Filter)
    (member : f ∈ (meetAll takes ds htb).filters) : f ∈ htb.filters ∨ .filter f ∈ ds := by
  induction ds using List.reverseRecOn with
  | nil => exact .inl member
  | append_singleton ds d ih =>
    rw [meetAll_concat] at member
    have old (inside : f ∈ (meetAll takes ds htb).filters) :
        f ∈ htb.filters ∨ .filter f ∈ ds ++ [d] :=
      (ih inside).imp_right (List.mem_append_left _)
    cases d with
    | cls c => exact old (by simpa [meet] using member)
    | queue q => exact old (by simpa [meet] using member)
    | filter g =>
      rcases List.mem_append.mp member with inside | new
      · exact old inside
      · rw [List.mem_singleton.mp new]
        exact .inr (by simp)

/-- A demand that the earlier ones spare can be asked for where it could be asked for before them. -/
theorem fits_meetAll (ds : List Demand) (d : Demand) (htb : Htb) (fits : d.Fits htb)
    (spared : ∀ e ∈ ds, Spares e d) : d.Fits (meetAll takes ds htb) := by
  cases d with
  | cls c =>
    intro q member
    rcases mem_netems_meetAll ds _ q member with old | asked
    · exact fits q old
    · exact (spared _ asked).2
  | queue q => trivial
  | filter f =>
    intro g member
    rcases mem_filters_meetAll ds _ g member with old | asked
    · exact fits g old
    · exact spared _ asked

theorem fits_root (d : Demand) (minor : String) : d.Fits (.root minor) := by
  cases d with
  | cls c => intro q member; cases member
  | queue q => trivial
  | filter f => intro g member; cases member

theorem met_meet (d : Demand) (htb : Htb) (fits : d.Fits htb) : d.Met takes (d.meet takes htb) := by
  cases d with
  | cls c =>
    refine ⟨Htb.refusesClass_again takes htb c, ?_⟩
    intro q member
    exact fits q (by simpa [meet] using member)
  | queue q => exact Htb.refusesNetem_again takes htb q
  | filter f => simp [Met, meet, Htb.addFilter]

theorem Met.stays {d e : Demand} {htb : Htb} (met : d.Met takes htb) (spared : Spares d e) :
    d.Met takes (e.meet takes htb) := by
  cases d with
  | cls c =>
    -- a class that is there, or has no place, is refused whatever else is added
    obtain ⟨refused, free⟩ := met
    cases e with
    | cls c' => exact ⟨refused.addClassIf c' spared, by simpa [meet] using free⟩
    | queue q =>
      refine ⟨refused.addNetemIf q, ?_⟩
      intro q' member
      rcases Htb.mem_addNetemIf takes htb q q' member with old | rfl
      · exact free q' old
      · -- a new queue must not take the place of the class
        exact spared
    | filter f => exact ⟨refused.addFilter f, free⟩
  | queue q =>
    cases e with
    | cls c => exact Htb.RefusesNetem.addClassIf met c spared.1
    | queue q' => exact Htb.RefusesNetem.addNetemIf met q'
    | filter f => exact Htb.RefusesNetem.addFilter met f
  | filter f =>
    cases e with
    | cls c => simpa [Met, meet] using met
    | queue q => simpa [Met, meet] using met
    | filter g => exact List.mem_append_left _ met

theorem met_meetAll (ds : List Demand) (minor : String) (spared : ds.Pairwise Spares) :
    ∀ d ∈ ds, d.Met takes (meetAll takes ds (.root minor)) := by
  induction ds using List.reverseRecOn with
  | nil => simp
  | append_singleton ds e ih =>
    obtain ⟨before, _, last⟩ := List.pairwise_append.mp spared
    intro d member
    rw [meetAll_concat]
    rcases List.mem_append.mp member with earlier | now
    · exact (ih before d earlier).stays (last d earlier e (by simp))
    · rw [List.mem_singleton.mp now]
      exact met_meet e _
        (fits_meetAll ds e _ (fits_root e minor) fun d earlier => last d earlier e (by simp))

/-! ### On trees that are alike -/

theorem Met.alike {d : Demand} {htb htb' : Htb} (met : d.Met takes htb) (alike : Alike htb htb') :
    d.Met takes htb' := by
  obtain ⟨dflt, classes, netems, filters⟩ := htb
  obtain ⟨dflt', classes', netems', filters'⟩ := htb'
  obtain ⟨rfl, rfl, rfl, members, _⟩ := alike
  cases d with
  | cls c => exact met
  | queue q => exact met
  | filter f => exact (members f).mpr met

theorem Fits.alike {d : Demand} {htb htb' : Htb} (fits : d.Fits htb) (alike : Alike htb htb') :
    d.Fits htb' := by
  cases d with
  | cls c =>
    intro q member
    rw [alike.netems] at member
    exact fits q member
  | queue q => trivial
  | filter f => exact fun g member => fits g ((alike.filters g).mp member)

/-- Whether a class or a queue is added does not depend on the filters. -/
theorem alike_meet (d : Demand) {htb htb' : Htb} (alike : Alike htb htb') :
    Alike (d.meet takes htb) (d.meet takes htb') := by
  cases d with
  | cls c =>
    -- both trees take the class or both refuse it
    by_cases admitted : htb.admitsClass c.parent c.id = true ∧ takes.Rate c.rate
    · have admitted' : htb'.admitsClass c.parent c.id = true ∧ takes.Rate c.rate := by
        rw [Htb.admitsClass_iff, alike.classes, ← Htb.admitsClass_iff]
        exact admitted
      rw [meet, meet, Htb.addClassIf, Htb.addClassIf, if_pos admitted, if_pos admitted']
      exact ⟨alike.dflt, congrArg (· ++ [c]) alike.classes, alike.netems, alike.filters, alike.first⟩
    · have refused : ¬ (htb'.admitsClass c.parent c.id = true ∧ takes.Rate c.rate) := by
        rw [Htb.admitsClass_iff, alike.classes, ← Htb.admitsClass_iff]
        exact admitted
      rw [meet, meet, Htb.addClassIf_of_refused takes htb c admitted,
        Htb.addClassIf_of_refused takes htb' c refused]
      exact alike
  | queue q =>
    by_cases admitted : htb.admitsNetem q.parent q.handle = true ∧ takes.netem q.opts = true
    · have admitted' : htb'.admitsNetem q.parent q.handle = true ∧ takes.netem q.opts = true := by
        rw [Htb.admitsNetem_iff, alike.classes, alike.netems, ← Htb.admitsNetem_iff]
        exact admitted
      rw [meet, meet, Htb.addNetemIf, Htb.addNetemIf, if_pos admitted, if_pos admitted']
      exact ⟨alike.dflt, alike.classes, congrArg (· ++ [q]) alike.netems, alike.filters, alike.first⟩
    · have refused : ¬ (htb'.admitsNetem q.parent q.handle = true ∧ takes.netem q.opts = true) := by
        rw [Htb.admitsNetem_iff, alike.classes, alike.netems, ← Htb.admitsNetem_iff]
        exact admitted
      rw [meet, meet, Htb.addNetemIf_of_refused takes htb q admitted,
        Htb.addNetemIf_of_refused takes htb' q refused]
      exact alike
  | filter f =>
    -- filters may be repeated: only which are there, and which comes first, has to agree
    refine ⟨alike.dflt, alike.classes, alike.netems, ?_, ?_⟩
    · intro g
      simp [meet, Htb.addFilter, alike.filters]
    · intro mark
      simp only [meet, Htb.addFilter, List.find?_append, alike.first]

end Demand

/-! ### Commands that make a demand -/

structure Makes (b : Backend Table Tree) (takes : Intake) (c : Command) (d : Demand) : Prop where
  first : ∀ htb, d.Fits htb → b.onTree c (some htb) = some (d.meet takes htb)
  again : ∀ htb, d.Met takes htb → b.onTree c (some htb) = some htb ∨
    ∃ f, d = .filter f ∧ b.onTree c (some htb) = some (htb.addFilter f)

section Makes

variable {takes : Intake} {dev : String} (laws : LinkLaws b takes dev)

include laws

theorem makes_class (parent id : String) (opts : List String) (kbit : ℤ)
    (place : (parent, id) ∈ classPlaces) (known : (id, opts) ∈ classOptions) :
    Makes b takes (runTC (["class", "add", "dev", dev, "parent", parent, "classid", id,
      "htb", "rate", print kbit "kbit"] ++ opts)) (.cls ⟨id, parent, 1000 * kbit, opts⟩) where
  first htb fits := onTree_addClass laws parent id opts kbit htb place known fits
  again htb met := by
    rw [onTree_addClass laws parent id opts kbit htb place known met.2,
      Htb.addClassIf_of_refused takes htb _ met.1]
    exact .inl rfl

theorem makes_queue (parent handle : String) (opts : List String)
    (place : (parent, handle) ∈ queuePlaces) (known : NetemArgs opts) :
    Makes b takes (runTC (["qdisc", "add", "dev", dev, "parent", parent, "handle", handle,
      "netem"] ++ opts)) (.queue ⟨handle, parent, opts⟩) where
  first htb _ := onTree_addNetem laws parent handle opts htb place known
  again htb met := by
    rw [onTree_addNetem laws parent handle opts htb place known,
      Htb.addNetemIf_of_refused takes htb _ met]
    exact .inl rfl

theorem makes_filter (prio flowid handle : String) (n : ℕ) (place : (prio, flowid) ∈ filterPlaces)
    (known : (handle, n) ∈ handles) :
    Makes b takes (runTC ["filter", "add", "dev", dev, "protocol", "ip", "parent", "1:0",
      "prio", prio, "handle", handle, "fw", "flowid", flowid]) (.filter ⟨n, flowid⟩) where
  first htb fits :=
    onTree_addFilter laws prio flowid handle n htb place known (by simpa [Demand.Fits] using fits)
  again htb met := by
    rw [Backend.onTree, args_runTC]
    rcases laws.add_filter_again prio flowid handle n htb place known met with refused | added
    · exact .inl (by rw [refused, Option.getD_none])
    · exact .inr ⟨_, rfl, by rw [added, Option.getD_some]⟩

end Makes

/-- Commands whose demands fit the tree they find and spare each other. -/
theorem perform_makes {takes : Intake} (steps : List (Command × Demand))
    (makes : ∀ step ∈ steps, Makes b takes step.1 step.2)
    (spared : (steps.map Prod.snd).Pairwise Demand.Spares) (htb : Htb)
    (fits : ∀ step ∈ steps, step.2.Fits htb) :
    Redo.perform b.onTree (some htb) (steps.map Prod.fst) =
      some (Demand.meetAll takes (steps.map Prod.snd) htb) := by
  induction steps using List.reverseRecOn with
  | nil => rfl
  | append_singleton steps step ih =>
    rw [List.map_append] at spared ⊢
    obtain ⟨before, _, last⟩ := List.pairwise_append.mp spared
    have fits_now : step.2.Fits (Demand.meetAll takes (steps.map Prod.snd) htb) :=
      Demand.fits_meetAll _ _ _ (fits step (by simp)) fun d earlier => last d earlier step.2 (by simp)
    rw [List.map_append, Redo.perform_append,
      ih (fun other member => makes other (List.mem_append_left _ member)) before
        (fun other member => fits other (List.mem_append_left _ member)),
      List.map_singleton, List.map_singleton, Demand.meetAll_concat]
    exact (makes step (by simp)).first _ fits_now

/-! ### Blocks -/

/-- Two trees of one device that treat packets alike. -/
def TreeAlike (tree tree' : Tree) : Prop := Option.Rel Alike tree tree'

theorem TreeAlike.path {tree tree' : Tree} (alike : TreeAlike tree tree') (mark : ℕ) :
    Tree.path tree' mark = Tree.path tree mark := by
  cases alike with
  | none => rfl
  | some alike => exact alike.path mark

/-- A root qdisc and commands whose demands spare each other. -/
structure DemandBlock (b : Backend Table Tree) (takes : Intake) (dev : String) where
  minor : String
  known : minor ∈ ["20", "30"]
  steps : List (Command × Demand)
  makes : ∀ step ∈ steps, Makes b takes step.1 step.2
  spared : (steps.map Prod.snd).Pairwise Demand.Spares

namespace DemandBlock

variable {takes : Intake} {dev : String}

def root (block : DemandBlock b takes dev) : Command :=
  runTC ["qdisc", "add", "dev", dev, "root", "handle", "1:0", "htb", "default", block.minor]

def commands (block : DemandBlock b takes dev) : List Command :=
  block.root :: block.steps.map Prod.fst

/-- The tree after some steps of a block. -/
def built (block : DemandBlock b takes dev) (steps : List (Command × Demand)) : Htb :=
  Demand.meetAll takes (steps.map Prod.snd) (.root ("1:" ++ block.minor))

/-- The next step of a block finds a tree it fits. -/
theorem fits_next (block : DemandBlock b takes dev) (done rest : List (Command × Demand))
    (step : Command × Demand) (split : block.steps = done ++ step :: rest) :
    step.2.Fits (block.built done) := by
  have spared := block.spared
  rw [split, List.map_append, List.map_cons] at spared
  refine Demand.fits_meetAll _ _ _ (Demand.fits_root _ _) ?_
  intro d earlier
  exact (List.pairwise_append.mp spared).2.2 d earlier step.2 (by simp)

theorem perform_steps (laws : LinkLaws b takes dev) (block : DemandBlock b takes dev)
    (done rest : List (Command × Demand)) (split : block.steps = done ++ rest) :
    Redo.perform b.onTree none (block.root :: done.map Prod.fst) = some (block.built done) := by
  have spared := block.spared
  rw [split, List.map_append] at spared
  have opened := onTree_addRoot laws block.minor block.known
  rw [Redo.perform, List.foldl_cons, root, opened]
  exact perform_makes done (fun step member => block.makes step (by simp [split, member]))
    (List.pairwise_append.mp spared).1 _ fun step _ => Demand.fits_root step.2 _

/-- A step that was taken adds nothing to any tree like the one that is there now. -/
theorem absorbs_done (block : DemandBlock b takes dev) (done rest : List (Command × Demand))
    (split : block.steps = done ++ rest) (step : Command × Demand) (member : step ∈ done) :
    Redo.Absorbs b.onTree TreeAlike (some (block.built done)) step.1 := by
  have spared := block.spared
  rw [split, List.map_append] at spared
  have met : step.2.Met takes (block.built done) :=
    Demand.met_meetAll (done.map Prod.snd) ("1:" ++ block.minor)
      (List.pairwise_append.mp spared).1 step.2 (List.mem_map_of_mem member)
  intro tree' good
  cases good with | some alike =>
  rcases (block.makes step (by simp [split, member])).again _ (met.alike alike) with same | ⟨f, asks, more⟩
  · rw [same]
    exact .some alike
  · rw [more]
    rw [asks] at met
    exact .some (alike.again f met)

/-- A block can be started over after any number of broken attempts. -/
theorem redoable (laws : LinkLaws b takes dev) (block : DemandBlock b takes dev) :
    Redo.Redoable b.onTree TreeAlike none block.commands where
  -- every command that was performed changes nothing when it is performed again
  absorbs done rest split c member := by
    cases done with
    | nil => cases member
    | cons first done =>
      obtain ⟨rfl, below⟩ := List.cons.inj split
      obtain ⟨steps, steps', apart, rfl, _⟩ := List.map_eq_append_iff.mp below
      rw [block.perform_steps laws steps steps' apart]
      rcases List.mem_cons.mp member with rfl | later
      · -- the root qdisc is there
        intro tree' good
        cases good with | some alike =>
        rw [root, onTree_addRoot_again laws _ block.known]
        exact .some alike
      · obtain ⟨step, taken, rfl⟩ := List.mem_map.mp later
        exact block.absorbs_done steps steps' apart step taken
  -- and the next one does the same to trees that differ in repeated filters only
  carries done c rest split := by
    intro tree' good
    cases done with
    | nil =>
      cases good with | none =>
      obtain ⟨rfl, _⟩ := List.cons.inj split
      rw [Redo.perform, List.foldl_nil, root, onTree_addRoot laws _ block.known]
      exact .some (Alike.refl _)
    | cons first done =>
      obtain ⟨rfl, below⟩ := List.cons.inj split
      obtain ⟨steps, steps', apart, rfl, next⟩ := List.map_eq_append_iff.mp below
      obtain ⟨step, steps', rfl, rfl, _⟩ := List.map_eq_cons_iff.mp next
      rw [block.perform_steps laws steps _ apart] at good ⊢
      cases good with | some alike =>
      have fits := block.fits_next steps steps' step apart
      have made := block.makes step (by simp [apart])
      rw [made.first _ fits, made.first _ (fits.alike alike)]
      exact .some (Demand.alike_meet step.2 alike)

end DemandBlock

/-! ### The blocks of the setup -/

section Setup

variable {takes : Intake} {dev : String} (laws : LinkLaws b takes dev)

def plainDemands (link : ℤ) (netem : List String) (mark : String) (n : ℕ)
    (shape : NetemArgs netem) (known : (mark, n) ∈ handles) : DemandBlock b takes dev where
  minor := "30"
  known := by decide
  steps := (plainBlock dev link netem mark).tail.zip
    [.cls (linkClass (1000 * link)), .queue ⟨"2:0", "1:1", netem⟩, .filter ⟨n, "1:1"⟩]
  makes := by
    intro step member
    simp only [plainBlock, List.tail_cons, List.zip_cons_cons, List.zip_nil_right, List.mem_cons,
      List.not_mem_nil, or_false] at member
    rcases member with rfl | rfl | rfl
    · exact makes_class laws _ _ _ link (by decide) (by decide)
    · exact makes_queue laws _ _ netem (by decide) shape
    · exact makes_filter laws _ _ mark n (by decide) known
  spared := by
    simp [plainBlock, Demand.Spares, linkClass]

def qosDemands (leafParent : String) (link voip rest : ℤ) (netemVoIP netemRest : List String)
    (markVoIP markRest : String) (n m : ℕ) (parent : leafParent = "1:0" ∨ leafParent = "1:1")
    (shapeVoIP : NetemArgs netemVoIP) (shapeRest : NetemArgs netemRest)
    (knownVoIP : (markVoIP, n) ∈ handles) (knownRest : (markRest, m) ∈ handles)
    (distinct : n ≠ m) : DemandBlock b takes dev where
  minor := "20"
  known := by decide
  steps := (qosBlock dev leafParent link voip rest netemVoIP netemRest markVoIP markRest).tail.zip
    [.cls (linkClass (1000 * link)), .cls (voipClass leafParent (1000 * voip)),
      .queue ⟨"110:", "1:10", netemVoIP⟩, .cls (restClass leafParent (1000 * rest)),
      .queue ⟨"120:", "1:20", netemRest⟩, .filter ⟨n, "1:10"⟩, .filter ⟨m, "1:20"⟩]
  makes := by
    have placeVoIP : (leafParent, "1:10") ∈ classPlaces := by
      rcases parent with rfl | rfl <;> decide
    have placeRest : (leafParent, "1:20") ∈ classPlaces := by
      rcases parent with rfl | rfl <;> decide
    intro step member
    simp only [qosBlock, List.tail_cons, List.zip_cons_cons, List.zip_nil_right, List.mem_cons,
      List.not_mem_nil, or_false] at member
    rcases member with rfl | rfl | rfl | rfl | rfl | rfl | rfl
    · exact makes_class laws _ _ _ link (by decide) (by decide)
    · exact makes_class laws _ _ _ voip placeVoIP (by decide)
    · exact makes_queue laws _ _ netemVoIP (by decide) shapeVoIP
    · exact makes_class laws _ _ _ rest placeRest (by decide)
    · exact makes_queue laws _ _ netemRest (by decide) shapeRest
    · exact makes_filter laws _ _ markVoIP n (by decide) knownVoIP
    · exact makes_filter laws _ _ markRest m (by decide) knownRest
  spared := by
    rcases parent with rfl | rfl <;>
      simp [qosBlock, Demand.Spares, linkClass, voipClass, restClass, distinct]

end Setup

theorem blockGW_redoable {takes : Intake} (a : Arithmetic) (t : TrunksConfig)
    (laws : LinkLaws b takes t.nic.gw) (uname : Except Error String) :
    Redo.Redoable b.onTree TreeAlike none (blockGW a t uname) := by
  unfold blockGW
  split
  · exact (qosDemands laws "1:1" _ _ _ _ _ "11" "10" 11 10 (.inr rfl) (netemArgs_shape ..)
      (netemArgs_shape ..) (by decide) (by decide) (by decide)).redoable laws
  · exact (plainDemands laws _ _ "10" 10 (netemArgs_shape ..) (by decide)).redoable laws

theorem blockST_redoable {takes : Intake} (a : Arithmetic) (t : TrunksConfig)
    (laws : LinkLaws b takes t.nic.st) (uname : Except Error String) :
    Redo.Redoable b.onTree TreeAlike none (blockST a t uname) := by
  unfold blockST
  split
  · exact (qosDemands laws "1:0" _ _ _ _ _ "21" "20" 21 20 (.inl rfl) (netemArgs_shape ..)
      (netemArgsRestST_shape ..) (by decide) (by decide) (by decide)).redoable laws
  · exact (plainDemands laws _ _ "20" 20 (netemArgs_shape ..) (by decide)).redoable laws

end Tlink.Net
