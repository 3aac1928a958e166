import Tlink.Net.Setup

/-!
# The trees the setup builds

On a tree that exists, adding a class or a queue is a function of the tree: it is done where
there is room, and refused elsewhere without effect. A block on a device without a root qdisc is
the composition of these functions, whatever numbers it carries; with rates that are taken
everything it asks for is there.
-/
namespace Tlink.Net

open Rounding Numeral Tlink.Runtime

variable {b : Backend Table Tree}

/-! ### Additions that may be refused -/

namespace Htb

theorem admitsClass_iff (htb : Htb) (parent id : String) :
    htb.admitsClass parent id = true ↔
      (parent = "1:0" ∨ ∃ c ∈ htb.classes, c.id = parent) ∧ ∀ c ∈ htb.classes, c.id ≠ id := by
  simp [admitsClass, hasClass]

theorem admitsNetem_iff (htb : Htb) (parent handle : String) :
    htb.admitsNetem parent handle = true ↔
      (∃ c ∈ htb.classes, c.id = parent) ∧ (∀ c ∈ htb.classes, c.parent ≠ parent) ∧
        ∀ q ∈ htb.netems, q.parent ≠ parent ∧ q.handle ≠ handle := by
  simp [admitsNetem, hasClass, isLeaf, and_assoc]

def RefusesClass (takes : Intake) (htb : Htb) (c : HtbClass) : Prop :=
  ¬ (htb.admitsClass c.parent c.id = true ∧ takes.Rate c.rate)

def RefusesNetem (takes : Intake) (htb : Htb) (q : Netem) : Prop :=
  ¬ (htb.admitsNetem q.parent q.handle = true ∧ takes.netem q.opts = true)

def addClassIf (takes : Intake) (htb : Htb) (c : HtbClass) : Htb :=
  if htb.admitsClass c.parent c.id = true ∧ takes.Rate c.rate then htb.addClass c else htb

def addNetemIf (takes : Intake) (htb : Htb) (q : Netem) : Htb :=
  if htb.admitsNetem q.parent q.handle = true ∧ takes.netem q.opts = true then htb.addNetem q else htb

theorem addClassIf_of_room (takes : Intake) (htb : Htb) (c : HtbClass)
    (room : htb.admitsClass c.parent c.id = true) (taken : takes.Rate c.rate) :
    htb.addClassIf takes c = htb.addClass c :=
  if_pos ⟨room, taken⟩

theorem addClassIf_of_refused (takes : Intake) (htb : Htb) (c : HtbClass)
    (refused : htb.RefusesClass takes c) : htb.addClassIf takes c = htb :=
  if_neg refused

theorem addNetemIf_of_refused (takes : Intake) (htb : Htb) (q : Netem)
    (refused : htb.RefusesNetem takes q) : htb.addNetemIf takes q = htb :=
  if_neg refused

/-- A class is added or refused; there is no third outcome. -/
theorem addClassIf_cases (takes : Intake) (htb : Htb) (c : HtbClass) :
    htb.addClassIf takes c = htb.addClass c ∨
      htb.RefusesClass takes c ∧ htb.addClassIf takes c = htb := by
  by_cases admitted : htb.admitsClass c.parent c.id = true ∧ takes.Rate c.rate
  · exact .inl (if_pos admitted)
  · exact .inr ⟨admitted, if_neg admitted⟩

theorem addNetemIf_cases (takes : Intake) (htb : Htb) (q : Netem) :
    htb.addNetemIf takes q = htb.addNetem q ∨
      htb.RefusesNetem takes q ∧ htb.addNetemIf takes q = htb := by
  by_cases admitted : htb.admitsNetem q.parent q.handle = true ∧ takes.netem q.opts = true
  · exact .inl (if_pos admitted)
  · exact .inr ⟨admitted, if_neg admitted⟩

@[simp] theorem addClassIf_netems (takes : Intake) (htb : Htb) (c : HtbClass) :
    (htb.addClassIf takes c).netems = htb.netems := by
  rcases htb.addClassIf_cases takes c with same | ⟨_, same⟩ <;> simp [same, addClass]

@[simp] theorem addClassIf_filters (takes : Intake) (htb : Htb) (c : HtbClass) :
    (htb.addClassIf takes c).filters = htb.filters := by
  rcases htb.addClassIf_cases takes c with same | ⟨_, same⟩ <;> simp [same, addClass]

@[simp] theorem addNetemIf_classes (takes : Intake) (htb : Htb) (q : Netem) :
    (htb.addNetemIf takes q).classes = htb.classes := by
  rcases htb.addNetemIf_cases takes q with same | ⟨_, same⟩ <;> simp [same, addNetem]

@[simp] theorem addNetemIf_filters (takes : Intake) (htb : Htb) (q : Netem) :
    (htb.addNetemIf takes q).filters = htb.filters := by
  rcases htb.addNetemIf_cases takes q with same | ⟨_, same⟩ <;> simp [same, addNetem]

@[simp] theorem addClassIf_dflt (takes : Intake) (htb : Htb) (c : HtbClass) :
    (htb.addClassIf takes c).dflt = htb.dflt := by
  rcases htb.addClassIf_cases takes c with same | ⟨_, same⟩ <;> simp [same, addClass]

@[simp] theorem addNetemIf_dflt (takes : Intake) (htb : Htb) (q : Netem) :
    (htb.addNetemIf takes q).dflt = htb.dflt := by
  rcases htb.addNetemIf_cases takes q with same | ⟨_, same⟩ <;> simp [same, addNetem]

theorem mem_addClassIf (takes : Intake) (htb : Htb) (c c' : HtbClass)
    (member : c' ∈ (htb.addClassIf takes c).classes) : c' ∈ htb.classes ∨ c' = c := by
  rcases htb.addClassIf_cases takes c with added | ⟨_, same⟩
  · rw [added] at member
    rcases List.mem_append.mp member with old | new
    · exact .inl old
    · exact .inr (List.mem_singleton.mp new)
  · rw [same] at member
    exact .inl member

theorem mem_addClassIf_of_mem (takes : Intake) (htb : Htb) (c c' : HtbClass)
    (member : c' ∈ htb.classes) : c' ∈ (htb.addClassIf takes c).classes := by
  rcases htb.addClassIf_cases takes c with added | ⟨_, same⟩
  · rw [added]
    exact List.mem_append_left _ member
  · rwa [same]

theorem mem_addNetemIf (takes : Intake) (htb : Htb) (q q' : Netem)
    (member : q' ∈ (htb.addNetemIf takes q).netems) : q' ∈ htb.netems ∨ q' = q := by
  rcases htb.addNetemIf_cases takes q with added | ⟨_, same⟩
  · rw [added] at member
    rcases List.mem_append.mp member with old | new
    · exact .inl old
    · exact .inr (List.mem_singleton.mp new)
  · rw [same] at member
    exact .inl member

end Htb

/-- The queue, if its options are accepted. -/
def queueIf (takes : Intake) (q : Netem) : List Netem :=
  if takes.netem q.opts then [q] else []

theorem all_queueIf (takes : Intake) (q : Netem) (p : Netem → Bool) (holds : p q = true) :
    (queueIf takes q).all p = true := by
  unfold queueIf
  split <;> simp [holds]

theorem filter_queueIf (takes : Intake) (q : Netem) (id : String) :
    (queueIf takes q).filter (·.parent = id) = if q.parent = id then queueIf takes q else [] := by
  by_cases accepted : takes.netem q.opts = true <;> by_cases under : q.parent = id <;>
    simp [queueIf, accepted, under]

theorem Htb.addNetemIf_of_room (takes : Intake) (htb : Htb) (q : Netem)
    (room : htb.admitsNetem q.parent q.handle = true) :
    htb.addNetemIf takes q = { htb with netems := htb.netems ++ queueIf takes q } := by
  by_cases accepted : takes.netem q.opts = true <;>
    simp [Htb.addNetemIf, room, accepted, queueIf, Htb.addNetem]

/-! ### Single commands on a tree -/

section Commands

variable {takes : Intake} {dev : String} (laws : LinkLaws b takes dev)

include laws

theorem onTree_addRoot (minor : String) (known : minor ∈ ["20", "30"]) :
    b.onTree (runTC ["qdisc", "add", "dev", dev, "root", "handle", "1:0", "htb", "default", minor])
      none = some (.root ("1:" ++ minor)) := by
  rw [Backend.onTree, args_runTC, laws.add_root minor known, Option.getD_some]

theorem onTree_addRoot_again (minor : String) (known : minor ∈ ["20", "30"]) (htb : Htb) :
    b.onTree (runTC ["qdisc", "add", "dev", dev, "root", "handle", "1:0", "htb", "default", minor])
      (some htb) = some htb := by
  rw [Backend.onTree, args_runTC, laws.add_root_again minor htb known, Option.getD_none]

theorem onTree_addClass (parent id : String) (opts : List String) (kbit : ℤ) (htb : Htb)
    (place : (parent, id) ∈ classPlaces) (known : (id, opts) ∈ classOptions)
    (free : ∀ q ∈ htb.netems, q.parent ≠ parent) :
    b.onTree (runTC (["class", "add", "dev", dev, "parent", parent, "classid", id,
        "htb", "rate", print kbit "kbit"] ++ opts)) (some htb) =
      some (htb.addClassIf takes ⟨id, parent, 1000 * kbit, opts⟩) := by
  rw [Backend.onTree, args_runTC,
    laws.add_class parent id opts kbit htb place known (by simpa using free)]
  unfold Htb.addClassIf
  split <;> rfl

theorem onTree_addNetem (parent handle : String) (opts : List String) (htb : Htb)
    (place : (parent, handle) ∈ queuePlaces) (known : NetemArgs opts) :
    b.onTree (runTC (["qdisc", "add", "dev", dev, "parent", parent, "handle", handle, "netem"] ++
        opts)) (some htb) =
      some (htb.addNetemIf takes ⟨handle, parent, opts⟩) := by
  rw [Backend.onTree, args_runTC, laws.add_netem parent handle opts htb place known]
  unfold Htb.addNetemIf
  split <;> rfl

theorem onTree_addFilter (prio flowid handle : String) (n : ℕ) (htb : Htb)
    (place : (prio, flowid) ∈ filterPlaces) (known : (handle, n) ∈ handles)
    (unused : htb.filters.all (·.mark ≠ n)) :
    b.onTree (runTC ["filter", "add", "dev", dev, "protocol", "ip", "parent", "1:0", "prio", prio,
        "handle", handle, "fw", "flowid", flowid]) (some htb) =
      some (htb.addFilter ⟨n, flowid⟩) := by
  rw [Backend.onTree, args_runTC, laws.add_filter prio flowid handle n htb place known unused,
    Option.getD_some]

end Commands

/-! ### The trees the blocks build -/

def linkClass (bits : ℤ) : HtbClass := ⟨"1:1", "1:0", bits, ["burst", "30k", "cburst", "30k"]⟩

/-- What a block without QoS leaves on a bare device. -/
def plainBuilt (takes : Intake) (link : ℤ) (netem : List String) (mark : ℕ) : Htb :=
  (((Htb.root "1:30").addClassIf takes (linkClass (1000 * link))).addNetemIf takes
    ⟨"2:0", "1:1", netem⟩).addFilter ⟨mark, "1:1"⟩

theorem plainBlock_built {takes : Intake} {dev : String} (laws : LinkLaws b takes dev) (link : ℤ)
    (netem : List String) (mark : String) (n : ℕ) (shape : NetemArgs netem)
    (known : (mark, n) ∈ handles) :
    (plainBlock dev link netem mark).foldl (fun tree c => b.onTree c tree) none =
      some (plainBuilt takes link netem n) := by
  simp only [plainBlock, List.foldl_cons, List.foldl_nil]
  rw [onTree_addRoot laws _ (by decide),
    onTree_addClass laws _ _ _ link _ (by decide) (by decide) (by simp [Htb.root]),
    onTree_addNetem laws _ _ _ _ (by decide) shape,
    onTree_addFilter laws _ _ _ n _ (by decide) known (by simp [Htb.root])]
  rfl

def voipClass (parent : String) (bits : ℤ) : HtbClass :=
  ⟨"1:10", parent, bits, ["prio", "0", "burst", "3k", "cburst", "3k"]⟩

def restClass (parent : String) (bits : ℤ) : HtbClass :=
  ⟨"1:20", parent, bits, ["prio", "1", "burst", "30k", "cburst", "30k"]⟩

/-- The rate of the VoIP class is always taken. -/
theorem rate_voip (takes : Intake) : takes.Rate (1000 * 2) := by
  have large := takes.rates.1
  exact ⟨by norm_num, by omega⟩

/-- What a block with QoS leaves on a bare device. -/
def qosBuilt (takes : Intake) (leafParent : String) (link voip rest : ℤ)
    (netemVoIP netemRest : List String) (markVoIP markRest : ℕ) : Htb :=
  let leaves := ((((Htb.root "1:20").addClassIf takes (linkClass (1000 * link))).addClassIf takes
    (voipClass leafParent (1000 * voip))).addNetemIf takes ⟨"110:", "1:10", netemVoIP⟩).addClassIf
    takes (restClass leafParent (1000 * rest))
  ((leaves.addNetemIf takes ⟨"120:", "1:20", netemRest⟩).addFilter ⟨markVoIP, "1:10"⟩).addFilter
    ⟨markRest, "1:20"⟩

theorem qosBlock_built {takes : Intake} {dev : String} (laws : LinkLaws b takes dev)
    (leafParent : String) (link voip rest : ℤ) (netemVoIP netemRest : List String)
    (markVoIP markRest : String) (n m : ℕ) (parent : leafParent = "1:0" ∨ leafParent = "1:1")
    (shapeVoIP : NetemArgs netemVoIP) (shapeRest : NetemArgs netemRest)
    (knownVoIP : (markVoIP, n) ∈ handles) (knownRest : (markRest, m) ∈ handles) (distinct : n ≠ m) :
    (qosBlock dev leafParent link voip rest netemVoIP netemRest markVoIP markRest).foldl
        (fun tree c => b.onTree c tree) none =
      some (qosBuilt takes leafParent link voip rest netemVoIP netemRest n m) := by
  have leaf : "1:10" ≠ leafParent := by rcases parent with rfl | rfl <;> decide
  have placeVoIP : (leafParent, "1:10") ∈ classPlaces := by rcases parent with rfl | rfl <;> decide
  have placeRest : (leafParent, "1:20") ∈ classPlaces := by rcases parent with rfl | rfl <;> decide
  simp only [qosBlock, List.foldl_cons, List.foldl_nil]
  rw [onTree_addRoot laws _ (by decide),
    onTree_addClass laws _ _ _ link _ (by decide) (by decide) (by simp [Htb.root]),
    onTree_addClass laws _ _ _ voip _ placeVoIP (by decide) (by simp [Htb.root]),
    onTree_addNetem laws _ _ _ _ (by decide) shapeVoIP,
    onTree_addClass laws _ _ _ rest _ placeRest (by decide) ?free,
    onTree_addNetem laws _ _ _ _ (by decide) shapeRest,
    onTree_addFilter laws _ _ _ n _ (by decide) knownVoIP (by simp [Htb.root]),
    onTree_addFilter laws _ _ _ m _ (by decide) knownRest
      (by simpa [Htb.root, Htb.addFilter] using distinct)]
  · rfl
  -- the one queue that may be there hangs below the other leaf
  · intro q member
    rcases Htb.mem_addNetemIf _ _ _ q member with old | rfl
    · simp [Htb.root] at old
    · exact leaf

/-! ### The tree of a device -/

/-- The tree of the gateway side, whatever the configuration says. -/
def builtGW (takes : Intake) (a : Arithmetic) (t : TrunksConfig) (uname : Except Error String) :
    Htb :=
  if t.qos then
    qosBuilt takes "1:1" (linkKbit a t.bandwidth.retun) 2 (restKbit a t.bandwidth.retun)
      (netemArgs a t uname (queueLimit a (some t.bandwidth.retun) t.delay.denomination))
      (netemArgs a t uname (queueLimit a (some t.bandwidth.retun) t.delay.denomination)) 11 10
  else
    plainBuilt takes (linkKbit a t.bandwidth.retun)
      (netemArgs a t uname (queueLimit a (some t.bandwidth.retun) t.delay.denomination)) 10

def builtST (takes : Intake) (a : Arithmetic) (t : TrunksConfig) (uname : Except Error String) :
    Htb :=
  if t.qos then
    qosBuilt takes "1:0" (linkKbit a t.bandwidth.forward) 2 (restKbit a t.bandwidth.forward)
      (netemArgs a t uname (queueLimit a (some 2) t.delay.denomination))
      (netemArgsRestST a t uname
        (queueLimit a (restBandwidth a t.bandwidth.forward) t.delay.denomination)) 21 20
  else
    plainBuilt takes (linkKbit a t.bandwidth.forward)
      (netemArgs a t uname (queueLimit a (some t.bandwidth.forward) t.delay.denomination)) 20

theorem blockGW_built {takes : Intake} (a : Arithmetic) (t : TrunksConfig)
    (laws : LinkLaws b takes t.nic.gw) (uname : Except Error String) :
    (blockGW a t uname).foldl (fun tree c => b.onTree c tree) none =
      some (builtGW takes a t uname) := by
  unfold blockGW builtGW
  split
  · exact qosBlock_built laws "1:1" _ _ _ _ _ "11" "10" 11 10 (.inr rfl) (netemArgs_shape ..)
      (netemArgs_shape ..) (by decide) (by decide) (by decide)
  · exact plainBlock_built laws _ _ "10" 10 (netemArgs_shape ..) (by decide)

theorem blockST_built {takes : Intake} (a : Arithmetic) (t : TrunksConfig)
    (laws : LinkLaws b takes t.nic.st) (uname : Except Error String) :
    (blockST a t uname).foldl (fun tree c => b.onTree c tree) none =
      some (builtST takes a t uname) := by
  unfold blockST builtST
  split
  · exact qosBlock_built laws "1:0" _ _ _ _ _ "21" "20" 21 20 (.inl rfl) (netemArgs_shape ..)
      (netemArgsRestST_shape ..) (by decide) (by decide) (by decide)
  · exact plainBlock_built laws _ _ "20" 20 (netemArgs_shape ..) (by decide)

/-- What `Run` leaves on every device, also where some of its numbers are refused. -/
theorem run_built {takes : Intake} (a : Arithmetic) (t : TrunksConfig)
    (laws : LinkLawsOn b takes t.nic) (uname : Except Error String) (start : Network Table Tree)
    (distinct : t.nic.st ≠ t.nic.gw) (bare : ∀ dev, start.tree dev = none) (dev : String) :
    (b.execAll start (run a t uname)).tree dev =
      if dev = t.nic.gw then some (builtGW takes a t uname)
      else if dev = t.nic.st then some (builtST takes a t uname)
      else none := by
  rw [execAll_tree_apply, run_filter_device, bare]
  by_cases gw : dev = t.nic.gw
  · subst gw
    simpa [distinct] using blockGW_built a t laws.gw uname
  · by_cases st : dev = t.nic.st
    · subst st
      simpa [gw, distinct.symm] using blockST_built a t laws.st uname
    · simp [gw, st, Ne.symm gw, Ne.symm st]

/-! ### Rates that are taken -/

def plainTree (link : ℤ) (netems : List Netem) (mark : ℕ) : Htb :=
  ⟨"1:30", [linkClass (1000 * link)], netems, [⟨mark, "1:1"⟩]⟩

theorem plainBuilt_of_taken (takes : Intake) (link : ℤ) (netem : List String) (mark : ℕ)
    (taken : takes.Rate (1000 * link)) :
    plainBuilt takes link netem mark =
      plainTree link (queueIf takes ⟨"2:0", "1:1", netem⟩) mark := by
  rw [plainBuilt, Htb.addClassIf_of_room _ _ _ rfl taken, Htb.addNetemIf_of_room _ _ _ rfl]
  simp [plainTree, Htb.root, Htb.addClass, Htb.addFilter]

/-- The two leaf classes hang where `leafParent` says. -/
def qosTree (leafParent : String) (link voip rest : ℤ) (queues : List Netem)
    (markVoIP markRest : ℕ) : Htb :=
  ⟨"1:20",
    [linkClass (1000 * link), voipClass leafParent (1000 * voip),
      restClass leafParent (1000 * rest)],
    queues, [⟨markVoIP, "1:10"⟩, ⟨markRest, "1:20"⟩]⟩

def qosQueues (takes : Intake) (netemVoIP netemRest : List String) : List Netem :=
  queueIf takes ⟨"110:", "1:10", netemVoIP⟩ ++ queueIf takes ⟨"120:", "1:20", netemRest⟩

theorem qosBuilt_of_taken (takes : Intake) (leafParent : String) (link voip rest : ℤ)
    (netemVoIP netemRest : List String) (n m : ℕ)
    (parent : leafParent = "1:0" ∨ leafParent = "1:1") (takenLink : takes.Rate (1000 * link))
    (takenVoIP : takes.Rate (1000 * voip)) (takenRest : takes.Rate (1000 * rest)) :
    qosBuilt takes leafParent link voip rest netemVoIP netemRest n m =
      qosTree leafParent link voip rest (qosQueues takes netemVoIP netemRest) n m := by
  -- the first queue, if it is there, is in the way of nothing that follows
  have fresh := all_queueIf takes ⟨"110:", "1:10", netemVoIP⟩
    (fun q => q.parent ≠ "1:20" && q.handle ≠ "120:") rfl
  have leaf : leafParent ≠ "1:20" := by rcases parent with rfl | rfl <;> decide
  rw [qosBuilt, Htb.addClassIf_of_room _ _ (linkClass (1000 * link)) rfl takenLink,
    Htb.addClassIf_of_room _ _ (voipClass leafParent (1000 * voip))
      (by rcases parent with rfl | rfl <;> rfl) takenVoIP,
    Htb.addNetemIf_of_room _ _ ⟨"110:", "1:10", netemVoIP⟩
      (by rcases parent with rfl | rfl <;> rfl),
    Htb.addClassIf_of_room _ _ (restClass leafParent (1000 * rest))
      (by rcases parent with rfl | rfl <;> rfl) takenRest,
    Htb.addNetemIf_of_room _ _ ⟨"120:", "1:20", netemRest⟩
      (by simpa [Htb.admitsNetem, Htb.hasClass, Htb.isLeaf, Htb.addClass, Htb.root, linkClass,
        voipClass, restClass, leaf] using fresh)]
  rfl

end Tlink.Net
