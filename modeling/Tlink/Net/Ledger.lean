import Tlink.Net.Demands

/-!
# What a device keeps of many setups

A device that several setups without QoS have named, each of them as far as it got, keeps the class
of the first one whose rate was taken and, from then on, the first queue whose options were. Filters
accumulate. All of this can be read off the list of what the commands asked for, without executing
anything.
-/
namespace Tlink.Net

open Numeral Tlink.Runtime

variable {b : Backend Table Tree} {takes : Intake}

/-! ### The abstract device -/

/-- What one command below the root qdisc asks for. -/
inductive Ask where
  /-- In kbit/s. -/
  | link (kbit : ℤ)
  | queue (netem : List String)
  | filter (mark : ℕ)
  deriving DecidableEq

namespace Ask

def rate (takes : Intake) : Ask → Option ℤ
  | .link kbit => if takes.Rate (1000 * kbit) then some (1000 * kbit) else none
  | _ => none

def netem (takes : Intake) : Ask → Option Netem
  | .queue opts => if takes.netem opts then some ⟨"2:0", "1:1", opts⟩ else none
  | _ => none

def isFilter : Ask → Bool
  | .filter _ => true
  | _ => false

def demand : Ask → Demand
  | .link kbit => .cls (linkClass (1000 * kbit))
  | .queue opts => .queue ⟨"2:0", "1:1", opts⟩
  | .filter mark => .filter ⟨mark, "1:1"⟩

end Ask

def firstRate (takes : Intake) (asks : List Ask) : Option ℤ := asks.findSome? (Ask.rate takes)

/-- A queue needs the class above it, which may be there since an earlier setup. -/
def firstQueue (takes : Intake) (asks : List Ask) : Option Netem :=
  (asks.dropWhile fun ask => (ask.rate takes).isNone).findSome? (Ask.netem takes)

/-- The way of a packet through the device. -/
def shaping (takes : Intake) (asks : List Ask) (mark : ℕ) : Route :=
  if .filter mark ∈ asks then
    match firstRate takes asks with
    | none => ⟨[], []⟩
    | some bits => ⟨[linkClass bits], (firstQueue takes asks).toList⟩
  else ⟨[], []⟩

theorem firstRate_concat (asks : List Ask) (ask : Ask) :
    firstRate takes (asks ++ [ask]) = (firstRate takes asks).or (ask.rate takes) := by
  rw [firstRate, List.findSome?_append]
  simp [firstRate]

/-- Nothing is left where no rate was taken, and only there. -/
theorem dropWhile_eq_nil_iff (asks : List Ask) :
    (asks.dropWhile fun ask => (ask.rate takes).isNone) = [] ↔ firstRate takes asks = none := by
  simp [firstRate, List.dropWhile_eq_nil_iff]

/-- Without a class there is no queue. -/
theorem firstQueue_of_unshaped (asks : List Ask) (unshaped : firstRate takes asks = none) :
    firstQueue takes asks = none := by
  rw [firstQueue, (dropWhile_eq_nil_iff asks).mpr unshaped]
  rfl

theorem firstQueue_concat (asks : List Ask) (ask : Ask) :
    firstQueue takes (asks ++ [ask]) =
      (firstQueue takes asks).or
        (if (firstRate takes asks).isSome then ask.netem takes else none) := by
  rw [firstQueue, List.dropWhile_append]
  cases shaped : firstRate takes asks with
  | none =>
    have dropped := (dropWhile_eq_nil_iff asks).mpr shaped
    rw [firstQueue_of_unshaped asks shaped, dropped]
    -- the command that brings the class is not one for a queue
    cases ask with
    | link kbit => by_cases taken : takes.Rate (1000 * kbit) <;> simp [Ask.rate, Ask.netem, taken]
    | queue opts => simp [Ask.rate]
    | filter mark => simp [Ask.rate]
  | some bits =>
    have left : (asks.dropWhile fun ask => (ask.rate takes).isNone) ≠ [] := by
      rw [ne_eq, dropWhile_eq_nil_iff, shaped]
      simp
    rw [if_neg (by simpa [List.isEmpty_iff] using left), List.findSome?_append, ← firstQueue]
    simp

/-- More commands change neither. -/
theorem first_append (asks more : List Ask) (bits : ℤ) (q : Netem)
    (shaped : firstRate takes asks = some bits) (queued : firstQueue takes asks = some q) :
    firstRate takes (asks ++ more) = some bits ∧ firstQueue takes (asks ++ more) = some q := by
  induction more using List.reverseRecOn with
  | nil => simpa using ⟨shaped, queued⟩
  | append_singleton more ask ih =>
    rw [← List.append_assoc, firstQueue_concat, firstRate_concat, ih.1, ih.2]
    exact ⟨rfl, rfl⟩

/-- A device whose filters are deleted. -/
def unfiltered (asks : List Ask) : List Ask := asks.filter fun ask => !ask.isFilter

theorem unfiltered_concat (asks : List Ask) (ask : Ask) :
    unfiltered (asks ++ [ask]) = if ask.isFilter then unfiltered asks else unfiltered asks ++ [ask] := by
  cases filter : ask.isFilter <;> simp [unfiltered, List.filter_append, filter]

/-- The class and the queue do not depend on filters. -/
theorem first_unfiltered (asks : List Ask) :
    firstRate takes (unfiltered asks) = firstRate takes asks ∧
      firstQueue takes (unfiltered asks) = firstQueue takes asks := by
  induction asks using List.reverseRecOn with
  | nil => exact ⟨rfl, rfl⟩
  | append_singleton asks ask ih =>
    rw [unfiltered_concat, firstRate_concat, firstQueue_concat]
    cases ask with
    | link kbit => simp [Ask.isFilter, firstRate_concat, firstQueue_concat, ih]
    | queue opts => simp [Ask.isFilter, firstRate_concat, firstQueue_concat, ih]
    | filter mark => simp [Ask.isFilter, Ask.rate, Ask.netem, ih]

/-! ### The tree follows it -/

/-- The tree is the one the commands have left. -/
structure Keeps (takes : Intake) (asks : List Ask) (htb : Htb) : Prop where
  dflt : htb.dflt = "1:30"
  classes : htb.classes = (firstRate takes asks).toList.map linkClass
  netems : htb.netems = (firstQueue takes asks).toList
  flowid : ∀ f ∈ htb.filters, f.flowid = "1:1"
  marks : ∀ n, (∃ f ∈ htb.filters, f.mark = n) ↔ .filter n ∈ asks

/-- Without a root qdisc nothing has been asked for. -/
def Follows (takes : Intake) (asks : Option (List Ask)) (tree : Tree) : Prop :=
  Option.Rel (Keeps takes) asks tree

theorem keeps_root (takes : Intake) : Keeps takes [] (.root "1:30") := by
  refine ⟨rfl, rfl, rfl, ?_, ?_⟩
  · intro f member
    cases member
  · simp [Htb.root]

/-- The queue there is hangs below the one class. -/
theorem parent_firstQueue (asks : List Ask) (q : Netem) (queued : firstQueue takes asks = some q) :
    q.parent = "1:1" := by
  obtain ⟨ask, _, asked⟩ := List.exists_of_findSome?_eq_some queued
  cases ask with
  | link kbit => cases asked
  | queue opts =>
    by_cases accepted : takes.netem opts = true
    · simp only [Ask.netem, accepted, if_true, Option.some.injEq] at asked
      rw [← asked]
    · simp [Ask.netem, accepted] at asked
  | filter mark => cases asked

/-- The first rate that is taken, of the class there is and the one that is asked for. -/
theorem Keeps.link {asks : List Ask} {htb : Htb} (keeps : Keeps takes asks htb) (kbit : ℤ) :
    Keeps takes (asks ++ [.link kbit]) (htb.addClassIf takes (linkClass (1000 * kbit))) := by
  have classes := keeps.classes
  refine ⟨by simpa using keeps.dflt, ?_, ?_, by simpa using keeps.flowid, ?_⟩
  · rw [firstRate_concat]
    cases shaped : firstRate takes asks with
    | some bits =>
      rw [shaped] at classes
      have refused : htb.RefusesClass takes (linkClass (1000 * kbit)) := by
        intro admitted
        -- the id is taken
        exact ((htb.admitsClass_iff _ _).mp admitted.1).2 (linkClass bits) (by simp [classes]) rfl
      rw [Htb.addClassIf_of_refused takes htb _ refused, classes, Option.some_or]
    | none =>
      rw [shaped] at classes
      have room : htb.admitsClass "1:0" "1:1" = true := by
        rw [htb.admitsClass_iff]
        exact ⟨.inl rfl, by simp [classes]⟩
      by_cases taken : takes.Rate (1000 * kbit)
      · rw [htb.addClassIf_of_room takes _ room taken, Htb.addClass, classes, Ask.rate, if_pos taken]
        rfl
      · have refused : htb.RefusesClass takes (linkClass (1000 * kbit)) :=
          fun admitted => taken admitted.2
        rw [Htb.addClassIf_of_refused takes htb _ refused, classes, Ask.rate, if_neg taken]
        rfl
  · rw [Htb.addClassIf_netems, keeps.netems, firstQueue_concat]
    simp [Ask.netem]
  · intro n
    simp [keeps.marks]

theorem Keeps.queue {asks : List Ask} {htb : Htb} (keeps : Keeps takes asks htb)
    (opts : List String) :
    Keeps takes (asks ++ [.queue opts]) (htb.addNetemIf takes ⟨"2:0", "1:1", opts⟩) := by
  have classes := keeps.classes
  have netems := keeps.netems
  refine ⟨by simpa using keeps.dflt, ?_, ?_, by simpa using keeps.flowid, ?_⟩
  · rw [Htb.addNetemIf_classes, classes, firstRate_concat]
    simp [Ask.rate]
  · rw [firstQueue_concat]
    cases shaped : firstRate takes asks with
    | none =>
      rw [shaped] at classes
      have refused : htb.RefusesNetem takes ⟨"2:0", "1:1", opts⟩ := by
        intro admitted
        obtain ⟨⟨c, member, _⟩, _⟩ := (htb.admitsNetem_iff _ _).mp admitted.1
        simp [classes] at member
      rw [Htb.addNetemIf_of_refused takes htb _ refused, netems]
      simp
    | some bits =>
      rw [shaped] at classes
      cases queued : firstQueue takes asks with
      | some q =>
        rw [queued] at netems
        have refused : htb.RefusesNetem takes ⟨"2:0", "1:1", opts⟩ := by
          intro admitted
          -- the class has its queue
          exact (((htb.admitsNetem_iff _ _).mp admitted.1).2.2 q (by simp [netems])).1
            (parent_firstQueue asks q queued)
        rw [Htb.addNetemIf_of_refused takes htb _ refused, netems, Option.some_or]
      | none =>
        rw [queued] at netems
        have room : htb.admitsNetem "1:1" "2:0" = true := by
          rw [htb.admitsNetem_iff]
          exact ⟨⟨linkClass bits, by simp [classes], rfl⟩, by simp [classes, linkClass],
            by simp [netems]⟩
        rw [htb.addNetemIf_of_room takes _ room, netems]
        by_cases accepted : takes.netem opts = true <;> simp [queueIf, Ask.netem, accepted]
  · intro n
    simp [keeps.marks]

theorem Keeps.filter {asks : List Ask} {htb : Htb} (keeps : Keeps takes asks htb) (mark : ℕ) :
    Keeps takes (asks ++ [.filter mark]) (htb.addFilter ⟨mark, "1:1"⟩) := by
  refine ⟨keeps.dflt, ?_, ?_, ?_, ?_⟩
  · rw [firstRate_concat]
    simpa [Ask.rate, Htb.addFilter] using keeps.classes
  · rw [firstQueue_concat]
    simpa [Ask.netem, Htb.addFilter] using keeps.netems
  · intro f member
    rcases List.mem_append.mp member with old | new
    · exact keeps.flowid f old
    · rw [List.mem_singleton.mp new]
  · intro n
    rw [List.mem_append, ← keeps.marks]
    simp [Htb.addFilter, or_and_right, exists_or, eq_comm (a := n)]

/-- Asking for the filter of a mark that has one. -/
theorem Keeps.filter_again {asks : List Ask} {htb : Htb} (keeps : Keeps takes asks htb) (mark : ℕ)
    (asked : .filter mark ∈ asks) : Keeps takes (asks ++ [.filter mark]) htb := by
  refine ⟨keeps.dflt, ?_, ?_, keeps.flowid, ?_⟩
  · rw [firstRate_concat]
    simpa [Ask.rate] using keeps.classes
  · rw [firstQueue_concat]
    simpa [Ask.netem] using keeps.netems
  · intro n
    rw [keeps.marks]
    simp only [List.mem_append, List.mem_singleton, Ask.filter.injEq]
    constructor
    · exact .inl
    · rintro (old | rfl)
      · exact old
      · exact asked

theorem Keeps.unfiltered {asks : List Ask} {htb : Htb} (keeps : Keeps takes asks htb) :
    Keeps takes (unfiltered asks) { htb with filters := [] } := by
  obtain ⟨rate, queue⟩ := @first_unfiltered takes asks
  refine ⟨keeps.dflt, by rw [rate]; exact keeps.classes, by rw [queue]; exact keeps.netems, ?_, ?_⟩
  · intro f member
    cases member
  · simp [Net.unfiltered, Ask.isFilter]

/-- One command below the root, whether it is carried out, refused or repeated. -/
theorem Keeps.make {c : Command} {ask : Ask} (makes : Makes b takes c ask.demand) {asks : List Ask}
    {htb : Htb} (keeps : Keeps takes asks htb) :
    ∃ htb', b.onTree c (some htb) = some htb' ∧ Keeps takes (asks ++ [ask]) htb' := by
  cases ask with
  | link kbit =>
    -- the queue that may be there hangs below the class, not below its parent
    have fits : (Ask.link kbit).demand.Fits htb := by
      intro q member
      rw [keeps.netems, Option.mem_toList] at member
      rw [parent_firstQueue asks q member]
      simp [linkClass]
    exact ⟨_, makes.first htb fits, keeps.link kbit⟩
  | queue opts => exact ⟨_, makes.first htb trivial, keeps.queue opts⟩
  | filter mark =>
    -- a filter that was asked for is there: it is refused or repeated
    by_cases asked : Ask.filter mark ∈ asks
    · obtain ⟨f, member, marked⟩ := (keeps.marks mark).mpr asked
      have there : (⟨mark, "1:1"⟩ : Filter) ∈ htb.filters := by
        rw [← marked, ← keeps.flowid f member]
        exact member
      rcases makes.again htb there with same | ⟨g, asks_g, added⟩
      · exact ⟨htb, same, keeps.filter_again mark asked⟩
      · obtain rfl := Demand.filter.inj asks_g
        exact ⟨_, added, keeps.filter mark⟩
    · have fits : (Ask.filter mark).demand.Fits htb := by
        intro f member marked
        exact asked ((keeps.marks mark).mp ⟨f, member, marked⟩)
      exact ⟨_, makes.first htb fits, keeps.filter mark⟩

/-! ### Where there may be no root qdisc -/

/-- Deleting the filters of a device. -/
theorem Follows.unfilter {asks : Option (List Ask)} {tree : Tree}
    (follows : Follows takes asks tree) :
    Follows takes (asks.map unfiltered) (tree.map fun htb => { htb with filters := [] }) := by
  cases follows with
  | none => exact .none
  | some keeps => exact .some keeps.unfiltered

/-- A root qdisc that is there stays. -/
theorem Follows.root {dev : String} (laws : LinkLaws b takes dev) {asks : Option (List Ask)}
    {tree : Tree} (follows : Follows takes asks tree) :
    Follows takes (some (asks.getD []))
      (b.onTree (runTC ["qdisc", "add", "dev", dev, "root", "handle", "1:0", "htb", "default",
        "30"]) tree) := by
  cases follows with
  | none =>
    rw [onTree_addRoot laws "30" (by decide)]
    exact .some (keeps_root takes)
  | some keeps =>
    rw [onTree_addRoot_again laws "30" (by decide)]
    exact .some keeps

theorem Follows.make {c : Command} {ask : Ask} (makes : Makes b takes c ask.demand)
    {asks : Option (List Ask)} {tree : Tree} (follows : Follows takes asks tree)
    (opened : asks.isSome = true) :
    Follows takes (asks.map (· ++ [ask])) (b.onTree c tree) := by
  cases follows with
  | none => cases opened
  | some keeps =>
    obtain ⟨htb', made, keeps'⟩ := keeps.make makes
    rw [made]
    exact .some keeps'

/-! ### What a packet meets -/

theorem Keeps.leaf {asks : List Ask} {htb : Htb} (keeps : Keeps takes asks htb) (id : String) :
    htb.leaf id = if id = "1:1" then (firstRate takes asks).map linkClass else none := by
  have classes := keeps.classes
  cases shaped : firstRate takes asks with
  | none =>
    rw [shaped] at classes
    simp [Htb.leaf, classes]
  | some bits =>
    rw [shaped] at classes
    by_cases link : id = "1:1"
    · simp [Htb.leaf, Htb.isLeaf, classes, linkClass, link]
    · simp [Htb.leaf, classes, linkClass, link, Ne.symm link]

/-- The class of a mark some command has asked for; the default class does not exist. -/
theorem Keeps.classify {asks : List Ask} {htb : Htb} (keeps : Keeps takes asks htb) (mark : ℕ) :
    htb.classify mark =
      if .filter mark ∈ asks then (firstRate takes asks).map linkClass else none := by
  rw [Htb.classify, keeps.dflt, keeps.leaf "1:30", if_neg (by decide), Option.or_none]
  cases found : htb.filters.find? (·.mark = mark) with
  | none =>
    have unasked : Ask.filter mark ∉ asks := by
      rw [← keeps.marks]
      simpa using found
    rw [if_neg unasked, Option.bind_none]
  | some f =>
    have member := List.mem_of_find?_eq_some found
    have asked : Ask.filter mark ∈ asks :=
      (keeps.marks mark).mp ⟨f, member, by simpa using List.find?_some found⟩
    rw [if_pos asked, Option.bind_some, keeps.flowid f member, keeps.leaf, if_pos rfl]

/-- Where a tree follows the commands, so does every packet. -/
theorem Follows.path {asks : Option (List Ask)} {tree : Tree} (follows : Follows takes asks tree)
    (mark : ℕ) : tree.path mark = shaping takes (asks.getD []) mark := by
  cases follows with
  | none => rfl
  | @some asks htb keeps =>
    rw [Option.getD_some]
    by_cases asked : Ask.filter mark ∈ asks
    · simp only [Tree.path, shaping, keeps.classify, if_pos asked]
      cases shaped : firstRate takes asks with
      | none => rfl
      | some bits =>
        have classes := keeps.classes
        rw [shaped] at classes
        have all : htb.netems.filter (·.parent = "1:1") = htb.netems := by
          rw [List.filter_eq_self]
          intro q member
          rw [keeps.netems, Option.mem_toList] at member
          simpa using parent_firstQueue asks q member
        simp [classes, Htb.lineage, linkClass, all, ← keeps.netems]
    · simp only [Tree.path, shaping, keeps.classify, if_neg asked]

end Tlink.Net
