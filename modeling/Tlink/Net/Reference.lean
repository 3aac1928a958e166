import Tlink.Net.Rules

/-!
# A backend that obeys the laws

`reference` decides the commands of the program the documented way and refuses every
other command, netem options that are not complete included. It shows that the laws
can be met together and evaluates concrete configurations.
-/
namespace Tlink.Net

open Numeral Tlink.Runtime

/-- Rates of 64-bit bytes per second, times of 64-bit nanoseconds and limits of 32 bits. -/
def referenceRate : ℤ := 8 * (2 ^ 64 - 1)
def referenceTime : ℤ := 9223372036854
def referenceLimit : ℤ := 2 ^ 32 - 1

def netemAccepts : List String → Bool
  | ["delay", delay, "limit", limit] =>
    (readMs delay).any (fun d => 0 ≤ d ∧ d ≤ referenceTime) &&
      (readCount limit).any (fun l => 0 ≤ l ∧ l ≤ referenceLimit)
  | ["delay", delay, jitter, "distribution", "normal", "limit", limit] =>
    (readMs delay).any (fun d => 0 < d ∧ d ≤ referenceTime) &&
      (readMs jitter).any (fun j => 0 < j ∧ j ≤ referenceTime) &&
      (readCount limit).any (fun l => 0 ≤ l ∧ l ≤ referenceLimit)
  | _ => false

def referenceIntake : Intake where
  maxRate := referenceRate
  maxTime := referenceTime
  maxLimit := referenceLimit
  netem := netemAccepts
  rates := by decide
  times := by decide
  limits := by decide
  takesDelayed d l d_nonneg d_le l_nonneg l_le := by
    simp [netemAccepts, delayed, d_nonneg, d_le, l_nonneg, l_le]
  takesDistributed d j l d_pos d_le j_pos j_le l_nonneg l_le := by
    simp [netemAccepts, distributed, d_pos, d_le, j_pos, j_le, l_nonneg, l_le]
  refusesStill d j l still := by
    rcases still with rfl | rfl <;> simp [netemAccepts, distributed]

def iptablesRef (args : List String) (table : Table) : Option Table :=
  match args with
  | ["-F", "-t", "mangle"] => some Table.empty
  | "-t" :: "mangle" :: "-A" :: chain :: "-i" :: iface :: spec =>
    match spec with
    | ["-j", "MARK", "--set-mark", mark] =>
      (readNat mark).map fun n => table.append chain ⟨iface, none, n⟩
    | ["-m", "dscp", "--dscp", dscp, "-j", "MARK", "--set-mark", mark] =>
      (readNat dscp).bind fun d =>
        (readNat mark).map fun n => table.append chain ⟨iface, some d, n⟩
    | _ => none
  | _ => none

def qdiscAddRef (args : List String) (tree : Tree) : Option Tree :=
  match args, tree with
  | ["root", "handle", "1:0", "htb", "default", minor], none => some (some (.root ("1:" ++ minor)))
  | "parent" :: parent :: "handle" :: handle :: "netem" :: opts, some htb =>
    if htb.admitsNetem parent handle = true ∧ netemAccepts opts = true then
      some (some (htb.addNetem ⟨handle, parent, opts⟩))
    else none
  | _, _ => none

def classAddRef (args : List String) (tree : Tree) : Option Tree :=
  match args, tree with
  | "parent" :: parent :: "classid" :: id :: "htb" :: "rate" :: rate :: opts, some htb =>
    (readRate rate).bind fun bits =>
      if htb.admitsClass parent id = true ∧ referenceIntake.Rate bits then
        some (some (htb.addClass ⟨id, parent, bits, opts⟩))
      else none
  | _, _ => none

def classChangeRef (args : List String) (tree : Tree) : Option Tree :=
  match args, tree with
  | "parent" :: "1:0" :: "classid" :: id :: "htb" :: "rate" :: rate :: opts, some htb =>
    (readRate rate).bind fun bits =>
      if htb.hasClass id = true ∧ referenceIntake.Rate bits then
        some (some (htb.changeClass id bits opts))
      else none
  | _, _ => none

def filterAddRef (args : List String) (tree : Tree) : Option Tree :=
  match args, tree with
  | ["protocol", "ip", "parent", "1:0", "prio", _, "handle", handle, "fw", "flowid", flowid],
      some htb =>
    (readNat handle).bind fun n =>
      -- of the two behaviours the laws leave open, a repeated filter is refused
      if ⟨n, flowid⟩ ∈ htb.filters then none else some (some (htb.addFilter ⟨n, flowid⟩))
  | _, _ => none

def tcRef (args : List String) (tree : Tree) : Option Tree :=
  match args with
  | "qdisc" :: "add" :: "dev" :: _ :: rest => qdiscAddRef rest tree
  | "class" :: "add" :: "dev" :: _ :: rest => classAddRef rest tree
  | "class" :: "change" :: "dev" :: _ :: rest => classChangeRef rest tree
  | "filter" :: "add" :: "dev" :: _ :: rest => filterAddRef rest tree
  | ["qdisc", "del", "dev", _, "root"] => tree.map fun _ => none
  | ["filter", "del", "dev", _] => tree.map fun htb => some { htb with filters := [] }
  | _ => none

def reference : Backend Table Tree := ⟨iptablesRef, tcRef⟩

/-- No rules and no root qdiscs. -/
def fresh : Network Table Tree := ⟨Table.empty, fun _ => none⟩

theorem reference_flushLaws : FlushLaws reference Table.empty (none : Tree) where
  flush table table' flushed := by
    simpa [reference, iptablesRef] using flushed.symm
  del_root dev tree tree' deleted := by
    cases tree with
    | none => simp [reference, tcRef] at deleted
    | some htb => simpa [reference, tcRef] using deleted.symm
  del_root_failed dev tree failed := by
    simpa [reference, tcRef] using failed

theorem reference_linkLaws (dev : String) : LinkLaws reference referenceIntake dev where
  append_mark mark n table known := by
    simp [reference, iptablesRef, readNat_of_handle known]
  append_dscp_mark dscp d mark n table knownDscp known := by
    simp [reference, iptablesRef, readNat_of_handle known, readNat_of_dscp knownDscp]
  add_root minor known := by simp [reference, tcRef, qdiscAddRef]
  add_root_again minor htb known := by simp [reference, tcRef, qdiscAddRef]
  add_class parent id opts kbit htb place known free := by
    simp [reference, tcRef, classAddRef]
  change_class id opts mbit htb known := by
    simp [reference, tcRef, classChangeRef]
  add_netem parent handle opts htb place known := by
    simp only [reference, tcRef, List.cons_append, List.nil_append, qdiscAddRef]
    rfl
  add_filter prio flowid handle n htb place known unused := by
    have absent : (⟨n, flowid⟩ : Filter) ∉ htb.filters := by
      intro member
      simpa using List.all_eq_true.mp unused _ member
    simp [reference, tcRef, filterAddRef, readNat_of_handle known, absent]
  add_filter_again prio flowid handle n htb place known member := by
    left
    simp [reference, tcRef, filterAddRef, readNat_of_handle known, member]

theorem reference_linkLawsOn (nic : NIC) : LinkLawsOn reference referenceIntake nic :=
  fun dev _ => reference_linkLaws dev

end Tlink.Net
