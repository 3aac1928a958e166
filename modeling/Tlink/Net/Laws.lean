import Tlink.Net.Kernel

/-!
# What the program relies on of `iptables` and `tc`

The two programs are not part of the repository. `FlushLaws` speaks of deletion for
tables and trees of any kind, `LinkLaws` of the additions and changes on the state of
`Tlink.Net.Kernel`, for one device and the arguments the program gives. Nothing is said about
other arguments. How large the numbers may be depends on the `tc` that is installed: an `Intake`.
-/
namespace Tlink.Net

open Numeral Tlink.Runtime

/-- Flushing empties the table or fails; deleting a root qdisc removes the whole tree,
and fails only where there is none. -/
structure FlushLaws {Table Tree : Type} (b : Backend Table Tree) (emptyTable : Table)
    (noQdisc : Tree) : Prop where
  flush : ∀ table table', b.iptables ["-F", "-t", "mangle"] table = some table' →
    table' = emptyTable
  del_root : ∀ dev tree tree', b.tc ["qdisc", "del", "dev", dev, "root"] tree = some tree' →
    tree' = noQdisc
  del_root_failed : ∀ dev tree, b.tc ["qdisc", "del", "dev", dev, "root"] tree = none →
    tree = noQdisc

/-! ### What is taken -/

/-- The netem options without jitter. -/
def delayed (delay limit : ℤ) : List String := ["delay", print delay "ms", "limit", print limit ""]

/-- The netem options with jitter. -/
def distributed (delay jitter limit : ℤ) : List String :=
  ["delay", print delay "ms", print jitter "ms", "distribution", "normal", "limit", print limit ""]

/-- The netem options of the one command that leaves its delay out. -/
def undelayed (limit : ℤ) : List String := ["delay", "limit", print limit ""]

/-- The numbers and the netem options the installed `tc` takes. -/
structure Intake where
  /-- In bit/s. -/
  maxRate : ℤ
  /-- In ms. -/
  maxTime : ℤ
  /-- In packets. -/
  maxLimit : ℤ
  netem : List String → Bool
  /-- Rates are kept as bytes per second, in 32 bits at least and in 64 at most. -/
  rates : 2 ^ 32 ≤ maxRate ∧ maxRate < 2 ^ 67
  /-- Times are kept as nanoseconds, in 64 bits at most. -/
  times : 1000000 * maxTime < 2 ^ 63
  /-- Limits are kept in 32 bits. -/
  limits : maxLimit < 2 ^ 32
  takesDelayed : ∀ d l, 0 ≤ d → d ≤ maxTime → 0 ≤ l → l ≤ maxLimit → netem (delayed d l) = true
  takesDistributed : ∀ d j l, 0 < d → d ≤ maxTime → 0 < j → j ≤ maxTime → 0 ≤ l → l ≤ maxLimit →
    netem (distributed d j l) = true
  /-- A distribution needs both a delay and a jitter. -/
  refusesStill : ∀ d j l, d = 0 ∨ j = 0 → netem (distributed d j l) = false

/-- Rates from the first bit/s to the largest there is. -/
def Intake.Rate (takes : Intake) (bits : ℤ) : Prop := 0 < bits ∧ bits ≤ takes.maxRate

instance (takes : Intake) (bits : ℤ) : Decidable (takes.Rate bits) :=
  inferInstanceAs (Decidable (_ ∧ _))

/-! ### The arguments of the program -/

/-- The marks, as text and as numbers. -/
def handles : List (String × ℕ) := [("10", 10), ("11", 11), ("20", 20), ("21", 21)]

def dscps : List (String × ℕ) := [("0x2c", 0x2c), ("0x2e", 0x2e)]

/-- The classes and where they are put. -/
def classPlaces : List (String × String) :=
  [("1:0", "1:1"), ("1:0", "1:10"), ("1:0", "1:20"), ("1:1", "1:10"), ("1:1", "1:20")]

/-- The options a class is added with. -/
def classOptions : List (String × List String) :=
  [ ("1:1", ["burst", "30k", "cburst", "30k"]),
    ("1:10", ["prio", "0", "burst", "3k", "cburst", "3k"]),
    ("1:20", ["prio", "1", "burst", "30k", "cburst", "30k"]) ]

/-- The options a class is changed with. -/
def changeOptions : List (String × List String) := [("1:1", []), ("1:20", ["prio", "1"])]

/-- The classes that get a queue, and its handle. -/
def queuePlaces : List (String × String) := [("1:1", "2:0"), ("1:10", "110:"), ("1:20", "120:")]

inductive NetemArgs : List String → Prop
  | delayed (d l : ℤ) : NetemArgs (delayed d l)
  | distributed (d j l : ℤ) : NetemArgs (distributed d j l)
  | undelayed (l : ℤ) : NetemArgs (undelayed l)

/-- The priorities of the filters and the classes they name. -/
def filterPlaces : List (String × String) := [("1", "1:1"), ("0", "1:10"), ("1", "1:20")]

/-! ### The laws -/

/-- The documented behaviour, on one device, of the commands that build and change a link. -/
structure LinkLaws (b : Backend Table Tree) (takes : Intake) (dev : String) : Prop where
  append_mark : ∀ mark n (table : Table), (mark, n) ∈ handles →
    b.iptables ["-t", "mangle", "-A", "PREROUTING", "-i", dev, "-j", "MARK", "--set-mark", mark]
      table = some (table.append "PREROUTING" ⟨dev, none, n⟩)
  append_dscp_mark : ∀ dscp d mark n (table : Table), (dscp, d) ∈ dscps → (mark, n) ∈ handles →
    b.iptables ["-t", "mangle", "-A", "PREROUTING", "-i", dev, "-m", "dscp", "--dscp", dscp,
      "-j", "MARK", "--set-mark", mark] table =
        some (table.append "PREROUTING" ⟨dev, some d, n⟩)
  add_root : ∀ minor, minor ∈ ["20", "30"] →
    b.tc ["qdisc", "add", "dev", dev, "root", "handle", "1:0", "htb", "default", minor] none =
      some (some (.root ("1:" ++ minor)))
  add_root_again : ∀ minor htb, minor ∈ ["20", "30"] →
    b.tc ["qdisc", "add", "dev", dev, "root", "handle", "1:0", "htb", "default", minor]
      (some htb) = none
  /-- A class is added where there is room for it and its rate is taken. -/
  add_class : ∀ parent id opts kbit htb, (parent, id) ∈ classPlaces → (id, opts) ∈ classOptions →
    htb.netems.all (·.parent ≠ parent) →
    b.tc (["class", "add", "dev", dev, "parent", parent, "classid", id, "htb", "rate",
        print kbit "kbit"] ++ opts) (some htb) =
      if htb.admitsClass parent id = true ∧ takes.Rate (1000 * kbit) then
        some (some (htb.addClass ⟨id, parent, 1000 * kbit, opts⟩))
      else none
  change_class : ∀ id opts mbit htb, (id, opts) ∈ changeOptions →
    b.tc (["class", "change", "dev", dev, "parent", "1:0", "classid", id, "htb", "rate",
        print mbit "mbit"] ++ opts) (some htb) =
      if htb.hasClass id = true ∧ takes.Rate (1000000 * mbit) then
        some (some (htb.changeClass id (1000000 * mbit) opts))
      else none
  /-- A queue is added where there is room for it and its options are taken. -/
  add_netem : ∀ parent handle opts htb, (parent, handle) ∈ queuePlaces → NetemArgs opts →
    b.tc (["qdisc", "add", "dev", dev, "parent", parent, "handle", handle, "netem"] ++ opts)
        (some htb) =
      if htb.admitsNetem parent handle = true ∧ takes.netem opts = true then
        some (some (htb.addNetem ⟨handle, parent, opts⟩))
      else none
  add_filter : ∀ prio flowid handle n htb, (prio, flowid) ∈ filterPlaces → (handle, n) ∈ handles →
    htb.filters.all (·.mark ≠ n) →
    b.tc ["filter", "add", "dev", dev, "protocol", "ip", "parent", "1:0", "prio", prio,
        "handle", handle, "fw", "flowid", flowid] (some htb) =
      some (some (htb.addFilter ⟨n, flowid⟩))
  /-- An existing filter is refused or repeated. -/
  add_filter_again : ∀ prio flowid handle n htb, (prio, flowid) ∈ filterPlaces →
    (handle, n) ∈ handles → ⟨n, flowid⟩ ∈ htb.filters →
    b.tc ["filter", "add", "dev", dev, "protocol", "ip", "parent", "1:0", "prio", prio,
        "handle", handle, "fw", "flowid", flowid] (some htb) = none ∨
    b.tc ["filter", "add", "dev", dev, "protocol", "ip", "parent", "1:0", "prio", prio,
        "handle", handle, "fw", "flowid", flowid] (some htb) =
      some (some (htb.addFilter ⟨n, flowid⟩))

/-- The devices of an instance. -/
def Names (nic : NIC) (dev : String) : Prop := dev = nic.st ∨ dev = nic.gw

/-- The laws on both devices of an instance. -/
def LinkLawsOn (b : Backend Table Tree) (takes : Intake) (nic : NIC) : Prop :=
  ∀ dev, Names nic dev → LinkLaws b takes dev

theorem LinkLawsOn.st {b : Backend Table Tree} {takes : Intake} {nic : NIC}
    (laws : LinkLawsOn b takes nic) : LinkLaws b takes nic.st := laws _ (.inl rfl)

theorem LinkLawsOn.gw {b : Backend Table Tree} {takes : Intake} {nic : NIC}
    (laws : LinkLawsOn b takes nic) : LinkLaws b takes nic.gw := laws _ (.inr rfl)

end Tlink.Net
