import Tlink.Lib.LastMatch
import Tlink.Runtime.Command

/-!
# What the kernel keeps and what a forwarded packet meets

The mangle table holds chains of MARK rules. A device has no root qdisc or an HTB
tree with handle `1:0`; classes, attached netem queues and `fw` filters keep the
arguments they were created with.
-/
namespace Tlink.Net

open Numeral

/-! ### Reading option values -/

/-- Rates in bit/s. -/
def readRate (s : String) : Option ℤ :=
  match read s with
  | some (n, "bit") => some n
  | some (n, "kbit") => some (1000 * n)
  | some (n, "mbit") => some (1000000 * n)
  | _ => none

/-- Times in ms. -/
def readMs (s : String) : Option ℤ :=
  match read s with
  | some (n, "ms") => some n
  | _ => none

def readCount (s : String) : Option ℤ :=
  match read s with
  | some (n, "") => some n
  | _ => none

@[simp] theorem readRate_kbit (n : ℤ) : readRate (print n "kbit") = some (1000 * n) := by
  simp [readRate, read_print n "kbit" (by decide)]

@[simp] theorem readRate_mbit (n : ℤ) : readRate (print n "mbit") = some (1000000 * n) := by
  simp [readRate, read_print n "mbit" (by decide)]

@[simp] theorem readMs_print (n : ℤ) : readMs (print n "ms") = some n := by
  simp [readMs, read_print n "ms" (by decide)]

@[simp] theorem readCount_print (n : ℤ) : readCount (print n "") = some n := by
  simp [readCount, read_print n "" (by decide)]

/-- What stands after the first occurrence of a keyword. -/
def argsAfter (key : String) : List String → List String
  | [] => []
  | arg :: args => if arg = key then args else argsAfter key args

/-! ### Packets and marks -/

structure Packet where
  ingress : String
  egress : String
  dscp : ℕ
  mark : ℕ
  deriving DecidableEq

structure MarkRule where
  iface : String
  dscp : Option ℕ
  mark : ℕ
  deriving DecidableEq

/-- The mangle table, by chain. -/
abbrev Table := String → List MarkRule

def Table.empty : Table := fun _ => []

def Table.append (table : Table) (chain : String) (rule : MarkRule) : Table :=
  Function.update table chain (table chain ++ [rule])

def MarkRule.verdict (p : Packet) (rule : MarkRule) : Option ℕ :=
  if rule.iface = p.ingress ∧ (rule.dscp = none ∨ rule.dscp = some p.dscp) then some rule.mark
  else none

/-- MARK does not end the evaluation of the chain. -/
def Table.markOf (table : Table) (p : Packet) : ℕ :=
  LastMatch.eval (MarkRule.verdict p) (table "PREROUTING") p.mark

/-! ### Queueing trees -/

structure HtbClass where
  id : String
  parent : String
  rate : ℤ
  opts : List String
  deriving DecidableEq

structure Netem where
  handle : String
  parent : String
  opts : List String
  deriving DecidableEq

/-- The delay is the argument that follows `delay`. -/
def Netem.delay (q : Netem) : Option ℤ := (argsAfter "delay" q.opts)[0]?.bind readMs

/-- The jitter is the next argument, if it is a time. -/
def Netem.jitter (q : Netem) : Option ℤ := (argsAfter "delay" q.opts)[1]?.bind readMs

/-- In packets. -/
def Netem.limit (q : Netem) : Option ℤ := (argsAfter "limit" q.opts).head?.bind readCount

structure Filter where
  mark : ℕ
  flowid : String
  deriving DecidableEq

structure Htb where
  dflt : String
  classes : List HtbClass
  netems : List Netem
  filters : List Filter
  deriving DecidableEq

/-- The tree of one device. Without a root qdisc there is nothing else. -/
abbrev Tree := Option Htb

/-! ### What a command says about queues and classes -/

/-- The queue a `qdisc add ... netem` command asks for. -/
def netemOf : Runtime.Command → Option Netem
  | ⟨.tc, "qdisc" :: "add" :: "dev" :: _ :: "parent" :: parent :: "handle" :: handle ::
      "netem" :: opts⟩ => some ⟨handle, parent, opts⟩
  | _ => none

/-- The rate a command asks for, as text. -/
structure ClassRate where
  device : String
  classid : String
  rate : String
  deriving DecidableEq

/-- Adding and changing a class look alike in this. -/
def classRateOf : Runtime.Command → Option ClassRate
  | ⟨.tc, "class" :: _ :: "dev" :: dev :: "parent" :: _ :: "classid" :: id :: "htb" :: "rate" ::
      rate :: _⟩ => some ⟨dev, id, rate⟩
  | _ => none

namespace Htb

def root (dflt : String) : Htb := ⟨dflt, [], [], []⟩

def hasClass (htb : Htb) (id : String) : Bool := htb.classes.any (·.id = id)

def isLeaf (htb : Htb) (id : String) : Bool := htb.classes.all (·.parent ≠ id)

def addClass (htb : Htb) (c : HtbClass) : Htb := { htb with classes := htb.classes ++ [c] }
def addNetem (htb : Htb) (q : Netem) : Htb := { htb with netems := htb.netems ++ [q] }
def addFilter (htb : Htb) (f : Filter) : Htb := { htb with filters := htb.filters ++ [f] }

/-- A class keeps its place in the tree when its rate is changed. -/
def changeClass (htb : Htb) (id : String) (rate : ℤ) (opts : List String) : Htb :=
  { htb with classes := htb.classes.map fun c =>
      if c.id = id then { c with rate := rate, opts := opts } else c }

/-- Room for a new class: a known parent and an unused id. -/
def admitsClass (htb : Htb) (parent id : String) : Bool :=
  (parent = "1:0" || htb.hasClass parent) && !htb.hasClass id

/-- Room for a queue: an existing leaf class without one, and an unused handle. -/
def admitsNetem (htb : Htb) (parent handle : String) : Bool :=
  htb.hasClass parent && htb.isLeaf parent &&
    htb.netems.all fun q => q.parent ≠ parent && q.handle ≠ handle

def leaf (htb : Htb) (id : String) : Option HtbClass :=
  if htb.isLeaf id then htb.classes.find? (·.id = id) else none

/-- The leaf class of the first filter for the mark, else the default class. A packet
that finds neither is sent unshaped. -/
def classify (htb : Htb) (mark : ℕ) : Option HtbClass :=
  -- a filter that names an inner class classifies nothing
  ((htb.filters.find? (·.mark = mark)).bind fun f => htb.leaf f.flowid).or (htb.leaf htb.dflt)

/-- A class and the classes above it. -/
def lineage (htb : Htb) : ℕ → HtbClass → List HtbClass
  | 0, c => [c]
  | fuel + 1, c =>
    match htb.classes.find? (·.id = c.parent) with
    | none => [c]
    | some parent => c :: lineage htb fuel parent

end Htb

/-- The classes and the queues a packet goes through on its egress device. -/
structure Route where
  classes : List HtbClass
  netems : List Netem
  deriving DecidableEq

/-- What the queues of a path add to the transit time. -/
def Route.delay (path : Route) : Option ℤ := (path.netems.mapM Netem.delay).map List.sum

def Tree.path (tree : Tree) (mark : ℕ) : Route :=
  match tree with
  | none => ⟨[], []⟩
  | some htb =>
    match htb.classify mark with
    | none => ⟨[], []⟩
    | some c => ⟨htb.lineage htb.classes.length c, htb.netems.filter (·.parent = c.id)⟩

/-- A forwarded packet is marked on the way in and queued on the way out. -/
def transit (net : Runtime.Network Table Tree) (p : Packet) : Route :=
  Tree.path (net.tree p.egress) (net.table.markOf p)

end Tlink.Net
