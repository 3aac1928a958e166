import Tlink.Net.Laws
import Tlink.Runtime.Trunks

/-!
# What the setup commands build

Both branches of `run` are a list of MARK rules followed by one block of `tc` commands
for each device. The rules are appended to the chain that is there.
-/
namespace Tlink.Net

open Rounding Numeral Tlink.Runtime

variable {b : Backend Table Tree}

/-! ### The numbers of a configuration -/

/-- The rate of the link class, in kbit/s. -/
def linkKbit (a : Arithmetic) (bandwidth : ℚ) : ℤ := a.int64Round (some bandwidth)

/-- What is left to the other traffic, in kbit/s. -/
def restKbit (a : Arithmetic) (bandwidth : ℚ) : ℤ := a.pred (linkKbit a bandwidth)

/-- Half of a time, in ms. -/
def halfMs (a : Arithmetic) (time : ℚ) : ℤ := a.int64Round (a.div (some time) (some 2))

/-- The number `qlen` prints. -/
def queueLimit (a : Arithmetic) (bandwidth : Option ℚ) (denomination : ℚ) : ℤ :=
  a.int64Round (a.div (a.mul (a.mul (some 1.5) (a.mul bandwidth (some 1000000)))
    (a.div (some denomination) (some (2 * 1000)))) (some (8 * 1500)))

theorem qlen_eq (a : Arithmetic) (bandwidth : Option ℚ) (denomination : ℚ) :
    qlen a bandwidth denomination = print (queueLimit a bandwidth denomination) "" := rfl

/-- What the other traffic towards the terminal is left, for its queue. -/
def restBandwidth (a : Arithmetic) (bandwidth : ℚ) : Option ℚ := a.sub (some bandwidth) (some 1)

/-! ### The shape of the command lists -/

def netemArgs (a : Arithmetic) (t : TrunksConfig) (uname : Except Error String) (limit : ℤ) :
    List String :=
  if hasJitter t uname then
    distributed (halfMs a t.delay.denomination) (halfMs a t.delay.jitter) limit
  else delayed (halfMs a t.delay.denomination) limit

/-- The queue of class `1:20` on the terminal side lacks its delay when there is no jitter. -/
def netemArgsRestST (a : Arithmetic) (t : TrunksConfig) (uname : Except Error String) (limit : ℤ) :
    List String :=
  if hasJitter t uname then netemArgs a t uname limit else undelayed limit

def markCommand (iface mark : String) : Command :=
  runIPtables ["-t", "mangle", "-A", "PREROUTING", "-i", iface, "-j", "MARK", "--set-mark", mark]

def dscpCommand (iface dscp mark : String) : Command :=
  runIPtables ["-t", "mangle", "-A", "PREROUTING", "-i", iface, "-m", "dscp", "--dscp", dscp,
    "-j", "MARK", "--set-mark", mark]

def plainBlock (dev : String) (link : ℤ) (netem : List String) (mark : String) : List Command :=
  [ runTC ["qdisc", "add", "dev", dev, "root", "handle", "1:0", "htb", "default", "30"],
    runTC (["class", "add", "dev", dev, "parent", "1:0", "classid", "1:1", "htb", "rate",
      print link "kbit"] ++ ["burst", "30k", "cburst", "30k"]),
    runTC (["qdisc", "add", "dev", dev, "parent", "1:1", "handle", "2:0", "netem"] ++ netem),
    runTC ["filter", "add", "dev", dev, "protocol", "ip", "parent", "1:0", "prio", "1",
      "handle", mark, "fw", "flowid", "1:1"] ]

def qosBlock (dev leafParent : String) (link voip rest : ℤ) (netemVoIP netemRest : List String)
    (markVoIP markRest : String) : List Command :=
  [ runTC ["qdisc", "add", "dev", dev, "root", "handle", "1:0", "htb", "default", "20"],
    runTC (["class", "add", "dev", dev, "parent", "1:0", "classid", "1:1", "htb", "rate",
      print link "kbit"] ++ ["burst", "30k", "cburst", "30k"]),
    runTC (["class", "add", "dev", dev, "parent", leafParent, "classid", "1:10", "htb", "rate",
      print voip "kbit"] ++ ["prio", "0", "burst", "3k", "cburst", "3k"]),
    runTC (["qdisc", "add", "dev", dev, "parent", "1:10", "handle", "110:", "netem"] ++ netemVoIP),
    runTC (["class", "add", "dev", dev, "parent", leafParent, "classid", "1:20", "htb", "rate",
      print rest "kbit"] ++ ["prio", "1", "burst", "30k", "cburst", "30k"]),
    runTC (["qdisc", "add", "dev", dev, "parent", "1:20", "handle", "120:", "netem"] ++ netemRest),
    runTC ["filter", "add", "dev", dev, "protocol", "ip", "parent", "1:0", "prio", "0",
      "handle", markVoIP, "fw", "flowid", "1:10"],
    runTC ["filter", "add", "dev", dev, "protocol", "ip", "parent", "1:0", "prio", "1",
      "handle", markRest, "fw", "flowid", "1:20"] ]

def plainMarks (t : TrunksConfig) : List Command :=
  [markCommand t.nic.st "10", markCommand t.nic.gw "20"]

def qosMarks (t : TrunksConfig) : List Command :=
  [ markCommand t.nic.st "10", dscpCommand t.nic.st "0x2c" "11", dscpCommand t.nic.st "0x2e" "11",
    markCommand t.nic.gw "20", dscpCommand t.nic.gw "0x2c" "21", dscpCommand t.nic.gw "0x2e" "21" ]

def plainBlockGW (a : Arithmetic) (t : TrunksConfig) (uname : Except Error String) : List Command :=
  plainBlock t.nic.gw (linkKbit a t.bandwidth.retun)
    (netemArgs a t uname (queueLimit a (some t.bandwidth.retun) t.delay.denomination)) "10"

def plainBlockST (a : Arithmetic) (t : TrunksConfig) (uname : Except Error String) : List Command :=
  plainBlock t.nic.st (linkKbit a t.bandwidth.forward)
    (netemArgs a t uname (queueLimit a (some t.bandwidth.forward) t.delay.denomination)) "20"

def qosBlockGW (a : Arithmetic) (t : TrunksConfig) (uname : Except Error String) : List Command :=
  qosBlock t.nic.gw "1:1" (linkKbit a t.bandwidth.retun) 2 (restKbit a t.bandwidth.retun)
    (netemArgs a t uname (queueLimit a (some t.bandwidth.retun) t.delay.denomination))
    (netemArgs a t uname (queueLimit a (some t.bandwidth.retun) t.delay.denomination)) "11" "10"

def qosBlockST (a : Arithmetic) (t : TrunksConfig) (uname : Except Error String) : List Command :=
  qosBlock t.nic.st "1:0" (linkKbit a t.bandwidth.forward) 2 (restKbit a t.bandwidth.forward)
    (netemArgs a t uname (queueLimit a (some 2) t.delay.denomination))
    (netemArgsRestST a t uname
      (queueLimit a (restBandwidth a t.bandwidth.forward) t.delay.denomination)) "21" "20"

theorem netemArgs_shape (a : Arithmetic) (t : TrunksConfig) (uname : Except Error String)
    (limit : ℤ) : NetemArgs (netemArgs a t uname limit) := by
  unfold netemArgs
  split
  · exact .distributed _ _ _
  · exact .delayed _ _

theorem netemArgsRestST_shape (a : Arithmetic) (t : TrunksConfig) (uname : Except Error String)
    (limit : ℤ) : NetemArgs (netemArgsRestST a t uname limit) := by
  unfold netemArgsRestST
  split
  · exact netemArgs_shape a t uname limit
  · exact .undelayed _

theorem runWithoutQoS_eq (a : Arithmetic) (t : TrunksConfig) (uname : Except Error String) :
    runWithoutQoS a t uname =
      plainMarks t ++ (plainBlockGW a t uname ++ plainBlockST a t uname) := by
  cases jitter : hasJitter t uname <;>
    simp [runWithoutQoS, plainMarks, plainBlockGW, plainBlockST, markCommand, plainBlock, netemArgs,
      distributed, delayed, qlen_eq, linkKbit, halfMs, jitter]

theorem runWithQoS_eq (a : Arithmetic) (t : TrunksConfig) (uname : Except Error String) :
    runWithQoS a t uname = qosMarks t ++ (qosBlockGW a t uname ++ qosBlockST a t uname) := by
  cases jitter : hasJitter t uname <;>
    simp [runWithQoS, qosMarks, qosBlockGW, qosBlockST, markCommand, dscpCommand, qosBlock,
      netemArgs, netemArgsRestST, distributed, delayed, undelayed, qlen_eq, linkKbit, restKbit,
      restBandwidth, halfMs, jitter]

@[simp] theorem filter_device_plainBlock (dev dev' mark : String) (link : ℤ)
    (netem : List String) :
    (plainBlock dev link netem mark).filter (fun c => c.device = some dev') =
      if dev = dev' then plainBlock dev link netem mark else [] := by
  by_cases same : dev = dev' <;> simp [plainBlock, same]

@[simp] theorem filter_device_qosBlock (dev dev' leafParent markVoIP markRest : String)
    (link voip rest : ℤ) (netemVoIP netemRest : List String) :
    (qosBlock dev leafParent link voip rest netemVoIP netemRest markVoIP markRest).filter
        (fun c => c.device = some dev') =
      if dev = dev' then
        qosBlock dev leafParent link voip rest netemVoIP netemRest markVoIP markRest
      else [] := by
  by_cases same : dev = dev' <;> simp [qosBlock, same]

@[simp] theorem filter_table_plainBlock (dev mark : String) (link : ℤ) (netem : List String) :
    (plainBlock dev link netem mark).filter (fun c => c.tool = .iptables) = [] := by
  simp [plainBlock]

@[simp] theorem filter_table_qosBlock (dev leafParent markVoIP markRest : String) (link voip rest : ℤ)
    (netemVoIP netemRest : List String) :
    (qosBlock dev leafParent link voip rest netemVoIP netemRest markVoIP markRest).filter
      (fun c => c.tool = .iptables) = [] := by
  simp [qosBlock]

/-! ### The parts of the setup -/

def marks (t : TrunksConfig) : List Command := if t.qos then qosMarks t else plainMarks t

def blockGW (a : Arithmetic) (t : TrunksConfig) (uname : Except Error String) : List Command :=
  if t.qos then qosBlockGW a t uname else plainBlockGW a t uname

def blockST (a : Arithmetic) (t : TrunksConfig) (uname : Except Error String) : List Command :=
  if t.qos then qosBlockST a t uname else plainBlockST a t uname

theorem run_eq (a : Arithmetic) (t : TrunksConfig) (uname : Except Error String) :
    run a t uname = runSYSCTL ["net.ipv4.ip_forward=1"] ::
      (marks t ++ (blockGW a t uname ++ blockST a t uname)) := by
  cases qos : t.qos with
  | false => simp [run, marks, blockGW, blockST, qos, runWithoutQoS_eq]
  | true => simp [run, marks, blockGW, blockST, qos, runWithQoS_eq]

/-- Each block names one device. -/
theorem run_filter_device (a : Arithmetic) (t : TrunksConfig) (uname : Except Error String)
    (dev : String) :
    (run a t uname).filter (fun c => c.device = some dev) =
      (if t.nic.gw = dev then blockGW a t uname else []) ++
        if t.nic.st = dev then blockST a t uname else [] := by
  rw [run_eq]
  cases qos : t.qos with
  | false =>
    simp [marks, blockGW, blockST, qos, plainMarks, markCommand, plainBlockGW, plainBlockST]
  | true =>
    simp [marks, blockGW, blockST, qos, qosMarks, markCommand, dscpCommand, qosBlockGW, qosBlockST]

theorem device_blockGW (a : Arithmetic) (t : TrunksConfig) (uname : Except Error String) :
    ∀ c ∈ blockGW a t uname, c.device = some t.nic.gw := by
  intro c member
  have own : (blockGW a t uname).filter (fun c => c.device = some t.nic.gw) = blockGW a t uname := by
    unfold blockGW
    split <;> simp [qosBlockGW, plainBlockGW]
  rw [← own] at member
  simpa using (List.mem_filter.mp member).2

theorem device_blockST (a : Arithmetic) (t : TrunksConfig) (uname : Except Error String) :
    ∀ c ∈ blockST a t uname, c.device = some t.nic.st := by
  intro c member
  have own : (blockST a t uname).filter (fun c => c.device = some t.nic.st) = blockST a t uname := by
    unfold blockST
    split <;> simp [qosBlockST, plainBlockST]
  rw [← own] at member
  simpa using (List.mem_filter.mp member).2

theorem run_filter_table (a : Arithmetic) (t : TrunksConfig) (uname : Except Error String) :
    (run a t uname).filter (fun c => c.tool = .iptables) = marks t := by
  rw [run_eq]
  cases qos : t.qos with
  | false =>
    simp [marks, blockGW, blockST, qos, plainMarks, markCommand, plainBlockGW, plainBlockST]
  | true =>
    simp [marks, blockGW, blockST, qos, qosMarks, markCommand, dscpCommand, qosBlockGW, qosBlockST]

/-- What the setup asks of queues and classes is asked in its two blocks. -/
theorem filterMap_run {α : Type} (f : Command → Option α)
    (tcOnly : ∀ args, f (runIPtables args) = none ∧ f (runSYSCTL args) = none) (a : Arithmetic)
    (t : TrunksConfig) (uname : Except Error String) :
    (run a t uname).filterMap f = (blockGW a t uname).filterMap f ++ (blockST a t uname).filterMap f := by
  -- the rules of the mangle table are `iptables` commands
  have none_marked : (marks t).filterMap f = [] := by
    unfold marks
    split <;> simp [plainMarks, qosMarks, markCommand, dscpCommand, tcOnly]
  rw [run_eq, List.filterMap_cons_none (tcOnly _).2, List.filterMap_append, none_marked,
    List.nil_append, List.filterMap_append]

theorem netems_plainBlock (dev mark : String) (link : ℤ) (netem : List String) :
    (plainBlock dev link netem mark).filterMap netemOf = [⟨"2:0", "1:1", netem⟩] := rfl

theorem netems_qosBlock (dev leafParent markVoIP markRest : String) (link voip rest : ℤ)
    (netemVoIP netemRest : List String) :
    (qosBlock dev leafParent link voip rest netemVoIP netemRest markVoIP markRest).filterMap
        netemOf =
      [⟨"110:", "1:10", netemVoIP⟩, ⟨"120:", "1:20", netemRest⟩] := rfl

theorem rates_plainBlock (dev mark : String) (link : ℤ) (netem : List String) :
    (plainBlock dev link netem mark).filterMap classRateOf = [⟨dev, "1:1", print link "kbit"⟩] := rfl

theorem rates_qosBlock (dev leafParent markVoIP markRest : String) (link voip rest : ℤ)
    (netemVoIP netemRest : List String) :
    (qosBlock dev leafParent link voip rest netemVoIP netemRest markVoIP markRest).filterMap
        classRateOf =
      [⟨dev, "1:1", print link "kbit"⟩, ⟨dev, "1:10", print voip "kbit"⟩,
        ⟨dev, "1:20", print rest "kbit"⟩] := rfl

/-! ### The table the rules build -/

section Rules

variable {takes : Intake} {dev : String}

theorem onTable_mark (laws : LinkLaws b takes dev) (mark : String) (n : ℕ) (table : Table)
    (known : (mark, n) ∈ handles) :
    b.onTable (markCommand dev mark) table = table.append "PREROUTING" ⟨dev, none, n⟩ := by
  rw [Backend.onTable, markCommand, args_runIPtables, laws.append_mark _ n _ known, Option.getD_some]

theorem onTable_dscp (laws : LinkLaws b takes dev) (dscp mark : String) (d n : ℕ) (table : Table)
    (knownDscp : (dscp, d) ∈ dscps) (known : (mark, n) ∈ handles) :
    b.onTable (dscpCommand dev dscp mark) table =
      table.append "PREROUTING" ⟨dev, some d, n⟩ := by
  rw [Backend.onTable, dscpCommand, args_runIPtables,
    laws.append_dscp_mark _ d _ n _ knownDscp known, Option.getD_some]

end Rules

@[simp] theorem Table.append_same (table : Table) (chain : String) (rule : MarkRule) :
    table.append chain rule chain = table chain ++ [rule] := by
  simp [Table.append]

def plainRules (t : TrunksConfig) : List MarkRule :=
  [⟨t.nic.st, none, 10⟩, ⟨t.nic.gw, none, 20⟩]

def qosRules (t : TrunksConfig) : List MarkRule :=
  [ ⟨t.nic.st, none, 10⟩, ⟨t.nic.st, some 0x2c, 11⟩, ⟨t.nic.st, some 0x2e, 11⟩,
    ⟨t.nic.gw, none, 20⟩, ⟨t.nic.gw, some 0x2c, 21⟩, ⟨t.nic.gw, some 0x2e, 21⟩ ]

/-- `Run` appends its rules to the chain it finds. -/
theorem run_prerouting {takes : Intake} (a : Arithmetic) (t : TrunksConfig)
    (laws : LinkLawsOn b takes t.nic) (uname : Except Error String) (start : Network Table Tree) :
    (b.execAll start (run a t uname)).table "PREROUTING" =
      start.table "PREROUTING" ++ if t.qos then qosRules t else plainRules t := by
  rw [execAll_table, run_filter_table]
  cases qos : t.qos with
  | false =>
    simp [marks, qos, plainMarks, plainRules, onTable_mark laws.st "10" 10 _ (by decide),
      onTable_mark laws.gw "20" 20 _ (by decide)]
  | true =>
    simp [marks, qos, qosMarks, qosRules, onTable_mark laws.st "10" 10 _ (by decide),
      onTable_mark laws.gw "20" 20 _ (by decide),
      onTable_dscp laws.st "0x2c" "11" 0x2c 11 _ (by decide) (by decide),
      onTable_dscp laws.st "0x2e" "11" 0x2e 11 _ (by decide) (by decide),
      onTable_dscp laws.gw "0x2c" "21" 0x2c 21 _ (by decide) (by decide),
      onTable_dscp laws.gw "0x2e" "21" 0x2e 21 _ (by decide) (by decide)]

end Tlink.Net
