import Mathlib.Data.List.Infix
import Tlink.Runtime.Command

/-! Flushing and setting up the simulated link (`runtime/trunks.go`). -/
namespace Tlink.Runtime

open Rounding Numeral

/-- Only the result of the first command is returned. -/
def flushTables {Table Tree : Type} (b : Backend Table Tree) (t : TrunksConfig)
    (net : Network Table Tree) : Bool × Network Table Tree :=
  let (ok, net) := b.exec net (runIPtables ["-F", "-t", "mangle"])
  let (_, net) := b.exec net (runTC ["filter", "del", "dev", t.nic.gw])
  let (_, net) := b.exec net (runTC ["qdisc", "del", "dev", t.nic.gw, "root"])
  let (_, net) := b.exec net (runTC ["filter", "del", "dev", t.nic.st])
  let (_, net) := b.exec net (runTC ["qdisc", "del", "dev", t.nic.st, "root"])
  (ok, net)

/-- `uname` is the outcome of running `uname --kernel-version`. -/
def isKernelVersionBugged (t : TrunksConfig) (uname : Except Error String) : Bool :=
  if !t.kernelVersionCheck then false
  else
    match uname with
    -- without an answer the kernel counts as sound
    | .error _ => false
    | .ok out => decide ("Debian 6.1.38-".toList <:+: out.toList)

def hasJitter (t : TrunksConfig) (uname : Except Error String) : Bool :=
  decide (1 < t.delay.jitter) && !isKernelVersionBugged t uname

/-- The queue length both branches compute, from a bandwidth term and the delay:
1.5 * bandwidth[bits/s] * latency[s] / mtu[bits] -/
def qlen (a : Arithmetic) (bandwidth : Option ℚ) (denomination : ℚ) : String :=
  print (a.int64Round (a.div (a.mul (a.mul (some 1.5) (a.mul bandwidth (some 1000000)))
    (a.div (some denomination) (some (2 * 1000)))) (some (8 * 1500)))) ""

/-- The branch of `Run` without QoS. -/
def runWithoutQoS (a : Arithmetic) (t : TrunksConfig) (uname : Except Error String) : List Command :=
  let forward := print (a.int64Round (some t.bandwidth.forward)) "kbit"
  let retun := print (a.int64Round (some t.bandwidth.retun)) "kbit"
  let delay := print (a.int64Round (a.div (some t.delay.denomination) (some 2))) "ms"
  let jitter := print (a.int64Round (a.div (some t.delay.jitter) (some 2))) "ms"
  let qlenForward := qlen a (some t.bandwidth.forward) t.delay.denomination
  let qlenReturn := qlen a (some t.bandwidth.retun) t.delay.denomination
  [ runIPtables ["-t", "mangle", "-A", "PREROUTING", "-i", t.nic.st,
      "-j", "MARK", "--set-mark", "10"],
    runIPtables ["-t", "mangle", "-A", "PREROUTING", "-i", t.nic.gw,
      "-j", "MARK", "--set-mark", "20"],
    runTC ["qdisc", "add", "dev", t.nic.gw, "root", "handle", "1:0", "htb", "default", "30"],
    runTC ["class", "add", "dev", t.nic.gw, "parent", "1:0", "classid", "1:1",
      "htb", "rate", retun, "burst", "30k", "cburst", "30k"],
    if hasJitter t uname then
      runTC ["qdisc", "add", "dev", t.nic.gw, "parent", "1:1", "handle", "2:0",
        "netem", "delay", delay, jitter, "distribution", "normal", "limit", qlenReturn]
    else
      runTC ["qdisc", "add", "dev", t.nic.gw, "parent", "1:1", "handle", "2:0",
        "netem", "delay", delay, "limit", qlenReturn],
    runTC ["filter", "add", "dev", t.nic.gw, "protocol", "ip", "parent", "1:0", "prio", "1",
      "handle", "10", "fw", "flowid", "1:1"],
    runTC ["qdisc", "add", "dev", t.nic.st, "root", "handle", "1:0", "htb", "default", "30"],
    runTC ["class", "add", "dev", t.nic.st, "parent", "1:0", "classid", "1:1",
      "htb", "rate", forward, "burst", "30k", "cburst", "30k"],
    if hasJitter t uname then
      runTC ["qdisc", "add", "dev", t.nic.st, "parent", "1:1", "handle", "2:0",
        "netem", "delay", delay, jitter, "distribution", "normal", "limit", qlenForward]
    else
      runTC ["qdisc", "add", "dev", t.nic.st, "parent", "1:1", "handle", "2:0",
        "netem", "delay", delay, "limit", qlenForward],
    runTC ["filter", "add", "dev", t.nic.st, "protocol", "ip", "parent", "1:0", "prio", "1",
      "handle", "20", "fw", "flowid", "1:1"] ]

/-- The branch of `Run` with QoS. -/
def runWithQoS (a : Arithmetic) (t : TrunksConfig) (uname : Except Error String) : List Command :=
  let forward := print (a.int64Round (some t.bandwidth.forward)) "kbit"
  let forwardVoIP := print 2 "kbit"
  let forwardRest := print (a.pred (a.int64Round (some t.bandwidth.forward))) "kbit"
  let retun := print (a.int64Round (some t.bandwidth.retun)) "kbit"
  let returnVoIP := print 2 "kbit"
  let returnRest := print (a.pred (a.int64Round (some t.bandwidth.retun))) "kbit"
  let delay := print (a.int64Round (a.div (some t.delay.denomination) (some 2))) "ms"
  let jitter := print (a.int64Round (a.div (some t.delay.jitter) (some 2))) "ms"
  -- the constant `1.5*(2*1000000)` is a `float64`
  let qlenForwardVoIP := qlen a (some 2) t.delay.denomination
  let qlenForwardRest := qlen a (a.sub (some t.bandwidth.forward) (some 1)) t.delay.denomination
  -- the return direction takes the whole bandwidth for both classes
  let qlenReturnVoIP := qlen a (some t.bandwidth.retun) t.delay.denomination
  let qlenReturnRest := qlen a (some t.bandwidth.retun) t.delay.denomination
  [ runIPtables ["-t", "mangle", "-A", "PREROUTING", "-i", t.nic.st,
      "-j", "MARK", "--set-mark", "10"],
    runIPtables ["-t", "mangle", "-A", "PREROUTING", "-i", t.nic.st,
      "-m", "dscp", "--dscp", "0x2c", "-j", "MARK", "--set-mark", "11"],
    runIPtables ["-t", "mangle", "-A", "PREROUTING", "-i", t.nic.st,
      "-m", "dscp", "--dscp", "0x2e", "-j", "MARK", "--set-mark", "11"],
    runIPtables ["-t", "mangle", "-A", "PREROUTING", "-i", t.nic.gw,
      "-j", "MARK", "--set-mark", "20"],
    runIPtables ["-t", "mangle", "-A", "PREROUTING", "-i", t.nic.gw,
      "-m", "dscp", "--dscp", "0x2c", "-j", "MARK", "--set-mark", "21"],
    runIPtables ["-t", "mangle", "-A", "PREROUTING", "-i", t.nic.gw,
      "-m", "dscp", "--dscp", "0x2e", "-j", "MARK", "--set-mark", "21"],
    -- gateway
    runTC ["qdisc", "add", "dev", t.nic.gw, "root", "handle", "1:0", "htb", "default", "20"],
    runTC ["class", "add", "dev", t.nic.gw, "parent", "1:0", "classid", "1:1",
      "htb", "rate", retun, "burst", "30k", "cburst", "30k"],
    runTC ["class", "add", "dev", t.nic.gw, "parent", "1:1", "classid", "1:10",
      "htb", "rate", returnVoIP, "prio", "0", "burst", "3k", "cburst", "3k"],
    if hasJitter t uname then
      runTC ["qdisc", "add", "dev", t.nic.gw, "parent", "1:10", "handle", "110:",
        "netem", "delay", delay, jitter, "distribution", "normal", "limit", qlenReturnVoIP]
    else
      runTC ["qdisc", "add", "dev", t.nic.gw, "parent", "1:10", "handle", "110:",
        "netem", "delay", delay, "limit", qlenReturnVoIP],
    runTC ["class", "add", "dev", t.nic.gw, "parent", "1:1", "classid", "1:20",
      "htb", "rate", returnRest, "prio", "1", "burst", "30k", "cburst", "30k"],
    if hasJitter t uname then
      runTC ["qdisc", "add", "dev", t.nic.gw, "parent", "1:20", "handle", "120:",
        "netem", "delay", delay, jitter, "distribution", "normal", "limit", qlenReturnRest]
    else
      runTC ["qdisc", "add", "dev", t.nic.gw, "parent", "1:20", "handle", "120:",
        "netem", "delay", delay, "limit", qlenReturnRest],
    runTC ["filter", "add", "dev", t.nic.gw, "protocol", "ip", "parent", "1:0", "prio", "0",
      "handle", "11", "fw", "flowid", "1:10"],
    runTC ["filter", "add", "dev", t.nic.gw, "protocol", "ip", "parent", "1:0", "prio", "1",
      "handle", "10", "fw", "flowid", "1:20"],
    -- terminal; both leaf classes name the root as their parent here
    runTC ["qdisc", "add", "dev", t.nic.st, "root", "handle", "1:0", "htb", "default", "20"],
    runTC ["class", "add", "dev", t.nic.st, "parent", "1:0", "classid", "1:1",
      "htb", "rate", forward, "burst", "30k", "cburst", "30k"],
    runTC ["class", "add", "dev", t.nic.st, "parent", "1:0", "classid", "1:10",
      "htb", "rate", forwardVoIP, "prio", "0", "burst", "3k", "cburst", "3k"],
    if hasJitter t uname then
      runTC ["qdisc", "add", "dev", t.nic.st, "parent", "1:10", "handle", "110:",
        "netem", "delay", delay, jitter, "distribution", "normal", "limit", qlenForwardVoIP]
    else
      runTC ["qdisc", "add", "dev", t.nic.st, "parent", "1:10", "handle", "110:",
        "netem", "delay", delay, "limit", qlenForwardVoIP],
    runTC ["class", "add", "dev", t.nic.st, "parent", "1:0", "classid", "1:20",
      "htb", "rate", forwardRest, "prio", "1", "burst", "30k", "cburst", "30k"],
    if hasJitter t uname then
      runTC ["qdisc", "add", "dev", t.nic.st, "parent", "1:20", "handle", "120:",
        "netem", "delay", delay, jitter, "distribution", "normal", "limit", qlenForwardRest]
    else
      -- the delay value is missing in the source
      runTC ["qdisc", "add", "dev", t.nic.st, "parent", "1:20", "handle", "120:",
        "netem", "delay", "limit", qlenForwardRest],
    runTC ["filter", "add", "dev", t.nic.st, "protocol", "ip", "parent", "1:0", "prio", "0",
      "handle", "21", "fw", "flowid", "1:10"],
    runTC ["filter", "add", "dev", t.nic.st, "protocol", "ip", "parent", "1:0", "prio", "1",
      "handle", "20", "fw", "flowid", "1:20"] ]

/-- The commands `Run` issues before it blocks or starts the scheduler. Every result
is ignored. -/
def run (a : Arithmetic) (t : TrunksConfig) (uname : Except Error String) : List Command :=
  runSYSCTL ["net.ipv4.ip_forward=1"] ::
    (if !t.qos then runWithoutQoS a t uname else runWithQoS a t uname)

end Tlink.Runtime
