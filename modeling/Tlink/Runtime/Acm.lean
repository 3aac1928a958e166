import Tlink.Lib.PartialRun
import Tlink.Runtime.Command

/-! The periodic change of the link capacity (`runtime/acm.go`). -/
namespace Tlink.Runtime

open Rounding Numeral

/-- `rand.Intn(l)`: any value below `l`, picked by an arbitrary draw; it panics on 0. -/
def intn (draw l : ℕ) : Except Panic ℕ :=
  if l = 0 then .error .intnArgument else .ok (draw % l)

/-- The test that opens `RunACM`. -/
def dwellOver (t : TrunksConfig) : Bool :=
  match t.currentACM with
  | none => true
  | some acm => decide (acm.duration ≤ t.acmCounter)

/-- The two class changes that put the weight of a profile into force. -/
def changeCapacity (a : Arithmetic) (t : TrunksConfig) (qos : Bool) (weight : ℚ) : List Command :=
  if qos then
    let forward := print
      (a.pred (a.int64Round (a.mul (some t.bandwidth.forward) (some weight)))) "mbit"
    let retun := print
      (a.pred (a.int64Round (a.mul (some t.bandwidth.retun) (some weight)))) "mbit"
    [ runTC ["class", "change", "dev", t.nic.gw, "parent", "1:0", "classid", "1:20",
        "htb", "rate", retun, "prio", "1"],
      runTC ["class", "change", "dev", t.nic.st, "parent", "1:0", "classid", "1:20",
        "htb", "rate", forward, "prio", "1"] ]
  else
    let forward := print (a.int64Round (a.mul (some t.bandwidth.forward) (some weight))) "mbit"
    let retun := print (a.int64Round (a.mul (some t.bandwidth.retun) (some weight))) "mbit"
    [ runTC ["class", "change", "dev", t.nic.gw, "parent", "1:0", "classid", "1:1",
        "htb", "rate", retun],
      runTC ["class", "change", "dev", t.nic.st, "parent", "1:0", "classid", "1:1",
        "htb", "rate", forward] ]

/-- One tick: the configuration it leaves and the commands it issues. -/
def runACM (a : Arithmetic) (t : TrunksConfig) (qos : Bool) (draw : ℕ) :
    Except Panic (TrunksConfig × List Command) := do
  if dwellOver t then
    -- a negative or zero duration ends at once, so every tick selects
    let index ← intn draw t.acmList.length
    match t.acmList[index]? with
    | none => .error .indexOutOfRange
    | some entry =>
      let t := { t with currentACM := entry }
      -- a null entry of the list is stored before it is dereferenced
      let acm ← deref t.currentACM
      let cmds := changeCapacity a t qos acm.weight
      let t := { t with acmCounter := 0 }
      return ({ t with acmCounter := t.acmCounter + 1 }, cmds)
  else
    return ({ t with acmCounter := t.acmCounter + 1 }, [])

/-- The scheduler calls `RunACM` with the QoS flag of the configuration it was started on. -/
def ticks (a : Arithmetic) (qos : Bool) (t : TrunksConfig) (draws : List ℕ) :
    Except Panic (TrunksConfig × List Command) :=
  PartialRun.run (fun t draw => runACM a t qos draw) t draws

end Tlink.Runtime
