import Tlink.Runtime.Config

/-! Reading the configuration and resolving its endpoints (`runtime/init.go`, `ParseConf`). -/
namespace Tlink.Runtime

/-- `net.IP`: nil is the empty slice. -/
abbrev IP := List UInt8

/-- `IP.To4`: the four-byte form of an IPv4 address, nil for any other. -/
def to4 (ip : IP) : IP :=
  if ip.length = 4 then ip
  else if ip.length = 16 ∧ ip.take 12 = List.replicate 10 0 ++ [255, 255] then ip.drop 12
  else []

/-- The dotted form of four bytes. -/
def dotted (a b c d : UInt8) : String :=
  toString a.toNat ++ "." ++ toString b.toNat ++ "." ++ toString c.toNat ++ "." ++ toString d.toNat

/-- `IP.String` on the results of `To4`, which have four bytes or none. -/
def ipString : IP → String
  | [a, b, c, d] => dotted a b c d
  | _ => "<nil>"

/-- One entry of `Interface.Addrs`: a `*net.IPNet` or another `net.Addr`. -/
inductive Addr where
  | ipNet (ip : IP)
  | other
  deriving DecidableEq

structure Interface where
  name : String
  addrs : Except Error (List Addr)

inductive Stat where
  | found
  | notExist
  | failed (err : Error)
  deriving DecidableEq

/-- What the program sees of the machine it starts on. -/
structure Host where
  abs : String → String
  readFile : String → Except Error String
  stat : String → Stat
  interfaces : Except Error (List Interface)

/-- `yaml.Unmarshal` into a nil `*TrunksConfig`. -/
abbrev Unmarshal := String → Except Error (Option TrunksConfig)

/-- `Exists` -/
def pathExists (host : Host) (path : String) : Bool × Option Error :=
  match host.stat path with
  | .found => (true, none)
  | .notExist => (false, none)
  | .failed err => (false, some err)

def parseConf (host : Host) (unmarshal : Unmarshal) (file : String) :
    Except Error (Option TrunksConfig) :=
  match host.readFile (host.abs file) with
  | .error err => .error err
  | .ok yamlFile =>
    match unmarshal yamlFile with
    | .error err => .error err
    | .ok trunksConfig => .ok trunksConfig

def operstate (name : String) : String := "/sys/class/net/" ++ name ++ "/operstate"

def checkInterfaces (host : Host) (t : Option TrunksConfig) : Except Panic (Option Error) := do
  let t ← deref t
  -- the error of `Exists` is dropped: what cannot be read does not exist
  let existST := (pathExists host (operstate t.nic.st)).1
  let existGW := (pathExists host (operstate t.nic.gw)).1
  let err1 := if !existST then some "[L2] Interface for ST not found" else none
  let err2 := if !existGW then some "[L2] Interface for GW not found" else none
  return if err1.isSome || err2.isSome then some "" else none

/-- The body of the inner loop: the gateway field is compared first. -/
def matchAddr (name : String) (nic : NIC) : Addr → NIC
  | .ipNet ip =>
    -- both fields are compared with what earlier hits may have left in them
    let nic := if ipString (to4 ip) = nic.gw then { nic with gw := name } else nic
    if ipString (to4 ip) = nic.st then { nic with st := name } else nic
  | .other => nic

def scanAddrs (name : String) (nic : NIC) (addrs : List Addr) : NIC :=
  addrs.foldl (matchAddr name) nic

/-- The outer loop, left at the first interface whose addresses cannot be read. -/
def scanInterfaces : NIC → List Interface → NIC × Option Error
  | nic, [] => (nic, none)
  | nic, i :: rest =>
    match i.addrs with
    | .error err => (nic, some err)
    | .ok addrs => scanInterfaces (scanAddrs i.name nic addrs) rest

/-- The receiver is overwritten in place, also when an error is returned. -/
def findInterfaces (host : Host) (t : Option TrunksConfig) :
    Except Panic (TrunksConfig × Option Error) := do
  let t ← deref t
  match host.interfaces with
  | .error err => return (t, some err)
  | .ok ifaces =>
    match scanInterfaces t.nic ifaces with
    | (nic, some err) => return ({ t with nic := nic }, some err)
    | (nic, none) =>
      -- success is read off from both fields having changed
      let err1 := if t.nic.st = nic.st then some "[L3] Interface for ST not found" else none
      let err2 := if t.nic.gw = nic.gw then some "[L3] Interface for GW not found" else none
      return ({ t with nic := nic }, if err1.isSome || err2.isSome then some "" else none)

/-- By name first; only if that fails by address. -/
def resolveInterfaces (host : Host) (t : Option TrunksConfig) :
    Except Panic (TrunksConfig × Option Error) := do
  match ← checkInterfaces host t with
  | none => return (← deref t, none)
  | some _ => findInterfaces host t

/-- The configuration and the error that are returned. -/
def initTrunks (host : Host) (unmarshal : Unmarshal) (file : String) (qos : Bool) (logs : String)
    (acm disableKernelVersionCheck : Bool) : Except Panic (Option TrunksConfig × Option Error) := do
  match parseConf host unmarshal file with
  | .error err => return (none, some err)
  | .ok t =>
    match ← resolveInterfaces host t with
    | (_, some err) => return (none, some err)
    | (t, none) =>
      -- the command line overrides what the file says about these four
      return (some { t with
        qos := qos, logs := logs, acmEnabled := acm,
        kernelVersionCheck := !disableKernelVersionCheck }, none)

end Tlink.Runtime
