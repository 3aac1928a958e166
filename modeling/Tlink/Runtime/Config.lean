import Tlink.Lib.Numeral
import Tlink.Runtime.Number

/-!
# The configuration (`runtime/config.go`)

A `float64` field is read as the rational it denotes; every rational is allowed, and where it
matters that a field is a `float64`, it is said with `Arithmetic.float64.Has`.
`fmt.Sprintf("%dkbit", n)` is `print n "kbit"`. A nil-able pointer is an `Option`.
-/
namespace Tlink.Runtime

/-- Interface names or IP addresses of the two ends. -/
structure NIC where
  st : String
  gw : String
  deriving DecidableEq

/-- The `Return` field is spelled as the local variable of `Run`. -/
structure Bandwidth where
  forward : ℚ
  retun : ℚ
  deriving DecidableEq

/-- Milliseconds. -/
structure Delay where
  denomination : ℚ
  jitter : ℚ
  deriving DecidableEq

/-- One modulation profile; the duration counts ticks. -/
structure ACM where
  weight : ℚ
  duration : Int64
  deriving DecidableEq

/-- `ACMIndex` is left out: no function reads or writes it. -/
structure TrunksConfig where
  nic : NIC
  bandwidth : Bandwidth
  delay : Delay
  acmList : List (Option ACM)
  qos : Bool
  logs : String
  kernelVersionCheck : Bool
  acmEnabled : Bool
  acmCounter : Int64
  currentACM : Option ACM
  deriving DecidableEq

/-- The `float64` a decimal stands for. -/
def decimal (x : ℚ) : ℚ := Binary.binary64.nearest x

/-- `container/tlink.yaml` with resolved endpoints and the defaults of `main`. -/
def sampleConfig : TrunksConfig where
  nic := ⟨"eth0", "eth1"⟩
  bandwidth := ⟨40, 20⟩
  delay := ⟨40, 10⟩
  acmList := [some ⟨1, 10⟩, some ⟨decimal 0.8, 10⟩, some ⟨decimal 0.9, 10⟩, some ⟨0.5, 10⟩,
    some ⟨decimal 0.7, 10⟩, some ⟨decimal 0.1, 10⟩]
  qos := false
  logs := ""
  kernelVersionCheck := true
  acmEnabled := false
  acmCounter := 0
  currentACM := none

/-- The sample with QoS and without jitter. -/
def sampleQos : TrunksConfig := { sampleConfig with qos := true, delay := ⟨40, 0⟩ }

/-- The run-time panics the modelled functions can raise. -/
inductive Panic where
  | nilDereference
  | intnArgument
  | indexOutOfRange
  deriving DecidableEq, Repr

def deref {α : Type} : Option α → Except Panic α
  | none => .error .nilDereference
  | some a => .ok a

/-- `error` values, by their text. -/
abbrev Error := String

end Tlink.Runtime
