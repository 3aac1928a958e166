import Tlink.Runtime.Init
import Tlink.Runtime.Trunks

/-! The action of the command line application (`main.go`). -/
namespace Tlink.Runtime

/-- The process exits with status 1 after a message, or the link is set up. -/
inductive Outcome (Table Tree : Type) where
  | exited (message : String) (net : Network Table Tree)
  | running (t : TrunksConfig) (net : Network Table Tree)

/-- `qos`, `logs`, `acm` and `disableKernelVersionCheck` keep their zero values in `main`, where
their flags are commented out. -/
def action {Table Tree : Type} (a : Arithmetic) (b : Backend Table Tree) (host : Host)
    (unmarshal : Unmarshal) (uname : Except Error String) (config : String) (flush qos : Bool)
    (logs : String) (acm disableKernelVersionCheck : Bool) (net : Network Table Tree) :
    Except Panic (Outcome Table Tree) := do
  let (t, err) ← initTrunks host unmarshal config qos logs acm disableKernelVersionCheck
  if err.isSome then return .exited "Init error, exiting..." net
  let t ← deref t
  let (ok, net) := if flush then flushTables b t net else (true, net)
  if !ok then return .exited "Impossible to flush tables, exiting..." net
  return .running t (b.execAll net (run a t uname))

/-- A running link was set up after a flush that reported no error, if one was asked for. -/
theorem action_running {Table Tree : Type} (a : Arithmetic) (b : Backend Table Tree) (host : Host)
    (unmarshal : Unmarshal) (uname : Except Error String) (config : String) (flush qos : Bool)
    (logs : String) (acm disableKernelVersionCheck : Bool) (net net' : Network Table Tree)
    (t : TrunksConfig)
    (returned : action a b host unmarshal uname config flush qos logs acm disableKernelVersionCheck
      net = .ok (.running t net')) :
    initTrunks host unmarshal config qos logs acm disableKernelVersionCheck = .ok (some t, none) ∧
    (flush = true → (flushTables b t net).1 = true) ∧
    net' = b.execAll (if flush then (flushTables b t net).2 else net) (run a t uname) := by
  unfold action at returned
  cases init : initTrunks host unmarshal config qos logs acm disableKernelVersionCheck with
  | error panic => simp [init, bind, Except.bind] at returned
  | ok result =>
    obtain ⟨t', err⟩ := result
    cases err with
    -- an error of `InitTrunks` ends the process before anything is executed
    | some err => simp [init, bind, Except.bind, pure, Except.pure] at returned
    | none =>
      cases t' with
      | none => simp [init, bind, Except.bind, deref] at returned
      | some t' =>
        cases flush with
        | false =>
          simp [init, bind, Except.bind, pure, Except.pure, deref] at returned
          obtain ⟨rfl, rfl⟩ := returned
          simp
        | true =>
          cases ok : (flushTables b t' net).1 with
          | false => simp [init, bind, Except.bind, pure, Except.pure, deref, ok] at returned
          | true =>
            simp [init, bind, Except.bind, pure, Except.pure, deref, ok] at returned
            obtain ⟨rfl, rfl⟩ := returned
            simp [ok]

end Tlink.Runtime
