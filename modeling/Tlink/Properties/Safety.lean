import Tlink.Properties.Ticks
import Tlink.Properties.Resolution

/-!
# Configurations that crash the simulator

Nothing between the decoder and the ticks looks at the decoded configuration. An empty
document is dereferenced as nil, and a list without profiles or with a missing one panics
when the scheduler draws from it.
-/
namespace Tlink.Properties

open Tlink.Runtime

/-- Whatever machine reads the document: no panic on the way to a configuration, and none in any
run of the scheduler on it. -/
structure SafeContent (unmarshal : Unmarshal) (content : String) : Prop where
  starts : ∀ host file qos logs acm disableKernelVersionCheck,
    host.readFile (host.abs file) = .ok content → ∃ t err,
      initTrunks host unmarshal file qos logs acm disableKernelVersionCheck = .ok (t, err) ∧
      (err = none → t.isSome)
  runs : ∀ a host file qos logs disableKernelVersionCheck t,
    host.readFile (host.abs file) = .ok content →
    initTrunks host unmarshal file qos logs true disableKernelVersionCheck = .ok (some t, none) →
    ∀ draws, ∃ t' cmds, ticks a t.qos t draws = .ok (t', cmds)

theorem parseConf_of_read (host : Host) (unmarshal : Unmarshal) (file content : String)
    (read : host.readFile (host.abs file) = .ok content) :
    parseConf host unmarshal file = unmarshal content := by
  rw [parseConf, read]
  cases decoded : unmarshal content <;> simp [decoded]

theorem checkInterfaces_ok (host : Host) (t : TrunksConfig) :
    ∃ err, checkInterfaces host (some t) = .ok err :=
  ⟨_, rfl⟩

/-- The scan can fail but does not panic, and it changes the endpoints only. -/
theorem findInterfaces_ok (host : Host) (t : TrunksConfig) :
    ∃ nic err, findInterfaces host (some t) = .ok ({ t with nic := nic }, err) := by
  simp only [findInterfaces, deref, bind, Except.bind]
  split
  · exact ⟨t.nic, _, rfl⟩
  · split
    · exact ⟨_, _, rfl⟩
    · exact ⟨_, _, rfl⟩

theorem initTrunks_ok (host : Host) (unmarshal : Unmarshal) (file : String) (qos : Bool)
    (logs : String) (acm disableKernelVersionCheck : Bool) (t : TrunksConfig)
    (parsed : parseConf host unmarshal file = .ok (some t)) :
    (∃ err, initTrunks host unmarshal file qos logs acm disableKernelVersionCheck =
      .ok (none, some err)) ∨
    ∃ nic, initTrunks host unmarshal file qos logs acm disableKernelVersionCheck =
      .ok (some (withFlags { t with nic := nic } qos logs acm disableKernelVersionCheck), none) := by
  obtain ⟨checked, check⟩ := checkInterfaces_ok host t
  cases checked with
  | none =>
    right
    exact ⟨t.nic, by simp only [initTrunks, parsed, resolveInterfaces, check]; rfl⟩
  | some _ =>
    -- only where the names are not both there are the addresses looked for
    obtain ⟨nic, err, found⟩ := findInterfaces_ok host t
    cases err with
    | none =>
      right
      refine ⟨nic, ?_⟩
      simp only [initTrunks, parsed, resolveInterfaces, check, bind, Except.bind, found]
      rfl
    | some err =>
      left
      refine ⟨err, ?_⟩
      simp only [initTrunks, parsed, resolveInterfaces, check, bind, Except.bind, found]
      rfl

/-- A machine with the two named interfaces that reads the given document. -/
def hostWith (nic : NIC) (content : String) : Host where
  abs := id
  readFile _ := .ok content
  stat path := if path = operstate nic.st ∨ path = operstate nic.gw then .found else .notExist
  interfaces := .ok [⟨nic.st, .ok []⟩, ⟨nic.gw, .ok []⟩]

theorem initTrunks_hostWith (unmarshal : Unmarshal) (content : String) (t : TrunksConfig)
    (decoded : unmarshal content = .ok (some t)) :
    initTrunks (hostWith t.nic content) unmarshal "" false "" true false =
      .ok (some (withFlags t false "" true false), none) := by
  have parsed := parseConf_of_read (hostWith t.nic content) unmarshal "" content rfl
  have named : checkInterfaces (hostWith t.nic content) (some t) = .ok none := by
    simp [checkInterfaces, pathExists, hostWith, deref, bind, Except.bind, pure, Except.pure]
  rw [decoded] at parsed
  simp only [initTrunks, parsed, resolveInterfaces, named]
  rfl

/-- The address of a nil configuration is taken before anything is checked. -/
theorem initTrunks_nil (host : Host) (unmarshal : Unmarshal) (file : String) (qos : Bool)
    (logs : String) (acm disableKernelVersionCheck : Bool)
    (parsed : parseConf host unmarshal file = .ok none) :
    initTrunks host unmarshal file qos logs acm disableKernelVersionCheck =
      .error .nilDereference := by
  simp only [initTrunks, parsed]
  rfl

theorem initTrunks_unparsed (host : Host) (unmarshal : Unmarshal) (file : String) (qos : Bool)
    (logs : String) (acm disableKernelVersionCheck : Bool) (err : Error)
    (parsed : parseConf host unmarshal file = .error err) :
    initTrunks host unmarshal file qos logs acm disableKernelVersionCheck =
      .ok (none, some err) := by
  simp only [initTrunks, parsed]
  rfl

/-- A document is safe exactly if it decodes to nothing usable or to a configuration in which every
draw finds a profile. -/
theorem safe_content_iff (unmarshal : Unmarshal) (content : String) :
    SafeContent unmarshal content ↔
      unmarshal content ≠ .ok none ∧
      ∀ t, unmarshal content = .ok (some t) → t.acmList ≠ [] ∧ none ∉ t.acmList := by
  constructor
  · intro safe
    refine ⟨?_, ?_⟩
    · intro empty
      have parsed := parseConf_of_read (hostWith ⟨"", ""⟩ content) unmarshal "" content rfl
      have panics := initTrunks_nil _ unmarshal "" false "" true false (parsed.trans empty)
      obtain ⟨t, err, returned, _⟩ :=
        safe.starts (hostWith ⟨"", ""⟩ content) "" false "" true false rfl
      rw [panics] at returned
      cases returned
    · intro t decoded
      -- a machine that has the two interfaces lets the configuration through to the scheduler
      have started := initTrunks_hostWith unmarshal content t decoded
      have runs := safe.runs .float64 (hostWith t.nic content) "" false "" false _ rfl started
      by_contra bad
      rw [not_and_or, not_not, not_not] at bad
      obtain ⟨draws, panics⟩ := ticks_panics .float64 false (withFlags t false "" true false) bad
      obtain ⟨t', cmds, returned⟩ := runs draws
      exact panics t' cmds returned
  · rintro ⟨nonempty, good⟩
    refine ⟨?_, ?_⟩
    · intro host file qos logs acm disable read
      have parsed := parseConf_of_read host unmarshal file content read
      rcases decoded : unmarshal content with err | (_ | t)
      · rw [decoded] at parsed
        exact ⟨none, some err, initTrunks_unparsed _ _ _ _ _ _ _ err parsed, by simp⟩
      · exact absurd decoded nonempty
      · rw [decoded] at parsed
        rcases initTrunks_ok host unmarshal file qos logs acm disable t parsed with
          ⟨err, returned⟩ | ⟨nic, returned⟩
        · exact ⟨_, _, returned, by simp⟩
        · exact ⟨_, _, returned, by simp⟩
    · intro a host file qos logs disable t read returned draws
      have parsed := parseConf_of_read host unmarshal file content read
      rcases decoded : unmarshal content with err | (_ | t')
      · rw [decoded] at parsed
        rw [initTrunks_unparsed _ _ _ _ _ _ _ err parsed] at returned
        cases returned
      · exact absurd decoded nonempty
      · rw [decoded] at parsed
        obtain ⟨profiles, present⟩ := good t' decoded
        rcases initTrunks_ok host unmarshal file qos logs true disable t' parsed with
          ⟨err, returned'⟩ | ⟨nic, returned'⟩
        · cases returned.symm.trans returned'
        · -- resolving changes the endpoints, not the profiles
          obtain rfl := Option.some.inj
            (Prod.mk.inj (Except.ok.inj (returned'.symm.trans returned))).1
          exact ticks_safe a _ _ draws profiles present

/-- What a document sets that names the two interfaces only. -/
def sampleBare : TrunksConfig :=
  ⟨⟨"eth0", "eth1"⟩, ⟨0, 0⟩, ⟨0, 0⟩, [], false, "", false, false, 0, none⟩

/-- What the decoder makes of an empty document, of one without profiles and of one with a null
profile. -/
def sampleDecode : Unmarshal
  | "" => .ok none
  | "nic:\n  st: eth0\n  gw: eth1\n" => .ok (some sampleBare)
  | "nic:\n  st: eth0\n  gw: eth1\nacm:\n- null\n" => .ok (some { sampleBare with acmList := [none] })
  | _ => .error "yaml: unmarshal errors"

/-- All three crash the simulator, the first at once and the others at the first tick. -/
theorem unsafe_contents :
    ¬ SafeContent sampleDecode "" ∧
    ¬ SafeContent sampleDecode "nic:\n  st: eth0\n  gw: eth1\n" ∧
    ¬ SafeContent sampleDecode "nic:\n  st: eth0\n  gw: eth1\nacm:\n- null\n" := by
  refine ⟨?_, ?_, ?_⟩
  · intro safe
    obtain ⟨t, err, returned, _⟩ :=
      safe.starts (hostWith ⟨"eth0", "eth1"⟩ "") "" false "" true false rfl
    cases returned
  · intro safe
    have started := initTrunks_hostWith sampleDecode "nic:\n  st: eth0\n  gw: eth1\n" sampleBare rfl
    obtain ⟨t', cmds, returned⟩ := safe.runs .float64 _ "" false "" false _ rfl started [0]
    cases returned
  · intro safe
    have started := initTrunks_hostWith sampleDecode
      "nic:\n  st: eth0\n  gw: eth1\nacm:\n- null\n" { sampleBare with acmList := [none] } rfl
    obtain ⟨t', cmds, returned⟩ := safe.runs .float64 _ "" false "" false _ rfl started [0]
    cases returned

end Tlink.Properties
