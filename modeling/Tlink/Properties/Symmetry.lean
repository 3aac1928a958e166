import Tlink.Net.Build
import Tlink.Net.Reference

/-!
# The two directions of the link

The commands for the terminal side should be those for the gateway side with the other device,
the other bandwidth and the other marks. Without QoS they are. With QoS the leaf classes hang
below the link class on the gateway side and below the root qdisc on the terminal side, and the
limits and the delay of the queues differ as well.
-/
namespace Tlink.Properties

open Rounding Numeral Tlink.Runtime Tlink.Net

variable {b : Backend Table Tree} {takes : Intake}

/-- The configuration seen from the other end. -/
def mirror (t : TrunksConfig) : TrunksConfig :=
  { t with nic := ⟨t.nic.gw, t.nic.st⟩, bandwidth := ⟨t.bandwidth.retun, t.bandwidth.forward⟩ }

/-! ### The command lists -/

def tcCommands (a : Arithmetic) (t : TrunksConfig) (uname : Except Error String) : List Command :=
  (run a t uname).filter fun c => c.tool = .tc

/-- The first half is issued for the gateway, the second half for the terminal. -/
def commandsGW (a : Arithmetic) (t : TrunksConfig) (uname : Except Error String) : List Command :=
  (tcCommands a t uname).take ((tcCommands a t uname).length / 2)

def commandsST (a : Arithmetic) (t : TrunksConfig) (uname : Except Error String) : List Command :=
  (tcCommands a t uname).drop ((tcCommands a t uname).length / 2)

/-- The mark that stands for the other direction. -/
def oppositeHandle (handle : String) : String :=
  if handle = "10" then "20" else if handle = "11" then "21" else handle

/-- The filter command with the mark of the other direction. -/
def remark : Command → Command
  | ⟨.tc, "filter" :: "add" :: "dev" :: dev :: "protocol" :: "ip" :: "parent" :: parent ::
      "prio" :: prio :: "handle" :: handle :: rest⟩ =>
    ⟨.tc, "filter" :: "add" :: "dev" :: dev :: "protocol" :: "ip" :: "parent" :: parent ::
      "prio" :: prio :: "handle" :: oppositeHandle handle :: rest⟩
  | c => c

/-- The commands for the terminal are those the mirrored configuration gives its gateway, up to
the marks. -/
def CommandsAlike (a : Arithmetic) (t : TrunksConfig) (uname : Except Error String) : Prop :=
  commandsST a t uname = (commandsGW a (mirror t) uname).map remark

instance (a : Arithmetic) (t : TrunksConfig) (uname : Except Error String) :
    Decidable (CommandsAlike a t uname) :=
  inferInstanceAs (Decidable (_ = _))

theorem filter_tc_plainBlock (dev mark : String) (link : ℤ) (netem : List String) :
    (plainBlock dev link netem mark).filter (fun c => c.tool = .tc) =
      plainBlock dev link netem mark := rfl

theorem filter_tc_qosBlock (dev leafParent markVoIP markRest : String) (link voip rest : ℤ)
    (netemVoIP netemRest : List String) :
    (qosBlock dev leafParent link voip rest netemVoIP netemRest markVoIP markRest).filter
        (fun c => c.tool = .tc) =
      qosBlock dev leafParent link voip rest netemVoIP netemRest markVoIP markRest := rfl

theorem tcCommands_eq (a : Arithmetic) (t : TrunksConfig) (uname : Except Error String) :
    tcCommands a t uname = blockGW a t uname ++ blockST a t uname := by
  rw [tcCommands, run_eq]
  cases qos : t.qos with
  | false =>
    simp [marks, blockGW, blockST, qos, plainMarks, markCommand, plainBlockGW, plainBlockST,
      filter_tc_plainBlock]
  | true =>
    simp [marks, blockGW, blockST, qos, qosMarks, markCommand, dscpCommand, qosBlockGW, qosBlockST,
      filter_tc_qosBlock]

theorem length_blocks (a : Arithmetic) (t : TrunksConfig) (uname : Except Error String) :
    (blockST a t uname).length = (blockGW a t uname).length := by
  unfold blockST blockGW
  split <;> rfl

theorem commandsGW_eq (a : Arithmetic) (t : TrunksConfig) (uname : Except Error String) :
    commandsGW a t uname = blockGW a t uname := by
  have half : (tcCommands a t uname).length / 2 = (blockGW a t uname).length := by
    rw [tcCommands_eq, List.length_append, length_blocks]
    omega
  rw [commandsGW, half, tcCommands_eq, List.take_left]

theorem commandsST_eq (a : Arithmetic) (t : TrunksConfig) (uname : Except Error String) :
    commandsST a t uname = blockST a t uname := by
  have half : (tcCommands a t uname).length / 2 = (blockGW a t uname).length := by
    rw [tcCommands_eq, List.length_append, length_blocks]
    omega
  rw [commandsST, half, tcCommands_eq, List.drop_left]

theorem remark_plainBlock (dev : String) (link : ℤ) (netem : List String) :
    (plainBlock dev link netem "10").map remark = plainBlock dev link netem "20" := rfl

/-- With QoS the third command of each half hangs the VoIP class under another parent. -/
theorem commandsAlike_iff (a : Arithmetic) (t : TrunksConfig) (uname : Except Error String) :
    CommandsAlike a t uname ↔ t.qos = false := by
  unfold CommandsAlike
  rw [commandsST_eq, commandsGW_eq]
  constructor
  · intro same
    by_contra on
    have qos : t.qos = true := by simpa using on
    have st : ((blockST a t uname)[2]?).map (fun c => c.args[5]?) = some (some "1:0") := by
      rw [blockST, if_pos qos]
      rfl
    have gw : (((blockGW a (mirror t) uname).map remark)[2]?).map (fun c => c.args[5]?) =
        some (some "1:1") := by
      rw [blockGW, if_pos (show (mirror t).qos = true from qos)]
      rfl
    rw [← same, st] at gw
    exact absurd gw (by decide)
  · intro off
    have plain : ¬ t.qos = true := by simp [off]
    rw [blockST, blockGW, if_neg plain, if_neg (show ¬ (mirror t).qos = true from plain)]
    exact (remark_plainBlock _ _ _).symm

/-! ### The trees -/

def oppositeMark : ℕ → ℕ
  | 10 => 20
  | 11 => 21
  | 20 => 10
  | 21 => 11
  | mark => mark

/-- The tree with the marks of the other direction. -/
def remarkTree (htb : Htb) : Htb :=
  { htb with filters := htb.filters.map fun f => { f with mark := oppositeMark f.mark } }

/-- Mirroring the configuration gives every device the tree it has, up to the marks. -/
def TreesAlike (b : Backend Table Tree) (a : Arithmetic) (t : TrunksConfig) (uname : Except Error String)
    (start : Network Table Tree) : Prop :=
  ∀ dev, (b.execAll start (run a (mirror t) uname)).tree dev =
    ((b.execAll start (run a t uname)).tree dev).map remarkTree

theorem remarkTree_classes (htb : Htb) : (remarkTree htb).classes = htb.classes := rfl

theorem remarkTree_plainBuilt (takes : Intake) (link : ℤ) (netem : List String) (mark : ℕ) :
    remarkTree (plainBuilt takes link netem mark) =
      plainBuilt takes link netem (oppositeMark mark) := by
  simp [remarkTree, plainBuilt, Htb.addFilter, Htb.root]

/-- The classes of a tree with QoS are three. -/
theorem mem_qosBuilt (takes : Intake) (leafParent : String) (link voip rest : ℤ)
    (netemVoIP netemRest : List String) (n m : ℕ) (c : HtbClass)
    (member : c ∈ (qosBuilt takes leafParent link voip rest netemVoIP netemRest n m).classes) :
    c = linkClass (1000 * link) ∨ c = voipClass leafParent (1000 * voip) ∨
      c = restClass leafParent (1000 * rest) := by
  simp only [qosBuilt, Htb.addFilter, Htb.addNetemIf_classes] at member
  rcases Htb.mem_addClassIf _ _ _ c member with member | rest_eq
  · rw [Htb.addNetemIf_classes] at member
    rcases Htb.mem_addClassIf _ _ _ c member with member | voip_eq
    · rcases Htb.mem_addClassIf _ _ _ c member with old | link_eq
      · simp [Htb.root] at old
      · exact .inl link_eq
    · exact .inr (.inl voip_eq)
  · exact .inr (.inr rest_eq)

/-- Below the root qdisc there is always room for the VoIP class. -/
theorem voipClass_mem_qosBuilt (takes : Intake) (link rest : ℤ) (netemVoIP netemRest : List String)
    (n m : ℕ) :
    voipClass "1:0" (1000 * 2) ∈
      (qosBuilt takes "1:0" link 2 rest netemVoIP netemRest n m).classes := by
  have unused : ∀ c ∈ ((Htb.root "1:20").addClassIf takes (linkClass (1000 * link))).classes,
      c.id ≠ "1:10" := by
    intro c member
    rcases Htb.mem_addClassIf _ _ _ c member with old | rfl
    · simp [Htb.root] at old
    · simp [linkClass]
  have room : ((Htb.root "1:20").addClassIf takes (linkClass (1000 * link))).admitsClass
      "1:0" "1:10" = true := (Htb.admitsClass_iff _ _ _).mpr ⟨.inl rfl, unused⟩
  simp only [qosBuilt, Htb.addFilter, Htb.addNetemIf_classes]
  apply Htb.mem_addClassIf_of_mem
  rw [Htb.addNetemIf_classes,
    Htb.addClassIf_of_room _ _ (voipClass "1:0" (1000 * 2)) room (rate_voip takes)]
  exact List.mem_append_right _ (List.mem_singleton_self _)

theorem treesAlike_iff (a : Arithmetic) (t : TrunksConfig) (laws : LinkLawsOn b takes t.nic)
    (uname : Except Error String)
    (start : Network Table Tree) (distinct : t.nic.st ≠ t.nic.gw)
    (bare : ∀ dev, start.tree dev = none) : TreesAlike b a t uname start ↔ t.qos = false := by
  have turned : LinkLawsOn b takes (mirror t).nic := fun dev named => laws dev named.symm
  have tree := run_built a t laws uname start distinct bare
  have mirrored := run_built a (mirror t) turned uname start distinct.symm bare
  constructor
  · intro alike
    by_contra on
    have qos : t.qos = true := by simpa using on
    -- on the terminal device the VoIP class has to hang in two places at once
    have same := alike t.nic.st
    rw [mirrored, tree, if_neg distinct, if_pos rfl, if_pos (show t.nic.st = (mirror t).nic.gw from rfl),
      Option.map_some, Option.some.injEq, builtGW, builtST, if_pos qos,
      if_pos (show (mirror t).qos = true from qos)] at same
    have below := voipClass_mem_qosBuilt takes (linkKbit a t.bandwidth.forward)
      (restKbit a t.bandwidth.forward)
      (netemArgs a t uname (queueLimit a (some 2) t.delay.denomination))
      (netemArgsRestST a t uname
        (queueLimit a (restBandwidth a t.bandwidth.forward) t.delay.denomination)) 21 20
    rw [← remarkTree_classes, ← same] at below
    rcases mem_qosBuilt _ _ _ _ _ _ _ _ _ _ below with link | voip | rest
    · exact absurd (congrArg HtbClass.id link) (show "1:10" ≠ "1:1" by decide)
    · exact absurd (congrArg HtbClass.parent voip) (show "1:0" ≠ "1:1" by decide)
    · exact absurd (congrArg HtbClass.id rest) (show "1:10" ≠ "1:20" by decide)
  · intro off
    have plain : ¬ t.qos = true := by simp [off]
    have plain' : ¬ (mirror t).qos = true := plain
    intro dev
    rw [mirrored, tree, builtGW, builtST, builtGW, builtST, if_neg plain, if_neg plain,
      if_neg plain', if_neg plain']
    by_cases gw : dev = t.nic.gw
    · have other : dev ≠ t.nic.st := by
        rw [gw]
        exact distinct.symm
      rw [if_pos gw, if_neg (show dev ≠ (mirror t).nic.gw from other),
        if_pos (show dev = (mirror t).nic.st from gw), Option.map_some, remarkTree_plainBuilt]
      rfl
    · by_cases st : dev = t.nic.st
      · rw [if_neg gw, if_pos st, if_pos (show dev = (mirror t).nic.gw from st), Option.map_some,
          remarkTree_plainBuilt]
        rfl
      · rw [if_neg gw, if_neg st, if_neg (show dev ≠ (mirror t).nic.gw from st),
          if_neg (show dev ≠ (mirror t).nic.st from gw)]
        rfl

/-- The two directions are built alike exactly without QoS, command by command and in the trees
that result. -/
theorem directions_alike_iff (a : Arithmetic) (t : TrunksConfig) (laws : LinkLawsOn b takes t.nic)
    (uname : Except Error String)
    (start : Network Table Tree) (bare : ∀ dev, start.tree dev = none) :
    (∀ c ∈ commandsGW a t uname, c.device = some t.nic.gw) ∧
    (∀ c ∈ commandsST a t uname, c.device = some t.nic.st) ∧
    (CommandsAlike a t uname ↔ t.qos = false) ∧
    (t.nic.st ≠ t.nic.gw → (TreesAlike b a t uname start ↔ t.qos = false)) := by
  refine ⟨?_, ?_, commandsAlike_iff a t uname, ?_⟩
  · rw [commandsGW_eq]
    exact device_blockGW a t uname
  · rw [commandsST_eq]
    exact device_blockST a t uname
  · intro distinct
    exact treesAlike_iff a t laws uname start distinct bare

theorem directions_alike_sample : CommandsAlike .float64 sampleConfig (.ok "") :=
  (directions_alike_iff .float64 sampleConfig (reference_linkLawsOn _) (.ok "") fresh
    (fun _ => rfl)).2.2.1.mpr rfl

/-- The parents of the VoIP class, as the two halves of the sample with QoS name them. -/
theorem directions_differ_sample :
    ((commandsST .float64 sampleQos (.ok ""))[2]?).map (·.args) =
        some ["class", "add", "dev", "eth0", "parent", "1:0", "classid", "1:10", "htb",
          "rate", "2kbit", "prio", "0", "burst", "3k", "cburst", "3k"] ∧
    ((commandsGW .float64 (mirror sampleQos) (.ok ""))[2]?).map (·.args) =
        some ["class", "add", "dev", "eth0", "parent", "1:1", "classid", "1:10", "htb",
          "rate", "2kbit", "prio", "0", "burst", "3k", "cburst", "3k"] ∧
    ¬ CommandsAlike .float64 sampleQos (.ok "") := by
  decide +kernel

end Tlink.Properties
