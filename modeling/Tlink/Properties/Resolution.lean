import Tlink.Lib.Chase
import Tlink.Runtime.Init

/-!
# Resolving the endpoints

The scan of all interfaces is a search for an address that its own hits replace, once for
each endpoint. The two ways of resolving are tried for the pair as a whole, so a pair of
one name and one address is refused.
-/
namespace Tlink.Properties

open Chase Tlink.Runtime

/-! ### The scan -/

/-- The text an address is compared by, if it is compared. -/
def addrKey : Addr → Option String
  | .ipNet ip => some (ipString (to4 ip))
  | .other => none

def entriesOf (name : String) (addrs : List Addr) : List (String × String) :=
  (addrs.filterMap addrKey).map fun key => (key, name)

/-- The compared texts of all readable interfaces, with the names that replace them. -/
def entries (ifaces : List Interface) : List (String × String) :=
  ifaces.flatMap fun i =>
    match i.addrs with
    | .ok addrs => entriesOf i.name addrs
    | .error _ => []

/-- Each field is compared with its own old value. -/
theorem matchAddr_ipNet (name : String) (nic : NIC) (ip : IP) :
    matchAddr name nic (.ipNet ip) =
      ⟨if ipString (to4 ip) = nic.st then name else nic.st,
        if ipString (to4 ip) = nic.gw then name else nic.gw⟩ := by
  unfold matchAddr
  by_cases gw : ipString (to4 ip) = nic.gw
  · simp only [if_pos gw]
    split <;> rfl
  · simp only [if_neg gw]
    split <;> rfl

theorem scanAddrs_eq (name : String) (nic : NIC) (addrs : List Addr) :
    scanAddrs name nic addrs =
      ⟨chase (entriesOf name addrs) nic.st, chase (entriesOf name addrs) nic.gw⟩ := by
  induction addrs generalizing nic with
  | nil => rfl
  | cons a addrs ih =>
    have tail := ih (matchAddr name nic a)
    cases a with
    | other => exact tail
    | ipNet ip =>
      rw [matchAddr_ipNet] at tail
      simpa [scanAddrs, entriesOf, addrKey, matchAddr_ipNet] using tail

/-- Each endpoint is searched for on its own. -/
theorem scanInterfaces_eq (nic : NIC) (ifaces : List Interface)
    (readable : ∀ i ∈ ifaces, ∃ addrs, i.addrs = .ok addrs) :
    scanInterfaces nic ifaces =
      (⟨chase (entries ifaces) nic.st, chase (entries ifaces) nic.gw⟩, none) := by
  induction ifaces generalizing nic with
  | nil => rfl
  | cons i rest ih =>
    obtain ⟨addrs, read⟩ := readable i (by simp)
    have tail := ih (scanAddrs i.name nic addrs) fun other member => readable other (by simp [member])
    rw [scanAddrs_eq] at tail
    simp only [scanInterfaces, read, scanAddrs_eq, tail]
    simp [entries, read, chase_append]

/-! ### Names and addresses -/

def IsDotted (s : String) : Prop := ∃ a b c d, s = dotted a b c d

/-- An address that is compared is in dotted form or all that `To4` leaves of it is nil. -/
theorem ipString_to4 (ip : IP) : IsDotted (ipString (to4 ip)) ∨ ipString (to4 ip) = "<nil>" := by
  unfold ipString
  split
  · exact .inl ⟨_, _, _, _, rfl⟩
  · exact .inr rfl

/-- The interface of that name has the address. -/
def Carries (ifaces : List Interface) (address name : String) : Prop :=
  ∃ i ∈ ifaces, i.name = name ∧ ∃ addrs, i.addrs = .ok addrs ∧
    ∃ ip, Addr.ipNet ip ∈ addrs ∧ ipString (to4 ip) = address

theorem mem_entries_iff (ifaces : List Interface) (key name : String) :
    (key, name) ∈ entries ifaces ↔ Carries ifaces key name := by
  unfold entries Carries
  rw [List.mem_flatMap]
  refine exists_congr fun i => and_congr_right fun _ => ?_
  cases read : i.addrs with
  | error err => simp
  | ok addrs =>
    simp only [entriesOf, List.mem_map, List.mem_filterMap, Prod.mk.injEq, Except.ok.injEq,
      exists_eq_left', and_comm (a := i.name = name)]
    constructor
    · rintro ⟨_, ⟨a, member, compared⟩, rfl, same⟩
      cases a with
      | other => cases compared
      | ipNet ip => exact ⟨⟨ip, member, Option.some.inj compared⟩, same⟩
    · rintro ⟨⟨ip, member, compared⟩, same⟩
      exact ⟨key, ⟨.ipNet ip, member, congrArg some compared⟩, rfl, same⟩

theorem name_of_carries (ifaces : List Interface) (address name : String)
    (carries : Carries ifaces address name) : name ∈ ifaces.map (·.name) := by
  obtain ⟨i, member, rfl, _⟩ := carries
  exact List.mem_map_of_mem member

/-- A text with a slash may lead to a file of another name. -/
def Slashless (s : String) : Prop := '/' ∉ s.toList

instance (s : String) : Decidable (Slashless s) := inferInstanceAs (Decidable (¬ _))

/-- `/sys` has the text for a name exactly if it is one. -/
def Known (host : Host) (ifaces : List Interface) (s : String) : Prop :=
  (pathExists host (operstate s)).1 = true ↔ s ∈ ifaces.map (·.name)

/-- `/sys` knows the interfaces, and no other text without a slash. -/
def Operstates (host : Host) (ifaces : List Interface) : Prop :=
  ∀ s, Slashless s ∨ s ∈ ifaces.map (·.name) → Known host ifaces s

/-- The machine: its interfaces can be listed and read, have distinct names that do not look like
addresses, and `/sys` knows exactly them. -/
structure Ready (host : Host) (ifaces : List Interface) : Prop where
  listed : host.interfaces = .ok ifaces
  distinct : (ifaces.map (·.name)).Nodup
  notDotted : ∀ i ∈ ifaces, ¬ IsDotted i.name
  readable : ∀ i ∈ ifaces, ∃ addrs, i.addrs = .ok addrs
  operstates : Operstates host ifaces

/-- One of the two forms the configuration documents. -/
def Given (ifaces : List Interface) (s : String) : Prop :=
  s ∈ ifaces.map (·.name) ∨ IsDotted s ∧ ∃ name, Carries ifaces s name

/-- A name stays; an address becomes the name of an interface that carries it. -/
def ResolvedAs (ifaces : List Interface) (s name : String) : Prop :=
  name ∈ ifaces.map (·.name) ∧ (s ∈ ifaces.map (·.name) → name = s) ∧
    (s ∉ ifaces.map (·.name) → Carries ifaces s name)

/-- Where the search for an address hits an interface named like an absent address first, and goes
on to another interface from there, that one carries the address too. -/
def KeepsAddress (ifaces : List Interface) (s : String) : Prop :=
  ∀ after name, (entries ifaces).dropWhile (fun entry => entry.1 ≠ s) = (s, "<nil>") :: after →
    after.find? (leaves "<nil>") = some ("<nil>", name) → Carries ifaces s name

/-! ### The search for an address -/

theorem entries_key (ifaces : List Interface) (entry : String × String)
    (member : entry ∈ entries ifaces) : IsDotted entry.1 ∨ entry.1 = "<nil>" := by
  obtain ⟨_, _, _, _, _, ip, _, compared⟩ := (mem_entries_iff ifaces entry.1 entry.2).mp member
  rw [← compared]
  exact ipString_to4 ip

/-- A name is looked for again only if it is the text of an absent address. -/
theorem entries_final (ifaces : List Interface) (notDotted : ∀ i ∈ ifaces, ¬ IsDotted i.name)
    (entry : String × String) (member : entry ∈ entries ifaces) (named : entry.2 ≠ "<nil>") :
    ∀ other ∈ entries ifaces, other.1 ≠ entry.2 := by
  intro other member' same
  obtain ⟨i, i_member, name, _⟩ := (mem_entries_iff ifaces entry.1 entry.2).mp member
  rcases entries_key ifaces other member' with dotted | absent
  · rw [same, ← name] at dotted
    exact notDotted i i_member dotted
  · exact named (same.symm.trans absent)

theorem chase_address (ifaces : List Interface) (notDotted : ∀ i ∈ ifaces, ¬ IsDotted i.name)
    (s name : String) (carries : Carries ifaces s name) :
    (∃ key, Carries ifaces key (chase (entries ifaces) s)) ∧
      (Carries ifaces s (chase (entries ifaces) s) ↔ KeepsAddress ifaces s) := by
  obtain ⟨first, after, found, member, inside⟩ :=
    exists_first (entries ifaces) s name ((mem_entries_iff ifaces s name).mpr carries)
  have chased : chase (entries ifaces) s = chase after first := by rw [chase_eq, found]
  have hit : Carries ifaces s first := (mem_entries_iff ifaces s first).mp member
  by_cases detour : first = "<nil>"
  · subst detour
    have ends := chase_leaves after "<nil>" fun entry later away other later' =>
      entries_final ifaces notDotted entry (inside entry later)
        (by simp only [leaves, Bool.and_eq_true, decide_eq_true_eq] at away; exact away.2)
        other (inside other later')
    rw [chased, ends]
    cases next : after.find? (leaves "<nil>") with
    | none =>
      refine ⟨⟨s, hit⟩, iff_of_true hit ?_⟩
      intro after' name' found' next'
      rw [found] at found'
      obtain rfl := (List.cons.inj found').2
      rw [next] at next'
      cases next'
    | some entry =>
      -- the detour ends at the next value that is not the text of an absent address
      have away := List.find?_some next
      simp only [leaves, Bool.and_eq_true, decide_eq_true_eq] at away
      have entry_eq : entry = ("<nil>", entry.2) := Prod.ext away.1 rfl
      have member' := inside entry (List.mem_of_find?_eq_some next)
      refine ⟨⟨entry.1, (mem_entries_iff ifaces entry.1 entry.2).mp member'⟩, ?_⟩
      constructor
      · intro carries' after' name' found' next'
        rw [found] at found'
        obtain rfl := (List.cons.inj found').2
        rw [next] at next'
        rwa [Option.some.inj next'] at carries'
      · intro keeps
        exact keeps after entry.2 found (by rw [next, ← entry_eq])
  -- an ordinary name is no key, so the search stays there
  · have ends : chase after first = first :=
      chase_of_absent after first fun other later =>
        entries_final ifaces notDotted (s, first) member detour other (inside other later)
    rw [chased, ends]
    refine ⟨⟨s, hit⟩, iff_of_true hit ?_⟩
    intro after' name' found' _
    rw [found] at found'
    exact absurd (Prod.mk.inj (List.cons.inj found').1).2 detour

/-! ### `InitTrunks` -/

variable {host : Host} {ifaces : List Interface}

theorem slashless_of_dotted (s : String) (isDotted : IsDotted s) : Slashless s := by
  obtain ⟨a, b, c, d, rfl⟩ := isDotted
  have digits (n : ℕ) : '/' ∉ Nat.toDigits 10 n := by
    intro member
    have digit := Nat.isDigit_of_mem_toDigits (by decide) (by decide) member
    exact absurd digit (by decide)
  simp [Slashless, dotted, digits]

theorem Ready.known (ready : Ready host ifaces) (s : String) (given : Given ifaces s) :
    Known host ifaces s := by
  rcases given with named | ⟨isDotted, _⟩
  · exact ready.operstates s (.inr named)
  · exact ready.operstates s (.inl (slashless_of_dotted s isDotted))

theorem checkInterfaces_eq (t : TrunksConfig) (st : Known host ifaces t.nic.st)
    (gw : Known host ifaces t.nic.gw) :
    checkInterfaces host (some t) =
      .ok (if t.nic.st ∈ ifaces.map (·.name) ∧ t.nic.gw ∈ ifaces.map (·.name) then none
        else some "") := by
  unfold Known at st gw
  simp only [checkInterfaces, deref, bind, Except.bind, ← st, ← gw]
  cases (pathExists host (operstate t.nic.st)).1 <;>
    cases (pathExists host (operstate t.nic.gw)).1 <;> rfl

theorem findInterfaces_eq (listed : host.interfaces = .ok ifaces)
    (readable : ∀ i ∈ ifaces, ∃ addrs, i.addrs = .ok addrs) (t : TrunksConfig) :
    findInterfaces host (some t) =
      .ok ({ t with nic := ⟨chase (entries ifaces) t.nic.st, chase (entries ifaces) t.nic.gw⟩ },
        if t.nic.st = chase (entries ifaces) t.nic.st ∨ t.nic.gw = chase (entries ifaces) t.nic.gw
        then some "" else none) := by
  unfold findInterfaces
  simp only [deref, listed, scanInterfaces_eq t.nic ifaces readable, bind, Except.bind]
  generalize chase (entries ifaces) t.nic.st = st
  generalize chase (entries ifaces) t.nic.gw = gw
  by_cases sameSt : t.nic.st = st <;> by_cases sameGw : t.nic.gw = gw <;>
    simp [sameSt, sameGw, pure, Except.pure]

/-- The settings of the command line. -/
def withFlags (t : TrunksConfig) (qos : Bool) (logs : String) (acm disableKernelVersionCheck : Bool) :
    TrunksConfig :=
  { t with qos := qos, logs := logs, acmEnabled := acm,
           kernelVersionCheck := !disableKernelVersionCheck }

/-- A pair of names is left as it is. -/
theorem initTrunks_named
    (unmarshal : Unmarshal) (file : String) (qos : Bool) (logs : String)
    (acm disableKernelVersionCheck : Bool) (t : TrunksConfig) (st : Known host ifaces t.nic.st)
    (gw : Known host ifaces t.nic.gw) (parsed : parseConf host unmarshal file = .ok (some t))
    (named : t.nic.st ∈ ifaces.map (·.name) ∧ t.nic.gw ∈ ifaces.map (·.name)) :
    initTrunks host unmarshal file qos logs acm disableKernelVersionCheck =
      .ok (some (withFlags t qos logs acm disableKernelVersionCheck), none) := by
  simp only [initTrunks, parsed, resolveInterfaces, checkInterfaces_eq t st gw, if_pos named,
    bind, Except.bind, deref]
  rfl

/-- Any other pair is left to the scan, with its error. -/
theorem initTrunks_scanned
    (unmarshal : Unmarshal) (file : String) (qos : Bool) (logs : String)
    (acm disableKernelVersionCheck : Bool) (t s : TrunksConfig) (err : Option Error)
    (st : Known host ifaces t.nic.st) (gw : Known host ifaces t.nic.gw)
    (parsed : parseConf host unmarshal file = .ok (some t))
    (unnamed : ¬ (t.nic.st ∈ ifaces.map (·.name) ∧ t.nic.gw ∈ ifaces.map (·.name)))
    (scanned : findInterfaces host (some t) = .ok (s, err)) :
    initTrunks host unmarshal file qos logs acm disableKernelVersionCheck =
      .ok (if err.isSome then (none, err)
        else (some (withFlags s qos logs acm disableKernelVersionCheck), none)) := by
  simp only [initTrunks, parsed, resolveInterfaces, checkInterfaces_eq t st gw, if_neg unnamed,
    scanned, bind, Except.bind]
  cases err <;> rfl

theorem initTrunks_eq (ready : Ready host ifaces) (unmarshal : Unmarshal) (file : String)
    (qos : Bool) (logs : String) (acm disableKernelVersionCheck : Bool) (t : TrunksConfig)
    (st : Given ifaces t.nic.st) (gw : Given ifaces t.nic.gw)
    (parsed : parseConf host unmarshal file = .ok (some t)) :
    initTrunks host unmarshal file qos logs acm disableKernelVersionCheck =
      .ok (if t.nic.st ∈ ifaces.map (·.name) ∧ t.nic.gw ∈ ifaces.map (·.name) then
          (some (withFlags t qos logs acm disableKernelVersionCheck), none)
        else if t.nic.st = chase (entries ifaces) t.nic.st ∨
          t.nic.gw = chase (entries ifaces) t.nic.gw then (none, some "")
        else (some (withFlags { t with nic :=
            ⟨chase (entries ifaces) t.nic.st, chase (entries ifaces) t.nic.gw⟩ }
          qos logs acm disableKernelVersionCheck), none)) := by
  by_cases named : t.nic.st ∈ ifaces.map (·.name) ∧ t.nic.gw ∈ ifaces.map (·.name)
  · rw [if_pos named]
    exact initTrunks_named unmarshal file qos logs acm disableKernelVersionCheck t
      (ready.known _ st) (ready.known _ gw) parsed named
  · rw [if_neg named, initTrunks_scanned unmarshal file qos logs acm disableKernelVersionCheck t _ _
      (ready.known _ st) (ready.known _ gw) parsed named
      (findInterfaces_eq ready.listed ready.readable t)]
    split <;> rfl

/-- What the scan does to an endpoint that is not a name. -/
theorem chase_given (ready : Ready host ifaces) (s : String) (given : Given ifaces s)
    (unnamed : s ∉ ifaces.map (·.name)) :
    chase (entries ifaces) s ∈ ifaces.map (·.name) ∧ s ≠ chase (entries ifaces) s ∧
      (Carries ifaces s (chase (entries ifaces) s) ↔ KeepsAddress ifaces s) := by
  rcases given with named | ⟨_, name, carries⟩
  · exact absurd named unnamed
  · obtain ⟨⟨key, hit⟩, keeps⟩ := chase_address ifaces ready.notDotted s name carries
    have named := name_of_carries ifaces key _ hit
    refine ⟨named, ?_, keeps⟩
    intro same
    rw [← same] at named
    exact unnamed named

/-- Resolution succeeds as documented exactly for two names and for two addresses, the latter as
long as no interface named like an absent address leads away from them. -/
theorem resolution_complete_iff (ready : Ready host ifaces) (unmarshal : Unmarshal) (file : String)
    (qos : Bool) (logs : String) (acm disableKernelVersionCheck : Bool) (t : TrunksConfig)
    (parsed : parseConf host unmarshal file = .ok (some t)) (st : Given ifaces t.nic.st)
    (gw : Given ifaces t.nic.gw) :
    (∃ t', initTrunks host unmarshal file qos logs acm disableKernelVersionCheck =
        .ok (some t', none) ∧
      ResolvedAs ifaces t.nic.st t'.nic.st ∧ ResolvedAs ifaces t.nic.gw t'.nic.gw) ↔
    (t.nic.st ∈ ifaces.map (·.name) ∧ t.nic.gw ∈ ifaces.map (·.name)) ∨
    (t.nic.st ∉ ifaces.map (·.name) ∧ t.nic.gw ∉ ifaces.map (·.name) ∧
      KeepsAddress ifaces t.nic.st ∧ KeepsAddress ifaces t.nic.gw) := by
  rw [initTrunks_eq ready unmarshal file qos logs acm disableKernelVersionCheck t st gw parsed]
  by_cases named : t.nic.st ∈ ifaces.map (·.name) ∧ t.nic.gw ∈ ifaces.map (·.name)
  · rw [if_pos named]
    -- two names are found and left alone
    refine iff_of_true ⟨_, rfl, ?_, ?_⟩ (.inl named)
    · exact ⟨named.1, fun _ => rfl, fun unnamed => absurd named.1 unnamed⟩
    · exact ⟨named.2, fun _ => rfl, fun unnamed => absurd named.2 unnamed⟩
  · rw [if_neg named]
    constructor
    · rintro ⟨t', returned, resolvedSt, resolvedGw⟩
      split at returned
      · cases Except.ok.inj returned
      next changed =>
        obtain rfl := Option.some.inj (Prod.mk.inj (Except.ok.inj returned)).1
        rw [not_or] at changed
        -- a name would have had to stay, and then the scan reports an error
        have unnamedSt : t.nic.st ∉ ifaces.map (·.name) := fun member =>
          changed.1 (resolvedSt.2.1 member).symm
        have unnamedGw : t.nic.gw ∉ ifaces.map (·.name) := fun member =>
          changed.2 (resolvedGw.2.1 member).symm
        exact .inr ⟨unnamedSt, unnamedGw,
          (chase_given ready t.nic.st st unnamedSt).2.2.mp (resolvedSt.2.2 unnamedSt),
          (chase_given ready t.nic.gw gw unnamedGw).2.2.mp (resolvedGw.2.2 unnamedGw)⟩
    · rintro (bothNamed | ⟨unnamedSt, unnamedGw, keepsSt, keepsGw⟩)
      · exact absurd bothNamed named
      · obtain ⟨memberSt, changedSt, carriesSt⟩ := chase_given ready t.nic.st st unnamedSt
        obtain ⟨memberGw, changedGw, carriesGw⟩ := chase_given ready t.nic.gw gw unnamedGw
        rw [if_neg (not_or.mpr ⟨changedSt, changedGw⟩)]
        refine ⟨_, rfl, ?_, ?_⟩
        · exact ⟨memberSt, fun member => absurd member unnamedSt, fun _ => carriesSt.mpr keepsSt⟩
        · exact ⟨memberGw, fun member => absurd member unnamedGw, fun _ => carriesGw.mpr keepsGw⟩

/-! ### A machine with two interfaces -/

def sampleIfaces : List Interface :=
  [⟨"eth0", .ok [.ipNet [10, 1, 1, 254]]⟩, ⟨"eth1", .ok [.ipNet [10, 2, 2, 254]]⟩]

def sampleHost : Host where
  abs := id
  readFile _ := .ok ""
  stat path := if path ∈ sampleIfaces.map (fun i => operstate i.name) then .found else .notExist
  interfaces := .ok sampleIfaces

theorem operstate_inj (name name' : String) (same : operstate name = operstate name') :
    name = name' := by
  unfold operstate at same
  exact (String.append_right_inj _).mp ((String.append_left_inj _).mp same)

theorem sampleReady : Ready sampleHost sampleIfaces where
  listed := rfl
  distinct := by decide
  notDotted := by
    rintro i member ⟨a, b, c, d, same⟩
    have dot : '.' ∈ i.name.toList := by simp [same, dotted]
    have none_has : ∀ i ∈ sampleIfaces, '.' ∉ i.name.toList := by decide
    exact none_has i member dot
  readable := by simp [sampleIfaces]
  operstates name _ := by
    have listed : operstate name ∈ sampleIfaces.map (fun i => operstate i.name) ↔
        name ∈ sampleIfaces.map (·.name) := by
      constructor
      · intro member
        obtain ⟨i, inside, same⟩ := List.mem_map.mp member
        rw [← operstate_inj i.name name same]
        exact List.mem_map_of_mem inside
      · intro member
        obtain ⟨i, inside, rfl⟩ := List.mem_map.mp member
        exact List.mem_map_of_mem inside
    rw [Known, ← listed, pathExists, sampleHost]
    by_cases member : operstate name ∈ sampleIfaces.map (fun i => operstate i.name) <;>
      simp [member]

theorem resolution_complete_sample :
    ∃ t', initTrunks sampleHost (fun _ => .ok (some sampleConfig)) "tlink.yaml" false "" false false =
        .ok (some t', none) ∧
      ResolvedAs sampleIfaces "eth0" t'.nic.st ∧ ResolvedAs sampleIfaces "eth1" t'.nic.gw :=
  (resolution_complete_iff sampleReady (fun _ => .ok (some sampleConfig)) "tlink.yaml" false "" false
    false sampleConfig rfl (.inl (by decide)) (.inl (by decide))).mpr
    (.inl ⟨by decide, by decide⟩)

/-- One endpoint by name, one by address. -/
def sampleMixed : TrunksConfig := { sampleConfig with nic := ⟨"eth0", "10.2.2.254"⟩ }

/-- The mixed pair is refused although both endpoints exist. -/
theorem resolution_mixed_refused :
    Ready sampleHost sampleIfaces ∧
    Given sampleIfaces sampleMixed.nic.st ∧ Given sampleIfaces sampleMixed.nic.gw ∧
    initTrunks sampleHost (fun _ => .ok (some sampleMixed)) "tlink.yaml" false "" false false =
      .ok (none, some "") := by
  refine ⟨sampleReady, .inl (by decide), .inr ⟨⟨10, 2, 2, 254, by decide⟩, "eth1", ?_⟩, by decide +kernel⟩
  exact ⟨_, List.mem_cons_of_mem _ (List.mem_singleton_self _), rfl, _, rfl, [10, 2, 2, 254],
    by decide, by decide⟩

end Tlink.Properties
