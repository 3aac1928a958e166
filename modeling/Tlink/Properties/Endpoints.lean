import Tlink.Properties.Resolution

/-!
# The endpoints a scan finds and those a start accepts

Where interfaces have ordinary names the scan finds for each endpoint the first interface
that carries its address, although it overwrites the fields it compares. Whatever a start
accepts are names of interfaces, but each endpoint is resolved without a look at the other,
so both can be the same interface.
-/
namespace Tlink.Properties

open Chase Tlink.Runtime

/-! ### The first interface that carries an address -/

def hasAddress (s : String) (i : Interface) : Bool :=
  match i.addrs with
  | .ok addrs => addrs.any fun a => addrKey a = some s
  | .error _ => false

/-- In the order of enumeration. -/
def firstCarrier (ifaces : List Interface) (s : String) : Option String :=
  (ifaces.find? (hasAddress s)).map (·.name)

theorem find_entriesOf (name s : String) (addrs : List Addr) :
    (entriesOf name addrs).find? (fun entry => entry.1 = s) =
      if addrs.any (fun a => addrKey a = some s) then some (s, name) else none := by
  induction addrs with
  | nil => rfl
  | cons a addrs ih =>
    cases compared : addrKey a with
    | none => simpa [entriesOf, compared] using ih
    | some key =>
      by_cases hit : key = s
      · simp [entriesOf, compared, hit]
      · simpa [entriesOf, compared, hit] using ih

theorem find_entries (ifaces : List Interface) (s : String) :
    (entries ifaces).find? (fun entry => entry.1 = s) =
      (ifaces.find? (hasAddress s)).map fun i => (s, i.name) := by
  induction ifaces with
  | nil => rfl
  | cons i rest ih =>
    unfold entries at ih ⊢
    rw [List.flatMap_cons, List.find?_append, ih]
    cases read : i.addrs with
    | error err => simp [hasAddress, read]
    | ok addrs =>
      rw [find_entriesOf]
      cases carried : addrs.any fun a => addrKey a = some s <;>
        simp [hasAddress, read, carried]

theorem firstCarrier_carries (ifaces : List Interface) (s name : String)
    (first : firstCarrier ifaces s = some name) : Carries ifaces s name := by
  have entry : (entries ifaces).find? (fun entry => entry.1 = s) = some (s, name) := by
    obtain ⟨i, found, rfl⟩ := Option.map_eq_some_iff.mp first
    rw [find_entries, found, Option.map_some]
  exact (mem_entries_iff ifaces s name).mp (List.mem_of_find?_eq_some entry)

theorem firstCarrier_isSome_iff (ifaces : List Interface) (s : String) :
    (firstCarrier ifaces s).isSome = true ↔ ∃ name, Carries ifaces s name := by
  constructor
  · intro carried
    obtain ⟨name, first⟩ := Option.isSome_iff_exists.mp carried
    exact ⟨name, firstCarrier_carries ifaces s name first⟩
  · rintro ⟨name, carries⟩
    have hit : ((entries ifaces).find? fun entry => entry.1 = s).isSome = true := by
      rw [List.find?_isSome]
      exact ⟨(s, name), (mem_entries_iff ifaces s name).mpr carries, by simp⟩
    rw [find_entries, Option.isSome_map] at hit
    rwa [firstCarrier, Option.isSome_map]

/-- Names that cannot be taken for the text of an address. -/
def OrdinaryNames (ifaces : List Interface) : Prop :=
  ∀ i ∈ ifaces, ¬ IsDotted i.name ∧ i.name ≠ "<nil>"

/-- With ordinary names no hit is looked for again. -/
theorem chase_ordinary (ifaces : List Interface) (ordinary : OrdinaryNames ifaces) (s : String) :
    chase (entries ifaces) s = (firstCarrier ifaces s).getD s := by
  have final : ∀ entry ∈ entries ifaces, ∀ other ∈ entries ifaces, other.1 ≠ entry.2 := by
    intro entry member
    obtain ⟨i, i_member, name, _⟩ := (mem_entries_iff ifaces entry.1 entry.2).mp member
    apply entries_final ifaces (fun i inside => (ordinary i inside).1) entry member
    rw [← name]
    exact (ordinary i i_member).2
  rw [chase_of_final _ s final, find_entries, firstCarrier, Option.map_map]
  rfl

/-- An endpoint changes exactly if it is carried. -/
theorem moved_iff (ifaces : List Interface) (ordinary : OrdinaryNames ifaces) (s : String) :
    s ≠ chase (entries ifaces) s ↔ ∃ name, Carries ifaces s name := by
  rw [← firstCarrier_isSome_iff, chase_ordinary ifaces ordinary]
  cases first : firstCarrier ifaces s with
  | none => simp
  | some name =>
    simp only [Option.getD_some, Option.isSome_some, iff_true]
    rintro rfl
    -- an endpoint that is carried is the text of an address, which names no interface
    have carries := firstCarrier_carries ifaces s s first
    obtain ⟨i, member, named⟩ := List.mem_map.mp (name_of_carries ifaces s s carries)
    have key := entries_key ifaces (s, s) ((mem_entries_iff ifaces s s).mpr carries)
    rw [← named] at key
    rcases key with dotted | absent
    · exact (ordinary i member).1 dotted
    · exact (ordinary i member).2 absent

theorem firstCarrier_of_moved (ifaces : List Interface) (ordinary : OrdinaryNames ifaces)
    (s : String) (moved : s ≠ chase (entries ifaces) s) :
    firstCarrier ifaces s = some (chase (entries ifaces) s) := by
  have present := (firstCarrier_isSome_iff ifaces s).mpr ((moved_iff ifaces ordinary s).mp moved)
  obtain ⟨name, first⟩ := Option.isSome_iff_exists.mp present
  rw [chase_ordinary ifaces ordinary, first, Option.getD_some]

/-! ### `FindInterfaces` -/

/-- The first interface that cannot be read ends the scan. -/
theorem scanInterfaces_unreadable (nic : NIC) (ifaces : List Interface)
    (unreadable : ¬ ∀ i ∈ ifaces, ∃ addrs, i.addrs = .ok addrs) :
    ∃ nic' err, scanInterfaces nic ifaces = (nic', some err) := by
  induction ifaces generalizing nic with
  | nil => exact absurd (by simp) unreadable
  | cons i rest ih =>
    cases read : i.addrs with
    | error err => exact ⟨nic, err, by simp only [scanInterfaces, read]⟩
    | ok addrs =>
      have later : ¬ ∀ j ∈ rest, ∃ addrs, j.addrs = .ok addrs := by
        intro all
        apply unreadable
        intro j member
        rcases List.mem_cons.mp member with rfl | inside
        · exact ⟨addrs, read⟩
        · exact all j inside
      obtain ⟨nic', err, scanned⟩ := ih (scanAddrs i.name nic addrs) later
      exact ⟨nic', err, by simp only [scanInterfaces, read, scanned]⟩

variable {host : Host} {ifaces : List Interface}

theorem findInterfaces_unreadable (listed : host.interfaces = .ok ifaces)
    (unreadable : ¬ ∀ i ∈ ifaces, ∃ addrs, i.addrs = .ok addrs) (t : TrunksConfig) :
    ∃ s err, findInterfaces host (some t) = .ok (s, some err) := by
  obtain ⟨nic, err, scanned⟩ := scanInterfaces_unreadable t.nic ifaces unreadable
  exact ⟨{ t with nic := nic }, err,
    by simp only [findInterfaces, deref, listed, scanned, bind, Except.bind]; rfl⟩

/-- The scan succeeds exactly if it can be completed and both addresses are carried, and then each
endpoint is the first interface that carries it. -/
theorem find_interfaces_iff (listed : host.interfaces = .ok ifaces)
    (ordinary : OrdinaryNames ifaces) (t : TrunksConfig) :
    ∃ t' err, findInterfaces host (some t) = .ok (t', err) ∧
      (err = none ↔ (∀ i ∈ ifaces, ∃ addrs, i.addrs = .ok addrs) ∧
        (∃ name, Carries ifaces t.nic.st name) ∧ ∃ name, Carries ifaces t.nic.gw name) ∧
      (err = none → ∃ st gw, firstCarrier ifaces t.nic.st = some st ∧
        firstCarrier ifaces t.nic.gw = some gw ∧ t' = { t with nic := ⟨st, gw⟩ }) := by
  by_cases readable : ∀ i ∈ ifaces, ∃ addrs, i.addrs = .ok addrs
  · refine ⟨_, _, findInterfaces_eq listed readable t, ?_, ?_⟩
    · rw [← moved_iff ifaces ordinary, ← moved_iff ifaces ordinary, ← not_or, and_iff_right readable]
      simp
    · intro found
      -- an endpoint that has not moved is an error
      have moved : t.nic.st ≠ chase (entries ifaces) t.nic.st ∧
          t.nic.gw ≠ chase (entries ifaces) t.nic.gw := by
        rw [← not_or]
        intro same
        rw [if_pos same] at found
        cases found
      exact ⟨_, _, firstCarrier_of_moved ifaces ordinary t.nic.st moved.1,
        firstCarrier_of_moved ifaces ordinary t.nic.gw moved.2, rfl⟩
  · -- an interface that cannot be read ends the scan with an error
    obtain ⟨s, err, scanned⟩ := findInterfaces_unreadable listed readable t
    refine ⟨s, some err, scanned, ?_, ?_⟩
    · exact iff_of_false (by simp) fun all => readable all.1
    · intro found
      cases found

/-- Both addresses of the sample machine are found. -/
theorem find_interfaces_sample :
    findInterfaces sampleHost (some { sampleConfig with nic := ⟨"10.1.1.254", "10.2.2.254"⟩ }) =
      .ok ({ sampleConfig with nic := ⟨"eth0", "eth1"⟩ }, none) := by
  have ordinary : OrdinaryNames sampleIfaces := by
    intro i member
    refine ⟨sampleReady.notDotted i member, ?_⟩
    revert i
    decide
  obtain ⟨t', err, scanned, succeeds, first⟩ := find_interfaces_iff sampleReady.listed ordinary
    { sampleConfig with nic := ⟨"10.1.1.254", "10.2.2.254"⟩ }
  have st : firstCarrier sampleIfaces "10.1.1.254" = some "eth0" := by decide +kernel
  have gw : firstCarrier sampleIfaces "10.2.2.254" = some "eth1" := by decide +kernel
  have found : err = none := succeeds.mpr ⟨sampleReady.readable,
    ⟨"eth0", firstCarrier_carries sampleIfaces _ _ st⟩,
    ⟨"eth1", firstCarrier_carries sampleIfaces _ _ gw⟩⟩
  obtain ⟨st', gw', firstSt, firstGw, rfl⟩ := first found
  rw [scanned, found]
  obtain rfl := Option.some.inj (st.symm.trans firstSt)
  obtain rfl := Option.some.inj (gw.symm.trans firstGw)
  rfl

/-! ### What `InitTrunks` accepts -/

/-- Under whatever names, an endpoint that changes becomes an interface. -/
theorem name_of_moved (ifaces : List Interface) (s : String) (moved : s ≠ chase (entries ifaces) s) :
    chase (entries ifaces) s ∈ ifaces.map (·.name) := by
  obtain ⟨other, member⟩ := (leads_chase (entries ifaces) s).found moved.symm
  exact name_of_carries ifaces other _ ((mem_entries_iff ifaces other _).mp member)

/-- A scan is accepted only if it was completed and changed both endpoints. -/
theorem accepted_scan (listed : host.interfaces = .ok ifaces) (unmarshal : Unmarshal)
    (file : String) (qos : Bool) (logs : String) (acm disableKernelVersionCheck : Bool)
    (t t' : TrunksConfig) (st : Known host ifaces t.nic.st) (gw : Known host ifaces t.nic.gw)
    (parsed : parseConf host unmarshal file = .ok (some t))
    (unnamed : ¬ (t.nic.st ∈ ifaces.map (·.name) ∧ t.nic.gw ∈ ifaces.map (·.name)))
    (accepted : initTrunks host unmarshal file qos logs acm disableKernelVersionCheck =
      .ok (some t', none)) :
    t'.nic = ⟨chase (entries ifaces) t.nic.st, chase (entries ifaces) t.nic.gw⟩ ∧
    t.nic.st ≠ chase (entries ifaces) t.nic.st ∧ t.nic.gw ≠ chase (entries ifaces) t.nic.gw := by
  by_cases readable : ∀ i ∈ ifaces, ∃ addrs, i.addrs = .ok addrs
  · rw [initTrunks_scanned unmarshal file qos logs acm disableKernelVersionCheck t _ _ st gw parsed
      unnamed (findInterfaces_eq listed readable t)] at accepted
    by_cases same : t.nic.st = chase (entries ifaces) t.nic.st ∨
        t.nic.gw = chase (entries ifaces) t.nic.gw
    · rw [if_pos same] at accepted
      cases accepted
    · rw [if_neg same] at accepted
      obtain rfl := Option.some.inj (Prod.mk.inj (Except.ok.inj accepted)).1
      exact ⟨rfl, (not_or.mp same).1, (not_or.mp same).2⟩
  · obtain ⟨s, err, scanned⟩ := findInterfaces_unreadable listed readable t
    rw [initTrunks_scanned unmarshal file qos logs acm disableKernelVersionCheck t s _ st gw parsed
      unnamed scanned] at accepted
    cases accepted

/-- The endpoints of an accepted configuration, given without a slash, are interfaces. They are two
unless one name was given twice, or the scan leads from both endpoints to one interface. -/
theorem accepted_endpoints (listed : host.interfaces = .ok ifaces)
    (operstates : Operstates host ifaces) (unmarshal : Unmarshal) (file : String) (qos : Bool)
    (logs : String) (acm disableKernelVersionCheck : Bool) (t t' : TrunksConfig)
    (plainSt : Slashless t.nic.st) (plainGw : Slashless t.nic.gw)
    (parsed : parseConf host unmarshal file = .ok (some t))
    (accepted : initTrunks host unmarshal file qos logs acm disableKernelVersionCheck =
      .ok (some t', none)) :
    t'.nic.st ∈ ifaces.map (·.name) ∧ t'.nic.gw ∈ ifaces.map (·.name) ∧
    (t'.nic.st ≠ t'.nic.gw ↔
      if t.nic.st ∈ ifaces.map (·.name) ∧ t.nic.gw ∈ ifaces.map (·.name) then t.nic.st ≠ t.nic.gw
      else ¬ ∃ name, Leads (entries ifaces) t.nic.st name ∧ Leads (entries ifaces) t.nic.gw name) ∧
    (OrdinaryNames ifaces →
      ¬ (t.nic.st ∈ ifaces.map (·.name) ∧ t.nic.gw ∈ ifaces.map (·.name)) →
      (t'.nic.st ≠ t'.nic.gw ↔ firstCarrier ifaces t.nic.st ≠ firstCarrier ifaces t.nic.gw)) := by
  have st := operstates t.nic.st (.inl plainSt)
  have gw := operstates t.nic.gw (.inl plainGw)
  by_cases named : t.nic.st ∈ ifaces.map (·.name) ∧ t.nic.gw ∈ ifaces.map (·.name)
  · -- two names are accepted as they are
    rw [initTrunks_named unmarshal file qos logs acm disableKernelVersionCheck t st gw parsed named]
      at accepted
    obtain rfl := Option.some.inj (Prod.mk.inj (Except.ok.inj accepted)).1
    rw [if_pos named]
    exact ⟨named.1, named.2, Iff.rfl, fun _ unnamed => absurd named unnamed⟩
  · -- otherwise the scan has moved both
    obtain ⟨nic, movedSt, movedGw⟩ := accepted_scan listed unmarshal file qos logs acm
      disableKernelVersionCheck t t' st gw parsed named accepted
    rw [nic, if_neg named]
    refine ⟨name_of_moved ifaces t.nic.st movedSt, name_of_moved ifaces t.nic.gw movedGw, ?_, ?_⟩
    · rw [not_iff_not]
      constructor
      · intro same
        exact ⟨_, leads_chase (entries ifaces) t.nic.st,
          (leads_iff (entries ifaces) t.nic.gw _).mpr same.symm⟩
      · rintro ⟨name, fromSt, fromGw⟩
        rw [leads_iff] at fromSt fromGw
        exact fromSt.trans fromGw.symm
    · intro ordinary _
      rw [firstCarrier_of_moved ifaces ordinary t.nic.st movedSt,
        firstCarrier_of_moved ifaces ordinary t.nic.gw movedGw, ne_eq, ne_eq, Option.some.injEq]

theorem accepted_endpoints_sample :
    sampleConfig.nic.st ∈ sampleIfaces.map (·.name) ∧
    sampleConfig.nic.gw ∈ sampleIfaces.map (·.name) := by
  have accepted : initTrunks sampleHost (fun _ => .ok (some sampleConfig)) "tlink.yaml" false ""
      false false = .ok (some sampleConfig, none) := by decide +kernel
  obtain ⟨st, gw, _⟩ := accepted_endpoints sampleReady.listed sampleReady.operstates _ "tlink.yaml"
    false "" false false sampleConfig sampleConfig (by decide) (by decide) rfl accepted
  exact ⟨st, gw⟩

/-- One interface given twice, by its name or by its address, is accepted as both ends. -/
theorem accepted_twice :
    Ready sampleHost sampleIfaces ∧
    (∀ nic ∈ [(⟨"eth0", "eth0"⟩ : NIC), ⟨"10.1.1.254", "10.1.1.254"⟩],
      initTrunks sampleHost (fun _ => .ok (some { sampleConfig with nic := nic })) "tlink.yaml"
        false "" false false = .ok (some { sampleConfig with nic := ⟨"eth0", "eth0"⟩ }, none)) ∧
    ¬ ∀ t t', initTrunks sampleHost (fun _ => .ok (some t)) "tlink.yaml" false "" false false =
        .ok (some t', none) →
      t'.nic.st ∈ sampleIfaces.map (·.name) ∧ t'.nic.gw ∈ sampleIfaces.map (·.name) ∧
        t'.nic.st ≠ t'.nic.gw := by
  have accepted : ∀ nic ∈ [(⟨"eth0", "eth0"⟩ : NIC), ⟨"10.1.1.254", "10.1.1.254"⟩],
      initTrunks sampleHost (fun _ => .ok (some { sampleConfig with nic := nic })) "tlink.yaml"
        false "" false false = .ok (some { sampleConfig with nic := ⟨"eth0", "eth0"⟩ }, none) := by
    decide +kernel
  refine ⟨sampleReady, accepted, ?_⟩
  intro different
  exact (different _ _ (accepted ⟨"eth0", "eth0"⟩ (by decide))).2.2 rfl

end Tlink.Properties
