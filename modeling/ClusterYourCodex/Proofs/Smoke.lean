import ClusterYourCodex.Proofs.Dispatching
import ClusterYourCodex.Proofs.Policies

/-! The verification of a newly configured computer. After the desktop has written the configuration, it sends the
computer a small job, and the computer is ready once the job has run there. The job goes through the same scheduler
as any other, so it runs only if the policy that was just written admits it. -/

namespace CYC.Provision

open Checked Relational

/-- A supported machine at rest: its CPU, memory and disk suffice for the job and are free, and its telemetry is
fresh when the record is built at `t` and when the job is scheduled at `t'`. -/
@[mk_iff] structure AtRest (t t' : DateTime) (d : NodeDocuments) : Prop where
  managed : isManaged d.inventory.document.transport = true
  cores : 1 ≤ d.inventory.document.logicalCpuCores
  memory : 64 ≤ d.inventory.document.memoryMib
  disk : 16 ≤ d.inventory.document.diskMib
  freeCores : d.telemetry.document.availableCpuCores = d.inventory.document.logicalCpuCores
  freeMemory : d.telemetry.document.availableMemoryMib = d.inventory.document.memoryMib
  freeDisk : d.telemetry.document.availableDiskMib = d.inventory.document.diskMib
  mains : d.telemetry.document.powerSource ≠ .battery
  idle : d.telemetry.document.load.cpuPercent = 0
  idleEwma : d.telemetry.document.cpuEwmaPercent = 0
  online : d.telemetry.document.status = .online
  fresh : t.since d.telemetry.receivedAt ≤ nodeFreshnessTtl
  fresh' : t'.since d.telemetry.receivedAt ≤ defaultNodeFreshnessTtl

instance (t t' : DateTime) (d : NodeDocuments) : Decidable (AtRest t t' d) := decidable_of_iff _ (atRest_iff t t' d).symm

/-- The job is one that the configuration lets through: tests are allowed, the share of the CPU comes to a core, and
the configuration it replaces neither drained the node nor sets a temperature below the machine's. -/
structure Verifiable (configuration : ComputerConfiguration) (current : NodeConfig) (d : NodeDocuments) : Prop where
  kind : AllowedJobKind.test ∈ configuration.allowedJobKinds
  share : ∀ percent ∈ configuration.resources.cpuLimitPercent, 100 ≤ d.inventory.document.logicalCpuCores.toNat * percent
  active : current.desiredState = .active
  temperature : ∀ m ∈ current.capacity.maxTemperatureC, ∀ c ∈ d.telemetry.document.temperatureC, c ≤ m

variable {configuration : ComputerConfiguration} {current : NodeConfig} {d : NodeDocuments} {t t' : DateTime}

/-! ### The job -/

theorem buildBoundSmokeJob_eq_ok {fresh nodeId jobId : Uuid} {os : OperatingSystem} {arch : Architecture}
    {snapshot : SnapshotPayload} {job : JobSpec} (h : buildBoundSmokeJob fresh nodeId os arch jobId snapshot = .ok job) :
    job = { proofJob fresh os arch snapshot with id := jobId, placementPolicy := .manual, preferredNodeId := some nodeId } := by
  simp only [buildBoundSmokeJob, buildJob, bind_eq_ok, pure_eq_ok] at h
  obtain ⟨-, -, _, ⟨-, -, rfl⟩, -, -, rfl⟩ := h
  rfl

theorem test_mem_image : JobKind.test ∈ configuration.allowedJobKinds.image protocolJobKind ↔
    AllowedJobKind.test ∈ configuration.allowedJobKinds := by
  rw [Finset.mem_image]
  constructor
  · rintro ⟨kind, hkind, htest⟩
    cases kind <;> first | exact hkind | cases htest
  · intro h
    exact ⟨.test, h, rfl⟩

theorem memoryUsedPercent_free {inventory : NodeInventory} {telemetry : NodeTelemetry} (hmemory : 64 ≤ inventory.memoryMib)
    (hfree : telemetry.availableMemoryMib = inventory.memoryMib) : memoryUsedPercent inventory telemetry = 0 := by
  have hne : inventory.memoryMib ≠ 0 := by
    intro hzero
    rw [hzero] at hmemory
    exact absurd hmemory (by decide)
  rw [memoryUsedPercent, if_neg hne, hfree, Nat.sub_self]
  simp [satU64]

theorem share_le {cores : UInt32} {percent : Option Nat} (hpercent : ∀ n ∈ percent, 1 ≤ n ∧ n ≤ 100) :
    (∀ p ∈ percent.map UInt8.ofNat, (1 : UInt32).toNat * 100 ≤ cores.toNat * p.toNat) ↔
      ∀ n ∈ percent, 100 ≤ cores.toNat * n := by
  cases percent with
  | none => simp
  | some n =>
    have hn := hpercent n rfl
    have hnat : (UInt8.ofNat n).toNat = n := by simp; omega
    simp [hnat]

/-- The status of an active machine with fresh telemetry is the one it reports. -/
theorem view_status_online (henabled : d.config.document.enabled = true) (hactive : d.config.document.desiredState = .active)
    (hfresh : t.since d.telemetry.receivedAt ≤ nodeFreshnessTtl) (honline : d.telemetry.document.status = .online) :
    (d.view t).status = .online := by
  have hderive : (d.view t).availability =
    .derive d.config.document d.telemetry.document d.telemetry.receivedAt t nodeFreshnessTtl := rfl
  unfold NodeMergeView.status
  rw [hderive, NodeAvailability.derive, henabled, hactive, honline]
  simp [not_lt.2 hfresh]

section Record

variable {job : JobSpec} {n : SchedulingNode} {fresh jobId : Uuid} {snapshot : SnapshotPayload}

/-- What the written capacity leaves of a machine at rest: a core, if the share comes to one, and the memory. -/
theorem limits_at_rest (haccepted : Accepted configuration) (hrest : AtRest t t' d)
    (hvalid : (desiredCapacity configuration current.capacity).validate = .ok ())
    (hbytes : ∀ bytes ∈ configuration.resources.memoryLimitBytes, 67108864 ≤ bytes) :
    (1 ≤ (limitResources (enforcedCapacity configuration current.capacity) (d.view t).resources).availableCpuCores ↔
      ∀ percent ∈ configuration.resources.cpuLimitPercent, 100 ≤ d.inventory.document.logicalCpuCores.toNat * percent) ∧
    64 ≤ (limitResources (enforcedCapacity configuration current.capacity) (d.view t).resources).availableMemoryMib := by
  obtain ⟨-, hcpu, -⟩ := validate_resources haccepted.resources
  obtain ⟨-, hcores, -⟩ := validate_capacity.1 hvalid
  rw [limitResources_cores, limitResources_memory]
  refine ⟨⟨?_, ?_⟩, ?_, ?_⟩
  · rintro ⟨-, -, hshare⟩
    exact (share_le hcpu).1 hshare
  · intro hshare
    refine ⟨?_, ?_, (share_le hcpu).2 hshare⟩
    · show (1 : UInt32) ≤ d.telemetry.document.availableCpuCores
      rw [hrest.freeCores]
      exact hrest.cores
    · intro limit hlimit
      have hne : limit ≠ 0 := by
        rintro rfl
        exact hcores hlimit
      have hnat : limit.toNat ≠ 0 := fun hzero => hne (UInt32.toNat_inj.1 hzero)
      rw [UInt32.le_iff_toNat_le]
      show 1 ≤ limit.toNat
      omega
  · show (64 : UInt64) ≤ d.telemetry.document.availableMemoryMib
    rw [hrest.freeMemory]
    exact hrest.memory
  · intro limit hlimit
    obtain ⟨bytes, hmem, rfl⟩ := Option.map_eq_some_iff.1 hlimit
    have hfits := haccepted.fits bytes hmem
    have hsize := hbytes bytes hmem
    have hnat : (UInt64.ofNat (bytes / 1048576)).toNat = bytes / 1048576 := by simp; omega
    rw [UInt64.le_iff_toNat_le, hnat]
    show 64 ≤ bytes / 1048576
    omega

theorem min_one_of_ne_zero {slots : UInt32} (h : slots ≠ 0) : min slots 1 = 1 := by
  have hnat : slots.toNat ≠ 0 := fun hzero => h (UInt32.toNat_inj.1 hzero)
  have hle : (1 : UInt32) ≤ min slots 1 := Std.le_min_iff.2 ⟨UInt32.le_iff_toNat_le.2 (Nat.one_le_iff_ne_zero.2 hnat), UInt32.le_refl 1⟩
  exact UInt32.le_antisymm (Std.le_min_iff.1 (UInt32.le_refl _)).2 hle

theorem admissible_smoke_iff (ho : Offers t d (enforcedCapacity configuration current.capacity) n)
    (haccepted : Accepted configuration) (hvalid : (desiredCapacity configuration current.capacity).validate = .ok ())
    (hinventory : d.inventory.document.validate = .ok ()) (henabled : d.config.document.enabled = true)
    (hstate : d.config.document.desiredState = current.desiredState) (hrest : AtRest t t' d)
    (hbytes : ∀ bytes ∈ configuration.resources.memoryLimitBytes, 67108864 ≤ bytes)
    (hjob : job = { proofJob fresh d.inventory.document.os d.inventory.document.arch snapshot with
      id := jobId, placementPolicy := .manual, preferredNodeId := some d.id }) :
    Admissible job n t' defaultNodeFreshnessTtl ↔ Verifiable configuration current d := by
  obtain ⟨hshare, hmemory⟩ := limits_at_rest haccepted hrest hvalid hbytes
  have hkinds : (enforcedCapacity configuration current.capacity).allowedJobKinds =
    configuration.allowedJobKinds.image protocolJobKind := rfl
  have hsome : configuration.allowedJobKinds.image protocolJobKind ≠ ∅ := by simpa using haccepted.kinds
  constructor
  · intro ha
    have hkind := ha.kind
    rw [ho.allowedJobKinds, hkinds, hjob] at hkind
    have hcores := ha.cores
    rw [ho.cores, hjob] at hcores
    refine ⟨test_mem_image.1 (hkind.resolve_left hsome), hshare.1 hcores, ?_, ?_⟩
    · rw [← hstate]
      exact (derive_schedulable henabled (ho.status ▸ ha.status)).1
    · have htemperature := ha.temperature
      rw [ho.maxTemperatureC, ho.temperatureC] at htemperature
      exact htemperature
  · intro hv
    have hslots : n.effectiveSlots = 1 := by
      obtain ⟨hjobs, -⟩ := validate_capacity.1 hvalid
      rw [SchedulingNode.effectiveSlots, ho.configuredMaxSlots, ho.containmentMaxSafeSlots, maxSafeSlots_of_validate hinventory]
      exact min_one_of_ne_zero hjobs
    have hactive : d.config.document.desiredState = .active := hstate.trans hv.active
    subst hjob
    exact {
      enabled := ho.enabled.trans henabled
      status := .inl (ho.status.trans (view_status_online henabled hactive hrest.fresh hrest.online))
      fresh := ⟨_, ho.lastSeenAt, hrest.fresh'⟩
      kind := by
        rw [ho.allowedJobKinds, hkinds]
        exact .inr (test_mem_image.2 hv.kind)
      power := by
        rw [ho.onBattery]
        intro hbattery
        exact absurd (of_decide_eq_true hbattery) hrest.mains
      cpu := by
        rw [ho.load, hrest.idle]
        exact fun m _ => UInt8.zero_le
      cpuEwma := by
        rw [ho.cpuEwmaPercent, hrest.idleEwma]
        exact fun m _ => UInt8.zero_le
      memoryUse := by
        rw [ho.memoryUsedPercent, memoryUsedPercent_free hrest.memory hrest.freeMemory]
        exact fun m _ => UInt8.zero_le
      temperature := by
        rw [ho.maxTemperatureC, ho.temperatureC]
        exact hv.temperature
      safe := by
        rw [hslots]
        decide
      slots := by
        rw [ho.activeSlots, hslots]
        exact (by decide : satU32 ((0 : UInt32).toNat + (1 : UInt32).toNat) ≤ (1 : UInt32).toNat)
      manual := by
        intro _
        rw [ho.id]
      os := by
        rintro os ⟨⟩
        exact ho.os
      arch := by
        rintro arch ⟨⟩
        exact ho.arch
      capabilities := rfl
      cores := by
        rw [ho.cores]
        exact hshare.2 hv.share
      headroom := by
        rw [ho.load, hrest.idle]
        decide
      memory := by
        rw [ho.memory]
        exact hmemory
      disk := by
        rw [ho.disk, hrest.freeDisk]
        exact hrest.disk
      gpu := rfl }

end Record

/-! ### The record of the node -/

variable {db : Db}

/-- The documents of an enrolled node are those of its identifier. -/
theorem enrolledDocuments_unique {d' : NodeDocuments} (h : d ∈ db.enrolledDocuments) (h' : d' ∈ db.enrolledDocuments)
    (hid : d.id = d'.id) : d = d' := by
  obtain ⟨n, hn, hd, -⟩ := mem_enrolledDocuments h
  obtain ⟨n', hn', hd', -⟩ := mem_enrolledDocuments h'
  have hrow : n.id = n'.id := by rw [← (documents_eq_some hd).1, ← (documents_eq_some hd').1, hid]
  have hsame : n = n' := Table.eq_of_clash hn hn' ((NodeRow.clash_iff n n').2 hrow)
  rw [hsame] at hd
  exact Option.some.inj (hd.symm.trans hd')

/-- Every enrolled managed node has a record. -/
theorem exists_record {nodes : List SchedulingNodeRecord} (h : freshAvailableNodes db t = .ok nodes)
    (hd : d ∈ db.enrolledDocuments) (hmanaged : isManaged d.inventory.document.transport = true) :
    ∃ record ∈ nodes, record.scheduling.node.id = d.id := by
  simp only [freshAvailableNodes, bind_eq_ok, pure_eq_ok] at h
  obtain ⟨reservations, -, gpus, -, records, hrecords, rfl⟩ := h
  obtain ⟨found, hfound, hrecord⟩ := exists_of_collect_mem hrecords hd
  simp only [schedulingRecord, bind_eq_ok, mapError_eq_ok] at hrecord
  obtain ⟨view, hview, node, hnode, hrecord⟩ := hrecord
  have hid : node.id = d.id := by
    obtain ⟨-, -, -, -, rfl⟩ := merge_eq_ok.1 hview
    exact toNode_id hnode
  have htransport : node.transport = d.inventory.document.transport := by
    obtain ⟨-, -, -, -, rfl⟩ := merge_eq_ok.1 hview
    simp only [NodeMergeView.toNode, seq_eq_ok, pure_eq_ok] at hnode
    obtain ⟨-, -, -, rfl⟩ := hnode
    rfl
  rw [htransport, hmanaged] at hrecord
  simp only [Bool.not_true, Bool.false_eq_true, if_false, bind_eq_ok, pure_eq_ok] at hrecord
  obtain ⟨capacity, -, rfl⟩ := hrecord
  exact ⟨_, List.reduceOption_mem_iff.2 hfound, hid⟩

/-- The scheduler takes the verification job of a machine at rest exactly if the configuration lets it through. -/
theorem verification_admitted_iff (seed : String) {calls : List Call}
    (hd : d ∈ (storeAfter seed calls).enrolledDocuments) {r : ComputerRecord}
    (hconfiguration : r.configuration.validate = .ok ()) (hfits : r.configuration.resources.Fits)
    (hbytes : ∀ bytes ∈ r.configuration.resources.memoryLimitBytes, 64 * 1048576 ≤ bytes)
    (hsynced : desiredNodeConfig r current = .ok d.config.document) (hrest : AtRest t t' d)
    (hfree : (storeAfter seed calls).FreeOf d.id) {fresh jobId : Uuid} {snapshot : SnapshotPayload} {job : JobSpec}
    (hjob : buildBoundSmokeJob fresh d.id d.inventory.document.os d.inventory.document.arch jobId snapshot = .ok job) :
    ∃ nodes, freshAvailableNodes (storeAfter seed calls) t = .ok nodes ∧
      (∃ record ∈ nodes, record.scheduling.node.id = d.id) ∧
      ∀ record ∈ nodes, record.scheduling.node.id = d.id →
        (hardRejections job record.scheduling t' Scheduler.default.nodeFreshnessTtl = [] ↔ Verifiable r.configuration current d) := by
  obtain ⟨T, hs⟩ := sound_after seed calls
  obtain ⟨nodes, hnodes⟩ := freshAvailableNodes_isOk hs.coherent hs.exclusive (holdings_sound_after (holdings_empty seed))
    (nodeRows_sound_after seed calls) t
  refine ⟨nodes, hnodes, exists_record hnodes hd hrest.managed, fun record hrecord hid => ?_⟩
  obtain ⟨d', hd', capacity, hcapacity, hinventory, hoffers⟩ := offers_of_mem hnodes hrecord (hid ▸ hfree)
  obtain rfl : d = d' := enrolledDocuments_unique hd hd' (hid.symm.trans hoffers.id)
  have haccepted := accepted_of_validate hconfiguration hfits
  simp only [desiredNodeConfig, bind_eq_ok, mapError_eq_ok, pure_eq_ok] at hsynced
  obtain ⟨_, hvalid, hconfig⟩ := hsynced
  have hcapacityValid : (desiredCapacity r.configuration current.capacity).validate = .ok () := (validate_config.1 hvalid).2.2
  rw [← hconfig, effectiveCapacityPolicy_desired haccepted hcapacityValid] at hcapacity
  cases hcapacity
  have henabled : d.config.document.enabled = true := by simp only [← hconfig, desiredConfig]
  have hstate : d.config.document.desiredState = current.desiredState := by simp only [← hconfig, desiredConfig]
  rw [hardRejections_eq_nil]
  exact admissible_smoke_iff hoffers haccepted hcapacityValid hinventory henabled hstate hrest hbytes (buildBoundSmokeJob_eq_ok hjob)

/-! ### A verified laptop -/

/-- A report of a machine at rest. -/
def restingReport : NodeReportRequest :=
  { sampleReport 1 1 ⟨77⟩ with
    telemetry := { (sampleReport 1 1 ⟨77⟩).telemetry with
      availableMemoryMib := 16384, availableDiskMib := 102400, load := ⟨0, 0, 0⟩, cpuEwmaPercent := 0, powerSource := .ac } }

/-- The configuration of node 1 at its enrollment. -/
def enrolledConfig : NodeConfig := .fromNode (nodeFromProbe ⟨1⟩ none sampleProbe "https://c" false)

/-- The laptop with the given kinds of jobs and share of the CPU. -/
def restrictedLaptop (kinds : Finset AllowedJobKind) (cpuLimitPercent : Option Nat) : ComputerRecord :=
  .newWithIdentity { laptop with configuration := { ComputerConfiguration.initial with
    resources := ⟨none, cpuLimitPercent, none⟩, allowedJobKinds := kinds } } (.ofTimestamp 1000) ⟨9⟩ ⟨1⟩

/-- Node 1 is enrolled, reports and gets its configuration. -/
def verifiedCalls (r : ComputerRecord) : List Call :=
  enrollCalls 1000 10 ⟨1⟩ "a" ++
    [⟨envAt 1000 20, .recordNodeReport "a" restingReport⟩, ⟨envAt 1000 21, .updateNodeConfig ⟨1⟩ 0 (desiredConfig r enrolledConfig)⟩]

def smokeSnapshot : SnapshotPayload :=
  ⟨[0], "sha256:0123456789abcdef0123456789abcdef0123456789abcdef0123456789abcdef"⟩

/-- The verification job of node 1. -/
def smokeJob : JobSpec :=
  { proofJob ⟨3⟩ .linux .x8664 smokeSnapshot with id := ⟨5⟩, placementPolicy := .manual, preferredNodeId := some ⟨1⟩ }

theorem buildBoundSmokeJob_smokeJob : buildBoundSmokeJob ⟨3⟩ ⟨1⟩ .linux .x8664 ⟨5⟩ smokeSnapshot = .ok smokeJob := by
  have hjob : (buildBoundSmokeJob ⟨3⟩ ⟨1⟩ .linux .x8664 ⟨5⟩ smokeSnapshot).isOk = true := by decide +kernel
  obtain ⟨job, hjob⟩ := exists_ok_of_isOk hjob
  rw [hjob, buildBoundSmokeJob_eq_ok hjob, smokeJob]

/-- The documents are those of node 1, configured and at rest. -/
def configuredAtRest (r : ComputerRecord) (db : Db) (d : NodeDocuments) : Bool :=
  decide (AtRest (.ofTimestamp 1000) (.ofTimestamp 1000) d) && db.leases.rows.isEmpty &&
    (match desiredNodeConfig r enrolledConfig with
      | .ok desired => decide (d.config.document = desired)
      | .error _ => false) &&
    (d.id = ⟨1⟩ && d.inventory.document.os = .linux && d.inventory.document.arch = .x8664)

theorem configuredAtRest_eq_true {r : ComputerRecord} (h : configuredAtRest r db d = true) :
    AtRest (.ofTimestamp 1000) (.ofTimestamp 1000) d ∧ db.FreeOf d.id ∧
      desiredNodeConfig r enrolledConfig = .ok d.config.document ∧
      buildBoundSmokeJob ⟨3⟩ d.id d.inventory.document.os d.inventory.document.arch ⟨5⟩ smokeSnapshot = .ok smokeJob := by
  simp only [configuredAtRest, Bool.and_eq_true, decide_eq_true_eq, List.isEmpty_iff] at h
  obtain ⟨⟨⟨hrest, hleases⟩, hconfig⟩, ⟨hid, hos⟩, harch⟩ := h
  refine ⟨hrest, ?_, ?_, ?_⟩
  · intro l hl
    rw [hleases] at hl
    cases hl
  · split at hconfig
    · rename_i desired hdesired
      rw [hdesired, of_decide_eq_true hconfig]
    · cases hconfig
  · rw [hid, hos, harch]
    exact buildBoundSmokeJob_smokeJob

theorem verification_admitted_laptop : ∃ d ∈ (storeAfter "s" (verifiedCalls (restrictedLaptop {.build, .test} (some 50)))).enrolledDocuments,
    ∃ nodes, freshAvailableNodes (storeAfter "s" (verifiedCalls (restrictedLaptop {.build, .test} (some 50)))) (.ofTimestamp 1000) =
        .ok nodes ∧
      ∀ record ∈ nodes, record.scheduling.node.id = d.id →
        (hardRejections smokeJob record.scheduling (.ofTimestamp 1000) Scheduler.default.nodeFreshnessTtl = [] ↔
          Verifiable (restrictedLaptop {.build, .test} (some 50)).configuration enrolledConfig d) := by
  have hstore : ((storeAfter "s" (verifiedCalls (restrictedLaptop {.build, .test} (some 50)))).enrolledDocuments.any
      (configuredAtRest (restrictedLaptop {.build, .test} (some 50))
        (storeAfter "s" (verifiedCalls (restrictedLaptop {.build, .test} (some 50)))))) = true := by decide +kernel
  obtain ⟨d, hd, hconfigured⟩ := List.any_eq_true.1 hstore
  obtain ⟨hrest, hfree, hsynced, hjob⟩ := configuredAtRest_eq_true hconfigured
  have hvalid : (restrictedLaptop {.build, .test} (some 50)).configuration.validate = .ok () := by decide +kernel
  obtain ⟨nodes, hnodes, -, hrejections⟩ := verification_admitted_iff "s" hd hvalid nofun nofun hsynced hrest hfree hjob
  exact ⟨d, hd, nodes, hnodes, hrejections⟩

/-- The reasons for which the records of a store reject the verification job. -/
def smokeRejections (db : Db) : List RejectionCode :=
  match freshAvailableNodes db (.ofTimestamp 1000) with
  | .ok nodes => nodes.flatMap fun record =>
      (hardRejections smokeJob record.scheduling (.ofTimestamp 1000) Scheduler.default.nodeFreshnessTtl).map PlacementRejection.code
  | .error _ => []

/-- A laptop that may only build, with a tenth of its eight cores, is configured and at rest, and refuses the
verification job for both reasons. -/
theorem restricted_laptop_not_verified :
    (restrictedLaptop {.build} (some 10)).configuration.validate = .ok () ∧
    buildBoundSmokeJob ⟨3⟩ ⟨1⟩ .linux .x8664 ⟨5⟩ smokeSnapshot = .ok smokeJob ∧
    ((storeAfter "s" (verifiedCalls (restrictedLaptop {.build} (some 10)))).enrolledDocuments.any
      (configuredAtRest (restrictedLaptop {.build} (some 10)) (storeAfter "s" (verifiedCalls (restrictedLaptop {.build} (some 10)))))) =
        true ∧
    smokeRejections (storeAfter "s" (verifiedCalls (restrictedLaptop {.build} (some 10)))) =
      [.policyJobKindDenied, .insufficientCpu] := by
  refine ⟨by decide +kernel, buildBoundSmokeJob_smokeJob, ?_⟩
  decide +kernel

end CYC.Provision
