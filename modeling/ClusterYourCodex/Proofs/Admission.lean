import ClusterYourCodex.Ledger.Reservations

/-! Admission of a job to a node. The scheduler's hard rejections are empty exactly for a node that meets every
condition of the policy, and the conditions are traced from the scheduling record back to the documents and leases
that the record was built from. -/

namespace CYC

open Checked Relational

variable {node : Node} {d : NodeDocuments} {capacity : CapacityPolicy}

/-- The conditions on a node that are about no amount of a resource. -/
structure Welcomes (job : JobSpec) (n : SchedulingNode) (t : DateTime) (ttl : Int) : Prop where
  enabled : n.node.enabled = true
  status : n.node.status = .online ∨ n.node.status = .degraded
  fresh : ∃ s, n.node.lastSeenAt = some s ∧ t.since s ≤ ttl
  kind : n.allowedJobKinds = ∅ ∨ job.kind ∈ n.allowedJobKinds
  power : n.onBattery = true → n.allowOnBattery = true
  cpu : ∀ m ∈ n.maxCpuPercent, n.node.load.cpuPercent ≤ m
  cpuEwma : ∀ m ∈ n.maxCpuEwmaPercent, n.cpuEwmaPercent ≤ m
  memoryUse : ∀ m ∈ n.maxMemoryPercent, n.memoryUsedPercent ≤ m
  temperature : ∀ m ∈ n.maxTemperatureC, ∀ c ∈ n.temperatureC, c ≤ m
  manual : job.placementPolicy = .manual → job.preferredNodeId = some n.node.id
  os : ∀ os ∈ job.requirements.os, n.node.os = os
  arch : ∀ arch ∈ job.requirements.arch, n.node.arch = arch
  headroom : n.node.load.cpuPercent < 100

/-- A node that is rejected for no reason. -/
structure Admissible (job : JobSpec) (n : SchedulingNode) (t : DateTime) (ttl : Int) : Prop extends Welcomes job n t ttl where
  safe : n.effectiveSlots ≠ 0
  slots : satU32 (n.activeSlots.toNat + job.effectiveResourceRequest.slots.toNat) ≤ n.effectiveSlots.toNat
  capabilities : missingCapabilities job n.node = []
  cores : job.effectiveResourceRequest.cpuCores ≤ n.node.resources.availableCpuCores
  memory : job.effectiveResourceRequest.memoryMib ≤ n.node.resources.availableMemoryMib
  disk : job.effectiveResourceRequest.diskMib ≤ n.node.resources.availableDiskMib
  gpu : gpuReasons job n = []

section Reasons

variable {job : JobSpec} {n : SchedulingNode} {t : DateTime} {ttl : Int}

theorem reject_eq_nil {failed : Bool} {code : RejectionCode} {detail : String} : reject failed code detail = [] ↔ failed = false := by
  unfold reject
  cases failed <;> simp

theorem statusRejections_eq_nil {status : NodeStatus} : statusRejections status = [] ↔ status = .online ∨ status = .degraded := by
  cases status <;> simp [statusRejections]

theorem staleRejections_eq_nil {lastSeenAt : Option DateTime} :
    staleRejections lastSeenAt t ttl = [] ↔ ∃ s, lastSeenAt = some s ∧ t.since s ≤ ttl := by
  cases lastSeenAt with
  | none => simp [staleRejections]
  | some s => simp [staleRejections, reject_eq_nil]

theorem percentRejection_eq_nil {observed : UInt8} {maximum : Option UInt8} {code : RejectionCode} {what : String} :
    percentRejection observed maximum code what = [] ↔ ∀ m ∈ maximum, observed ≤ m := by
  rw [percentRejection, reject_eq_nil]
  cases maximum <;> simp

theorem temperatureRejections_eq_nil :
    temperatureRejections n = [] ↔ ∀ m ∈ n.maxTemperatureC, ∀ c ∈ n.temperatureC, c ≤ m := by
  unfold temperatureRejections
  cases n.temperatureC <;> cases n.maxTemperatureC <;> simp [reject_eq_nil]

theorem policyRejections_eq_nil : policyRejections job n = [] ↔
    (n.allowedJobKinds = ∅ ∨ job.kind ∈ n.allowedJobKinds) ∧ (n.onBattery = true → n.allowOnBattery = true) ∧
      (∀ m ∈ n.maxCpuPercent, n.node.load.cpuPercent ≤ m) ∧ (∀ m ∈ n.maxCpuEwmaPercent, n.cpuEwmaPercent ≤ m) ∧
      (∀ m ∈ n.maxMemoryPercent, n.memoryUsedPercent ≤ m) ∧ ∀ m ∈ n.maxTemperatureC, ∀ c ∈ n.temperatureC, c ≤ m := by
  have hkind : (decide (n.allowedJobKinds ≠ ∅) && decide (job.kind ∉ n.allowedJobKinds)) = false ↔
      n.allowedJobKinds = ∅ ∨ job.kind ∈ n.allowedJobKinds := by
    rw [Bool.and_eq_false_iff, decide_eq_false_iff_not, decide_eq_false_iff_not, not_not, not_not]
  have hpower : (n.onBattery && !n.allowOnBattery) = false ↔ (n.onBattery = true → n.allowOnBattery = true) := by
    cases n.onBattery <;> cases n.allowOnBattery <;> simp
  simp only [policyRejections, List.append_eq_nil_iff, reject_eq_nil, percentRejection_eq_nil, temperatureRejections_eq_nil,
    hkind, hpower, and_assoc]

theorem slotRejections_eq_nil : slotRejections job n = [] ↔ n.effectiveSlots ≠ 0 ∧
    satU32 (n.activeSlots.toNat + job.effectiveResourceRequest.slots.toNat) ≤ n.effectiveSlots.toNat := by
  simp only [slotRejections]
  split_ifs with hzero hfull
  · simp [hzero]
  · simp only [false_iff, not_and, not_le]
    exact fun _ => hfull
  · simp only [false_iff, not_and, not_le]
    exact fun _ => hfull
  · exact ⟨fun _ => ⟨hzero, not_lt.1 hfull⟩, fun _ => rfl⟩

theorem manualRejections_eq_nil :
    manualRejections job node = [] ↔ (job.placementPolicy = .manual → job.preferredNodeId = some node.id) := by
  unfold manualRejections
  split
  · rename_i hmanual
    cases hpreferred : job.preferredNodeId <;> simp [hmanual, reject_eq_nil]
  · rename_i hmanual
    simp [hmanual]

theorem osRejections_eq_nil : osRejections job node = [] ↔ ∀ os ∈ job.requirements.os, node.os = os := by
  unfold osRejections
  cases job.requirements.os <;> simp [reject_eq_nil]

theorem archRejections_eq_nil : archRejections job node = [] ↔ ∀ arch ∈ job.requirements.arch, node.arch = arch := by
  unfold archRejections
  cases job.requirements.arch <;> simp [reject_eq_nil]

theorem resourceRejections_eq_nil {request : ResourceRequest} : resourceRejections request node = [] ↔
    (request.cpuCores ≤ node.resources.availableCpuCores ∧ node.load.cpuPercent < 100) ∧
      request.memoryMib ≤ node.resources.availableMemoryMib ∧ request.diskMib ≤ node.resources.availableDiskMib := by
  simp [resourceRejections, reject_eq_nil, and_assoc]

theorem hardRejections_eq_nil : hardRejections job n t ttl = [] ↔ Admissible job n t ttl := by
  have henabled : (!n.node.enabled) = false ↔ n.node.enabled = true := by simp
  simp only [hardRejections, List.append_eq_nil_iff, reject_eq_nil, statusRejections_eq_nil, staleRejections_eq_nil,
    policyRejections_eq_nil, slotRejections_eq_nil, manualRejections_eq_nil, osRejections_eq_nil, archRejections_eq_nil,
    resourceRejections_eq_nil, List.map_eq_nil_iff, henabled]
  constructor
  · rintro ⟨⟨⟨⟨⟨⟨⟨⟨⟨⟨henabled, hstatus⟩, hfresh⟩, hkind, hpower, hcpu, hewma, hmemoryUse, htemperature⟩, hsafe, hslots⟩,
      hmanual⟩, hos⟩, harch⟩, hcapabilities⟩, ⟨hcores, hheadroom⟩, hmemory, hdisk⟩, hgpu⟩
    exact ⟨⟨henabled, hstatus, hfresh, hkind, hpower, hcpu, hewma, hmemoryUse, htemperature, hmanual, hos, harch, hheadroom⟩,
      hsafe, hslots, hcapabilities, hcores, hmemory, hdisk, hgpu⟩
  · intro h
    exact ⟨⟨⟨⟨⟨⟨⟨⟨⟨⟨h.enabled, h.status⟩, h.fresh⟩, h.kind, h.power, h.cpu, h.cpuEwma, h.memoryUse, h.temperature⟩, h.safe,
      h.slots⟩, h.manual⟩, h.os⟩, h.arch⟩, h.capabilities⟩, ⟨h.cores, h.headroom⟩, h.memory, h.disk⟩, h.gpu⟩

end Reasons

/-! ### Scheduling records of free nodes -/

/-- The documents merged at `t`. -/
def NodeDocuments.view (d : NodeDocuments) (t : DateTime) : NodeMergeView where
  id := d.id
  config := d.config.document
  inventory := d.inventory.document
  telemetry := d.telemetry.document
  receivedAt := d.telemetry.receivedAt
  availability := .derive d.config.document d.telemetry.document d.telemetry.receivedAt t nodeFreshnessTtl

/-- What a node without leases offers, by its documents. -/
structure Offers (t : DateTime) (d : NodeDocuments) (capacity : CapacityPolicy) (n : SchedulingNode) : Prop where
  id : n.node.id = d.id
  enabled : n.node.enabled = d.config.document.enabled
  status : n.node.status = (d.view t).status
  lastSeenAt : n.node.lastSeenAt = some d.telemetry.receivedAt
  os : n.node.os = d.inventory.document.os
  arch : n.node.arch = d.inventory.document.arch
  capabilities : n.node.capabilities = d.inventory.document.capabilities
  load : n.node.load = d.telemetry.document.load
  cores : n.node.resources.availableCpuCores = (limitResources capacity (d.view t).resources).availableCpuCores
  memory : n.node.resources.availableMemoryMib = (limitResources capacity (d.view t).resources).availableMemoryMib
  disk : n.node.resources.availableDiskMib = d.telemetry.document.availableDiskMib
  allowedJobKinds : n.allowedJobKinds = capacity.allowedJobKinds
  allowOnBattery : n.allowOnBattery = capacity.allowOnBattery
  onBattery : n.onBattery = decide (d.telemetry.document.powerSource = .battery)
  cpuEwmaPercent : n.cpuEwmaPercent = d.telemetry.document.cpuEwmaPercent
  memoryUsedPercent : n.memoryUsedPercent = CYC.memoryUsedPercent d.inventory.document d.telemetry.document
  temperatureC : n.temperatureC = d.telemetry.document.temperatureC
  maxCpuPercent : n.maxCpuPercent = capacity.maxCpuPercent
  maxCpuEwmaPercent : n.maxCpuEwmaPercent = capacity.maxCpuEwmaPercent
  maxMemoryPercent : n.maxMemoryPercent = capacity.maxMemoryPercent
  maxTemperatureC : n.maxTemperatureC = capacity.maxTemperatureC
  configuredMaxSlots : n.configuredMaxSlots = capacity.maxConcurrentJobs
  containmentMaxSafeSlots : n.containmentMaxSafeSlots = d.inventory.document.containment.maxSafeSlots
  activeSlots : n.activeSlots = 0

variable {db : Db}

/-- No lease holds the node. -/
def Db.FreeOf (db : Db) (nodeId : Uuid) : Prop := ∀ l ∈ db.leases.rows, l.nodeId = nodeId → l.releasedAt ≠ none

theorem groupOf_collect_none {κ ν : Type} [DecidableEq κ] {f : κ → StoreResult ν} {keys : List κ} {groups : List (κ × ν)}
    (h : collect (fun key => do let v ← f key; return (key, v)) keys = .ok groups) {key : κ} (hkey : key ∉ keys) :
    groupOf groups key = none := by
  rw [collect_eq_ok] at h
  induction h with
  | nil => rfl
  | @cons k g keys groups hg _ ih =>
    simp only [bind_eq_ok, pure_eq_ok] at hg
    obtain ⟨v, hv, rfl⟩ := hg
    obtain ⟨hne, hrest⟩ : key ≠ k ∧ key ∉ keys := by simpa using hkey
    have hgroup := ih hrest
    unfold groupOf at hgroup ⊢
    rw [List.find?_cons_of_neg (by simpa using hne.symm)]
    exact hgroup

variable {nodeId : Uuid} {t t' : DateTime} {nodes : List SchedulingNodeRecord} {c : UInt32} {r : NodeResources}
  {job : JobSpec}

/-- A free node has no reservations. -/
theorem groupOf_free {now : Int} {groups : List (Uuid × ReservationTotals)} (h : activeReservations db now = .ok groups)
    (hfree : db.FreeOf nodeId) : groupOf groups nodeId = none := by
  refine groupOf_collect_none h ?_
  rw [List.mem_dedup]
  intro hmem
  obtain ⟨l, hl, hnode⟩ := List.mem_map.1 hmem
  obtain ⟨hrow, hactive⟩ := List.mem_filter.1 hl
  simp only [LeaseRow.activeAt, Bool.and_eq_true, Option.isNone_iff_eq_none] at hactive
  exact hfree l hrow hnode hactive.1

theorem offers_schedulingNode {reservations : List (Uuid × ReservationTotals)}
    {gpuReservations : List ((Uuid × String) × GpuReservationTotals)} {view : NodeMergeView}
    (hview : NodeMergeView.merge d.id d.config.document d.inventory.document
      d.telemetry.document d.telemetry.receivedAt t nodeFreshnessTtl = .ok view) (hnode : view.toNode = .ok node)
    (hfree : groupOf reservations node.id = none) :
    Offers t d capacity (schedulingNode reservations gpuReservations view node capacity) := by
  obtain ⟨-, -, -, -, rfl⟩ := merge_eq_ok.1 hview
  simp only [NodeMergeView.toNode, seq_eq_ok, pure_eq_ok] at hnode
  obtain ⟨-, -, -, rfl⟩ := hnode
  have hfree : groupOf reservations d.id = none := hfree
  constructor
  all_goals simp only [schedulingNode, hfree, reserveResources, reserveLoad]
  all_goals rfl

/-- The record of a free node, and the documents it was built from. -/
theorem offers_of_mem (h : freshAvailableNodes db t = .ok nodes)
    {record : SchedulingNodeRecord} (hrecord : record ∈ nodes) (hfree : db.FreeOf record.scheduling.node.id) :
    ∃ d ∈ db.enrolledDocuments, ∃ capacity, effectiveCapacityPolicy d.config.document = .ok capacity ∧
      d.inventory.document.validate = .ok () ∧ Offers t d capacity record.scheduling := by
  simp only [freshAvailableNodes, bind_eq_ok, pure_eq_ok] at h
  obtain ⟨reservations, hres, _, -, records, hrecords, rfl⟩ := h
  obtain ⟨d, hd, hscheduled⟩ := exists_of_mem_collect hrecords (List.reduceOption_mem_iff.1 hrecord)
  obtain ⟨view, node, capacity, hview, hnode, hcapacity, rfl⟩ := schedulingRecord_eq_some hscheduled
  have hgroup : groupOf reservations node.id = none := groupOf_free hres hfree
  refine ⟨d, hd, capacity, ?_, ?_, offers_schedulingNode hview hnode hgroup⟩
  · obtain ⟨-, -, -, -, rfl⟩ := merge_eq_ok.1 hview
    exact hcapacity
  · exact (merge_eq_ok.1 hview).2.2.1

theorem mem_enrolledDocuments (h : d ∈ db.enrolledDocuments) : ∃ n ∈ db.nodes.rows, db.documents n = some d ∧
      ∃ c ∈ db.workerCredentials.rows, c.nodeId = n.id ∧ db.authenticates c = true := by
  unfold Db.enrolledDocuments at h
  rw [List.mem_insertionSort, List.mem_filterMap] at h
  obtain ⟨n, hn, hd⟩ := h
  obtain ⟨hrow, hany⟩ := List.mem_filter.1 hn
  obtain ⟨c, hc, hauth⟩ := Table.any_eq_true.1 hany
  rw [Bool.and_eq_true, decide_eq_true_eq] at hauth
  exact ⟨n, hrow, hd, c, hc, hauth⟩

/-- The credential that authenticates a node belongs to a ready pairing of the node. -/
theorem ready_of_authenticates {c : WorkerCredentialRow} (hc : c ∈ db.workerCredentials.rows) (h : db.authenticates c = true) :
    ∃ p ∈ db.pairings.rows, p.nodeId = some c.nodeId ∧ ∀ expiresAt now, pairingPhase db p expiresAt now = .ok (.ready, none) := by
  simp only [Db.authenticates, Bool.and_eq_true, decide_eq_true_eq] at h
  obtain ⟨⟨⟨hactive, hexists⟩, hany⟩, hone⟩ := h
  obtain ⟨p, hp, hack⟩ := Table.any_eq_true.1 hany
  simp only [Bool.and_eq_true, decide_eq_true_eq, Db.acknowledgedFor] at hack
  obtain ⟨hid, ⟨⟨⟨⟨⟨hused, hacknowledged⟩, hrevoked⟩, hfailed⟩, hcode⟩, hnode⟩, hintended⟩ := hack
  refine ⟨p, hp, hnode, fun expiresAt now => ?_⟩
  have hown : db.credentialsOf p.id = [c] := by
    rw [hid]
    have hmem : c ∈ db.credentialsOf c.pairingId := List.mem_filter.2 ⟨hc, by simp⟩
    obtain ⟨a, ha⟩ := List.length_eq_one_iff.1 hone
    rw [ha] at hmem ⊢
    rw [List.mem_singleton.1 hmem]
  simp only [WorkerCredentialRow.active, Bool.and_eq_true] at hactive
  have hstate : db.credentialState p = { total := 1, stagedUnrevoked := 0, activeUnrevoked := 1, stagedRevoked := 0, activeRevoked := 0 } := by
    simp [Db.credentialState, hown, hnode, hactive, Option.isNone_iff_eq_none.1 hactive.2, Option.ne_none_iff_isSome.2 hactive.1]
  have hfailure : pairingFailureState p.failedAt p.failureCode = .ok none := by
    rw [Option.isNone_iff_eq_none.1 hfailed, Option.isNone_iff_eq_none.1 hcode]
    rfl
  have hnodeExists : (some c.nodeId).any db.nodeExists = true := hexists
  have hrevoked : p.revokedAt.isSome = false := by rw [Option.isNone_iff_eq_none.1 hrevoked]; rfl
  simp only [pairingPhase, hfailure, ok_bind, hstate, classifyPairingPhase, hused, hacknowledged, hrevoked, hnodeExists, hnode, hintended]
  rfl

/-! ### What a dispatch respects -/

/-- The leases on a node that have not been given back. -/
def Db.unreleasedOn (db : Db) (nodeId : Uuid) : List LeaseRow :=
  db.leases.rows.filter fun l => l.nodeId = nodeId && l.releasedAt.isNone

/-- By the documents of the node and its unreleased leases, the operator's policy admits the job at `t`. The CPU,
memory and slots that are asked for are those of the job and of all the leases together. -/
structure Respects (db : Db) (t : DateTime) (job : JobSpec) (d : NodeDocuments) (capacity : CapacityPolicy) : Prop where
  enabled : d.config.document.enabled = true
  active : d.config.document.desiredState = .active
  status : d.telemetry.document.status = .online ∨ d.telemetry.document.status = .degraded
  fresh : t.since d.telemetry.receivedAt ≤ nodeFreshnessTtl
  paired : ∃ p ∈ db.pairings.rows, p.nodeId = some d.id ∧ ∀ expiresAt now, pairingPhase db p expiresAt now = .ok (.ready, none)
  kind : capacity.allowedJobKinds = ∅ ∨ job.kind ∈ capacity.allowedJobKinds
  power : d.telemetry.document.powerSource = .battery → capacity.allowOnBattery = true
  cpu : ∀ m ∈ capacity.maxCpuPercent, d.telemetry.document.load.cpuPercent ≤ m
  cpuEwma : ∀ m ∈ capacity.maxCpuEwmaPercent, d.telemetry.document.cpuEwmaPercent ≤ m
  memoryUse : ∀ m ∈ capacity.maxMemoryPercent, memoryUsedPercent d.inventory.document d.telemetry.document ≤ m
  temperature : ∀ m ∈ capacity.maxTemperatureC, ∀ c ∈ d.telemetry.document.temperatureC, c ≤ m
  availableCores : job.effectiveResourceRequest.cpuCores.toNat + ((db.unreleasedOn d.id).map LeaseRow.cpuCores).sum ≤
    d.telemetry.document.availableCpuCores.toNat
  allocatableCores : ∀ c ∈ capacity.allocatableCpuCores,
    job.effectiveResourceRequest.cpuCores.toNat + ((db.unreleasedOn d.id).map LeaseRow.cpuCores).sum ≤ c.toNat
  allocatableShare : ∀ p ∈ capacity.allocatableCpuPercent,
    (job.effectiveResourceRequest.cpuCores.toNat + ((db.unreleasedOn d.id).map LeaseRow.cpuCores).sum) * 100 ≤
      d.inventory.document.logicalCpuCores.toNat * p.toNat
  availableMemory : job.effectiveResourceRequest.memoryMib.toNat + ((db.unreleasedOn d.id).map LeaseRow.memoryMib).sum ≤
    d.telemetry.document.availableMemoryMib.toNat
  memoryLimit : ∀ m ∈ capacity.memoryLimitMib,
    job.effectiveResourceRequest.memoryMib.toNat + ((db.unreleasedOn d.id).map LeaseRow.memoryMib).sum ≤ m.toNat
  disk : job.effectiveResourceRequest.diskMib.toNat + ((db.unreleasedOn d.id).map LeaseRow.diskMib).sum ≤
    d.telemetry.document.availableDiskMib.toNat
  configuredSlots : job.effectiveResourceRequest.slots.toNat + ((db.unreleasedOn d.id).map LeaseRow.slots).sum ≤
    capacity.maxConcurrentJobs.toNat
  containedSlots : job.effectiveResourceRequest.slots.toNat + ((db.unreleasedOn d.id).map LeaseRow.slots).sum ≤
    d.inventory.document.containment.maxSafeSlots.toNat

/-- The job may be placed on the node in this state. -/
def Admits (db : Db) (t : DateTime) (job : JobSpec) (nodeId : Uuid) : Prop :=
  ∃ n ∈ db.nodes.rows, n.id = nodeId ∧ ∃ d, db.documents n = some d ∧
    ∃ capacity, effectiveCapacityPolicy d.config.document = .ok capacity ∧ Respects db t job d capacity

theorem unreleasedOn_free (h : db.FreeOf nodeId) : db.unreleasedOn nodeId = [] := by
  rw [Db.unreleasedOn, List.filter_eq_nil_iff]
  intro l hl
  rw [Bool.and_eq_true, decide_eq_true_eq, Option.isNone_iff_eq_none]
  rintro ⟨hnode, hheld⟩
  exact h l hl hnode hheld

/-- The state that an online or degraded node is in. -/
theorem derive_schedulable (henabled : d.config.document.enabled = true)
    (hstatus : (d.view t).status = .online ∨ (d.view t).status = .degraded) :
    d.config.document.desiredState = .active ∧ t.since d.telemetry.receivedAt ≤ nodeFreshnessTtl ∧
      (d.telemetry.document.status = .online ∨ d.telemetry.document.status = .degraded) := by
  have hderive : (d.view t).availability =
    .derive d.config.document d.telemetry.document d.telemetry.receivedAt t nodeFreshnessTtl := rfl
  unfold NodeMergeView.status at hstatus
  rw [hderive] at hstatus
  unfold NodeAvailability.derive at hstatus
  rw [henabled] at hstatus
  cases hdesired : d.config.document.desiredState with
  | draining => simp [hdesired] at hstatus
  | active =>
    by_cases hstale : nodeFreshnessTtl < t.since d.telemetry.receivedAt
    · simp [hdesired, hstale] at hstatus
    · refine ⟨rfl, not_lt.1 hstale, ?_⟩
      cases htelemetry : d.telemetry.document.status <;> simp [hdesired, hstale, htelemetry] at hstatus ⊢

/-- The share of the CPU in whole cores. Neither saturation is reached: a core count has 32 bits and a percentage 8. -/
theorem le_cpuShare {cores : UInt32} {percent : UInt8} :
    c ≤ UInt32.ofNat (satU32 (satU64 (cores.toNat * percent.toNat) / 100)) ↔ c.toNat * 100 ≤ cores.toNat * percent.toNat := by
  have hcores := cores.toNat_lt
  have hpercent := percent.toNat_lt
  have hc := c.toNat_lt
  have hproduct : cores.toNat * percent.toNat ≤ 4294967295 * 255 := Nat.mul_le_mul (by omega) (by omega)
  have hsum : satU64 (cores.toNat * percent.toNat) = cores.toNat * percent.toNat := by
    unfold satU64 u64Max
    omega
  rw [UInt32.le_iff_toNat_le, hsum]
  have hnat : (UInt32.ofNat (satU32 (cores.toNat * percent.toNat / 100))).toNat = satU32 (cores.toNat * percent.toNat / 100) := by
    rw [UInt32.toNat_ofNat_of_lt']
    unfold satU32 u32Max UInt32.size
    omega
  rw [hnat]
  unfold satU32 u32Max
  omega

theorem limitResources_cores : c ≤ (limitResources capacity r).availableCpuCores ↔ c ≤ r.availableCpuCores ∧
      (∀ limit ∈ capacity.allocatableCpuCores, c ≤ limit) ∧
      ∀ percent ∈ capacity.allocatableCpuPercent, c.toNat * 100 ≤ r.logicalCpuCores.toNat * percent.toNat := by
  unfold limitResources
  cases capacity.allocatableCpuCores <;> cases capacity.allocatableCpuPercent <;>
    simp [Std.le_min_iff, le_cpuShare, and_assoc]

theorem limitResources_memory {m : UInt64} :
    m ≤ (limitResources capacity r).availableMemoryMib ↔ m ≤ r.availableMemoryMib ∧ ∀ limit ∈ capacity.memoryLimitMib, m ≤ limit := by
  unfold limitResources
  cases capacity.memoryLimitMib <;> simp [Std.le_min_iff]

/-- A node that the scheduler admits and no lease holds respects the policy of its operator. -/
theorem respects_of_admissible {ttl : Int} {n : SchedulingNode}
    (ho : Offers t d capacity n) (ha : Admissible job n t' ttl) (hfree : db.FreeOf d.id)
    (hpaired : ∃ p ∈ db.pairings.rows, p.nodeId = some d.id ∧ ∀ expiresAt now, pairingPhase db p expiresAt now = .ok (.ready, none)) :
    Respects db t job d capacity := by
  have henabled : d.config.document.enabled = true := ho.enabled ▸ ha.enabled
  obtain ⟨hactive, hfresh, hstatus⟩ := derive_schedulable henabled (ho.status ▸ ha.status)
  have hnone := unreleasedOn_free hfree
  obtain ⟨hcores, hallocatable, hshare⟩ := limitResources_cores.1 (ho.cores ▸ ha.cores)
  obtain ⟨hmemory, hlimit⟩ := limitResources_memory.1 (ho.memory ▸ ha.memory)
  have heffective : n.effectiveSlots.toNat ≤ n.configuredMaxSlots.toNat ∧ n.effectiveSlots.toNat ≤ n.containmentMaxSafeSlots.toNat := by
    have hle := Std.le_min_iff.1 (UInt32.le_refl n.effectiveSlots)
    exact ⟨UInt32.le_iff_toNat_le.1 hle.1, UInt32.le_iff_toNat_le.1 hle.2⟩
  rw [ho.configuredMaxSlots, ho.containmentMaxSafeSlots] at heffective
  have hslots : job.effectiveResourceRequest.slots.toNat ≤ n.effectiveSlots.toNat := by
    have hle := ha.slots
    have hrequest := job.effectiveResourceRequest.slots.toNat_lt
    have hzero : (0 : UInt32).toNat = 0 := rfl
    rw [ho.activeSlots, hzero] at hle
    unfold satU32 u32Max at hle
    omega
  exact {
    enabled := henabled
    active := hactive
    status := hstatus
    fresh := hfresh
    paired := hpaired
    kind := ho.allowedJobKinds ▸ ha.kind
    power := by
      intro hbattery
      have hpower := ha.power
      rw [ho.onBattery, ho.allowOnBattery] at hpower
      exact hpower (decide_eq_true hbattery)
    cpu := by rw [← ho.maxCpuPercent, ← ho.load]; exact ha.cpu
    cpuEwma := by rw [← ho.maxCpuEwmaPercent, ← ho.cpuEwmaPercent]; exact ha.cpuEwma
    memoryUse := by rw [← ho.maxMemoryPercent, ← ho.memoryUsedPercent]; exact ha.memoryUse
    temperature := by rw [← ho.maxTemperatureC, ← ho.temperatureC]; exact ha.temperature
    availableCores := by
      have hle : _ ≤ d.telemetry.document.availableCpuCores.toNat := UInt32.le_iff_toNat_le.1 hcores
      rw [hnone]
      simpa using hle
    allocatableCores := by
      intro c hc
      have hle := UInt32.le_iff_toNat_le.1 (hallocatable c hc)
      rw [hnone]
      simpa using hle
    allocatableShare := by
      intro p hp
      have hle := hshare p hp
      rw [hnone]
      simp only [List.map_nil, List.sum_nil, add_zero]
      exact_mod_cast hle
    availableMemory := by
      have hle : _ ≤ d.telemetry.document.availableMemoryMib.toNat := UInt64.le_iff_toNat_le.1 hmemory
      rw [hnone]
      simpa using hle
    memoryLimit := by
      intro m hm
      have hle := UInt64.le_iff_toNat_le.1 (hlimit m hm)
      rw [hnone]
      simpa using hle
    disk := by
      have hle := UInt64.le_iff_toNat_le.1 (ho.disk ▸ ha.disk)
      rw [hnone]
      simpa using hle
    configuredSlots := by
      rw [hnone]
      simp only [List.map_nil, List.sum_nil, add_zero]
      omega
    containedSlots := by
      rw [hnone]
      simp only [List.map_nil, List.sum_nil, add_zero]
      omega }

/-- The node of a decision is one that the policy admits, if no lease holds it. -/
theorem admits_of_scheduled {scheduler : Scheduler}
    {decision : PlacementPlanDecision} (hnodes : freshAvailableNodes db t = .ok nodes)
    (hdecision : scheduler.scheduleContextsAt job (nodes.map SchedulingNodeRecord.scheduling) t' = .ok decision)
    (hfree : db.FreeOf decision.nodeId) : Admits db t job decision.nodeId := by
  obtain ⟨-, best, hbest, heligible, hnode, -⟩ := scheduleContextsAt_eq_ok hdecision
  obtain ⟨n, hn, rfl⟩ := List.mem_map.1 hbest
  obtain ⟨record, hrecord, rfl⟩ := List.mem_map.1 hn
  have hid : record.scheduling.node.id = decision.nodeId := by
    rw [hnode]
    exact (evaluateNode_nodeId _ _ _ _ _).symm
  rw [← hid] at hfree ⊢
  obtain ⟨d, hd, capacity, hcapacity, -, hoffers⟩ := offers_of_mem hnodes hrecord hfree
  obtain ⟨row, hrow, hdocuments, c, hc, hcnode, hauth⟩ := mem_enrolledDocuments hd
  have hrowId : row.id = d.id := by
    simp only [Db.documents, Option.bind_eq_bind, Option.bind_eq_some_iff, Option.pure_def, Option.some.injEq] at hdocuments
    obtain ⟨_, -, _, -, _, -, rfl⟩ := hdocuments
    rfl
  have hready := ready_of_authenticates hc hauth
  rw [hcnode, hrowId] at hready
  rw [hoffers.id] at hfree ⊢
  exact ⟨row, hrow, hrowId, d, hdocuments, capacity, hcapacity,
    respects_of_admissible hoffers (hardRejections_eq_nil.1 (hardRejections_of_eligible heligible)) hfree hready⟩

end CYC
