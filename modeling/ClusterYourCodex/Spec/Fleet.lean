import ClusterYourCodex.Spec.Db

/-! The fleet as the store keeps it: who may speak for a node, how probes and configurations are
written, which capacity a node offers after its policy and its active reservations, and which GPU a
dispatch takes. -/

namespace CYC

open Checked Relational

/-! ### Policy labels -/

namespace PolicyLabel

def allowedJobKinds : String := "cyc.policy.allowedJobKinds"

def resource : String := "cyc.policy.resource"

def battery : String := "cyc.policy.battery"

end PolicyLabel

/-- `service` is the alias an older UI wrote for `shell`. -/
def jobKindLabel (kind : String) : Option JobKind :=
  if kind = "shell" || kind = "service" then some .shell
  else if kind = "build" then some .build
  else if kind = "test" then some .test
  else if kind = "lint" then some .lint
  else if kind = "container" then some .container
  else if kind = "gpu" then some .gpu
  else if kind = "batch" then some .batch
  else none

def splitKinds (value : String) : List String := (Text.splitOnChar (· = ',') value.toList).map String.ofList

def validateJobKindsLabel (value : String) : StoreResult Unit :=
  ensure (value = "" || (splitKinds value).all fun kind => (jobKindLabel kind).isSome) .invalidNodeConfig

/-- An object document; anything else is refused. -/
def labelObject (value : String) : StoreResult (List (String × Json)) :=
  match Json.read value with
  | some (.obj entries) => .ok entries
  | _ => .error .invalidNodeConfig

/-- An entry that is absent, null or an integer in the given range. -/
def optionalInRange (entries : List (String × Json)) (key : String) (low high : Nat) : Bool :=
  (Json.get entries key).all fun value =>
    value.isNull || value.asUInt64.any fun n => low ≤ n && n ≤ high

def validateResourceLabel (value : String) : StoreResult Unit := do
  let entries ← labelObject value
  ensure (entries.all (fun e => e.1 = "cpuLimitPercent" || e.1 = "maximumParallelJobs" || e.1 = "memoryLimitBytes") &&
      optionalInRange entries "cpuLimitPercent" 1 100 && optionalInRange entries "maximumParallelJobs" 1 1024 &&
      optionalInRange entries "memoryLimitBytes" 1 u64Max)
    .invalidNodeConfig

def validateBatteryLabel (value : String) : StoreResult Unit := do
  let entries ← labelObject value
  ensure ((entries.map Prod.fst).dedup.length = 1 && ((Json.get entries "allowOnBattery").bind Json.asBool).isSome)
    .invalidNodeConfig

def validateReservedPolicyLabels (config : NodeConfig) : StoreResult Unit := do
  checkSome (config.labels.get PolicyLabel.allowedJobKinds) validateJobKindsLabel
  checkSome (config.labels.get PolicyLabel.resource) validateResourceLabel
  checkSome (config.labels.get PolicyLabel.battery) validateBatteryLabel

def applyJobKindsLabel (capacity : CapacityPolicy) (value : String) : StoreResult CapacityPolicy := do
  let kinds ← collect (fun kind => required (jobKindLabel kind) .invalidNodeConfig)
    ((splitKinds value).filter (· ≠ ""))
  return { capacity with allowedJobKinds := capacity.allowedJobKinds ∪ kinds.toFinset }

def narrow (bound : Nat) (n : Nat) : Option Nat := if n ≤ bound then some n else none

def applyResourceLabel (capacity : CapacityPolicy) (value : String) : StoreResult CapacityPolicy := do
  let document ← required (Json.read value) .invalidNodeConfig
  let entries := match document with
    | .obj entries => entries
    | _ => []
  let number := fun key => (Json.get entries key).bind Json.asUInt64
  return { capacity with
    maxCpuPercent :=
      capacity.maxCpuPercent.or (((number "cpuLimitPercent").bind (narrow 255)).map UInt8.ofNat)
    maxConcurrentJobs :=
      if capacity.maxConcurrentJobs = 1 then
        (((number "maximumParallelJobs").bind (narrow u32Max)).map UInt32.ofNat).getD capacity.maxConcurrentJobs
      else capacity.maxConcurrentJobs
    memoryLimitMib :=
      capacity.memoryLimitMib.or
        ((number "memoryLimitBytes").map fun bytes => UInt64.ofNat (satU64 (bytes + 1048575) / 1048576)) }

def applyBatteryLabel (capacity : CapacityPolicy) (value : String) : StoreResult CapacityPolicy := do
  let document ← required (Json.read value) .invalidNodeConfig
  let entries := match document with
    | .obj entries => entries
    | _ => []
  return { capacity with allowOnBattery := ((Json.get entries "allowOnBattery").bind Json.asBool).getD false }

/-- Applies a label that may be absent to the policy. -/
def applyLabel (label : Option String) (apply : CapacityPolicy → String → StoreResult CapacityPolicy)
    (capacity : CapacityPolicy) : StoreResult CapacityPolicy :=
  match label with
  | none => .ok capacity
  | some value => apply capacity value

def effectiveCapacityPolicy (config : NodeConfig) : StoreResult CapacityPolicy := do
  validateReservedPolicyLabels config
  let capacity ← applyLabel
    (if config.capacity.allowedJobKinds = ∅ then config.labels.get PolicyLabel.allowedJobKinds else none)
    applyJobKindsLabel config.capacity
  let capacity ← applyLabel (config.labels.get PolicyLabel.resource) applyResourceLabel capacity
  let capacity ← applyLabel (if capacity.allowOnBattery then none else config.labels.get PolicyLabel.battery)
    applyBatteryLabel capacity
  capacity.validate.mapError fun _ => .invalidNodeConfig
  return capacity

/-! ### Credentials -/

namespace Db

def credentialsOf (db : Db) (pairingId : Uuid) : List WorkerCredentialRow :=
  db.workerCredentials.rows.filter fun c => c.pairingId = pairingId

def nodeExists (db : Db) (nodeId : Uuid) : Bool := db.nodes.any fun n => n.id = nodeId

/-- The pairing's columns name an acknowledged enrollment of the node. -/
def acknowledgedFor (p : PairingRow) (nodeId : Uuid) : Bool :=
  p.usedAt.isSome && p.acknowledgedAt.isSome && p.revokedAt.isNone && p.failedAt.isNone && p.failureCode.isNone &&
    p.nodeId = some nodeId && p.intendedNodeId = nodeId

/-- The credential authenticates its node: active, and the only one of an acknowledged pairing. -/
def authenticates (db : Db) (c : WorkerCredentialRow) : Bool :=
  c.active && db.nodeExists c.nodeId &&
    (db.pairings.any fun p => p.id = c.pairingId && acknowledgedFor p c.nodeId) &&
    (db.credentialsOf c.pairingId).length = 1

end Db

def authenticateWorkerTx (db : Db) (credential : String) (now : Int) : StoreResult (Db × Uuid) := do
  let hash := secretHash credential
  let c ← required (db.workerCredentials.find fun c => c.credentialHash = hash && db.authenticates c) .workerUnauthorized
  return ({ db with
    workerCredentials := db.workerCredentials.modify (fun c => c.credentialHash = hash)
      (fun c => { c with lastUsedAt := some now }) (fun _ _ => rfl) }, c.nodeId)

/-! ### Node documents -/

inductive NodeWriteAuthority where
  | controller
  | worker
  | pairingProbe
  deriving DecidableEq, Repr

def nodeFreshnessTtl : Int := nodeFreshnessSeconds * 1000000000

/-- The digest column of an inventory document. -/
def inventoryDigest (inventory : NodeInventory) : String :=
  "sha256:" ++ Sha256.hex (Encode.nodeInventory inventory).bytes

/-- The telemetry a probe stands for; an enrollment probe never makes a node available. -/
def probeTelemetry (node : Node) (authority : NodeWriteAuthority) (receivedAt : DateTime) : NodeTelemetry :=
  let telemetry := NodeTelemetry.fromNode node receivedAt
  if authority = .pairingProbe then { telemetry with status := .offline } else telemetry

def upsertConfig (db : Db) (row : NodeConfigRow) : Table NodeConfigRow :=
  db.nodeConfigs.upsert row
    (fun r => { r with document := row.document, updatedAt := row.updatedAt, revision := row.revision }) (fun _ _ => rfl)

/-- The four documents of a node, written together. -/
def writeNodeDocuments (db : Db) (node : NodeRow) (config : Option NodeConfigRow) (inventory : NodeInventoryRow)
    (telemetry : NodeTelemetryRow) : Db :=
  { db with
    nodes := db.nodes.upsert node
      (fun r => { r with document := node.document, updatedAt := node.updatedAt, revision := node.revision })
      (fun _ _ => rfl)
    nodeConfigs := match config with
      | none => db.nodeConfigs
      | some config => upsertConfig db config
    nodeInventories := db.nodeInventories.upsert inventory
      (fun r => { r with document := inventory.document, updatedAt := inventory.updatedAt,
                         revision := inventory.revision, digest := inventory.digest,
                         observedAt := inventory.observedAt }) (fun _ _ => rfl)
    nodeTelemetry := db.nodeTelemetry.upsert telemetry
      (fun r => { r with document := telemetry.document, receivedAt := telemetry.receivedAt,
                         bootGeneration := telemetry.bootGeneration, bootId := telemetry.bootId,
                         sequence := telemetry.sequence, observedAt := telemetry.observedAt }) (fun _ _ => rfl) }

/-- `increment_meta`, when the change is one that other plans must notice. -/
def incrementWhen (changed : Bool) (db : Db) : StoreResult Db :=
  if changed then db.incrementFleetRevision else .ok db

def upsertNodeTx (env : Env) (db : Db) (node : Node) (authority : NodeWriteAuthority) : StoreResult Db := do
  let receivedAt := if authority = .pairingProbe then .ofTimestamp 0 else env.reading .probe
  let incoming := NodeConfig.fromNode node
  let inventory := NodeInventory.fromNode node
  let telemetry := probeTelemetry node authority receivedAt
  incoming.validate.mapError .nodeState
  inventory.validate.mapError .nodeState
  (telemetry.validate inventory).mapError .nodeState
  let existingConfig := db.nodeConfigs.find fun r => r.nodeId = node.id
  let existingInventory := db.nodeInventories.find fun r => r.nodeId = node.id
  let existingNode := db.nodes.find fun r => r.id = node.id
  let config := match existingConfig with
    | some existing => if authority = .controller then incoming else existing.document
    | none => incoming
  let configRevision := (existingConfig.map NodeConfigRow.revision).getD 0
  let inventoryRevision := (existingInventory.map NodeInventoryRow.revision).getD 0
  let nodeRevision := (existingNode.map NodeRow.revision).getD 0
  let configChanged := existingConfig.any fun r => r.document ≠ config
  let inventoryChanged := existingInventory.any fun r => r.document ≠ inventory
  let materialChanged := existingConfig.map NodeConfigRow.document ≠ some config ||
    existingInventory.map NodeInventoryRow.document ≠ some inventory
  let view ← (NodeMergeView.merge node.id config inventory telemetry receivedAt receivedAt nodeFreshnessTtl).mapError
    .nodeState
  let document ← view.toNode.mapError .nodeState
  let written := writeNodeDocuments db
    { id := node.id, document, updatedAt := receivedAt,
      revision := if materialChanged then satI64 (nodeRevision + 1) else nodeRevision }
    (if authority = .controller || existingConfig.isNone then
      some { nodeId := node.id, document := config, updatedAt := receivedAt,
             revision := if authority = .controller && configChanged then satI64 (configRevision + 1) else configRevision }
    else none)
    { nodeId := node.id, document := inventory, updatedAt := receivedAt,
      revision := if inventoryChanged then satI64 (inventoryRevision + 1) else inventoryRevision,
      digest := inventoryDigest inventory, observedAt := telemetry.observedAt }
    { nodeId := node.id, document := telemetry, receivedAt, bootGeneration := asI64 telemetry.bootGeneration.toNat,
      bootId := telemetry.bootId, sequence := asI64 telemetry.sequence.toNat, observedAt := telemetry.observedAt }
  incrementWhen materialChanged written

/-- A claim's probe counts until the node has sent a sequenced report. -/
def upsertLegacyProbeTx (env : Env) (db : Db) (node : Node) : StoreResult Db :=
  if (db.nodeTelemetry.find fun t => t.nodeId = node.id).any fun t => !t.bootId.isNil then .ok db
  else upsertNodeTx env db node .worker

/-- The four documents of one node and the node's revision. -/
structure NodeDocuments where
  id : Uuid
  config : NodeConfigRow
  inventory : NodeInventoryRow
  telemetry : NodeTelemetryRow
  revision : Int

namespace Db

/-- The join of a node with its configuration, inventory and telemetry. -/
def documents (db : Db) (n : NodeRow) : Option NodeDocuments := do
  let config ← db.nodeConfigs.find fun r => r.nodeId = n.id
  let inventory ← db.nodeInventories.find fun r => r.nodeId = n.id
  let telemetry ← db.nodeTelemetry.find fun r => r.nodeId = n.id
  return { id := n.id, config, inventory, telemetry, revision := n.revision }

end Db

structure StoredNodeConfig where
  nodeId : Uuid
  revision : Int
  config : NodeConfig

def updateNodeConfig (env : Env) (db : Db) (nodeId : Uuid) (expectedRevision : Int) (config : NodeConfig) :
    StoreResult (Db × StoredNodeConfig) := do
  config.validate.mapError fun _ => .invalidNodeConfig
  validateReservedPolicyLabels config
  let _ ← effectiveCapacityPolicy config
  ensure (0 ≤ expectedRevision) .invalidNodeConfig
  let node ← required (db.nodes.find fun r => r.id = nodeId) .notFound
  let d ← required (db.documents node) .notFound
  ensure (d.config.revision = expectedRevision) (.nodeConfigVersionConflict d.config.revision)
  let next := satI64 (d.config.revision + 1)
  let now := env.reading .configured
  let view ← (NodeMergeView.merge nodeId config d.inventory.document d.telemetry.document d.telemetry.receivedAt now
    nodeFreshnessTtl).mapError .nodeState
  let document ← view.toNode.mapError .nodeState
  let db ← Db.incrementFleetRevision { db with
    nodeConfigs := db.nodeConfigs.modify (fun r => r.nodeId = nodeId && r.revision = expectedRevision)
      (fun r => { r with document := config, updatedAt := now, revision := next }) (fun _ _ => rfl)
    nodes := db.nodes.modify (fun r => r.id = nodeId)
      (fun r => { r with document := document, updatedAt := now, revision := satI64 (node.revision + 1) })
      (fun _ _ => rfl) }
  return (db, { nodeId, revision := next, config })

/-! ### Reservations -/

/-- A lease that still holds capacity at `now`: unreleased, and not past its deadline unless it waits
for cleanup. -/
def LeaseRow.activeAt (now : Int) (l : LeaseRow) : Bool :=
  l.releasedAt.isNone && (now < l.expiresAt || l.phase = .cleanupPending)

structure ReservationTotals where
  slots : Nat
  cpuCores : Nat
  memoryMib : Nat
  diskMib : Nat
  gpuReservations : Nat
  count : Nat

def reservationTotals (leases : List LeaseRow) : StoreResult ReservationTotals := do
  let slots ← sumColumn (leases.map LeaseRow.slots)
  let cpuCores ← sumColumn (leases.map LeaseRow.cpuCores)
  let memoryMib ← sumColumn (leases.map LeaseRow.memoryMib)
  let diskMib ← sumColumn (leases.map LeaseRow.diskMib)
  let gpuReservations ← sumColumn (leases.map LeaseRow.gpuReserved)
  return { slots := asU64 slots, cpuCores := asU64 cpuCores, memoryMib := asU64 memoryMib, diskMib := asU64 diskMib,
           gpuReservations := asU64 gpuReservations, count := leases.length }

/-- Totals of the active leases, grouped by node. -/
def activeReservations (db : Db) (now : Int) : StoreResult (List (Uuid × ReservationTotals)) :=
  let active := db.leases.rows.filter (LeaseRow.activeAt now)
  collect (fun nodeId => do
    let totals ← reservationTotals (active.filter fun l => l.nodeId = nodeId)
    return (nodeId, totals)) (active.map LeaseRow.nodeId).dedup

structure GpuReservationTotals where
  vramMib : Nat
  exclusive : Bool
  count : Nat

/-- Totals of the GPU reservations of active leases, grouped by node and device. -/
def activeGpuReservations (db : Db) (now : Int) : StoreResult (List ((Uuid × String) × GpuReservationTotals)) :=
  let active := db.leaseGpuReservations.rows.filterMap fun g =>
    ((db.leases.find fun l => l.id = g.leaseId).filter (LeaseRow.activeAt now)).map fun l => ((l.nodeId, g.deviceId), g)
  collect (fun key => do
    let rows := (active.filter fun e => e.1 = key).map Prod.snd
    let vramMib ← sumColumn (rows.map LeaseGpuRow.vramMib)
    return (key, { vramMib := asU64 vramMib, exclusive := rows.any LeaseGpuRow.exclusive, count := satU32 rows.length }))
    (active.map Prod.fst).dedup

/-- The value of a key in a list of groups. -/
def groupOf {κ ν : Type} [DecidableEq κ] (groups : List (κ × ν)) (key : κ) : Option ν :=
  (groups.find? fun g => g.1 = key).map Prod.snd

/-! ### Nodes that can be scheduled -/

structure SchedulingNodeRecord where
  scheduling : SchedulingNode
  revision : Int

def satSubU32 (a : UInt32) (b : Nat) : UInt32 := UInt32.ofNat (a.toNat - b)

def satSubU64 (a : UInt64) (b : Nat) : UInt64 := UInt64.ofNat (a.toNat - b)

/-- What the node's own policy leaves of its resources. -/
def limitResources (capacity : CapacityPolicy) (r : NodeResources) : NodeResources :=
  let cpu := match capacity.allocatableCpuCores with
    | none => r.availableCpuCores
    | some limit => min r.availableCpuCores limit
  let cpu := match capacity.allocatableCpuPercent with
    | none => cpu
    | some percent => min cpu (UInt32.ofNat (satU32 (satU64 (r.logicalCpuCores.toNat * percent.toNat) / 100)))
  { r with
    availableCpuCores := cpu
    availableMemoryMib := match capacity.memoryLimitMib with
      | none => r.availableMemoryMib
      | some limit => min r.availableMemoryMib limit }

/-- What active reservations leave of the limited resources. -/
def reserveResources (reserved : Option ReservationTotals) (r : NodeResources) : NodeResources :=
  match reserved with
  | none => r
  | some t => { r with
      availableCpuCores := satSubU32 r.availableCpuCores (satU32 t.cpuCores)
      availableMemoryMib := satSubU64 r.availableMemoryMib t.memoryMib
      availableDiskMib := satSubU64 r.availableDiskMib t.diskMib }

def reserveLoad (reserved : Option ReservationTotals) (load : NodeLoad) : NodeLoad :=
  match reserved with
  | none => load
  | some t => { load with queueDepth := UInt32.ofNat (satU32 (load.queueDepth.toNat + satU32 t.count)) }

/-- The device names of a node: a stable id from the inventory or the telemetry, or the position. -/
def gpuDeviceIds (inventory : List GpuInventory) : Nat → List GpuTelemetry → List (Option String)
  | _, [] => []
  | index, t :: ts =>
    ((((inventory[index]?).bind GpuInventory.stableId).or t.stableId).or
      (some ("gpu-index-" ++ toString index))) :: gpuDeviceIds inventory (index + 1) ts

/-- A device after the reservations on it, and their number. -/
def reserveGpu (reservations : List ((Uuid × String) × GpuReservationTotals)) (nodeId : Uuid) (deviceId : Option String)
    (gpu : GpuDevice) : GpuDevice × Nat :=
  match deviceId.bind fun device => groupOf reservations (nodeId, device) with
  | none => (gpu, 0)
  | some t =>
    ({ gpu with
        availableVramMib := if t.exclusive then 0 else satSubU64 gpu.availableVramMib t.vramMib
        allocatable := gpu.allocatable && !t.exclusive }, t.count)

def reserveGpus (reservations : List ((Uuid × String) × GpuReservationTotals)) (nodeId : Uuid)
    (deviceIds : List (Option String)) : Nat → List GpuDevice → List (GpuDevice × Nat)
  | _, [] => []
  | index, gpu :: gpus =>
    reserveGpu reservations nodeId (deviceIds[index]?).join gpu ::
      reserveGpus reservations nodeId deviceIds (index + 1) gpus

def withdrawGpu (gpu : GpuDevice) : GpuDevice := { gpu with allocatable := false, availableVramMib := 0 }

def memoryUsedPercent (inventory : NodeInventory) (telemetry : NodeTelemetry) : UInt8 :=
  if inventory.memoryMib = 0 then 100
  else
    let used := inventory.memoryMib.toNat - telemetry.availableMemoryMib.toNat
    UInt8.ofNat (min (satU64 (used * 100) / inventory.memoryMib.toNat) 100)

def schedulingNode (reservations : List (Uuid × ReservationTotals))
    (gpuReservations : List ((Uuid × String) × GpuReservationTotals)) (view : NodeMergeView) (node : Node)
    (capacity : CapacityPolicy) : SchedulingNode :=
  let reserved := groupOf reservations node.id
  let deviceIds := gpuDeviceIds view.inventory.gpus 0 view.telemetry.gpus
  let devices := reserveGpus gpuReservations node.id deviceIds 0 node.resources.gpus
  let detailed := satU64 (devices.map Prod.snd).sum
  -- a reservation that names no device makes every device unavailable
  let gpus := if reserved.any fun t => detailed < t.gpuReservations then devices.map fun d => withdrawGpu d.1
    else devices.map Prod.fst
  { node := { node with
      resources := { reserveResources reserved (limitResources capacity node.resources) with gpus }
      load := reserveLoad reserved node.load }
    allowedJobKinds := capacity.allowedJobKinds
    allowOnBattery := capacity.allowOnBattery
    onBattery := view.telemetry.powerSource = .battery
    cpuEwmaPercent := view.telemetry.cpuEwmaPercent
    memoryUsedPercent := memoryUsedPercent view.inventory view.telemetry
    temperatureC := view.telemetry.temperatureC
    maxCpuPercent := capacity.maxCpuPercent
    maxCpuEwmaPercent := capacity.maxCpuEwmaPercent
    maxMemoryPercent := capacity.maxMemoryPercent
    maxTemperatureC := capacity.maxTemperatureC
    configuredMaxSlots := capacity.maxConcurrentJobs
    containmentMaxSafeSlots := view.inventory.containment.maxSafeSlots
    activeSlots := UInt32.ofNat (satU32 ((reserved.map ReservationTotals.slots).getD 0))
    gpuDeviceIds := deviceIds
    gpuActiveReservations := devices.map fun d => UInt32.ofNat d.2 }

def isManaged : NodeTransport → Bool
  | .managed .. => true
  | _ => false

/-- One row of the query: skipped unless the node is a managed worker. -/
def schedulingRecord (reservations : List (Uuid × ReservationTotals))
    (gpuReservations : List ((Uuid × String) × GpuReservationTotals)) (now : DateTime) (d : NodeDocuments) :
    StoreResult (Option SchedulingNodeRecord) := do
  let view ← (NodeMergeView.merge d.id d.config.document d.inventory.document d.telemetry.document
    d.telemetry.receivedAt now nodeFreshnessTtl).mapError .nodeState
  let node ← view.toNode.mapError .nodeState
  if !isManaged node.transport then return none
  else do
    let capacity ← effectiveCapacityPolicy view.config
    return some { scheduling := schedulingNode reservations gpuReservations view node capacity, revision := d.revision }

/-- The nodes with an authenticating credential, the latest heard first. -/
def Db.enrolledDocuments (db : Db) : List NodeDocuments :=
  ((db.nodes.rows.filter fun n => db.workerCredentials.any fun c => c.nodeId = n.id && db.authenticates c).filterMap
    db.documents).insertionSort fun a b => b.telemetry.receivedAt.toRfc3339 ≤ a.telemetry.receivedAt.toRfc3339

def freshAvailableNodes (db : Db) (now : DateTime) : StoreResult (List SchedulingNodeRecord) := do
  let reservations ← activeReservations db now.timestamp
  let gpuReservations ← activeGpuReservations db now.timestamp
  let nodes ← collect (schedulingRecord reservations gpuReservations now) db.enrolledDocuments
  return nodes.reduceOption

/-! ### The GPU of a dispatch -/

def effectiveGpuRequest (job : JobSpec) : Option GpuResourceRequest :=
  job.effectiveResourceRequest.gpu.or
    (if job.kind = .gpu then some { deviceId := none, vendor := none, vramMib := 0, exclusive := true } else none)

/-- The device at `index` can take the request. -/
def gpuAvailable (n : SchedulingNode) (request : GpuResourceRequest) (index : Nat) (gpu : GpuDevice) : Bool :=
  gpu.allocatable && request.vramMib ≤ gpu.availableVramMib && request.vendor.all (· = gpu.vendor) &&
    (request.deviceId.all fun requested => (n.gpuDeviceIds[index]?).join = some requested) &&
    (!request.exclusive || (n.gpuActiveReservations[index]?).getD 0 = 0)

/-- The available devices, with their positions. -/
def availableGpus (n : SchedulingNode) (request : GpuResourceRequest) : Nat → List GpuDevice → List (Nat × GpuDevice)
  | _, [] => []
  | index, gpu :: gpus =>
    if gpuAvailable n request index gpu then (index, gpu) :: availableGpus n request (index + 1) gpus
    else availableGpus n request (index + 1) gpus

/-- The device with the most memory; the lower position wins a tie. -/
def largestGpu : List (Nat × GpuDevice) → Option (Nat × GpuDevice)
  | [] => none
  | g :: gs => some (gs.foldl (fun best g => if g.2.availableVramMib ≤ best.2.availableVramMib then best else g) g)

def selectGpuReservation (nodes : List SchedulingNodeRecord) (nodeId : Uuid) (request : Option GpuResourceRequest) :
    StoreResult (Option (String × GpuResourceRequest)) :=
  match request with
  | none => .ok none
  | some request => do
    let record ← required (nodes.find? fun r => r.scheduling.node.id = nodeId) .planStale
    let selected ← required (largestGpu (availableGpus record.scheduling request 0 record.scheduling.node.resources.gpus))
      .invalidTransition
    let deviceId ← required (record.scheduling.gpuDeviceIds[selected.1]?).join .invalidTransition
    return some (deviceId, request)

end CYC
