import ClusterYourCodex.Spec.Job

/-! Node state (`cyc-protocol/src/node_state.rs`): the configuration the controller owns, the static
inventory and the dynamic telemetry a worker reports, and the merged view from which the fleet API
and the scheduler work. -/

namespace CYC

open Checked

def protocolVersion : UInt32 := 1

def minTemperatureC : Int16 := -100

def maxTemperatureC : Int16 := 200

def defaultUnknown : String := "unknown"

inductive NodeTransport where
  | local_
  | managed (endpoint credentialRef : String)
  | ssh (host : String) (port : UInt16) (username credentialRef : String)
  deriving DecidableEq

inductive NodeStatus where
  | online
  | degraded
  | draining
  | offline
  deriving DecidableEq, Repr

structure GpuDevice where
  vendor : GpuVendor
  model : String
  totalVramMib : UInt64
  availableVramMib : UInt64
  allocatable : Bool
  deriving DecidableEq

structure NodeResources where
  logicalCpuCores : UInt32
  availableCpuCores : UInt32
  memoryMib : UInt64
  availableMemoryMib : UInt64
  diskMib : UInt64
  availableDiskMib : UInt64
  gpus : List GpuDevice
  deriving DecidableEq

structure NodeLoad where
  cpuPercent : UInt8
  queueDepth : UInt32
  runningJobs : UInt32
  deriving DecidableEq

/-- The node document of the compatibility API, of enrollment probes and of the scheduler. -/
structure Node where
  id : Uuid
  name : String
  enabled : Bool
  transport : NodeTransport
  os : OperatingSystem
  arch : Architecture
  status : NodeStatus
  capabilities : Capabilities
  resources : NodeResources
  load : NodeLoad
  priority : Int32
  labels : OrdMap String String
  cachedSources : OrdSet String
  lastSeenAt : Option DateTime
  deriving DecidableEq

inductive NodeStateError where
  | nilNodeId
  | invalidConfig (field : String)
  | invalidInventory (reason : String)
  | invalidTelemetry (reason : String)
  deriving DecidableEq, Repr

/-- A text that is not blank, has at most `limit` characters and no control character. -/
def boundedText (limit : Nat) (s : String) : Bool :=
  !Text.blank s && Text.charCount s ≤ limit && !Text.hasControl s

/-! ### Configuration -/

inductive NodeDesiredState where
  | active
  | draining
  deriving DecidableEq, Repr

/-- Admission policy; no allowed job kind at all means that every kind is allowed. -/
structure CapacityPolicy where
  maxConcurrentJobs : UInt32
  allocatableCpuCores : Option UInt32
  allocatableCpuPercent : Option UInt8
  memoryLimitMib : Option UInt64
  allowedJobKinds : Finset JobKind
  allowOnBattery : Bool
  maxCpuPercent : Option UInt8
  maxCpuEwmaPercent : Option UInt8
  maxMemoryPercent : Option UInt8
  maxTemperatureC : Option Int16
  deriving DecidableEq

namespace CapacityPolicy

def default : CapacityPolicy where
  maxConcurrentJobs := 1
  allocatableCpuCores := none
  allocatableCpuPercent := none
  memoryLimitMib := none
  allowedJobKinds := ∅
  allowOnBattery := false
  maxCpuPercent := none
  maxCpuEwmaPercent := none
  maxMemoryPercent := none
  maxTemperatureC := none

def percentInRange (value : Option UInt8) (field : String) : Except NodeStateError Unit :=
  ensure (value.all fun v => 1 ≤ v && v ≤ 100) (.invalidConfig field)

def validate (policy : CapacityPolicy) : Except NodeStateError Unit := do
  ensure (policy.maxConcurrentJobs ≠ 0) (.invalidConfig "capacity.maxConcurrentJobs")
  ensure (policy.allocatableCpuCores ≠ some 0) (.invalidConfig "capacity.allocatableCpuCores")
  ensure (policy.memoryLimitMib ≠ some 0) (.invalidConfig "capacity.memoryLimitMiB")
  percentInRange policy.allocatableCpuPercent "capacity.allocatableCpuPercent"
  percentInRange policy.maxCpuPercent "capacity.maxCpuPercent"
  percentInRange policy.maxCpuEwmaPercent "capacity.maxCpuEwmaPercent"
  percentInRange policy.maxMemoryPercent "capacity.maxMemoryPercent"
  ensure (policy.maxTemperatureC.all fun t => minTemperatureC ≤ t && t ≤ CYC.maxTemperatureC)
    (.invalidConfig "capacity.maxTemperatureC")

end CapacityPolicy

structure NodeConfig where
  name : String
  enabled : Bool
  priority : Int32
  labels : OrdMap String String
  desiredState : NodeDesiredState
  capacity : CapacityPolicy
  deriving DecidableEq

namespace NodeConfig

def fromNode (node : Node) : NodeConfig where
  name := node.name
  enabled := node.enabled
  priority := node.priority
  labels := node.labels
  desiredState := .active
  capacity := .default

def validLabel (label : String × String) : Bool :=
  !Text.blank label.1 && Text.charCount label.1 ≤ 128 && Text.charCount label.2 ≤ 1024 &&
    !Text.hasControl label.1 && !Text.hasControl label.2

def validate (config : NodeConfig) : Except NodeStateError Unit := do
  ensure (boundedText 128 config.name) (.invalidConfig "name")
  ensure (config.labels.entries.all validLabel) (.invalidConfig "labels")
  config.capacity.validate

end NodeConfig

/-! ### Inventory -/

structure GpuInventory where
  vendor : GpuVendor
  model : String
  totalVramMib : UInt64
  stableId : Option String
  driverVersion : Option String
  deriving DecidableEq

inductive ContainmentBackend where
  | legacy
  | linuxSubreaperProcessGroup
  | macosProcessGroup
  | windowsJobObject
  | unsupported
  deriving DecidableEq, Repr

inductive HostileIsolationBackend where
  | disabled
  | linuxCgroupV2DedicatedIdentity
  | windowsJobObjectExternalGuard
  | macosExternalReconciliation
  | unsupported
  deriving DecidableEq, Repr

structure HostileIsolationInventory where
  optIn : Bool
  ready : Bool
  backend : HostileIsolationBackend
  dedicatedIdentity : Bool
  externalReconciliation : Bool
  protectedGuardState : Bool
  workerStateIsolated : Bool
  reasonCode : Option String
  deriving DecidableEq

namespace HostileIsolationInventory

def default : HostileIsolationInventory where
  optIn := false
  ready := false
  backend := .disabled
  dedicatedIdentity := false
  externalReconciliation := false
  protectedGuardState := false
  workerStateIsolated := false
  reasonCode := none

def validate (isolation : HostileIsolationInventory) : Except NodeStateError Unit := do
  ensure (isolation.reasonCode.all (boundedText 128)) (.invalidInventory "hostile isolation reasonCode is invalid")
  if !isolation.optIn then
    ensure (isolation = default)
      (.invalidInventory "disabled hostile isolation must use conservative defaults")
  else do
    ensure (isolation.backend ≠ .disabled) (.invalidInventory "opt-in hostile isolation must identify a backend")
    ensure (!isolation.ready || (isolation.dedicatedIdentity && isolation.externalReconciliation &&
        isolation.protectedGuardState && isolation.workerStateIsolated && isolation.reasonCode.isNone &&
        isolation.backend ≠ .macosExternalReconciliation && isolation.backend ≠ .unsupported))
      (.invalidInventory "ready hostile isolation is missing a required protection")
    ensure (isolation.ready || isolation.reasonCode.isSome)
      (.invalidInventory "unready hostile isolation must provide a reasonCode")

end HostileIsolationInventory

structure ContainmentInventory where
  backend : ContainmentBackend
  version : String
  maxSafeSlots : UInt32
  hostileIsolation : HostileIsolationInventory
  deriving DecidableEq

def ContainmentInventory.default : ContainmentInventory where
  backend := .legacy
  version := defaultUnknown
  maxSafeSlots := 1
  hostileIsolation := .default

structure NodeInventory where
  transport : NodeTransport
  os : OperatingSystem
  arch : Architecture
  capabilities : Capabilities
  logicalCpuCores : UInt32
  memoryMib : UInt64
  diskMib : UInt64
  gpus : List GpuInventory
  cpuModel : String
  toolVersions : OrdMap String String
  workerVersion : String
  protocolVersion : UInt32
  containment : ContainmentInventory
  deriving DecidableEq

namespace NodeInventory

def fromNode (node : Node) : NodeInventory where
  transport := node.transport
  os := node.os
  arch := node.arch
  capabilities := node.capabilities
  logicalCpuCores := node.resources.logicalCpuCores
  memoryMib := node.resources.memoryMib
  diskMib := node.resources.diskMib
  gpus := node.resources.gpus.map fun gpu =>
    { vendor := gpu.vendor, model := gpu.model, totalVramMib := gpu.totalVramMib, stableId := none,
      driverVersion := none }
  cpuModel := defaultUnknown
  toolVersions := .empty
  workerVersion := defaultUnknown
  protocolVersion := CYC.protocolVersion
  containment := .default

def validGpu (gpu : GpuInventory) : Bool :=
  boundedText 512 gpu.model && gpu.totalVramMib ≠ 0 && gpu.stableId.all (boundedText 256) &&
    gpu.driverVersion.all (boundedText 128)

def validToolVersion (entry : String × String) : Bool :=
  boundedText 128 entry.1 && boundedText 512 entry.2

def validate (inventory : NodeInventory) : Except NodeStateError Unit := do
  ensure (inventory.capabilities.elems.all fun c => !Text.blank c)
    (.invalidInventory "capability names must not be empty")
  ensure (inventory.gpus.all validGpu && (inventory.gpus.filterMap GpuInventory.stableId).Nodup)
    (.invalidInventory "invalid GPU inventory")
  ensure (boundedText 512 inventory.cpuModel) (.invalidInventory "invalid cpuModel")
  ensure (boundedText 128 inventory.workerVersion) (.invalidInventory "invalid workerVersion")
  ensure (inventory.protocolVersion = CYC.protocolVersion) (.invalidInventory "unsupported protocolVersion")
  ensure (inventory.toolVersions.entries.all validToolVersion) (.invalidInventory "invalid toolVersions entry")
  ensure (boundedText 128 inventory.containment.version && inventory.containment.maxSafeSlots = 1)
    (.invalidInventory "containment must identify the current one-slot backend")
  inventory.containment.hostileIsolation.validate

end NodeInventory

/-! ### Telemetry -/

structure GpuTelemetry where
  availableVramMib : UInt64
  allocatable : Bool
  stableId : Option String
  utilizationPercent : Option UInt8
  temperatureC : Option Int16
  deriving DecidableEq

inductive PowerSource where
  | ac
  | battery
  | unknown
  deriving DecidableEq, Repr

structure BatteryTelemetry where
  chargePercent : Option UInt8
  charging : Option Bool
  deriving DecidableEq

structure NodeTelemetry where
  status : NodeStatus
  availableCpuCores : UInt32
  availableMemoryMib : UInt64
  availableDiskMib : UInt64
  gpus : List GpuTelemetry
  load : NodeLoad
  cachedSources : OrdSet String
  observedAt : DateTime
  bootGeneration : UInt64
  bootId : Uuid
  sequence : UInt64
  cpuEwmaPercent : UInt8
  activeRunIds : List Uuid
  powerSource : PowerSource
  battery : Option BatteryTelemetry
  temperatureC : Option Int16
  deriving DecidableEq

namespace NodeTelemetry

def fromNode (node : Node) (fallbackObservedAt : DateTime) : NodeTelemetry where
  status := node.status
  availableCpuCores := node.resources.availableCpuCores
  availableMemoryMib := node.resources.availableMemoryMib
  availableDiskMib := node.resources.availableDiskMib
  gpus := node.resources.gpus.map fun gpu =>
    { availableVramMib := gpu.availableVramMib, allocatable := gpu.allocatable, stableId := none,
      utilizationPercent := none, temperatureC := none }
  load := node.load
  cachedSources := node.cachedSources
  observedAt := node.lastSeenAt.getD fallbackObservedAt
  bootGeneration := 0
  bootId := .nil
  sequence := 0
  cpuEwmaPercent := node.load.cpuPercent
  activeRunIds := []
  powerSource := .unknown
  battery := none
  temperatureC := none

def temperatureInRange (t : Option Int16) : Bool := t.all fun t => minTemperatureC ≤ t && t ≤ maxTemperatureC

/-- The GPU loop of the shape check; `seen` are the stable ids of the devices before. -/
def validateGpus : List String → List GpuTelemetry → Except NodeStateError Unit
  | _, [] => .ok ()
  | seen, gpu :: gpus => do
    ensure (gpu.utilizationPercent.all (· ≤ 100)) (.invalidTelemetry "GPU utilizationPercent must be in 0..=100")
    ensure (temperatureInRange gpu.temperatureC) (.invalidTelemetry "GPU temperatureC is outside the supported range")
    match gpu.stableId with
    | none => validateGpus seen gpus
    | some stableId => do
      ensure (boundedText 256 stableId && !seen.contains stableId)
        (.invalidTelemetry "GPU stableId must be non-empty and unique")
      validateGpus (stableId :: seen) gpus

def validateShape (telemetry : NodeTelemetry) : Except NodeStateError Unit := do
  ensure (telemetry.load.cpuPercent ≤ 100 && telemetry.cpuEwmaPercent ≤ 100)
    (.invalidTelemetry "CPU percentages must be in 0..=100")
  ensure ((telemetry.battery.bind BatteryTelemetry.chargePercent).all (· ≤ 100))
    (.invalidTelemetry "battery chargePercent must be in 0..=100")
  ensure (temperatureInRange telemetry.temperatureC) (.invalidTelemetry "temperatureC is outside the supported range")
  ensure (telemetry.activeRunIds.all (fun r => !r.isNil) && telemetry.activeRunIds.Nodup)
    (.invalidTelemetry "activeRunIds must be non-nil and unique")
  validateGpus [] telemetry.gpus

/-- The telemetry of an inventoried device: by stable id, or by position for legacy reports. -/
def gpuForInventory (telemetry : NodeTelemetry) (index : Nat) (inventory : GpuInventory) : Option GpuTelemetry :=
  match inventory.stableId with
  | none => telemetry.gpus[index]?
  | some stableId => telemetry.gpus.find? fun gpu => gpu.stableId = some stableId

def gpusMatch (telemetry : NodeTelemetry) : Nat → List GpuInventory → Bool
  | _, [] => true
  | index, gpu :: gpus =>
    ((telemetry.gpuForInventory index gpu).any fun t => t.availableVramMib ≤ gpu.totalVramMib) &&
      gpusMatch telemetry (index + 1) gpus

def validate (telemetry : NodeTelemetry) (inventory : NodeInventory) : Except NodeStateError Unit := do
  telemetry.validateShape
  ensure (telemetry.availableCpuCores ≤ inventory.logicalCpuCores &&
      telemetry.availableMemoryMib ≤ inventory.memoryMib && telemetry.availableDiskMib ≤ inventory.diskMib)
    (.invalidTelemetry "available capacity exceeds inventory total")
  ensure (telemetry.gpus.length = inventory.gpus.length && telemetry.gpusMatch 0 inventory.gpus)
    (.invalidTelemetry "GPU telemetry does not match inventory")

end NodeTelemetry

/-! ### The merged view -/

inductive NodeAvailability where
  | available
  | degraded
  | draining
  | disabled
  | offline
  | stale
  deriving DecidableEq, Repr

namespace NodeAvailability

/-- `freshnessTtl` is in nanoseconds, as durations are. -/
def derive (config : NodeConfig) (telemetry : NodeTelemetry) (receivedAt now : DateTime) (freshnessTtl : Int) :
    NodeAvailability :=
  if !config.enabled then .disabled
  else if config.desiredState = .draining then .draining
  else if freshnessTtl < now.since receivedAt then .stale
  else match telemetry.status with
    | .online => .available
    | .degraded => .degraded
    | .draining => .draining
    | .offline => .offline

end NodeAvailability

structure NodeMergeView where
  id : Uuid
  config : NodeConfig
  inventory : NodeInventory
  telemetry : NodeTelemetry
  receivedAt : DateTime
  availability : NodeAvailability
  deriving DecidableEq

namespace NodeMergeView

def merge (id : Uuid) (config : NodeConfig) (inventory : NodeInventory) (telemetry : NodeTelemetry)
    (receivedAt now : DateTime) (freshnessTtl : Int) : Except NodeStateError NodeMergeView := do
  ensure (!id.isNil) .nilNodeId
  config.validate
  inventory.validate
  telemetry.validate inventory
  return { id, config, inventory, telemetry, receivedAt,
           availability := .derive config telemetry receivedAt now freshnessTtl }

/-- The devices of the node: inventory joined with telemetry. -/
def devices (telemetry : NodeTelemetry) : Nat → List GpuInventory → List GpuDevice
  | _, [] => []
  | index, gpu :: gpus => match telemetry.gpuForInventory index gpu with
    | some t =>
      { vendor := gpu.vendor, model := gpu.model, totalVramMib := gpu.totalVramMib,
        availableVramMib := t.availableVramMib, allocatable := t.allocatable } :: devices telemetry (index + 1) gpus
    -- excluded by the validation that precedes the join
    | none => devices telemetry (index + 1) gpus

def resources (view : NodeMergeView) : NodeResources where
  logicalCpuCores := view.inventory.logicalCpuCores
  availableCpuCores := view.telemetry.availableCpuCores
  memoryMib := view.inventory.memoryMib
  availableMemoryMib := view.telemetry.availableMemoryMib
  diskMib := view.inventory.diskMib
  availableDiskMib := view.telemetry.availableDiskMib
  gpus := devices view.telemetry 0 view.inventory.gpus

def status (view : NodeMergeView) : NodeStatus := match view.availability with
  | .available => .online
  | .degraded => .degraded
  | .draining => .draining
  | .disabled => view.telemetry.status
  | .offline | .stale => .offline

def toNode (view : NodeMergeView) : Except NodeStateError Node := do
  view.config.validate
  view.inventory.validate
  view.telemetry.validate view.inventory
  return {
    id := view.id
    name := view.config.name
    enabled := view.config.enabled
    transport := view.inventory.transport
    os := view.inventory.os
    arch := view.inventory.arch
    status := view.status
    capabilities := view.inventory.capabilities
    resources := view.resources
    load := view.telemetry.load
    priority := view.config.priority
    labels := view.config.labels
    cachedSources := view.telemetry.cachedSources
    lastSeenAt := some view.receivedAt }

end NodeMergeView

/-! ### The inventory document -/

namespace Encode

def transport : NodeTransport → Json
  | .local_ => .obj [("type", .str "local")]
  | .managed endpoint credentialRef =>
    .obj [("type", .str "managed"), ("endpoint", .str endpoint), ("credentialRef", .str credentialRef)]
  | .ssh host port username credentialRef =>
    .obj [("type", .str "ssh"), ("host", .str host), ("port", .int port.toNat), ("username", .str username),
      ("credentialRef", .str credentialRef)]

def nullable {α : Type} (encode : α → Json) : Option α → Json
  | none => .null
  | some a => encode a

def gpuInventory (g : GpuInventory) : Json :=
  .obj [("vendor", vendor g.vendor), ("model", .str g.model), ("totalVramMib", u64 g.totalVramMib),
    ("stableId", nullable .str g.stableId), ("driverVersion", nullable .str g.driverVersion)]

def containmentBackend : ContainmentBackend → Json
  | .legacy => .str "legacy"
  | .linuxSubreaperProcessGroup => .str "linux_subreaper_process_group"
  | .macosProcessGroup => .str "macos_process_group"
  | .windowsJobObject => .str "windows_job_object"
  | .unsupported => .str "unsupported"

def hostileIsolationBackend : HostileIsolationBackend → Json
  | .disabled => .str "disabled"
  | .linuxCgroupV2DedicatedIdentity => .str "linux_cgroup_v2_dedicated_identity"
  | .windowsJobObjectExternalGuard => .str "windows_job_object_external_guard"
  | .macosExternalReconciliation => .str "macos_external_reconciliation"
  | .unsupported => .str "unsupported"

def hostileIsolation (h : HostileIsolationInventory) : Json :=
  .obj [("optIn", .bool h.optIn), ("ready", .bool h.ready), ("backend", hostileIsolationBackend h.backend),
    ("dedicatedIdentity", .bool h.dedicatedIdentity), ("externalReconciliation", .bool h.externalReconciliation),
    ("protectedGuardState", .bool h.protectedGuardState), ("workerStateIsolated", .bool h.workerStateIsolated),
    ("reasonCode", nullable .str h.reasonCode)]

def containment (c : ContainmentInventory) : Json :=
  .obj [("backend", containmentBackend c.backend), ("version", .str c.version), ("maxSafeSlots", u32 c.maxSafeSlots),
    ("hostileIsolation", hostileIsolation c.hostileIsolation)]

def stringMap (m : OrdMap String String) : Json := .obj (m.entries.map fun (k, v) => (k, .str v))

def nodeInventory (n : NodeInventory) : Json :=
  .obj [("transport", transport n.transport), ("os", os n.os), ("arch", arch n.arch),
    ("capabilities", strings n.capabilities.elems), ("logicalCpuCores", u32 n.logicalCpuCores),
    ("memoryMib", u64 n.memoryMib), ("diskMib", u64 n.diskMib), ("gpus", .arr (n.gpus.map gpuInventory)),
    ("cpuModel", .str n.cpuModel), ("toolVersions", stringMap n.toolVersions),
    ("workerVersion", .str n.workerVersion), ("protocolVersion", u32 n.protocolVersion),
    ("containment", containment n.containment)]

end Encode

end CYC
