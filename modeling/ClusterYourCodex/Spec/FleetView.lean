import ClusterYourCodex.Spec.Jobs

/-! The view of the fleet that the console reads: every node with its three documents, what the
scheduler would see of its resources, the reservations on it and the reasons that keep work away from it. -/

namespace CYC

open Checked Relational

/-! ### Text columns of instants -/

/-- Reads back the instant that a text column holds. -/
def parseRfc3339 (t : DateTime) : StoreResult DateTime := do
  ensure t.plainYear .timestamp
  return t

/-! ### Reservations -/

structure FleetReservationView where
  leaseId : Uuid
  runId : Uuid
  jobId : Uuid
  phase : LeasePhase
  slots : Nat
  cpuCores : Nat
  memoryMib : Nat
  diskMib : Nat
  gpuDeviceId : Option String
  gpuVramMib : Nat
  gpuExclusive : Bool
  expiresAt : DateTime

def fleetReservation (db : Db) (l : LeaseRow) : StoreResult (Uuid × FleetReservationView) := do
  let gpu := db.leaseGpuReservations.find fun g => g.leaseId = l.id
  let expiresAt ← timestamp l.expiresAt
  return (l.nodeId,
    { leaseId := l.id, runId := l.runId, jobId := l.jobId, phase := l.phase, slots := satU32 (asU64 l.slots),
      cpuCores := satU32 (asU64 l.cpuCores), memoryMib := asU64 l.memoryMib, diskMib := asU64 l.diskMib,
      gpuDeviceId := gpu.map LeaseGpuRow.deviceId, gpuVramMib := asU64 ((gpu.map LeaseGpuRow.vramMib).getD 0),
      gpuExclusive := gpu.any LeaseGpuRow.exclusive, expiresAt })

/-- The active leases with the node each is on, by node, creation and identifier. -/
def listFleetReservations (db : Db) (now : Int) : StoreResult (List (Uuid × FleetReservationView)) :=
  collect (fleetReservation db) ((db.leases.rows.filter (LeaseRow.activeAt now)).insertionSort fun a b =>
    a.nodeId.value.toNat < b.nodeId.value.toNat ∨ (a.nodeId = b.nodeId ∧
      (a.createdAt < b.createdAt ∨ (a.createdAt = b.createdAt ∧ a.id.value.toNat ≤ b.id.value.toNat))))

/-! ### Nodes -/

structure FleetDocument (α : Type) where
  document : α
  revision : Option Int
  digest : Option String
  observedAt : DateTime
  receivedAt : DateTime

structure FleetSlotView where
  configured : Nat
  containmentMaxSafe : Nat
  effective : Nat
  reserved : Nat
  available : Nat

structure FleetNodeView where
  nodeId : Uuid
  config : FleetDocument NodeConfig
  inventory : FleetDocument NodeInventory
  telemetry : FleetDocument NodeTelemetry
  availability : NodeAvailability
  availabilityReasons : List String
  effectiveSlots : FleetSlotView
  effectiveResources : NodeResources
  reservations : List FleetReservationView

def availabilityReasons (view : NodeMergeView) : List String := match view.availability with
  | .available => []
  | .degraded => ["worker reports degraded health"]
  | .draining => ["controller or worker is draining new work"]
  | .disabled => ["node is disabled by controller configuration"]
  | .offline => ["worker reports offline"]
  | .stale => ["last accepted telemetry is older than " ++ toString nodeFreshnessSeconds ++ " seconds"]

/-- A reason that is given when a limit is set and exceeded. -/
def exceeds (name unit : String) (value : Int) (maximum : Option Int) : List String :=
  if maximum.any (· < value) then
    [name ++ " " ++ toString value ++ unit ++ " exceeds policy maximum " ++ toString (maximum.getD 0) ++ unit]
  else []

/-- The reasons that come from the policy of the node and the reservations on it, in order. -/
def policyReasons (capacity : CapacityPolicy) (inventory : NodeInventory) (telemetry : NodeTelemetry)
    (slots : FleetSlotView) : List String :=
  (if slots.containmentMaxSafe < slots.configured then
    ["configured slots " ++ toString slots.configured ++ " clamped by containment maxSafeSlots " ++
      toString slots.containmentMaxSafe]
  else []) ++
  (if 0 < slots.reserved then [toString slots.reserved ++ " execution slots reserved"] else []) ++
  (if telemetry.powerSource = .battery && !capacity.allowOnBattery then ["battery power is disallowed by policy"]
  else []) ++
  exceeds "CPU" "%" telemetry.load.cpuPercent.toNat (capacity.maxCpuPercent.map fun p => p.toNat) ++
  exceeds "CPU EWMA" "%" telemetry.cpuEwmaPercent.toNat (capacity.maxCpuEwmaPercent.map fun p => p.toNat) ++
  exceeds "memory use" "%" (memoryUsedPercent inventory telemetry).toNat
    (capacity.maxMemoryPercent.map fun p => p.toNat) ++
  (match telemetry.temperatureC with
  | none => []
  | some t => exceeds "temperature" " C" t.toInt (capacity.maxTemperatureC.map Int16.toInt)) ++
  (if slots.effective ≤ slots.reserved then ["no effective execution slots remain"] else [])

/-- The resources of a node that has none to show. -/
def NodeResources.none : NodeResources where
  logicalCpuCores := 0
  availableCpuCores := 0
  memoryMib := 0
  availableMemoryMib := 0
  diskMib := 0
  availableDiskMib := 0
  gpus := []

def effectiveResources (scheduling : List SchedulingNodeRecord) (nodeId : Uuid) (view : NodeMergeView) : NodeResources :=
  match scheduling.find? fun r => r.scheduling.node.id = nodeId with
  | some record => record.scheduling.node.resources
  | none => match view.toNode with
    | .ok node => node.resources
    | .error _ => .none

def fleetSlots (capacity : CapacityPolicy) (inventory : NodeInventory) (reservations : List FleetReservationView) :
    FleetSlotView :=
  let configured := capacity.maxConcurrentJobs.toNat
  let containmentMaxSafe := inventory.containment.maxSafeSlots.toNat
  let effective := min configured containmentMaxSafe
  let reserved := reservations.foldl (fun total r => satU32 (total + r.slots)) 0
  { configured, containmentMaxSafe, effective, reserved, available := effective - reserved }

/-- One row of the view. -/
def fleetNodeView (scheduling : List SchedulingNodeRecord) (reservations : List (Uuid × FleetReservationView))
    (now : DateTime) (d : NodeDocuments) : StoreResult FleetNodeView := do
  let receivedAt ← parseRfc3339 d.telemetry.receivedAt
  let merged ← (NodeMergeView.merge d.id d.config.document d.inventory.document d.telemetry.document receivedAt now
    nodeFreshnessTtl).mapError .nodeState
  let nodeReservations := (reservations.filter fun r => r.1 = d.id).map Prod.snd
  let capacity ← effectiveCapacityPolicy d.config.document
  let slots := fleetSlots capacity d.inventory.document nodeReservations
  let configured ← parseRfc3339 d.config.updatedAt
  let inventoried ← parseRfc3339 d.inventory.observedAt
  let inventoryReceived ← parseRfc3339 d.inventory.updatedAt
  let observed ← parseRfc3339 d.telemetry.observedAt
  return {
    nodeId := d.id
    config := { document := d.config.document, revision := some d.config.revision, digest := .none,
                observedAt := configured, receivedAt := configured }
    inventory := { document := d.inventory.document, revision := some d.inventory.revision,
                   digest := some d.inventory.digest, observedAt := inventoried, receivedAt := inventoryReceived }
    telemetry := { document := d.telemetry.document, revision := .none, digest := .none, observedAt := observed,
                   receivedAt }
    availability := merged.availability
    availabilityReasons := availabilityReasons merged ++
      policyReasons capacity d.inventory.document d.telemetry.document slots
    effectiveSlots := slots
    effectiveResources := effectiveResources scheduling d.id merged
    reservations := nodeReservations }

/-- Every node with its documents, the latest heard first. -/
def Db.allDocuments (db : Db) : List NodeDocuments :=
  (db.nodes.rows.filterMap db.documents).insertionSort fun a b =>
    b.telemetry.receivedAt.toRfc3339 < a.telemetry.receivedAt.toRfc3339 ∨
      (b.telemetry.receivedAt.toRfc3339 = a.telemetry.receivedAt.toRfc3339 ∧ a.id.value.toNat ≤ b.id.value.toNat)

def listFleetNodeViewsTx (db : Db) (now : DateTime) : StoreResult (List FleetNodeView) := do
  let scheduling ← freshAvailableNodes db now
  let reservations ← listFleetReservations db now.timestamp
  collect (fleetNodeView scheduling reservations now) db.allDocuments

end CYC
