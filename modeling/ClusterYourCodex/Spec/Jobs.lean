import ClusterYourCodex.Spec.Dispatch

/-! The operations on jobs: planning, submission, the worker's claim, heartbeat and transitions,
cancellation, reading, and the node report, which ends with a redispatch of its own. Each is one
transaction: it takes the database and returns the one to commit, or an error. -/

namespace CYC

open Checked Relational

/-- The clock at the resolution of the plan columns. -/
def Env.second (env : Env) : StoreResult DateTime := timestamp env.now.timestamp

def Scheduler.scheduleContexts (scheduler : Scheduler) (env : Env) (job : JobSpec) (nodes : List SchedulingNodeRecord) :
    StoreResult PlacementPlanDecision :=
  (scheduler.scheduleContextsAt job (nodes.map SchedulingNodeRecord.scheduling) (env.reading .schedule)).mapError .schedule

def revisionOf (nodes : List SchedulingNodeRecord) (nodeId : Uuid) : StoreResult Int := do
  let record ← required (nodes.find? fun r => r.scheduling.node.id = nodeId) .planStale
  return record.revision

/-! ### Plans -/

def createPlan (env : Env) (db : Db) (job : JobSpec) (scheduler : Scheduler) : StoreResult (Db × StoredPlan) := do
  job.validate.mapError fun e => .schedule (.invalidJob e)
  let job := normalizeJobSpec job
  let digest := canonicalJobDigest job
  let now ← env.second
  let (db, _) ← expireLeases env db now.timestamp
  let nodes ← freshAvailableNodes db now
  let decision ← scheduler.scheduleContexts env job nodes
  let nodeRevision ← revisionOf nodes decision.nodeId
  let binding ← newPlanBinding (env.newV4 .plan) job digest decision now db.fleetRevision nodeRevision db.policyRevision
  let db ← insertPlanTx db binding none
  return (db, { binding, usedAt := none })

/-! ### Submission -/

/-- A plan of an earlier call: it must still describe the job, the fleet and the scheduler's choice. -/
def acceptPlan (env : Env) (db : Db) (job : JobSpec) (digest : String) (now : DateTime) (planId : Uuid)
    (nodes : List SchedulingNodeRecord) (scheduler : Scheduler) :
    StoreResult (PlacementPlanDecision × PlacementPlanBinding) := do
  let plan ← getPlan db planId
  ensure (plan.binding.jobId = job.id && plan.binding.jobDigest = digest) .planDigestMismatch
  ensure plan.usedAt.isNone .planStale
  ensure (now.nanos < plan.binding.expiresAt.nanos) .planExpired
  (plan.binding.validate (some job) (some now)).mapError fun _ => .invalidPlanBinding
  ensure (plan.binding.fleetRevision = db.fleetRevision && plan.binding.policyRevision = db.policyRevision) .planStale
  let nodeRevision ← revisionOf nodes plan.binding.decision.nodeId
  ensure (nodeRevision = plan.binding.nodeRevision) .planStale
  let refreshed ← scheduler.scheduleContexts env job nodes
  ensure (refreshed.nodeId = plan.binding.decision.nodeId) .planStale
  return (refreshed, plan.binding)

/-- A submission without a plan makes one, already used. -/
def planSubmission (env : Env) (db : Db) (job : JobSpec) (digest : String) (now : DateTime)
    (nodes : List SchedulingNodeRecord) (scheduler : Scheduler) :
    StoreResult (Db × PlacementPlanDecision × PlacementPlanBinding) := do
  let decision ← scheduler.scheduleContexts env job nodes
  let nodeRevision ← revisionOf nodes decision.nodeId
  let binding ← newPlanBinding (env.newV4 .plan) job digest decision now db.fleetRevision nodeRevision db.policyRevision
  let db ← insertPlanTx db binding (some now)
  return (db, decision, binding)

def placeSubmission (env : Env) (db : Db) (job : JobSpec) (digest : String) (now : DateTime) (planId : Option Uuid)
    (nodes : List SchedulingNodeRecord) (scheduler : Scheduler) :
    StoreResult (Db × PlacementPlanDecision × PlacementPlanBinding) :=
  match planId with
  | none => planSubmission env db job digest now nodes scheduler
  | some planId => do
    let (decision, binding) ← acceptPlan env db job digest now planId nodes scheduler
    return (db, decision, binding)

/-- A job or a run has the identifier. -/
def Db.occupied (db : Db) (id : Uuid) : Bool := db.jobs.any fun j => j.jobId = id || j.runId = id

def uniqueQueuedRun (env : Env) (db : Db) (jobId : Uuid) : StoreResult Run :=
  required ((List.range 16).findSome? fun attempt =>
    let id := env.newV4 (.run attempt)
    if id = jobId || db.occupied id then none else some (Run.queued id jobId (env.reading (.created attempt)))) .conflict

/-- The lease of a first dispatch. -/
def newLease (id runId jobId : Uuid) (decision : PlacementPlanDecision) (resources : ResourceRequest)
    (gpuRequested : Bool) (now : Int) : LeaseRow where
  id := id
  runId := runId
  jobId := jobId
  nodeId := decision.nodeId
  cpuCores := resources.cpuCores.toNat
  memoryMib := asI64 resources.memoryMib.toNat
  diskMib := asI64 resources.diskMib.toNat
  gpuReserved := if gpuRequested then 1 else 0
  slots := resources.slots.toNat
  phase := .dispatch
  createdAt := now
  expiresAt := satI64 (now + dispatchTtlSeconds)
  releasedAt := none

/-- INSERT of a job, with the trigger that refuses an unbound one. -/
def insertJob (db : Db) (row : JobRow) : StoreResult Db := do
  ensure (row.planBinding.any fun b => b.apiVersion = placementPlanBindingApiVersion && b.jobId = row.jobId &&
    row.run.nodeId = some b.decision.nodeId) .database
  let jobs ← inserted db.jobs row
  return { db with jobs }

def markPlanUsed (db : Db) (planId : Option Uuid) (now : Int) : StoreResult Db :=
  match planId with
  | none => .ok db
  | some planId => do
    ensure (db.plans.rows.countP (fun p => p.id = planId && p.usedAt.isNone) = 1) .planStale
    return { db with
      plans := db.plans.modify (fun p => p.id = planId && p.usedAt.isNone) (fun p => { p with usedAt := some now })
        (fun _ _ => rfl) }

/-- The rows of a new run: lease, GPU reservation, job and first placement attempt. -/
def insertRun (db : Db) (lease : LeaseRow) (gpuReservation : Option (String × GpuResourceRequest)) (row : JobRow)
    (binding : PlacementPlanBinding) : StoreResult Db := do
  let leases ← inserted db.leases lease
  let gpus ← insertGpuReservation db.leaseGpuReservations lease.id gpuReservation
  let db ← insertJob { db with leases, leaseGpuReservations := gpus } row
  insertPlacementAttemptTx db row.runId binding .initialDispatch

def submitJob (env : Env) (db : Db) (job : JobSpec) (planId : Option Uuid) (scheduler : Scheduler) :
    StoreResult (Db × StoredJob) := do
  job.validate.mapError fun e => .schedule (.invalidJob e)
  let job := normalizeJobSpec job
  let digest := canonicalJobDigest job
  let now ← env.second
  ensure (!db.occupied job.id) .conflict
  let (db, _) ← expireLeases env db now.timestamp
  let nodes ← freshAvailableNodes db now
  let (db, decision, binding) ← placeSubmission env db job digest now planId nodes scheduler
  let run ← uniqueQueuedRun env db job.id
  let run := { run with nodeId := some decision.nodeId, placement := some decision.explanation }
  let leaseId := env.newV4 .lease
  let gpuRequest := effectiveGpuRequest job
  let gpuReservation ← selectGpuReservation nodes decision.nodeId gpuRequest
  let lease := newLease leaseId run.id job.id decision job.effectiveResourceRequest gpuRequest.isSome now.timestamp
  let row : JobRow :=
    { runId := run.id, jobId := job.id, job, run, createdAt := now, updatedAt := now, version := 0,
      cancelRequested := false, leaseId := some leaseId, planBinding := some binding }
  let db ← insertRun db lease gpuReservation row binding
  let db ← markPlanUsed db planId now.timestamp
  let db ← db.incrementFleetRevision
  return (db, { job, run, planBinding := some binding, version := 0, cancelRequested := false, leaseId := some leaseId })

/-! ### The worker's side of a run -/

structure WorkerClaim where
  stored : StoredJob
  jobDigest : String
  leaseId : Uuid
  leaseUntil : DateTime
  runCredential : String

/-- The queued run becomes the worker's: claim, run secret and execution lease. -/
def claimRun (env : Env) (db : Db) (nodeId : Uuid) (stored : StoredJob) : StoreResult (Db × WorkerClaim) := do
  ensure (!stored.cancelRequested) .cancellationPending
  ensure (stored.planBinding.all fun b => b.decision.nodeId = nodeId) .invalidPlanBinding
  let leaseId ← required stored.leaseId .invalidTransition
  let run ← (stored.run.transition .preparing (env.reading (.transition stored.run.id))).mapError fun _ =>
    .invalidTransition
  let (db, stored) ← updateJobCas env db { stored with run }
  let runCredential := env.randomSecret
  let expiresAt := env.now.addSeconds claimTtlSeconds
  let claims ← inserted db.workerClaims
    { runId := stored.run.id, nodeId, leaseId, credentialHash := secretHash runCredential,
      createdAt := env.now.timestamp, expiresAt := expiresAt.timestamp, revokedAt := none }
  let takes : LeaseRow → Bool := fun l => l.id = leaseId && l.runId = stored.run.id && l.releasedAt.isNone &&
    (l.phase = .dispatch || l.phase = .legacy)
  ensure (db.leases.rows.countP takes = 1) .invalidTransition
  let leases := db.leases.modify takes
    (fun l => { l with expiresAt := expiresAt.timestamp, phase := .execution }) (fun _ _ => rfl)
  return ({ db with workerClaims := claims, leases },
    { stored, jobDigest := canonicalJobDigest stored.job, leaseId, leaseUntil := expiresAt, runCredential })

def claimJob (env : Env) (db : Db) (workerCredential : String) (observedNode : Node) :
    StoreResult (Db × Option WorkerClaim) := do
  let now := env.now.timestamp
  let (db, _) ← expireLeases env db now
  let (db, nodeId) ← authenticateWorkerTx db workerCredential now
  ensure (nodeId = observedNode.id) .workerUnauthorized
  let db ← upsertLegacyProbeTx env db observedNode
  let rows := db.jobs.rows.filter fun j => db.leases.any fun l =>
    l.runId = j.runId && l.nodeId = nodeId && l.releasedAt.isNone && now < l.expiresAt
  let jobs ← collect decodeJobRow (JobRow.inOrder rows)
  match jobs.find? fun stored => stored.run.state = .queued with
  | none => return (db, none)
  | some stored => do
    let (db, claim) ← claimRun env db nodeId stored
    return (db, some claim)

/-- The claim row of a run, lease and secret. -/
def Db.claimOf (db : Db) (runId leaseId : Uuid) (runCredential : String) : Option WorkerClaimRow :=
  db.workerClaims.find fun c => c.runId = runId && c.leaseId = leaseId && c.credentialHash = secretHash runCredential

/-- The lease lets its worker act at `now`. -/
def LeaseRow.executingAt (now : Int) (l : LeaseRow) : Bool :=
  l.releasedAt.isNone && now < l.expiresAt && (l.phase = .execution || l.phase = .legacy)

def authorizeRunTx (db : Db) (workerCredential runCredential : String) (runId leaseId : Uuid) (now : Int) :
    StoreResult (Db × Uuid) := do
  let (db, nodeId) ← authenticateWorkerTx db workerCredential now
  let claim ← required ((db.claimOf runId leaseId runCredential).filter fun c =>
    c.revokedAt.isNone && now < c.expiresAt &&
      db.leases.any fun l => l.id = leaseId && l.runId = runId && l.executingAt now) .runUnauthorized
  ensure (claim.nodeId = nodeId) .runUnauthorized
  return (db, nodeId)

def authorizeCompletionReceiptTx (db : Db) (workerCredential runCredential : String) (runId leaseId : Uuid)
    (now : Int) : StoreResult (Db × Uuid) := do
  let (db, nodeId) ← authenticateWorkerTx db workerCredential now
  let claim ← required (db.claimOf runId leaseId runCredential) .runUnauthorized
  ensure (claim.nodeId = nodeId) .runUnauthorized
  return (db, nodeId)

def workerStateConflict (stored : StoredJob) : StoreError :=
  .workerStateConflict stored.version stored.cancelRequested stored.run.state

structure WorkerHeartbeat where
  stored : StoredJob
  leaseId : Uuid
  leaseUntil : DateTime

/-- The claim and the lease whose deadlines a heartbeat moves. -/
def renewsClaim (runId leaseId : Uuid) (now : Int) (c : WorkerClaimRow) : Bool :=
  c.runId = runId && c.leaseId = leaseId && c.revokedAt.isNone && now < c.expiresAt

def renewsLease (runId leaseId : Uuid) (now : Int) (l : LeaseRow) : Bool :=
  l.id = leaseId && l.runId = runId && l.executingAt now

def workerHeartbeat (env : Env) (db : Db) (workerCredential runCredential : String) (runId leaseId : Uuid)
    (expectedVersion : Nat) (expectedState : JobState) : StoreResult (Db × WorkerHeartbeat) := do
  let now := env.now.timestamp
  let (db, _) ← expireLeases env db now
  let (db, _) ← authorizeRunTx db workerCredential runCredential runId leaseId now
  let stored ← getJobByRunId db runId
  ensure (stored.version = expectedVersion || (stored.cancelRequested && expectedVersion < stored.version))
    (workerStateConflict stored)
  ensure (stored.run.state = expectedState) (workerStateConflict stored)
  ensure (!stored.run.state.isTerminal) (workerStateConflict stored)
  let expiresAt := env.now.addSeconds claimTtlSeconds
  ensure (db.workerClaims.rows.countP (renewsClaim runId leaseId now) = 1 &&
    db.leases.rows.countP (renewsLease runId leaseId now) = 1) .runUnauthorized
  return ({ db with
    workerClaims := db.workerClaims.modify (renewsClaim runId leaseId now)
      (fun c => { c with expiresAt := expiresAt.timestamp }) (fun _ _ => rfl)
    leases := db.leases.modify (renewsLease runId leaseId now)
      (fun l => { l with expiresAt := expiresAt.timestamp }) (fun _ _ => rfl) },
    { stored, leaseId, leaseUntil := expiresAt })

/-- A worker reports an active state; terminal states go through the completion receipt. -/
def workerTransition (env : Env) (db : Db) (workerCredential runCredential : String) (runId leaseId : Uuid)
    (expectedVersion : Nat) (next : JobState) : StoreResult (Db × StoredJob) := do
  ensure (!next.isTerminal && next ≠ .queued) .invalidTransition
  let now := env.now.timestamp
  let (db, _) ← expireLeases env db now
  let (db, _) ← authorizeRunTx db workerCredential runCredential runId leaseId now
  let stored ← getJobByRunId db runId
  ensure (stored.version = expectedVersion) (workerStateConflict stored)
  ensure (!stored.cancelRequested) (workerStateConflict stored)
  let run ← (stored.run.transition next (env.reading (.transition runId))).mapError fun _ => workerStateConflict stored
  run.validate.mapError fun _ => .invalidRunEvidence
  updateJobCas env db { stored with run }

/-! ### The client's side of a run -/

/-- The row a cancellation writes; `none` when the request is already pending. -/
def cancelStored (env : Env) (stored : StoredJob) : StoreResult (Option StoredJob) :=
  match stored.run.state with
  | .queued => do
    let run ← (stored.run.transition .cancelled (env.reading (.transition stored.run.id))).mapError fun _ =>
      .invalidTransition
    return some { stored with run }
  | .preparing | .running | .verifying =>
    if stored.cancelRequested then .ok none else .ok (some { stored with cancelRequested := true })
  | .succeeded | .failed | .cancelled => .error .invalidTransition

/-- A cancelled run gives its lease back. -/
def releaseCancelled (db : Db) (stored : StoredJob) (now : Int) : StoreResult Db :=
  if stored.run.state = .cancelled then do
    let (db, _) ← releaseLease db stored.leaseId now
    return db
  else .ok db

def cancelJob (env : Env) (db : Db) (id : Uuid) (expectedVersion : Option Nat) : StoreResult (Db × StoredJob) := do
  let (db, _) ← expireLeases env db env.now.timestamp
  let stored ← getJobPreferJobId db id
  ensure (expectedVersion.all (stored.version = ·)) (.versionConflict stored.version)
  match ← cancelStored env stored with
  | none => return (db, stored)
  | some stored => do
    stored.run.validate.mapError fun _ => .invalidRunEvidence
    let (db, stored) ← updateJobCas env db stored
    let db ← releaseCancelled db stored (env.reading .released).timestamp
    return (db, stored)

def getJob (env : Env) (db : Db) (id : Uuid) : StoreResult (Db × StoredJob) := do
  let (db, _) ← expireLeases env db env.now.timestamp
  let stored ← getJobPreferJobId db id
  return (db, stored)

def listJobsTx (db : Db) (limit : Nat) : StoreResult (List StoredJob) :=
  collect decodeJobRow ((db.jobs.rows.insertionSort fun a b => b.updatedAt.toRfc3339 ≤ a.updatedAt.toRfc3339).take
    (min limit 500))

def listJobs (env : Env) (db : Db) (limit : Nat) : StoreResult (Db × List StoredJob) := do
  let (db, _) ← expireLeases env db env.now.timestamp
  let jobs ← listJobsTx db limit
  return (db, jobs)

structure CleanupSnapshot where
  stored : StoredJob
  cleanup : Option StoredCleanup
  completion : Option StoredCompletion
  obligation : Option StoredCleanupObligation

def getCleanupSnapshot (env : Env) (db : Db) (id : Uuid) : StoreResult (Db × CleanupSnapshot) := do
  let (db, _) ← expireLeases env db env.now.timestamp
  let stored ← getJobPreferJobId db id
  let cleanup ← getCleanupTx db stored.run.id
  let completion ← getCompletionTx db stored.run.id
  let obligation ← getCleanupObligationTx db stored.run.id
  return (db, { stored, cleanup, completion, obligation })

/-! ### Node reports -/

structure NodeReportOutcome where
  nodeId : Uuid
  accepted : Bool
  inventoryRevision : Int
  inventoryDigest : String
  telemetryBootGeneration : Nat
  telemetryBootId : Uuid
  telemetrySequence : Nat
  receivedAt : DateTime

/-- A report that the stored cursor has overtaken. Generation 0 is the legacy worker, whose retired
boot ids are remembered; from generation 1 on a process is ordered by (generation, sequence). -/
def reportOvertaken (db : Db) (stored : NodeTelemetryRow) (telemetry : NodeTelemetry) : Bool :=
  let previousGeneration := asU64 stored.bootGeneration
  let previousSequence := asU64 stored.sequence
  let generation := telemetry.bootGeneration.toNat
  let sequence := telemetry.sequence.toNat
  if previousGeneration = 0 && generation = 0 then
    (stored.bootId = telemetry.bootId && sequence ≤ previousSequence) ||
      (stored.bootId ≠ telemetry.bootId &&
        db.nodeTelemetryBoots.any fun b => b.nodeId = stored.nodeId && b.bootId = telemetry.bootId)
  else
    generation < previousGeneration ||
      (generation = previousGeneration && (telemetry.bootId ≠ stored.bootId || sequence ≤ previousSequence))

/-- INSERT OR IGNORE of a boot. -/
def rememberBoot (db : Db) (row : NodeTelemetryBootRow) : Table NodeTelemetryBootRow :=
  (db.nodeTelemetryBoots.insert row).getD db.nodeTelemetryBoots

/-- The rows an accepted report writes. -/
def writeReport (db : Db) (nodeId : Uuid) (now : DateTime) (telemetry : NodeTelemetry)
    (inventory : Option (NodeInventory × Int × String)) (document : Node) (nodeRevision : Int) : Db :=
  { db with
    nodeInventories := match inventory with
      | none => db.nodeInventories
      | some (inventory, revision, digest) => db.nodeInventories.modify (fun r => r.nodeId = nodeId)
        (fun r => { r with document := inventory, updatedAt := now, revision, digest,
                           observedAt := telemetry.observedAt }) (fun _ _ => rfl)
    nodeTelemetry := db.nodeTelemetry.modify (fun r => r.nodeId = nodeId)
      (fun r => { r with document := telemetry, receivedAt := now,
                         bootGeneration := asI64 telemetry.bootGeneration.toNat, bootId := telemetry.bootId,
                         sequence := asI64 telemetry.sequence.toNat, observedAt := telemetry.observedAt })
      (fun _ _ => rfl)
    nodeTelemetryBoots := rememberBoot db { nodeId, bootId := telemetry.bootId, firstReceivedAt := now }
    nodes := db.nodes.modify (fun r => r.id = nodeId)
      (fun r => { r with document, updatedAt := now, revision := nodeRevision }) (fun _ _ => rfl) }

/-- Stores a report that is ahead of the cursor. -/
def acceptReport (now : DateTime) (db : Db) (d : NodeDocuments) (report : NodeReportRequest) :
    StoreResult (Db × NodeReportOutcome) := do
  let inventory := report.inventory.getD d.inventory.document
  inventory.validate.mapError .nodeState
  ensure (isManaged inventory.transport) .invalidManagedNode
  (report.telemetry.validate inventory).mapError .nodeState
  let changed := report.inventory.isSome && inventory ≠ d.inventory.document
  let revision := if changed then satI64 (d.inventory.revision + 1) else d.inventory.revision
  let digest := if report.inventory.isSome then inventoryDigest inventory else d.inventory.digest
  let view ← (NodeMergeView.merge d.id d.config.document inventory report.telemetry now now nodeFreshnessTtl).mapError
    .nodeState
  let document ← view.toNode.mapError .nodeState
  let db ← incrementWhen changed (writeReport db d.id now report.telemetry
    (report.inventory.map fun inventory => (inventory, revision, digest)) document
    (if changed then satI64 (d.revision + 1) else d.revision))
  return (db, { nodeId := d.id, accepted := true, inventoryRevision := revision, inventoryDigest := digest,
                telemetryBootGeneration := report.telemetry.bootGeneration.toNat,
                telemetryBootId := report.telemetry.bootId, telemetrySequence := report.telemetry.sequence.toNat,
                receivedAt := now })

/-- The answer to an overtaken report: the stored cursor. -/
def overtakenOutcome (d : NodeDocuments) : NodeReportOutcome where
  nodeId := d.id
  accepted := false
  inventoryRevision := d.inventory.revision
  inventoryDigest := d.inventory.digest
  telemetryBootGeneration := asU64 d.telemetry.bootGeneration
  telemetryBootId := d.telemetry.bootId
  telemetrySequence := asU64 d.telemetry.sequence
  receivedAt := d.telemetry.receivedAt

def recordNodeReport (env : Env) (db : Db) (credential : String) (report : NodeReportRequest) :
    StoreResult (Db × NodeReportOutcome) := do
  report.validate.mapError fun _ => .invalidNodeReport
  let now := env.now.timestamp
  let (db, _) ← expireLeases env db now
  let (db, nodeId) ← authenticateWorkerTx db credential now
  let node ← required (db.nodes.find fun r => r.id = nodeId) .notFound
  let d ← required (db.documents node) .notFound
  if reportOvertaken db d.telemetry report.telemetry then return (db, overtakenOutcome d)
  else do
    let (db, outcome) ← acceptReport env.now db d report
    let db ← redispatchQueuedJobs env 1 db now .default
    return (db, outcome)

end CYC
