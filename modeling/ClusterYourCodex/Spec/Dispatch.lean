import ClusterYourCodex.Spec.Fleet

/-! Stored jobs and lease maintenance: how a job row is decoded and written, how a plan is bound to a
decision, and the pass `expireLeases` that almost every operation starts with. It releases cleanup
reservations past their deadline, takes expired leases from their runs and places the runs that wait
for a node. -/

namespace CYC

open Checked Relational

/-! ### Job rows -/

structure StoredJob where
  job : JobSpec
  run : Run
  planBinding : Option PlacementPlanBinding
  version : Nat
  cancelRequested : Bool
  leaseId : Option Uuid

/-- The checks of a row's binding against its run. -/
def decodeBinding (job : JobSpec) (run : Run) (binding : PlacementPlanBinding) : StoreResult Unit := do
  (binding.validate (some job) none).mapError fun _ => .invalidPlanBinding
  ensure (run.nodeId.isNone || run.nodeId = some binding.decision.nodeId) .invalidPlanBinding
  ensure (run.nodeId.isSome || run.state = .queued) .invalidPlanBinding

def decodeJobRow (row : JobRow) : StoreResult StoredJob := do
  ensure (row.run.jobId = row.job.id) .invalidPlanBinding
  checkSome row.planBinding (decodeBinding row.job row.run)
  return { job := row.job, run := row.run, planBinding := row.planBinding, version := asU64 row.version,
           cancelRequested := row.cancelRequested, leaseId := row.leaseId }

def getJobByJobId (db : Db) (jobId : Uuid) : StoreResult StoredJob := do
  let row ← required (db.jobs.find fun j => j.jobId = jobId) .notFound
  decodeJobRow row

def getJobByRunId (db : Db) (runId : Uuid) : StoreResult StoredJob := do
  let row ← required (db.jobs.find fun j => j.runId = runId) .notFound
  decodeJobRow row

def getJobPreferJobId (db : Db) (id : Uuid) : StoreResult StoredJob :=
  match getJobByJobId db id with
  | .error .notFound => getJobByRunId db id
  | result => result

/-- The number of a run's latest placement attempt. -/
def Db.latestAttempt (db : Db) (runId : Uuid) : Int :=
  (db.jobPlacementAttempts.rows.filter fun a => a.runId = runId).foldl (fun m a => max m a.attempt) 0

/-- The trigger on `plan_binding`: a replacement must name the run's node and be its latest attempt. -/
def Db.replacementRecorded (db : Db) (row : JobRow) (run : Run) (binding : Option PlacementPlanBinding) : Bool :=
  binding.any fun b => b.apiVersion = placementPlanBindingApiVersion && b.jobId = row.jobId &&
    run.nodeId = some b.decision.nodeId &&
    db.jobPlacementAttempts.any fun a => a.runId = row.runId && a.planBinding = b && a.planId = b.planId &&
      a.nodeId = b.decision.nodeId && a.attempt = db.latestAttempt row.runId

/-- The row that an UPDATE under the version of `stored` writes. -/
def casRow (env : Env) (stored : StoredJob) (row : JobRow) : JobRow :=
  { row with
    run := stored.run
    cancelRequested := stored.cancelRequested
    version := asI64 (satU64 (stored.version + 1))
    updatedAt := env.reading (.updated stored.run.id stored.version)
    planBinding := stored.planBinding }

def updateJobCas (env : Env) (db : Db) (stored : StoredJob) : StoreResult (Db × StoredJob) :=
  match db.jobs.find fun j => j.runId = stored.run.id && j.version = asI64 stored.version with
  | none => match db.jobs.find fun j => j.runId = stored.run.id with
    | none => .error .notFound
    | some row => .error (.versionConflict (asU64 row.version))
  | some row => do
    ensure (row.planBinding = stored.planBinding || db.replacementRecorded row stored.run stored.planBinding) .database
    return ({ db with
      jobs := db.jobs.modify (fun j => j.runId = stored.run.id && j.version = asI64 stored.version)
        (casRow env stored) (fun _ _ => rfl) }, { stored with version := satU64 (stored.version + 1) })

def releaseLease (db : Db) (leaseId : Option Uuid) (now : Int) : StoreResult (Db × Bool) :=
  match leaseId with
  | none => .ok (db, false)
  | some leaseId =>
    if db.leases.any fun l => l.id = leaseId && l.releasedAt.isNone then do
      let db ← Db.incrementFleetRevision { db with
        leases := db.leases.modify (fun l => l.id = leaseId && l.releasedAt.isNone)
          (fun l => { l with releasedAt := some now }) (fun _ _ => rfl) }
      return (db, true)
    else .ok (db, false)

def revokeClaims (db : Db) (runId : Uuid) (now : Int) : Db :=
  { db with
    workerClaims := db.workerClaims.modify (fun c => c.runId = runId && c.revokedAt.isNone)
      (fun c => { c with revokedAt := some now }) (fun _ _ => rfl) }

/-! ### Plans -/

structure StoredPlan where
  binding : PlacementPlanBinding
  usedAt : Option DateTime

def newPlanBinding (planId : Uuid) (job : JobSpec) (jobDigest : String) (decision : PlacementPlanDecision)
    (createdAt : DateTime) (fleetRevision nodeRevision policyRevision : Int) : StoreResult PlacementPlanBinding := do
  let binding : PlacementPlanBinding :=
    { apiVersion := placementPlanBindingApiVersion, planId, jobId := job.id, jobDigest, createdAt,
      expiresAt := createdAt.addSeconds planTtlSeconds, fleetRevision, nodeRevision, policyRevision, decision }
  (binding.validate (some job) (some createdAt)).mapError fun _ => .invalidPlanBinding
  return binding

def insertPlanTx (db : Db) (binding : PlacementPlanBinding) (usedAt : Option DateTime) : StoreResult Db := do
  (binding.validate none none).mapError fun _ => .invalidPlanBinding
  let plans ← inserted db.plans
    { id := binding.planId, jobId := binding.jobId, decision := binding.decision,
      createdAt := binding.createdAt.timestamp, jobDigest := binding.jobDigest,
      expiresAt := binding.expiresAt.timestamp, fleetRevision := binding.fleetRevision,
      nodeRevision := binding.nodeRevision, policyRevision := binding.policyRevision,
      usedAt := usedAt.map DateTime.timestamp }
  return { db with plans }

def insertPlacementAttemptTx (db : Db) (runId : Uuid) (binding : PlacementPlanBinding)
    (reason : PlacementAttemptReason) : StoreResult Db := do
  (binding.validate none none).mapError fun _ => .invalidPlanBinding
  let row ← required (db.jobs.find fun j => j.runId = runId) .notFound
  ensure (row.jobId = binding.jobId) .invalidPlanBinding
  let attempt := db.latestAttempt runId + 1
  ensure (0 ≤ attempt) .invalidPlanBinding
  let attempts ← inserted db.jobPlacementAttempts
    { runId, attempt := asI64 (asU64 attempt), planId := binding.planId, nodeId := binding.decision.nodeId,
      planBinding := binding, reason, createdAt := binding.createdAt.timestamp }
  return { db with jobPlacementAttempts := attempts }

def getPlan (db : Db) (planId : Uuid) : StoreResult StoredPlan := do
  let row ← required (db.plans.find fun p => p.id = planId) .notFound
  let createdAt ← timestamp row.createdAt
  let expiresAt ← timestamp row.expiresAt
  let binding : PlacementPlanBinding :=
    { apiVersion := placementPlanBindingApiVersion, planId, jobId := row.jobId, jobDigest := row.jobDigest,
      decision := row.decision, createdAt, expiresAt, fleetRevision := row.fleetRevision,
      nodeRevision := row.nodeRevision, policyRevision := row.policyRevision }
  (binding.validate none none).mapError fun _ => .invalidPlanBinding
  let usedAt ← optionalTimestamp row.usedAt
  return { binding, usedAt }

/-! ### Completion and cleanup rows -/

structure StoredCompletion where
  completion : RunCompletion
  sha256 : String
  createdAt : DateTime

structure StoredCleanup where
  receipt : CleanupReceipt
  receivedAt : DateTime

structure CleanupFailure where
  code : CleanupFailureCode
  observedAt : DateTime

structure StoredCleanupObligation where
  jobId : Uuid
  runId : Uuid
  leaseId : Uuid
  stateVersion : Nat
  finalState : JobState
  completionSha256 : String
  terminalAcknowledgedAt : DateTime
  cleanupDeadlineAt : DateTime
  reservationReleasedAt : Option DateTime
  releaseReason : Option CleanupReleaseReason
  cleanupFailure : Option CleanupFailure

def getCompletionTx (db : Db) (runId : Uuid) : StoreResult (Option StoredCompletion) :=
  match db.runCompletions.find fun c => c.runId = runId with
  | none => .ok none
  | some row => do
    let createdAt ← timestamp row.createdAt
    return some { completion := row.document, sha256 := row.documentSha256, createdAt }

def getCleanupTx (db : Db) (runId : Uuid) : StoreResult (Option StoredCleanup) :=
  match db.runCleanups.find fun c => c.runId = runId with
  | none => .ok none
  | some row => do
    let receivedAt ← timestamp row.receivedAt
    return some { receipt := row.document, receivedAt }

def cleanupFailure (code : Option CleanupFailureCode) (observedAt : Option DateTime) :
    StoreResult (Option CleanupFailure) :=
  match code, observedAt with
  | some code, some observedAt => .ok (some { code, observedAt })
  | none, none => .ok none
  | _, _ => .error .invalidRunEvidence

def decodeObligation (row : CleanupObligationRow) : StoreResult StoredCleanupObligation := do
  let observedAt ← optionalTimestamp row.failureObservedAt
  let cleanupFailure ← cleanupFailure row.cleanupFailureCode observedAt
  let terminalAcknowledgedAt ← timestamp row.terminalAcknowledgedAt
  let cleanupDeadlineAt ← timestamp row.cleanupDeadlineAt
  let reservationReleasedAt ← optionalTimestamp row.reservationReleasedAt
  return { jobId := row.jobId, runId := row.runId, leaseId := row.leaseId, stateVersion := asU64 row.stateVersion,
           finalState := row.finalState, completionSha256 := row.completionSha256, terminalAcknowledgedAt,
           cleanupDeadlineAt, reservationReleasedAt, releaseReason := row.releaseReason, cleanupFailure }

def getCleanupObligationTx (db : Db) (runId : Uuid) : StoreResult (Option StoredCleanupObligation) :=
  match db.runCleanupObligations.find fun o => o.runId = runId with
  | none => .ok none
  | some row => do
    let obligation ← decodeObligation row
    return some obligation

/-! ### Cleanup deadlines -/

/-- Rows in the order of two columns. -/
def orderedBy {α β γ : Type} [LinearOrder β] [LinearOrder γ] (major : α → β) (minor : α → γ) (rows : List α) :
    List α :=
  rows.insertionSort fun a b => major a < major b ∨ (major a = major b ∧ minor a ≤ minor b)

/-- Jobs in the order of their creation. -/
abbrev JobRow.inOrder : List JobRow → List JobRow := orderedBy (fun j => j.createdAt.toRfc3339) fun j => j.runId.value.toNat

/-- The stored rows agree that the run is terminal and that its lease waits for cleanup. -/
def provenTerminal (obligation : StoredCleanupObligation) (stored : StoredJob) (completion : StoredCompletion)
    (lease : Option LeaseRow) : Bool :=
  stored.run.state.isTerminal && stored.job.id = obligation.jobId && stored.run.id = obligation.runId &&
    stored.leaseId = some obligation.leaseId && stored.version = obligation.stateVersion &&
    stored.run.state = obligation.finalState && completion.sha256 = obligation.completionSha256 &&
    completion.createdAt = obligation.terminalAcknowledgedAt &&
    lease.any fun l => l.runId = obligation.runId && l.jobId = obligation.jobId && l.phase = .cleanupPending

/-- The UPDATE for an obligation whose evidence does not match: it stays unreleased. -/
def recordDeadlineFailure (db : Db) (runId : Uuid) (now : Int) : Db :=
  { db with
    runCleanupObligations := db.runCleanupObligations.modify
      (fun o => o.runId = runId && o.reservationReleasedAt.isNone)
      (fun o => { o with
        cleanupFailureCode := o.cleanupFailureCode.or (some .removedReceiptDeadlineExceeded)
        failureObservedAt := o.failureObservedAt.or (some now) }) (fun _ _ => rfl) }

/-- The obligation that deadline recovery releases. -/
def deadlineReached (obligation : StoredCleanupObligation) (now : Int) (o : CleanupObligationRow) : Bool :=
  o.runId = obligation.runId && o.leaseId = obligation.leaseId && o.reservationReleasedAt.isNone &&
    o.cleanupDeadlineAt ≤ now

/-- Releases a reservation past its deadline. -/
def recoverDeadline (db : Db) (obligation : StoredCleanupObligation) (now : Int) : StoreResult (Db × Nat) :=
  if (db.runCleanupObligations.rows.countP (deadlineReached obligation now)) ≠ 1 then .ok (db, 0)
  else do
    let (db, _) ← releaseLease { db with
      runCleanupObligations := db.runCleanupObligations.modify (deadlineReached obligation now)
        (fun o => { o with
          reservationReleasedAt := some now, releaseReason := some .deadlineRecovery,
          cleanupFailureCode := some .removedReceiptDeadlineExceeded, failureObservedAt := some now })
        (fun _ _ => rfl) } (some obligation.leaseId) now
    return (db, 1)

def reapReservation (now : Int) (state : Db × Nat) (runId : Uuid) : StoreResult (Db × Nat) := do
  let (db, reaped) := state
  let obligation ← required (← getCleanupObligationTx db runId) .invalidRunEvidence
  let stored ← getJobByRunId db runId
  let completion ← required (← getCompletionTx db runId) .invalidRunEvidence
  let lease := db.leases.find fun l => l.id = obligation.leaseId && l.releasedAt.isNone
  if !provenTerminal obligation stored completion lease then return (recordDeadlineFailure db runId now, reaped)
  else do
    let (db, n) ← recoverDeadline db obligation now
    return (db, satU64 (reaped + n))

def reapExpiredCleanupReservationsTx (db : Db) (now : Int) : StoreResult (Db × Nat) :=
  let due := db.runCleanupObligations.rows.filter fun o => o.reservationReleasedAt.isNone && o.cleanupDeadlineAt ≤ now
  ((orderedBy CleanupObligationRow.cleanupDeadlineAt (fun o => o.runId.value.toNat) due).map
    CleanupObligationRow.runId).foldlM (reapReservation now) (db, 0)

/-! ### Redispatch -/

/-- A queued run that no live lease holds, as the pass selects it. -/
def Db.unleased (db : Db) (now : Int) (j : JobRow) : Bool :=
  !j.cancelRequested &&
    match db.leases.find fun l => some l.id = j.leaseId with
    | none => true
    | some l => l.releasedAt.isSome || l.expiresAt ≤ now

/-- The lease columns of a dispatch. -/
def rearmLease (decision : PlacementPlanDecision) (resources : ResourceRequest) (gpuRequested : Bool) (now : Int)
    (l : LeaseRow) : LeaseRow :=
  { l with
    nodeId := decision.nodeId
    cpuCores := resources.cpuCores.toNat
    memoryMib := asI64 resources.memoryMib.toNat
    diskMib := asI64 resources.diskMib.toNat
    gpuReserved := if gpuRequested then 1 else 0
    slots := resources.slots.toNat
    phase := .dispatch
    expiresAt := satI64 (now + dispatchTtlSeconds)
    releasedAt := none }

def insertGpuReservation (table : Table LeaseGpuRow) (leaseId : Uuid)
    (reservation : Option (String × GpuResourceRequest)) : StoreResult (Table LeaseGpuRow) :=
  match reservation with
  | none => .ok table
  | some (deviceId, request) =>
    inserted table { leaseId, deviceId, vramMib := asI64 request.vramMib.toNat, exclusive := request.exclusive }

/-- The lease of a run that can be armed again. -/
def rearmable (leaseId runId : Uuid) (now : Int) (l : LeaseRow) : Bool :=
  l.id = leaseId && l.runId = runId && (l.releasedAt.isSome || l.expiresAt ≤ now)

/-- Binds the run to a new decision: plan, attempt, lease, GPU and job row. -/
def redispatchRun (env : Env) (pass : Nat) (now : Int) (observedAt : DateTime) (db : Db) (stored : StoredJob)
    (leaseId : Uuid) (nodes : List SchedulingNodeRecord) (decision : PlacementPlanDecision) : StoreResult Db := do
  let record ← required (nodes.find? fun r => r.scheduling.node.id = decision.nodeId) .planStale
  let binding ← newPlanBinding (env.newV4 (.replan pass stored.run.id)) stored.job (canonicalJobDigest stored.job)
    decision observedAt db.fleetRevision record.revision db.policyRevision
  let db ← insertPlanTx db binding (some observedAt)
  let db ← insertPlacementAttemptTx db stored.run.id binding .dispatchLeaseExpired
  let gpuRequest := effectiveGpuRequest stored.job
  let gpuReservation ← selectGpuReservation nodes decision.nodeId gpuRequest
  ensure (db.leases.rows.countP (rearmable leaseId stored.run.id now) = 1) .invalidTransition
  let leases := db.leases.modify (rearmable leaseId stored.run.id now)
    (rearmLease decision stored.job.effectiveResourceRequest gpuRequest.isSome now) (fun _ _ => rfl)
  let gpus ← insertGpuReservation (db.leaseGpuReservations.delete fun g => g.leaseId = leaseId) leaseId gpuReservation
  let (db, _) ← updateJobCas env { db with leases, leaseGpuReservations := gpus } { stored with
    run := { stored.run with nodeId := some decision.nodeId, placement := some decision.explanation }
    planBinding := some binding }
  return db

/-- A queued run with no eligible node keeps the explanation instead of a node. -/
def recordNoEligibleNodes (env : Env) (db : Db) (stored : StoredJob) (explanation : PlacementExplain) : StoreResult Db :=
  if stored.run.nodeId.isSome || stored.run.placement ≠ some explanation then do
    let (db, _) ← updateJobCas env db { stored with
      run := { stored.run with nodeId := none, placement := some explanation } }
    return db
  else .ok db

/-- One row of the pass; the flag says whether a reservation was armed again. -/
def redispatchJob (env : Env) (pass : Nat) (now : Int) (scheduler : Scheduler) (state : Db × Bool) (row : JobRow) :
    StoreResult (Db × Bool) := do
  let (db, reactivated) := state
  let stored ← decodeJobRow row
  if stored.run.state ≠ .queued then return (db, reactivated)
  else match stored.leaseId with
    | none => return (db, reactivated)
    | some leaseId => do
      let observedAt ← timestamp now
      let nodes ← freshAvailableNodes db observedAt
      match scheduler.scheduleContextsAt stored.job (nodes.map SchedulingNodeRecord.scheduling) observedAt with
      | .error (.noEligibleNodes explanation) => do
        let db ← recordNoEligibleNodes env db stored explanation
        return (db, reactivated)
      | .error error => .error (.schedule error)
      | .ok decision => do
        let db ← redispatchRun env pass now observedAt db stored leaseId nodes decision
        return (db, true)

def redispatchQueuedJobs (env : Env) (pass : Nat) (db : Db) (now : Int) (scheduler : Scheduler) : StoreResult Db := do
  let rows := JobRow.inOrder (db.jobs.rows.filter (db.unleased now))
  let (db, reactivated) ← rows.foldlM (redispatchJob env pass now scheduler) (db, false)
  incrementWhen reactivated db

/-! ### Expired leases -/

def leaseExpiredMessage : String := "worker execution lease expired before completion"

/-- A dispatch that no worker took up: the run waits for another node. -/
def requeueRun (stored : StoredJob) : StoredJob :=
  { stored with run := { stored.run with nodeId := none, placement := none } }

/-- An execution whose worker went silent: the run fails. -/
def failRun (env : Env) (stored : StoredJob) : StoreResult StoredJob := do
  let run ← (stored.run.transition .failed (env.reading (.transition stored.run.id))).mapError fun _ => .invalidTransition
  let run := { run with exitCode := none, error := some leaseExpiredMessage }
  run.validate.mapError fun _ => .invalidRunEvidence
  return { stored with run }

/-- What the expiry of a lease does to its run. -/
def expireRun (env : Env) (db : Db) (lease : LeaseRow) : StoreResult Db :=
  match getJobByRunId db lease.runId with
  | .error .notFound => .ok db
  | .error error => .error error
  | .ok stored =>
    if lease.phase = .dispatch ∧ stored.run.state = .queued then do
      let (db, _) ← updateJobCas env db (requeueRun stored)
      return db
    else if !stored.run.state.isTerminal then do
      let stored ← failRun env stored
      let (db, _) ← updateJobCas env db stored
      return db
    else .ok db

def expireLease (env : Env) (now : Int) (state : Db × Nat) (lease : LeaseRow) : StoreResult (Db × Nat) := do
  let (db, count) := state
  let db ← expireRun env db lease
  let (db, _) ← releaseLease (revokeClaims db lease.runId now) (some lease.id) now
  return (db, satU64 (count + 1))

/-- A lease whose holder has missed its deadline. -/
def LeaseRow.expiredAt (now : Int) (l : LeaseRow) : Bool :=
  l.releasedAt.isNone && l.expiresAt ≤ now && l.phase ≠ .cleanupPending

def expireLeases (env : Env) (db : Db) (now : Int) : StoreResult (Db × Nat) := do
  let (db, count) ← reapExpiredCleanupReservationsTx db now
  let expired := orderedBy LeaseRow.expiresAt (fun l => l.id.value.toNat) (db.leases.rows.filter (LeaseRow.expiredAt now))
  let (db, count) ← expired.foldlM (expireLease env now) (db, count)
  let db ← redispatchQueuedJobs env 0 db now .default
  return (db, count)

end CYC
