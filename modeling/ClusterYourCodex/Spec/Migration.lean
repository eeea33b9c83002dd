import ClusterYourCodex.Spec.FleetView
import ClusterYourCodex.Spec.System

/-! Reopening the database. The schema is that of the running code, so adding tables and columns does nothing;
the backfills for rows of older versions run nevertheless, each time. -/

namespace CYC

open Checked Relational

/-- INSERT OR IGNORE. -/
def insertedOrIgnored {ρ : Type} [Schema ρ] (t : Table ρ) (r : ρ) : Table ρ := (t.insert r).getD t

/-! ### Pairings -/

/-- A credential of the pairing's node that was revoked after it had been activated. -/
def retiredCredential (p : PairingRow) (c : WorkerCredentialRow) : Bool :=
  some c.nodeId = p.nodeId && c.activatedAt.isSome && c.revokedAt.isSome

/-- A complete pairing whose only credential was revoked while the pairing was not. -/
def supersededReady (db : Db) (p : PairingRow) : Bool :=
  p.revokedAt.isNone && p.usedAt.isSome && p.acknowledgedAt.isSome && p.nodeId = some p.intendedNodeId &&
    p.nodeId.any db.nodeExists && (db.credentialsOf p.id).length = 1 &&
    (db.credentialsOf p.id).countP (retiredCredential p) = 1

def migratePairingAckSchema (db : Db) : Db :=
  { db with
    pairings := db.pairings.modify (supersededReady db)
      (fun p => { p with
        revokedAt := ((db.credentialsOf p.id).find? (retiredCredential p)).bind WorkerCredentialRow.revokedAt })
      (fun _ _ => rfl) }

def checkPairingFailure (db : Db) (p : PairingRow) : StoreResult Unit := do
  let failure ← pairingFailureState p.failedAt p.failureCode
  ensure (failure.isNone || !(p.usedAt.isSome || p.acknowledgedAt.isSome || p.nodeId.isSome ||
    !(db.credentialsOf p.id).isEmpty)) .invalidPairingFailureState

def migratePairingFailureSchema (db : Db) : StoreResult Unit :=
  (db.pairings.rows.filter fun p => p.failedAt.isSome || p.failureCode.isSome).forM (checkPairingFailure db)

/-! ### Documents of nodes -/

/-- Splits the document of a node that has no documents of its own. -/
def migrateLegacyNode (db : Db) (n : NodeRow) : StoreResult Db := do
  ensure (n.document.id = n.id) .nodeIdentityMismatch
  let receivedAt ← parseRfc3339 n.updatedAt
  return { db with
    nodeConfigs := insertedOrIgnored db.nodeConfigs
      { nodeId := n.id, document := .fromNode n.document, updatedAt := n.updatedAt, revision := 0 }
    nodeInventories := insertedOrIgnored db.nodeInventories
      { nodeId := n.id, document := .fromNode n.document, updatedAt := n.updatedAt, revision := 0, digest := "",
        observedAt := .ofTimestamp 0 }
    nodeTelemetry := insertedOrIgnored db.nodeTelemetry
      { nodeId := n.id, document := .fromNode n.document receivedAt, receivedAt := n.updatedAt, bootGeneration := 0,
        bootId := .nil, sequence := 0, observedAt := .ofTimestamp 0 } }

def migrateLegacyNodeDocuments (db : Db) : StoreResult Db := db.nodes.rows.foldlM migrateLegacyNode db

/-- The text of the instant starts with the day that stands for a missing one. -/
def DateTime.onEpochDay (t : DateTime) : Bool := (stripPrefix "1970-01-01".toList t.toRfc3339.toList).isSome

/-- An inventory without a digest, or observed on the day of the epoch. -/
def backfillInventory (telemetry : NodeTelemetry) (i : NodeInventoryRow) : NodeInventoryRow :=
  { i with
    digest := if i.digest = "" then inventoryDigest i.document else i.digest
    observedAt := if i.observedAt.onEpochDay then telemetry.observedAt else i.observedAt }

/-- Telemetry observed on the day of the epoch, or without the generation of its document. -/
def backfillTelemetry (telemetry : NodeTelemetry) (r : NodeTelemetryRow) : NodeTelemetryRow :=
  { r with
    bootGeneration := if r.bootGeneration = 0 then asI64 telemetry.bootGeneration.toNat else r.bootGeneration
    observedAt := telemetry.observedAt }

def backfillNode (db : Db) (row : NodeInventoryRow × NodeTelemetryRow) : StoreResult Db := do
  let (i, r) := row
  let nodeInventories := if i.digest = "" || i.observedAt.onEpochDay then
      db.nodeInventories.modify (fun a => a.nodeId = i.nodeId) (fun a => { a with
        digest := (backfillInventory r.document i).digest
        observedAt := (backfillInventory r.document i).observedAt }) (fun _ _ => rfl)
    else db.nodeInventories
  let nodeTelemetry := if r.observedAt.onEpochDay || (r.bootGeneration = 0 && 0 < r.document.bootGeneration) then
      db.nodeTelemetry.modify (fun a => a.nodeId = i.nodeId) (backfillTelemetry r.document) (fun _ _ => rfl)
    else db.nodeTelemetry
  let _ ← parseRfc3339 r.receivedAt
  let _ ← parseRfc3339 i.updatedAt
  return { db with nodeInventories, nodeTelemetry }

/-- Each inventory with the telemetry of its node. -/
def Db.reportMetadata (db : Db) : List (NodeInventoryRow × NodeTelemetryRow) :=
  db.nodeInventories.rows.filterMap fun i => (db.nodeTelemetry.find fun r => r.nodeId = i.nodeId).map fun r => (i, r)

def backfillNodeReportMetadata (db : Db) : StoreResult Db := db.reportMetadata.foldlM backfillNode db

/-- The boots that are current are remembered. -/
def rememberCurrentBoots (db : Db) : Db :=
  { db with
    nodeTelemetryBoots := (db.nodeTelemetry.rows.filter fun r => !r.bootId.isNil).foldl (fun boots r =>
      insertedOrIgnored boots { nodeId := r.nodeId, bootId := r.bootId, firstReceivedAt := r.receivedAt })
      db.nodeTelemetryBoots }

/-! ### Leases and obligations -/

/-- A lease of an older version that a live claim shows to be in execution. -/
def claimedLegacy (db : Db) (now : Int) (l : LeaseRow) : Bool :=
  l.phase = .legacy && l.releasedAt.isNone && now < l.expiresAt &&
    db.workerClaims.any fun c => c.leaseId = l.id && c.revokedAt.isNone && now < c.expiresAt

def promoteLegacyLeases (db : Db) (now : Int) : Db :=
  { db with
    leases := db.leases.modify (claimedLegacy db now) (fun l => { l with phase := .execution }) (fun _ _ => rfl) }

/-- A completion without an obligation, with its job, lease and receipt. -/
structure LegacyCleanup where
  completion : RunCompletionRow
  job : JobRow
  lease : LeaseRow
  cleanup : Option RunCleanupRow

def Db.legacyCleanup (db : Db) (c : RunCompletionRow) : Option LegacyCleanup := do
  let job ← db.jobs.find fun j => j.runId = c.runId
  let lease ← db.leases.find fun l => some l.id = job.leaseId
  return { completion := c, job, lease, cleanup := db.runCleanups.find fun x => x.runId = c.runId }

def Db.legacyCleanups (db : Db) : List LegacyCleanup :=
  (orderedBy RunCompletionRow.createdAt (fun c => c.runId.value.toNat) (db.runCompletions.rows.filter fun c =>
    !db.runCleanupObligations.any fun o => o.runId = c.runId)).filterMap db.legacyCleanup

/-- What is known of the release of a reservation that had no obligation. -/
def legacyRelease (row : LegacyCleanup) :
    Option CleanupReleaseReason × Option CleanupFailureCode × Option Int :=
  match row.lease.releasedAt with
  | none => (none, none, none)
  | some t =>
    if row.cleanup.any fun x => x.document.outcome = .removed then (some .removedReceipt, none, none)
    else (some .legacyMigration, some .legacyReleaseWithoutCleanupEvidence, some t)

def migrateCleanup (now : Int) (db : Db) (row : LegacyCleanup) : StoreResult Db := do
  ensure (row.job.run.state.isTerminal && row.job.run.id = row.completion.runId) .invalidRunEvidence
  let deadline := max (satI64 (row.completion.createdAt + cleanupReservationTtlSeconds)) now
  let (releaseReason, cleanupFailureCode, failureObservedAt) := legacyRelease row
  let obligations ← inserted db.runCleanupObligations
    { runId := row.completion.runId, jobId := row.job.jobId, leaseId := row.lease.id, stateVersion := row.job.version,
      finalState := row.job.run.state, completionSha256 := row.completion.documentSha256,
      terminalAcknowledgedAt := row.completion.createdAt, cleanupDeadlineAt := deadline,
      reservationReleasedAt := row.lease.releasedAt, releaseReason, cleanupFailureCode, failureObservedAt }
  return { db with
    runCleanupObligations := obligations
    leases := if row.lease.releasedAt.isNone then
        db.leases.modify (fun l => l.id = row.lease.id && l.runId = row.completion.runId && l.releasedAt.isNone)
          (fun l => { l with phase := .cleanupPending, expiresAt := deadline }) (fun _ _ => rfl)
      else db.leases }

def migrateCleanupReservationSchema (db : Db) (now : Int) : StoreResult Db := db.legacyCleanups.foldlM (migrateCleanup now) db

/-! ### Plans -/

/-- The policy of the running code. -/
def raisePolicyRevision (db : Db) : Db := { db with policyRevision := max db.policyRevision CYC.policyRevision }

def dropLegacyPlans (db : Db) : Db :=
  { db with plans := db.plans.delete fun p => p.jobDigest = "" || p.expiresAt ≤ 0 }

/-- The plan binds the job to the node that its run is on, and was used while it was valid. -/
def provesBinding (j : JobRow) (plan : StoredPlan) : Bool :=
  plan.usedAt.any (fun t => plan.binding.createdAt.nanos ≤ t.nanos && t.nanos < plan.binding.expiresAt.nanos) &&
    (plan.binding.validate (some j.job) none).isOk && j.run.nodeId = some plan.binding.decision.nodeId &&
    (j.run.placement.bind fun placement => placement.selectedNodeId) = j.run.nodeId

/-- The binding of a job without one, if exactly one used plan proves it. -/
def legacyBinding (db : Db) (j : JobRow) : Option PlacementPlanBinding :=
  if j.job.id = j.jobId && j.run.jobId = j.job.id && j.job.validate.isOk && normalizeJobSpec j.job = j.job then
    match db.plans.rows.filter fun p => p.jobId = j.jobId && p.usedAt.isSome with
    | [p] => match getPlan db p.id with
      | .ok plan => if provesBinding j plan then some plan.binding else none
      | .error _ => none
    | _ => none
  else none

def migrateJobPlanBinding (db : Db) (j : JobRow) : Db :=
  match legacyBinding db j with
  | none => db
  | some binding => { db with
      jobs := db.jobs.modify (fun a => a.jobId = j.jobId && a.planBinding.isNone)
        (fun a => { a with planBinding := some binding }) (fun _ _ => rfl) }

def migrateJobPlanBindings (db : Db) : Db :=
  (JobRow.inOrder (db.jobs.rows.filter fun j => j.planBinding.isNone)).foldl migrateJobPlanBinding db

/-- The first attempt of a bound job that has none. -/
def migrateJobPlacementAttempt (db : Db) (j : JobRow) : StoreResult Db :=
  match j.planBinding with
  | none => .ok db
  | some binding =>
    if (binding.validate (some j.job) none).isOk then insertPlacementAttemptTx db j.runId binding .initialDispatch
    else .ok db

def migrateJobPlacementAttempts (db : Db) : StoreResult Db :=
  (JobRow.inOrder (db.jobs.rows.filter fun j => j.planBinding.isSome &&
      !db.jobPlacementAttempts.any fun a => a.runId = j.runId)).foldlM migrateJobPlacementAttempt db

/-! ### Reopening -/

/-- The database after the backfills; an error keeps the store from opening. -/
def migrate (now : DateTime) (db : Db) : StoreResult Db := do
  let db := migratePairingAckSchema db
  migratePairingFailureSchema db
  let db ← migrateLegacyNodeDocuments db
  let db ← backfillNodeReportMetadata db
  let db := rememberCurrentBoots db
  let db := promoteLegacyLeases db now.timestamp
  let db ← migrateCleanupReservationSchema db now.timestamp
  let db := raisePolicyRevision db
  let db := dropLegacyPlans db
  let db := migrateJobPlanBindings db
  migrateJobPlacementAttempts db

/-- The database after it has been reopened at the given times. -/
def reopen (db : Db) (times : List DateTime) : StoreResult Db := times.foldlM (fun db now => migrate now db) db

end CYC
