import ClusterYourCodex.Lib.Table
import ClusterYourCodex.Spec.Scheduler
import ClusterYourCodex.Spec.Worker

/-! The controller's database (`cyc-controller/src/store.rs`): one row type for each table of the
schema, its PRIMARY KEY and UNIQUE constraints as the `Schema` instance, and the whole as the record
`Db`. Columns that hold a JSON document hold the document itself. Identifiers are compared by value,
as their texts are, and text columns of instants by their RFC 3339 texts. -/

namespace CYC

open Checked Relational

def planTtlSeconds : Int := 60

def nodeFreshnessSeconds : Int := 15

def policyRevision : Int := 3

def pairingTtlSeconds : Int := 600

def dispatchTtlSeconds : Int := 30

def claimTtlSeconds : Int := 90

def cleanupReservationTtlSeconds : Int := 15 * 60

def maxRunLogBytes : Nat := 16 * 1024 * 1024

def maxRunLogChunks : Nat := 4096

def maxRunArtifactBytes : Nat := 64 * 1024 * 1024

def maxRunArtifactCount : Nat := 1000

/-! ### The environment of a call -/

/-- The places where a call draws a random identifier. -/
inductive Site where
  /-- The attempts at an unused run identifier. -/
  | run (attempt : Nat)
  | lease
  | plan
  /-- The plan of a run that is dispatched again; a report makes a second pass after maintenance. -/
  | replan (pass : Nat) (run : Uuid)
  | pairing
  | pairingNode
  | credential
  /-- The halves of a random secret. -/
  | secret (second : Bool)
  deriving DecidableEq

/-- The places where a call reads the clock again after its first reading. -/
inductive Reading where
  | schedule
  | created (attempt : Nat)
  | transition (run : Uuid)
  | updated (run : Uuid) (version : Nat)
  | released
  | probe
  | configured
  | classified
  deriving DecidableEq

/-- The instants the clock can show: not before the epoch, where reading it panics, and with a day left before
the year 10000, which the text columns that hold its readings cannot be read back from. -/
def DateTime.OnClock (t : DateTime) : Prop := 0 ≤ t.nanos ∧ (t.addSeconds 86400).nanos < 253402300800 * 1000000000

instance (t : DateTime) : Decidable t.OnClock := inferInstanceAs (Decidable (_ ∧ _))

/-- What a call observes of the world: the clock, which does not run backwards, and random identifiers. -/
structure Env where
  now : DateTime
  reading : Reading → DateTime
  finish : DateTime
  newV4 : Site → Uuid
  now_le : ∀ r, now.nanos ≤ (reading r).nanos
  le_finish : ∀ r, (reading r).nanos ≤ finish.nanos
  now_onClock : now.OnClock
  finish_onClock : finish.OnClock

namespace Env

/-- Two random identifiers, written without hyphens. -/
def randomSecret (env : Env) : String :=
  (env.newV4 (.secret false)).simple ++ (env.newV4 (.secret true)).simple

theorem now_le_finish (env : Env) : env.now.nanos ≤ env.finish.nanos :=
  (env.now_le .schedule).trans (env.le_finish .schedule)

end Env

/-! ### Errors -/

inductive PairingPhase where
  | pending
  | consumed
  | ready
  | failed
  | expired
  | revoked
  deriving DecidableEq, Repr

inductive StoreError where
  | database
  | nodeState (error : NodeStateError)
  | invalidNodeConfig
  | invalidNodeReport
  | timestamp
  | notFound
  | conflict
  | invalidTransition
  | cancellationPending
  | invalidRunEvidence
  | versionConflict (currentVersion : Nat)
  | nodeConfigVersionConflict (currentRevision : Int)
  | workerStateConflict (currentVersion : Nat) (cancelRequested : Bool) (currentState : JobState)
  | planExpired
  | planStale
  | planDigestMismatch
  | invalidPlanBinding
  | schedule (error : ScheduleError)
  | workerUnauthorized
  | pairingUnavailable
  | pairingBindingMismatch
  | invalidCredentialDigest
  | pairingAcknowledgementUnavailable
  | invalidPairingOperationKey
  | pairingIdempotencyMismatch
  | pairingIdempotencyFinalized (phase : PairingPhase)
  | invalidPairingFailureState
  | pairingFailureMismatch
  | pairingFailureFinalized (phase : PairingPhase)
  | nodeIdentityMismatch
  | invalidManagedNode
  | runUnauthorized
  | uploadConflict
  | uploadOffset
  | digestMismatch
  | invalidUpload
  | logQuotaExceeded
  | artifactQuotaExceeded
  | invalidCleanupReceipt
  | cleanupConflict
  | invalidFleetRevision
  | io
  deriving DecidableEq

abbrev StoreResult := Except StoreError

def timestamp (value : Int) : StoreResult DateTime :=
  if (DateTime.ofTimestamp value).Representable then .ok (.ofTimestamp value) else .error .timestamp

/-- `timestamp` of a column that may be NULL. -/
def optionalTimestamp (value : Option Int) : StoreResult (Option DateTime) :=
  match value with
  | none => .ok none
  | some value => do
    let instant ← timestamp value
    return some instant

/-- SUM over a column of integers, which fails when a partial sum leaves 64 bits. -/
def sumColumn (values : List Int) : StoreResult Int :=
  values.foldlM (fun sum v => if i64Min ≤ sum + v ∧ sum + v ≤ i64Max then .ok (sum + v) else .error .database) 0

/-! ### Rows of the fleet -/

structure NodeRow where
  id : Uuid
  document : Node
  updatedAt : DateTime
  revision : Int

structure NodeConfigRow where
  nodeId : Uuid
  document : NodeConfig
  updatedAt : DateTime
  revision : Int

structure NodeInventoryRow where
  nodeId : Uuid
  document : NodeInventory
  updatedAt : DateTime
  revision : Int
  digest : String
  observedAt : DateTime

structure NodeTelemetryRow where
  nodeId : Uuid
  document : NodeTelemetry
  receivedAt : DateTime
  bootGeneration : Int
  bootId : Uuid
  sequence : Int
  observedAt : DateTime

structure NodeTelemetryBootRow where
  nodeId : Uuid
  bootId : Uuid
  firstReceivedAt : DateTime

instance : Schema NodeRow := ⟨fun a b => a.id = b.id, fun _ _ => decide_eq_decide.2 eq_comm⟩

instance : Schema NodeConfigRow := ⟨fun a b => a.nodeId = b.nodeId, fun _ _ => decide_eq_decide.2 eq_comm⟩

instance : Schema NodeInventoryRow := ⟨fun a b => a.nodeId = b.nodeId, fun _ _ => decide_eq_decide.2 eq_comm⟩

instance : Schema NodeTelemetryRow := ⟨fun a b => a.nodeId = b.nodeId, fun _ _ => decide_eq_decide.2 eq_comm⟩

instance : Schema NodeTelemetryBootRow :=
  ⟨fun a b => (a.nodeId, a.bootId) = (b.nodeId, b.bootId), fun _ _ => decide_eq_decide.2 eq_comm⟩

/-! ### Rows of enrollment -/

inductive PairingFailureCode where
  | provisioningFailed
  | workerInstallFailed
  | workerPairingFailed
  | workerHealthCheckFailed
  deriving DecidableEq, Repr

structure PairingRow where
  id : Uuid
  codeHash : String
  createdAt : Int
  expiresAt : Int
  usedAt : Option Int
  acknowledgedAt : Option Int
  revokedAt : Option Int
  nodeId : Option Uuid
  intendedNodeId : Uuid
  failedAt : Option Int
  failureCode : Option PairingFailureCode

structure PairingOperationRow where
  operationKey : String
  pairingId : Uuid
  requestedNodeId : Option Uuid
  workerUrl : String
  certificatePem : String

structure WorkerCredentialRow where
  id : Uuid
  pairingId : Uuid
  nodeId : Uuid
  credentialHash : String
  createdAt : Int
  activatedAt : Option Int
  lastUsedAt : Option Int
  revokedAt : Option Int

/-- An activated credential that has not been revoked. -/
def WorkerCredentialRow.active (c : WorkerCredentialRow) : Bool := c.activatedAt.isSome && c.revokedAt.isNone

instance : Schema PairingRow where
  clash a b := a.id = b.id || a.codeHash = b.codeHash
  clash_comm a b := by simp only [eq_comm]

instance : Schema PairingOperationRow where
  clash a b := a.operationKey = b.operationKey || a.pairingId = b.pairingId
  clash_comm a b := by simp only [eq_comm]

/-- A partial index allows a node one active credential. -/
instance : Schema WorkerCredentialRow where
  clash a b := a.id = b.id || a.credentialHash = b.credentialHash || (a.active && b.active && a.nodeId = b.nodeId)
  clash_comm a b := by simp only [eq_comm, Bool.and_comm]

/-! ### Rows of jobs -/

structure PlanRow where
  id : Uuid
  jobId : Uuid
  decision : PlacementPlanDecision
  createdAt : Int
  jobDigest : String
  expiresAt : Int
  fleetRevision : Int
  nodeRevision : Int
  policyRevision : Int
  usedAt : Option Int

structure JobRow where
  runId : Uuid
  jobId : Uuid
  job : JobSpec
  run : Run
  createdAt : DateTime
  updatedAt : DateTime
  version : Int
  cancelRequested : Bool
  leaseId : Option Uuid
  planBinding : Option PlacementPlanBinding

inductive PlacementAttemptReason where
  | initialDispatch
  | dispatchLeaseExpired
  deriving DecidableEq, Repr

structure PlacementAttemptRow where
  runId : Uuid
  attempt : Int
  planId : Uuid
  nodeId : Uuid
  planBinding : PlacementPlanBinding
  reason : PlacementAttemptReason
  createdAt : Int

inductive LeasePhase where
  | dispatch
  | execution
  | cleanupPending
  | legacy
  deriving DecidableEq, Repr

structure LeaseRow where
  id : Uuid
  runId : Uuid
  jobId : Uuid
  nodeId : Uuid
  cpuCores : Int
  memoryMib : Int
  diskMib : Int
  gpuReserved : Int
  slots : Int
  phase : LeasePhase
  createdAt : Int
  expiresAt : Int
  releasedAt : Option Int

structure LeaseGpuRow where
  leaseId : Uuid
  deviceId : String
  vramMib : Int
  exclusive : Bool

structure WorkerClaimRow where
  runId : Uuid
  nodeId : Uuid
  leaseId : Uuid
  credentialHash : String
  createdAt : Int
  expiresAt : Int
  revokedAt : Option Int

structure LogChunkRow where
  runId : Uuid
  stream : String
  chunkOffset : Int
  chunkLength : Int
  sha256 : String
  relativePath : String
  createdAt : Int

structure ArtifactRow where
  id : Uuid
  runId : Uuid
  name : String
  size : Int
  sha256 : String
  relativePath : String
  createdAt : Int

/-- A file below the object root. -/
structure ObjectRow where
  path : String
  bytes : List UInt8

structure RunCompletionRow where
  runId : Uuid
  document : RunCompletion
  documentSha256 : String
  createdAt : Int

structure RunCleanupRow where
  runId : Uuid
  document : CleanupReceipt
  documentSha256 : String
  receivedAt : Int

inductive CleanupReleaseReason where
  | removedReceipt
  | deadlineRecovery
  | legacyMigration
  deriving DecidableEq, Repr

inductive CleanupFailureCode where
  | removedReceiptDeadlineExceeded
  | legacyReleaseWithoutCleanupEvidence
  deriving DecidableEq, Repr

structure CleanupObligationRow where
  runId : Uuid
  jobId : Uuid
  leaseId : Uuid
  stateVersion : Int
  finalState : JobState
  completionSha256 : String
  terminalAcknowledgedAt : Int
  cleanupDeadlineAt : Int
  reservationReleasedAt : Option Int
  releaseReason : Option CleanupReleaseReason
  cleanupFailureCode : Option CleanupFailureCode
  failureObservedAt : Option Int

instance : Schema PlanRow := ⟨fun a b => a.id = b.id, fun _ _ => decide_eq_decide.2 eq_comm⟩

instance : Schema JobRow where
  clash a b := a.runId = b.runId || a.jobId = b.jobId
  clash_comm a b := by simp only [eq_comm]

instance : Schema PlacementAttemptRow where
  clash a b := (a.runId = b.runId && a.attempt = b.attempt) || a.planId = b.planId
  clash_comm a b := by simp only [eq_comm]

instance : Schema LeaseRow where
  clash a b := a.id = b.id || a.runId = b.runId
  clash_comm a b := by simp only [eq_comm]

instance : Schema LeaseGpuRow := ⟨fun a b => a.leaseId = b.leaseId, fun _ _ => decide_eq_decide.2 eq_comm⟩

instance : Schema WorkerClaimRow where
  clash a b := a.runId = b.runId || a.credentialHash = b.credentialHash
  clash_comm a b := by simp only [eq_comm]

instance : Schema LogChunkRow where
  clash a b := a.runId = b.runId && a.stream = b.stream && a.chunkOffset = b.chunkOffset
  clash_comm a b := by simp only [eq_comm]

instance : Schema ArtifactRow := ⟨fun a b => a.id = b.id, fun _ _ => decide_eq_decide.2 eq_comm⟩

instance : Schema ObjectRow := ⟨fun a b => a.path = b.path, fun _ _ => decide_eq_decide.2 eq_comm⟩

instance : Schema RunCompletionRow := ⟨fun a b => a.runId = b.runId, fun _ _ => decide_eq_decide.2 eq_comm⟩

instance : Schema RunCleanupRow := ⟨fun a b => a.runId = b.runId, fun _ _ => decide_eq_decide.2 eq_comm⟩

instance : Schema CleanupObligationRow where
  clash a b := a.runId = b.runId || a.leaseId = b.leaseId
  clash_comm a b := by simp only [eq_comm]

/-! ### The database -/

structure Db where
  fleetRevision : Int
  policyRevision : Int
  pairingSeed : String
  nodes : Table NodeRow
  nodeConfigs : Table NodeConfigRow
  nodeInventories : Table NodeInventoryRow
  nodeTelemetry : Table NodeTelemetryRow
  nodeTelemetryBoots : Table NodeTelemetryBootRow
  pairings : Table PairingRow
  pairingOperations : Table PairingOperationRow
  workerCredentials : Table WorkerCredentialRow
  plans : Table PlanRow
  jobs : Table JobRow
  jobPlacementAttempts : Table PlacementAttemptRow
  leases : Table LeaseRow
  leaseGpuReservations : Table LeaseGpuRow
  workerClaims : Table WorkerClaimRow
  logChunks : Table LogChunkRow
  artifacts : Table ArtifactRow
  objects : Table ObjectRow
  runCompletions : Table RunCompletionRow
  runCleanups : Table RunCleanupRow
  runCleanupObligations : Table CleanupObligationRow

namespace Db

/-- The database of a new controller, with the secret drawn when it was created. -/
def empty (pairingSeed : String) : Db where
  fleetRevision := 0
  policyRevision := CYC.policyRevision
  pairingSeed := pairingSeed
  nodes := .empty
  nodeConfigs := .empty
  nodeInventories := .empty
  nodeTelemetry := .empty
  nodeTelemetryBoots := .empty
  pairings := .empty
  pairingOperations := .empty
  workerCredentials := .empty
  plans := .empty
  jobs := .empty
  jobPlacementAttempts := .empty
  leases := .empty
  leaseGpuReservations := .empty
  workerClaims := .empty
  logChunks := .empty
  artifacts := .empty
  objects := .empty
  runCompletions := .empty
  runCleanups := .empty
  runCleanupObligations := .empty

/-- `increment_meta` of the fleet revision, which is published as an exact JSON integer. -/
def incrementFleetRevision (db : Db) : StoreResult Db :=
  if db.fleetRevision < maxSafeJsonInteger then .ok { db with fleetRevision := db.fleetRevision + 1 }
  else .error .invalidFleetRevision

end Db

/-- The result of an INSERT that a constraint may refuse. -/
def inserted {ρ : Type} [Schema ρ] (t : Table ρ) (r : ρ) : StoreResult (Table ρ) := required (t.insert r) .database

/-- Bytes of an object or an upload in hexadecimal SHA-256. -/
def bytesSha256 (bytes : List UInt8) : String := Sha256.hex (bytes.map UInt8.toNat)

def validSha256 (value : String) : Bool := isLowerHex 64 value.toList

def secretHash (secret : String) : String := textSha256 secret

end CYC
