import ClusterYourCodex.Lib.Table
import ClusterYourCodex.Lib.History
import ClusterYourCodex.Spec.Computer

/-! The provisioning journal and the engine that drives it (`cyc-provision`, `store.rs` and
`engine.rs`). The engine loads a record at the revision its caller expects, asks the driver for at most
one remote action, and saves the record with one compare-and-swap as its last act; so a call that fails,
or whose process dies after the driver answered, leaves the journal as it was. -/

namespace CYC.Provision

open Checked Relational

/-! ### The journal -/

inductive StoreError where
  | validation (error : RecordValidationError)
  | notFound (id : Uuid)
  | alreadyExists (id : Uuid)
  | conflict (expected : Nat) (actual : Option Nat)
  | invalidInitialRevision
  | immutableFieldChanged
  | revisionOverflow
  | corruptRecord
  deriving DecidableEq, Repr

/-- The columns of a text hold what is read from it: `none` where it is no timestamp, or not the JSON of a record. -/
structure ComputerRow where
  id : Uuid
  revision : Int
  createdAt : Option DateTime
  updatedAt : Option DateTime
  document : Option ComputerRecord
  deriving DecidableEq

instance computerRowSchema : Schema ComputerRow where
  clash a b := a.id = b.id
  clash_comm a b := by simp only [eq_comm]

abbrev Journal := Table ComputerRow

/-- A revision column is signed. -/
def revisionToI64 (revision : Nat) : Except StoreError Int :=
  if (revision : Int) ≤ i64Max then .ok revision else .error .revisionOverflow

def revisionFromI64 (revision : Int) : Except StoreError Nat :=
  if 0 ≤ revision then .ok revision.toNat else .error .corruptRecord

def monotonicNow (now previous : DateTime) : DateTime :=
  if previous.nanos < now.nanos then now else ⟨previous.nanos + 1000⟩

/-- A record is checked against the columns whenever it is read. -/
def parseRecord (paths : PathRules) (id : Uuid) (row : ComputerRow) : Except StoreError ComputerRecord := do
  let record ← required row.document .corruptRecord
  let revision ← revisionFromI64 row.revision
  let createdAt ← required row.createdAt .corruptRecord
  let updatedAt ← required row.updatedAt .corruptRecord
  ensure (record.id = id && record.revision = revision && record.createdAt = createdAt && record.updatedAt = updatedAt)
    .corruptRecord
  (record.validate paths).mapError .validation
  return record

namespace Journal

def insert (paths : PathRules) (j : Journal) (record : ComputerRecord) : Except StoreError Journal := do
  (record.validate paths).mapError .validation
  ensure (record.revision = 1) .invalidInitialRevision
  let revision ← revisionToI64 record.revision
  required (Table.insert j ⟨record.id, revision, some record.createdAt, some record.updatedAt, some record⟩)
    (.alreadyExists record.id)

def get (paths : PathRules) (j : Journal) (id : Uuid) : Except StoreError ComputerRecord := do
  let row ← required (j.lookup ComputerRow.id id) (.notFound id)
  parseRecord paths id row

/-- The row that an UPDATE of a revision selects. -/
def selects (id : Uuid) (revision : Int) (row : ComputerRow) : Bool := row.id = id && row.revision = revision

/-- The key and the time of creation are not written. -/
def put (j : Journal) (record : ComputerRecord) (revision expectedRevision : Int) : Journal :=
  j.modify (selects record.id expectedRevision)
    (fun row => { row with revision := revision, updatedAt := some record.updatedAt, document := some record }) fun _ _ => rfl

def saveCas (paths : PathRules) (j : Journal) (record : ComputerRecord) (expectedRevision : Nat) (now : DateTime) :
    Except StoreError (Journal × ComputerRecord) := do
  ensure (record.revision = expectedRevision) (.conflict expectedRevision (some record.revision))
  let current ← j.get paths record.id
  ensure (current.revision = expectedRevision) (.conflict expectedRevision (some current.revision))
  ensure (current.id = record.id && current.intendedNodeId = record.intendedNodeId &&
    current.createdAt = record.createdAt) .immutableFieldChanged
  ensure (expectedRevision < u64Max) .revisionOverflow
  let saved := { record with revision := expectedRevision + 1, updatedAt := monotonicNow now current.updatedAt }
  (saved.validate paths).mapError .validation
  let revision ← revisionToI64 saved.revision
  let expected ← revisionToI64 expectedRevision
  ensure (j.any (selects record.id expected)) (.conflict expectedRevision none)
  return (j.put saved revision expected, saved)

def deleteCas (j : Journal) (id : Uuid) (expectedRevision : Nat) : Except StoreError Journal := do
  let expected ← revisionToI64 expectedRevision
  match j.lookup ComputerRow.id id with
  | none => .error (.notFound id)
  | some row =>
    if row.revision = expected then .ok (j.delete fun row => row.id = id)
    else do
      let actual ← revisionFromI64 row.revision
      .error (.conflict expectedRevision (some actual))

end Journal

/-! ### The driver -/

inductive ProvisioningAction where
  | beginSsh
  | probeHostKey
  | authenticate
  | beginDiscovery
  | discoverAndStoreCredential
  | stageKit
  | installWorker
  | issueEnrollment
  | applyEnrollment
  | awaitPairing
  | enableService
  | awaitHeartbeat
  | beginSmokeCheck
  | runSmokeCheck
  | cleanupStaging
  | rollback
  | remove
  | forgetCredential
  deriving DecidableEq, Repr

def ProvisioningAction.asStr : ProvisioningAction → String
  | .beginSsh => "begin_ssh"
  | .probeHostKey => "probe_host_key"
  | .authenticate => "authenticate"
  | .beginDiscovery => "begin_discovery"
  | .discoverAndStoreCredential => "discover_and_store_credential"
  | .stageKit => "stage_kit"
  | .installWorker => "install_worker"
  | .issueEnrollment => "issue_enrollment"
  | .applyEnrollment => "apply_enrollment"
  | .awaitPairing => "await_pairing"
  | .enableService => "enable_service"
  | .awaitHeartbeat => "await_heartbeat"
  | .beginSmokeCheck => "begin_smoke_check"
  | .runSmokeCheck => "run_smoke_check"
  | .cleanupStaging => "cleanup_staging"
  | .rollback => "rollback"
  | .remove => "remove"
  | .forgetCredential => "forget_credential"

inductive StepCompletion where
  | sshStarted
  | hostKeyObserved (hostKey : PinnedHostKeyRecord)
  | authenticated
  | authenticatedStored (credentialReference : CredentialReference)
  | authenticatedSessionOnly
  | discoveryStarted
  | discoveryCompleted (inventory : DiscoveredComputer) (credentialReference : CredentialReference)
  | discoveryCompletedSessionOnly (inventory : DiscoveredComputer)
  | kitStaged
  | workerInstalled
  | enrollmentIssued (pairingId : Uuid)
  | paired (nodeId : Uuid)
  | serviceEnabled
  | heartbeatObserved (observedAt : DateTime)
  | smokeCheckPrepared (binding : SmokeRunBinding)
  | smokeCheckPassed (completedAt : DateTime)
  | stagingCleaned
  | pending
  deriving DecidableEq

structure DriverRequest where
  computer : ComputerRecord
  action : ProvisioningAction
  operationId : String
  deriving DecidableEq

inductive DriverFailureKind where
  | failure
  | credentialRequired
  deriving DecidableEq, Repr

structure DriverFailure where
  code : FailureCode
  retryable : Bool
  kind : DriverFailureKind
  deriving DecidableEq, Repr

namespace DriverFailure

def new (code : String) (retryable : Bool) : Except RecordValidationError DriverFailure := do
  let code ← FailureCode.new code
  return ⟨code, retryable, .failure⟩

def credentialRequired : DriverFailure := ⟨⟨"SSH_CREDENTIAL_REQUIRED", by decide⟩, true, .credentialRequired⟩

def isCredentialRequired (failure : DriverFailure) : Bool := failure.kind = .credentialRequired

/-- The failure says that the SSH server refused the credential. -/
def rejectsCredential (failure : DriverFailure) : Bool :=
  failure.code.value = "SSH_AUTH_REJECTED" || failure.code.value = "SSH_PRIVATE_KEY_REJECTED"

end DriverFailure

/-- What a driver would answer to each request. -/
structure Driver where
  execute : DriverRequest → Except DriverFailure StepCompletion
  rollback : DriverRequest → Except DriverFailure Unit
  remove : DriverRequest → Except DriverFailure Unit
  forgetCredential : DriverRequest → Except DriverFailure Unit

/-- A call of the driver, with its answer. -/
inductive DriverCall where
  | execute (request : DriverRequest) (answer : Except DriverFailure StepCompletion)
  | rollback (request : DriverRequest) (answer : Except DriverFailure Unit)
  | remove (request : DriverRequest) (answer : Except DriverFailure Unit)
  | forgetCredential (request : DriverRequest) (answer : Except DriverFailure Unit)

def operationId (record : ComputerRecord) (operation : String) : String :=
  record.id.hyphenated ++ ":" ++ toString record.cycle ++ ":" ++ operation

def driverRequest (record : ComputerRecord) (action : ProvisioningAction) (operation : String) : DriverRequest where
  computer := record
  action := action
  operationId :=
    if action = .beginSmokeCheck || action = .runSmokeCheck then canonicalSmokeOperationId record.id record.cycle
    else operationId record operation

/-! ### Transitions -/

inductive ProvisioningError where
  | store (error : StoreError)
  | validation (error : RecordValidationError)
  | driver (failure : DriverFailure)
  | invalidOperation (reason : String)
  | hostKeyApprovalMismatch
  | idempotencyConflict
  | invalidIdentity
  | cycleOverflow
  deriving DecidableEq, Repr

inductive TransitionError where
  | invalidCompletion
  | hostKeyChanged
  | nodeIdentityMismatch
  | pairingIdentityChanged
  | smokeBindingInvalid
  deriving DecidableEq, Repr

def TransitionError.code : TransitionError → String
  | .hostKeyChanged => "HOST_KEY_CHANGED"
  | .nodeIdentityMismatch => "NODE_ID_MISMATCH"
  | .pairingIdentityChanged => "PAIRING_ID_CHANGED"
  | .smokeBindingInvalid => "SMOKE_BINDING_INVALID"
  | .invalidCompletion => "INVALID_DRIVER_OUTCOME"

def actionForStep : ProvisioningStep → Option ProvisioningAction
  | .draft => some .beginSsh
  | .sshConnecting => some .probeHostKey
  | .hostKeyPending => some .authenticate
  | .authenticated => some .beginDiscovery
  | .discovering => some .discoverAndStoreCredential
  | .credentialStored => some .stageKit
  | .kitStaged => some .installWorker
  | .workerInstalled => some .issueEnrollment
  | .enrollmentIssued => some .applyEnrollment
  | .paired => some .enableService
  | .serviceEnabled => some .awaitHeartbeat
  | .heartbeatSeen => some .beginSmokeCheck
  | .smokeCheck => some .runSmokeCheck
  | .ready => none

def actionForRecord (record : ComputerRecord) : Option ProvisioningAction :=
  if record.step = .smokeCheck && record.smokeRunBinding.isNone then some .beginSmokeCheck
  else if record.step = .smokeCheck && record.smokeCheckCompletedAt.isSome then some .cleanupStaging
  else actionForStep record.step

def isInPlaceRepair (record : ComputerRecord) : Bool :=
  0 < record.cycle && record.pairingId.isSome && record.pairedNodeId = some record.intendedNodeId

/-- What the completion of an action makes of the record. -/
def applyCompletion (record : ComputerRecord) (action : ProvisioningAction) (completion : StepCompletion) :
    Except TransitionError ComputerRecord :=
  match action, completion with
  | .beginSsh, .sshStarted => .ok { record with state := .sshConnecting }
  | .probeHostKey, .hostKeyObserved hostKey => do
    hostKey.validate.mapError fun _ => .invalidCompletion
    ensure (record.hostKey.all (· = hostKey)) .hostKeyChanged
    return { record with hostKey := some hostKey, state := .hostKeyPending }
  | .authenticate, .authenticated => do
    ensure record.hostKeyApprovedAt.isSome .invalidCompletion
    return { record with state := .authenticated }
  | .authenticate, .authenticatedStored credentialReference => do
    ensure record.hostKeyApprovedAt.isSome .invalidCompletion
    ensure (record.credentialReference.all (· = credentialReference)) .invalidCompletion
    return { record with
      credentialReference := some credentialReference
      credentialPolicy := { record.credentialPolicy with state := .stored }
      state := .authenticated }
  | .authenticate, .authenticatedSessionOnly => do
    ensure record.hostKeyApprovedAt.isSome .invalidCompletion
    return { record with
      credentialReference := none
      credentialPolicy := { record.credentialPolicy with state := .sessionOnly }
      state := .authenticated }
  | .beginDiscovery, .discoveryStarted => .ok { record with state := .discovering }
  | .discoverAndStoreCredential, .discoveryCompleted inventory credentialReference => do
    inventory.validate.mapError fun _ => .invalidCompletion
    return { record with
      inventory := some inventory
      credentialReference := some credentialReference
      credentialPolicy := { record.credentialPolicy with state := .stored }
      state := .credentialStored }
  | .discoverAndStoreCredential, .discoveryCompletedSessionOnly inventory => do
    inventory.validate.mapError fun _ => .invalidCompletion
    return { record with
      inventory := some inventory
      credentialReference := none
      credentialPolicy := { record.credentialPolicy with state := .sessionOnly }
      state := .credentialStored }
  | .stageKit, .kitStaged => .ok { record with state := .kitStaged }
  | .installWorker, .workerInstalled =>
    -- a repair keeps its pairing, and its service has been enabled again by the same remote transaction
    .ok { record with state := if isInPlaceRepair record then .serviceEnabled else .workerInstalled }
  | .issueEnrollment, .enrollmentIssued pairingId => do
    ensure (!pairingId.isNil) .invalidCompletion
    ensure (record.pairingId.all (· = pairingId)) .pairingIdentityChanged
    return { record with pairingId := some pairingId, state := .enrollmentIssued }
  | .applyEnrollment, .paired nodeId | .awaitPairing, .paired nodeId => do
    ensure (nodeId = record.intendedNodeId) .nodeIdentityMismatch
    return { record with pairedNodeId := some nodeId, state := .paired }
  | .enableService, .serviceEnabled => .ok { record with state := .serviceEnabled }
  | .awaitHeartbeat, .heartbeatObserved observedAt =>
    .ok { record with heartbeatSeenAt := some observedAt, state := .heartbeatSeen }
  | .beginSmokeCheck, .smokeCheckPrepared binding => do
    (record.validateSmokeBinding binding).mapError fun _ => .smokeBindingInvalid
    return { record with
      formatVersion := computerRecordFormatVersion
      smokeRunBinding := some binding
      smokeCheckCompletedAt := none
      state := .smokeCheck }
  | .runSmokeCheck, .smokeCheckPassed completedAt => do
    let binding ← required record.smokeRunBinding .smokeBindingInvalid
    (record.validateSmokeBinding binding).mapError fun _ => .smokeBindingInvalid
    ensure (binding.plan.createdAt.nanos ≤ completedAt.nanos) .smokeBindingInvalid
    return { record with smokeCheckCompletedAt := some completedAt, state := .smokeCheck }
  | .cleanupStaging, .stagingCleaned => do
    ensure record.smokeCheckCompletedAt.isSome .invalidCompletion
    return { record with state := .ready }
  | _, _ => .error .invalidCompletion

/-- The next cycle; a forgotten credential has to be given anew. -/
def nextCycle (record : ComputerRecord) : Except ProvisioningError ComputerRecord := do
  ensure (record.cycle < u32Max) .cycleOverflow
  return { record with
    cycle := record.cycle + 1
    intent := .continuing
    teardownCompleted := false
    credentialPolicy := { record.credentialPolicy with
      state := if record.credentialPolicy.state = .forgotten then .sessionOnly else record.credentialPolicy.state }
    heartbeatSeenAt := none
    smokeRunBinding := none
    smokeCheckCompletedAt := none
    formatVersion := computerRecordFormatVersion }

/-- The host key and its approval survive. -/
def resetAfterRollback (record : ComputerRecord) : Except ProvisioningError ComputerRecord := do
  let record ← nextCycle record
  return { record with state := .draft, inventory := none, pairingId := none, pairedNodeId := none }

/-! ### The engine -/

inductive DriveOutcome where
  | checkpoint (record : ComputerRecord)
  | awaitingHostKeyApproval (record : ComputerRecord)
  | awaitingIntent (record : ComputerRecord)
  | awaitingCredential (record : ComputerRecord)
  | awaitingExternal (record : ComputerRecord)
  | ready (record : ComputerRecord)
  | failed (record : ComputerRecord)
  | rolledBack (record : ComputerRecord)
  | removed (id : Uuid)
  deriving DecidableEq

/-- What the engine did: the driver call it made, if any, and its result. -/
structure Turn (α : Type) where
  call : Option DriverCall
  result : Except ProvisioningError α

section Engine

/- `now` is the clock as the operation reads it and `savedAt` as the save reads it. -/
variable (paths : PathRules) (j : Journal) (id : Uuid) (expectedRevision : Nat) (now savedAt : DateTime)

def loadExpected : Except ProvisioningError ComputerRecord := do
  let record ← (j.get paths id).mapError .store
  ensure (record.revision = expectedRevision) (.store (.conflict expectedRevision (some record.revision)))
  return record

def save (record : ComputerRecord) : Except ProvisioningError (Journal × ComputerRecord) :=
  (j.saveCas paths record expectedRevision savedAt).mapError .store

def saveAs (outcome : ComputerRecord → DriveOutcome) (record : ComputerRecord) :
    Except ProvisioningError (Journal × DriveOutcome) := do
  let (j, saved) ← save paths j expectedRevision savedAt record
  return (j, outcome saved)

def create (input : NewComputer) (keyFileUsable : Bool) (intendedNodeId : Uuid) :
    Except ProvisioningError (Journal × ComputerRecord) := do
  (input.validate paths keyFileUsable).mapError .validation
  let record := ComputerRecord.newWithIdentity input now id intendedNodeId
  (record.validate paths).mapError .validation
  let j ← (j.insert paths record).mapError .store
  return (j, record)

def createIdempotent (input : NewComputer) (keyFileUsable : Bool) (intendedNodeId : Uuid) :
    Except ProvisioningError (Journal × ComputerRecord) := do
  (input.validate paths keyFileUsable).mapError .validation
  ensure (!(id.isNil || intendedNodeId.isNil)) .invalidIdentity
  let record := ComputerRecord.newWithIdentity input now id intendedNodeId
  (record.validate paths).mapError .validation
  match j.insert paths record with
  | .ok j => return (j, record)
  | .error (.alreadyExists _) => do
    let existing ← (j.get paths id).mapError .store
    ensure (existing.intendedNodeId = intendedNodeId && existing.displayName = input.displayName &&
      existing.endpoint = input.endpoint && existing.sshAuthentication = input.sshAuthentication &&
      existing.configuration = input.configuration &&
      existing.credentialPolicy.rememberRequested = input.rememberCredential) .idempotencyConflict
    return (j, existing)
  | .error error => .error (.store error)

def approveHostKey (expectedFingerprint : String) : Except ProvisioningError (Journal × ComputerRecord) := do
  let record ← loadExpected paths j id expectedRevision
  ensure (record.state = .hostKeyPending) (.invalidOperation "host-key approval requires host_key_pending")
  let observed ← required record.hostKey (.invalidOperation "host key checkpoint is missing")
  ensure (observed.fingerprint = expectedFingerprint) .hostKeyApprovalMismatch
  save paths j expectedRevision savedAt { record with hostKeyApprovedAt := some now }

/-- The two failures that an explicit retry may recheck become retryable. -/
def recheckable (record : ComputerRecord) : ProvisioningState :=
  match record.state with
  | .failed step code retryable =>
    .failed step code (retryable ||
      (record.smokeRunBinding.isSome && step = .smokeCheck && code.value = "JOB_PROGRESS_REGRESSED") ||
      (record.hostKey.isSome && record.hostKeyApprovedAt.isSome && code.value = "HOST_KEY_CHANGED"))
  | state => state

def isRetryable : ProvisioningState → Bool
  | .failed _ _ retryable => retryable
  | _ => false

def requestIntent (intent : ProvisioningIntent) : Except ProvisioningError (Journal × ComputerRecord) := do
  ensure (intent ≠ .continuing) (.invalidOperation "continue is an internal intent")
  let record ← loadExpected paths j id expectedRevision
  let state := if intent = .retry then recheckable record else record.state
  let teardownCompleted := if intent = .rollback || intent = .remove then false else record.teardownCompleted
  ensure (!(intent = .resume && (state.isFailed || state = .ready)))
    (.invalidOperation "resume requires a non-terminal checkpoint")
  ensure (!(intent = .retry && !isRetryable state)) (.invalidOperation "retry requires a retryable failure")
  save paths j expectedRevision savedAt { record with state, teardownCompleted, intent }

def beginRepair : Except ProvisioningError (Journal × ComputerRecord) := do
  let record ← loadExpected paths j id expectedRevision
  ensure (record.state = .ready && record.pairingId.isSome && record.pairedNodeId = some record.intendedNodeId)
    (.invalidOperation "repair requires a ready paired worker")
  let record ← nextCycle record
  save paths j expectedRevision savedAt { record with state := .credentialStored }

def forgetCredential (driver : Driver) : Turn (Journal × ComputerRecord) :=
  match loadExpected paths j id expectedRevision with
  | .error error => ⟨none, .error error⟩
  | .ok record =>
    if record.state ≠ .ready then ⟨none, .error (.invalidOperation "forget credential requires ready")⟩
    else if record.sshAuthentication.method ≠ .password then
      ⟨none, .error (.invalidOperation "forget credential requires password authentication")⟩
    else
      let request := driverRequest record .forgetCredential "forget_credential"
      let answer := driver.forgetCredential request
      ⟨some (.forgetCredential request answer), match answer with
        | .error failure =>
          if failure.isCredentialRequired then
            .error (.invalidOperation "credential deletion boundary requested a credential")
          else .error (.driver failure)
        | .ok () => save paths j expectedRevision savedAt { record with
            credentialReference := none
            credentialPolicy := ⟨false, .forgotten⟩ }⟩

/-- A refused credential is dropped with the same save. -/
def failedRecord (record : ComputerRecord) (failure : DriverFailure) : ComputerRecord :=
  let record := if failure.rejectsCredential then
      { record with
        credentialPolicy := { record.credentialPolicy with state := .pending }
        credentialReference := none }
    else record
  { record with state := .failed record.step failure.code failure.retryable, intent := .continuing }

def persistDriverFailure (record : ComputerRecord) (failure : DriverFailure) :
    Except ProvisioningError (Journal × DriveOutcome) :=
  saveAs paths j expectedRevision savedAt .failed (failedRecord record failure)

def credentialDropped (record : ComputerRecord) : ComputerRecord :=
  { record with
    credentialPolicy := { record.credentialPolicy with state := .pending }
    credentialReference := none }

def persistCredentialRequired (record : ComputerRecord) : Except ProvisioningError (Journal × DriveOutcome) :=
  if record.credentialPolicy.state = .stored then
    saveAs paths j expectedRevision savedAt .awaitingCredential (credentialDropped record)
  else .ok (j, .awaitingCredential record)

def persistFailure (record : ComputerRecord) (failure : DriverFailure) :
    Except ProvisioningError (Journal × DriveOutcome) :=
  if failure.isCredentialRequired then persistCredentialRequired paths j expectedRevision savedAt record
  else persistDriverFailure paths j expectedRevision savedAt record failure

/-- What follows the answer to a rollback or a removal. -/
def afterTeardown (record : ComputerRecord) (answer : Except DriverFailure Unit) :
    Except ProvisioningError (Journal × DriveOutcome) :=
  match answer with
  | .error failure => persistFailure paths j expectedRevision savedAt record failure
  | .ok () => saveAs paths j expectedRevision savedAt .checkpoint { record with teardownCompleted := true }

def driveRetry (record : ComputerRecord) : Except ProvisioningError (Journal × DriveOutcome) :=
  match record.state with
  | .failed step _ true =>
    saveAs paths j expectedRevision savedAt .checkpoint { record with state := .fromStep step, intent := .continuing }
  | _ => .error (.invalidOperation "retry intent is inconsistent with state")

def driveRollback (driver : Driver) (record : ComputerRecord) : Turn (Journal × DriveOutcome) :=
  if record.teardownCompleted then
    ⟨none, do
      let record ← resetAfterRollback record
      saveAs paths j expectedRevision savedAt .rolledBack record⟩
  else
    let request := driverRequest record .rollback "rollback"
    let answer := driver.rollback request
    ⟨some (.rollback request answer), afterTeardown paths j expectedRevision savedAt record answer⟩

def driveRemove (driver : Driver) (record : ComputerRecord) : Turn (Journal × DriveOutcome) :=
  if record.teardownCompleted then
    let request := driverRequest record .forgetCredential "forget_credential"
    let answer := driver.forgetCredential request
    ⟨some (.forgetCredential request answer), do
      answer.mapError .driver
      let j ← (j.deleteCas id expectedRevision).mapError .store
      return (j, .removed id)⟩
  else
    let request := driverRequest record .remove "remove"
    let answer := driver.remove request
    ⟨some (.remove request answer), afterTeardown paths j expectedRevision savedAt record answer⟩

def readyOrCheckpoint (record : ComputerRecord) : DriveOutcome :=
  if record.state = .ready then .ready record else .checkpoint record

/-- What follows the answer to an action. -/
def afterAction (record : ComputerRecord) (action : ProvisioningAction)
    (answer : Except DriverFailure StepCompletion) : Except ProvisioningError (Journal × DriveOutcome) :=
  match answer with
  | .error failure => persistFailure paths j expectedRevision savedAt record failure
  | .ok completion =>
    if completion = .pending then .ok (j, .awaitingExternal record)
    else match applyCompletion record action completion with
      | .error error => do
        let failure ← (DriverFailure.new error.code false).mapError .validation
        persistDriverFailure paths j expectedRevision savedAt record failure
      | .ok record => saveAs paths j expectedRevision savedAt readyOrCheckpoint record

def driveAction (driver : Driver) (record : ComputerRecord) : Turn (Journal × DriveOutcome) :=
  match actionForRecord record with
  | none => ⟨none, .error (.invalidOperation "no action exists for current checkpoint")⟩
  | some action =>
    let request := driverRequest record action action.asStr
    let answer := driver.execute request
    ⟨some (.execute request answer), afterAction paths j expectedRevision savedAt record action answer⟩

def driveContinue (driver : Driver) (record : ComputerRecord) : Turn (Journal × DriveOutcome) :=
  if record.state.isFailed then ⟨none, .ok (j, .awaitingIntent record)⟩
  else if record.state = .ready then ⟨none, .ok (j, .ready record)⟩
  else if record.state = .hostKeyPending && record.hostKeyApprovedAt.isNone then
    ⟨none, .ok (j, .awaitingHostKeyApproval record)⟩
  else driveAction paths j expectedRevision savedAt driver record

def driveOnce (driver : Driver) : Turn (Journal × DriveOutcome) :=
  match loadExpected paths j id expectedRevision with
  | .error error => ⟨none, .error error⟩
  | .ok record => match record.intent with
    | .resume => ⟨none, saveAs paths j expectedRevision savedAt .checkpoint { record with intent := .continuing }⟩
    | .retry => ⟨none, driveRetry paths j expectedRevision savedAt record⟩
    | .rollback => driveRollback paths j expectedRevision savedAt driver record
    | .remove => driveRemove paths j id expectedRevision savedAt driver record
    | .continuing => driveContinue paths j expectedRevision savedAt driver record

end Engine

/-! ### Runs of the engine -/

inductive EngineOp where
  | create (input : NewComputer) (keyFileUsable : Bool) (id intendedNodeId : Uuid)
  | createIdempotent (input : NewComputer) (keyFileUsable : Bool) (id intendedNodeId : Uuid)
  | approveHostKey (id : Uuid) (expectedRevision : Nat) (expectedFingerprint : String)
  | requestIntent (id : Uuid) (expectedRevision : Nat) (intent : ProvisioningIntent)
  | beginRepair (id : Uuid) (expectedRevision : Nat)
  | forgetCredential (id : Uuid) (expectedRevision : Nat)
  | driveOnce (id : Uuid) (expectedRevision : Nat)

/-- One call of the engine; `interrupted` says that the process died before the save. -/
structure EngineCall where
  op : EngineOp
  driver : Driver
  now : DateTime
  savedAt : DateTime
  interrupted : Bool

inductive Event where
  | called (call : DriverCall)
  | approved (id : Uuid) (fingerprint : String)
  | removed (id : Uuid)

/-- The journal and what has happened, the latest first. -/
structure Desk where
  journal : Journal
  log : List Event

namespace Desk

def initial : Desk := ⟨.empty, []⟩

/-- The removal that an outcome reports. -/
def removal : DriveOutcome → Option Event
  | .removed id => some (.removed id)
  | _ => none

def serve (paths : PathRules) (j : Journal) (call : EngineCall) : Turn (Journal × Option Event) :=
  match call.op with
  | .create input keyFileUsable id intendedNodeId =>
    ⟨none, (create paths j id call.now input keyFileUsable intendedNodeId).map fun (j, _) => (j, none)⟩
  | .createIdempotent input keyFileUsable id intendedNodeId =>
    ⟨none, (createIdempotent paths j id call.now input keyFileUsable intendedNodeId).map fun (j, _) => (j, none)⟩
  | .approveHostKey id revision fingerprint =>
    ⟨none, (approveHostKey paths j id revision call.now call.savedAt fingerprint).map fun (j, _) =>
      (j, some (.approved id fingerprint))⟩
  | .requestIntent id revision intent =>
    ⟨none, (requestIntent paths j id revision call.savedAt intent).map fun (j, _) => (j, none)⟩
  | .beginRepair id revision => ⟨none, (beginRepair paths j id revision call.savedAt).map fun (j, _) => (j, none)⟩
  | .forgetCredential id revision =>
    let turn := Provision.forgetCredential paths j id revision call.savedAt call.driver
    ⟨turn.call, turn.result.map fun (j, _) => (j, none)⟩
  | .driveOnce id revision =>
    let turn := Provision.driveOnce paths j id revision call.savedAt call.driver
    ⟨turn.call, turn.result.map fun (j, outcome) => (j, removal outcome)⟩

def step (paths : PathRules) (s : Desk) (call : EngineCall) : Desk :=
  let turn := serve paths s.journal call
  let log := (turn.call.map .called).toList ++ s.log
  if call.interrupted then { s with log }
  else match turn.result with
    | .ok (journal, event) => { journal, log := event.toList ++ log }
    | .error _ => { s with log }

def after (paths : PathRules) (s : Desk) (calls : List EngineCall) : Desk := History.after (step paths) s calls

end Desk

end CYC.Provision
