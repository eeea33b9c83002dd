import ClusterYourCodex.Spec.Jobs

/-! What a worker hands in at the end of a run: log chunks and artifacts, the completion receipt that
the store checks against them, and the receipt for the removal of the workspace, which gives the
reservation back. -/

namespace CYC

open Checked Relational

/-! ### Objects -/

def generatedLogRelativePath (jobId runId : Uuid) (stream : String) (offset : Nat) (sha256 : String) : String :=
  jobId.hyphenated ++ "/" ++ runId.hyphenated ++ "/logs/" ++ stream ++ "/" ++ String.ofList (DateTime.digits 20 offset) ++
    "-" ++ sha256 ++ ".chunk"

def generatedArtifactRelativePath (jobId runId artifactId : Uuid) : String :=
  jobId.hyphenated ++ "/" ++ runId.hyphenated ++ "/artifacts/" ++ artifactId.hyphenated ++ ".bin"

def readGeneratedObject (db : Db) (path : String) : StoreResult (List UInt8) := do
  let object ← required (db.objects.find fun o => o.path = path) .io
  return object.bytes

/-- Writes an object once; the same bytes may be written again. -/
def writeImmutableObject (db : Db) (path : String) (bytes : List UInt8) (expectedSha256 : String) : StoreResult Db :=
  match db.objects.find fun o => o.path = path with
  | some object =>
    if bytesSha256 object.bytes = expectedSha256 && object.bytes = bytes then .ok db else .error .uploadConflict
  | none => do
    let objects ← inserted db.objects { path, bytes }
    return { db with objects }

/-! ### Logs -/

structure LogChunk where
  runId : Uuid
  stream : String
  offset : Nat
  length : Nat
  sha256 : String
  createdAt : DateTime

def getLogChunk (db : Db) (runId : Uuid) (stream : String) (offset : Nat) : StoreResult (Option LogChunk) :=
  match db.logChunks.find fun c => c.runId = runId && c.stream = stream && c.chunkOffset = asI64 offset with
  | none => .ok none
  | some row => do
    let createdAt ← timestamp row.createdAt
    return some { runId, stream, offset, length := asU64 row.chunkLength, sha256 := row.sha256, createdAt }

def Db.chunksOf (db : Db) (runId : Uuid) : List LogChunkRow := db.logChunks.rows.filter fun c => c.runId = runId

/-- Appends a chunk that is not stored yet: within the quota and at the end of its stream. -/
def appendLogChunk (env : Env) (db : Db) (runId : Uuid) (stream : String) (offset : Nat) (expectedSha256 : String)
    (data : List UInt8) : StoreResult (Db × LogChunk) := do
  let totalBytes ← sumColumn ((db.chunksOf runId).map LogChunkRow.chunkLength)
  ensure (satU64 (asU64 totalBytes + data.length) ≤ maxRunLogBytes && (db.chunksOf runId).length < maxRunLogChunks)
    .logQuotaExceeded
  let nextOffset ← sumColumn (((db.chunksOf runId).filter fun c => c.stream = stream).map LogChunkRow.chunkLength)
  ensure (asU64 nextOffset = offset) .uploadOffset
  let stored ← getJobByRunId db runId
  let relativePath := generatedLogRelativePath stored.job.id runId stream offset expectedSha256
  let db ← writeImmutableObject db relativePath data expectedSha256
  let chunks ← inserted db.logChunks
    { runId, stream, chunkOffset := asI64 offset, chunkLength := asI64 data.length, sha256 := expectedSha256,
      relativePath, createdAt := env.now.timestamp }
  return ({ db with logChunks := chunks },
    { runId, stream, offset, length := data.length, sha256 := expectedSha256, createdAt := env.now })

def putLogChunk (env : Env) (db : Db) (workerCredential runCredential : String) (runId leaseId : Uuid)
    (stream : String) (offset : Nat) (expectedSha256 : String) (data : List UInt8) : StoreResult (Db × LogChunk) := do
  ensure ((stream = "stdout" || stream = "stderr") && validSha256 expectedSha256 && !data.isEmpty) .invalidUpload
  ensure (bytesSha256 data = expectedSha256) .digestMismatch
  let now := env.now.timestamp
  let (db, _) ← expireLeases env db now
  let (db, _) ← authorizeRunTx db workerCredential runCredential runId leaseId now
  match ← getLogChunk db runId stream offset with
  | some existing =>
    if existing.sha256 = expectedSha256 && existing.length = data.length then return (db, existing)
    else .error .uploadConflict
  | none => appendLogChunk env db runId stream offset expectedSha256 data

/-! ### Artifacts -/

structure StoredArtifact where
  id : Uuid
  runId : Uuid
  name : String
  size : Nat
  sha256 : String
  createdAt : DateTime

def validArtifactName (name : String) : Bool :=
  Text.byteCount name ≤ 512 && (validatePortableRelativePath name).isOk && !hasLiteralGitSegment name

def getArtifact (db : Db) (artifactId : Uuid) : StoreResult (Option StoredArtifact) :=
  match db.artifacts.find fun a => a.id = artifactId with
  | none => .ok none
  | some row => do
    let createdAt ← timestamp row.createdAt
    return some { id := artifactId, runId := row.runId, name := row.name, size := asU64 row.size,
                  sha256 := row.sha256, createdAt }

def Db.artifactsOf (db : Db) (runId : Uuid) : List ArtifactRow := db.artifacts.rows.filter fun a => a.runId = runId

def addArtifact (env : Env) (db : Db) (runId artifactId : Uuid) (name expectedSha256 : String) (data : List UInt8) :
    StoreResult (Db × StoredArtifact) := do
  let totalBytes ← sumColumn ((db.artifactsOf runId).map ArtifactRow.size)
  ensure (satU64 (asU64 totalBytes + data.length) ≤ maxRunArtifactBytes &&
    (db.artifactsOf runId).length < maxRunArtifactCount) .artifactQuotaExceeded
  let stored ← getJobByRunId db runId
  let relativePath := generatedArtifactRelativePath stored.job.id runId artifactId
  let db ← writeImmutableObject db relativePath data expectedSha256
  let artifacts ← inserted db.artifacts
    { id := artifactId, runId, name, size := asI64 data.length, sha256 := expectedSha256, relativePath,
      createdAt := env.now.timestamp }
  return ({ db with artifacts },
    { id := artifactId, runId, name, size := data.length, sha256 := expectedSha256, createdAt := env.now })

def putArtifact (env : Env) (db : Db) (workerCredential runCredential : String) (runId leaseId artifactId : Uuid)
    (name expectedSha256 : String) (data : List UInt8) : StoreResult (Db × StoredArtifact) := do
  ensure (validArtifactName name && validSha256 expectedSha256) .invalidUpload
  ensure (bytesSha256 data = expectedSha256) .digestMismatch
  let now := env.now.timestamp
  let (db, _) ← expireLeases env db now
  let (db, _) ← authorizeRunTx db workerCredential runCredential runId leaseId now
  match ← getArtifact db artifactId with
  | some existing =>
    if existing.runId = runId && existing.sha256 = expectedSha256 && existing.size = data.length &&
        existing.name = name then return (db, existing)
    else .error .uploadConflict
  | none => addArtifact env db runId artifactId name expectedSha256 data

/-! ### The checks of a completion -/

/-- Reasons for which a run can end before its source was resolved. -/
def endsUnresolved : TerminationReason → Bool
  | .sourcePreparationFailed | .cancelRequested | .leaseLost | .timedOut | .transportFailure => true
  | _ => false

/-- A source that was never resolved is no success and names a reason of its own. -/
def validateUnresolved (finalState : JobState) (execution : ExecutionEvidence) : StoreResult Unit :=
  ensure (finalState ≠ .succeeded && endsUnresolved execution.termination.reason) .invalidRunEvidence

def validateExecutionSource (source : SourceSpec) (finalState : JobState) (execution : ExecutionEvidence) :
    StoreResult Unit :=
  let observed := execution.source
  match source with
  | .git repository revision => do
    ensure (observed.kind = "git" && observed.repository = repository && observed.requestedRevision = revision)
      .invalidRunEvidence
    if observed.unresolved then validateUnresolved finalState execution
    else ensure (observed.resolvedRevision = revision && validObjectId observed.tree &&
      (stripPrefix "git version ".toList observed.gitVersion.toList).isSome) .invalidRunEvidence
  | .snapshot digest _ => do
    ensure (observed.kind = "snapshot" && observed.repository = "snapshot" && observed.requestedRevision = digest &&
      observed.gitVersion = "not-applicable") .invalidRunEvidence
    if observed.unresolved then validateUnresolved finalState execution
    else ensure (observed.resolvedRevision = digest && observed.tree = digest) .invalidRunEvidence

def defaultShell : OperatingSystem → Shell
  | .windows => .powershell
  | .linux => .bash
  | .macos => .zsh

/-- The step loop: each step as the job names it, within the run and after the step before. -/
def matchSteps (shell : Shell) (startedAt : Option DateTime) (finishedAt : DateTime) :
    Option DateTime → List (StepExecutionEvidence × JobStep) → StoreResult Unit
  | _, [] => .ok ()
  | previous, (observed, expected) :: rest => do
    ensure (observed.name = expected.name && observed.shell = expected.shell.getD shell &&
      (startedAt.all fun s => s.nanos ≤ observed.startedAt.nanos) &&
      observed.finishedAt.nanos ≤ finishedAt.nanos &&
      (previous.all fun p => p.nanos ≤ observed.startedAt.nanos)) .invalidRunEvidence
    matchSteps shell startedAt finishedAt (some observed.finishedAt) rest

def validateStepEvidence (job : JobSpec) (os : OperatingSystem) (c : RunCompletion) : StoreResult Unit := do
  let steps := c.execution.steps
  ensure (steps.length ≤ job.steps.length && (c.finalState ≠ .succeeded || steps.length = job.steps.length) &&
    (!c.execution.source.unresolved || steps.isEmpty)) .invalidRunEvidence
  let finishedAt ← required c.evidence.finishedAt .invalidRunEvidence
  matchSteps (defaultShell os) c.evidence.startedAt finishedAt none (steps.zip job.steps)
  ensure (c.finalState ≠ .cancelled || c.execution.termination.reason = .cancelRequested ||
    c.execution.termination.reason = .timedOut || c.execution.termination.reason = .leaseLost) .invalidRunEvidence

/-- A stream read so far. -/
structure StreamTotals where
  bytes : List UInt8
  byteCount : Nat
  chunkCount : Nat

def readChunk (db : Db) (totals : StreamTotals) (row : LogChunkRow) : StoreResult StreamTotals := do
  let length := asU64 row.chunkLength
  ensure (asU64 row.chunkOffset = totals.byteCount && length ≠ 0 && validSha256 row.sha256) .invalidRunEvidence
  let bytes ← readGeneratedObject db row.relativePath
  ensure (bytes.length = length && bytesSha256 bytes = row.sha256) .digestMismatch
  return { bytes := totals.bytes ++ bytes, byteCount := satU64 (totals.byteCount + length),
           chunkCount := satU64 (totals.chunkCount + 1) }

/-- The chunks of a stream in the order of their offsets. -/
def Db.streamChunks (db : Db) (runId : Uuid) (stream : String) : List LogChunkRow :=
  ((db.chunksOf runId).filter fun c => c.stream = stream).insertionSort fun a b => a.chunkOffset ≤ b.chunkOffset

def readStream (db : Db) (chunks : List LogChunkRow) : StoreResult StreamTotals :=
  chunks.foldlM (readChunk db) { bytes := [], byteCount := 0, chunkCount := 0 }

def verifyStreamEvidence (db : Db) (runId : Uuid) (stream : String) (expected : StreamEvidence) :
    StoreResult (Nat × Nat) := do
  let totals ← readStream db (db.streamChunks runId stream)
  ensure (expected.byteCount.toNat = totals.byteCount && expected.chunkCount.toNat = totals.chunkCount &&
    expected.sha256 = bytesSha256 totals.bytes) .invalidRunEvidence
  return (totals.byteCount, totals.chunkCount)

/-- The manifest entry of an artifact. -/
def RunCompletion.manifest (c : RunCompletion) (id : Uuid) : Option ArtifactMetadata :=
  c.artifacts.reverse.find? fun a => a.id = id

/-- The artifact loop: `state` holds the ids seen and the bytes so far. -/
def matchArtifact (db : Db) (c : RunCompletion) (state : List Uuid × Nat) (row : ArtifactRow) :
    StoreResult (List Uuid × Nat) := do
  let (ids, total) := state
  let size := asU64 row.size
  let manifest ← required (c.manifest row.id) .invalidRunEvidence
  ensure (!ids.contains row.id && manifest.runId = c.runId && manifest.relativePath = row.name &&
    manifest.sizeBytes.toNat = size && manifest.sha256 = row.sha256 && manifest.mediaType.isNone) .invalidRunEvidence
  let bytes ← readGeneratedObject db row.relativePath
  ensure (bytes.length = size && bytesSha256 bytes = row.sha256) .digestMismatch
  return (row.id :: ids, satU64 (total + size))

def validateArtifactManifest (db : Db) (c : RunCompletion) : StoreResult Unit := do
  let rows := (db.artifactsOf c.runId).insertionSort fun a b => a.id.value ≤ b.id.value
  ensure (rows.length = c.artifacts.length) .invalidRunEvidence
  let (_, total) ← rows.foldlM (matchArtifact db c) ([], 0)
  ensure ((c.artifacts.map ArtifactMetadata.id).dedup.length ≤ maxRunArtifactCount && total ≤ maxRunArtifactBytes)
    .invalidRunEvidence

def validateManagedCompletion (db : Db) (stored : StoredJob) (c : RunCompletion) : StoreResult Unit := do
  let nodeId ← required stored.run.nodeId .runUnauthorized
  let node ← required (db.nodes.find fun n => n.id = nodeId) .runUnauthorized
  ensure (isManaged node.document.transport) .runUnauthorized
  validateExecutionSource stored.job.source c.finalState c.execution
  validateStepEvidence stored.job node.document.os c
  let stdout ← verifyStreamEvidence db c.runId "stdout" c.execution.streams.stdout
  let stderr ← verifyStreamEvidence db c.runId "stderr" c.execution.streams.stderr
  ensure (satU64 (stdout.1 + stderr.1) ≤ maxRunLogBytes && satU64 (stdout.2 + stderr.2) ≤ maxRunLogChunks)
    .invalidRunEvidence
  validateArtifactManifest db c

/-! ### Completion -/

def completionSha256 (c : RunCompletion) : String := Sha256.hex (Encode.runCompletion c).bytes

/-- The run as its receipt leaves it. -/
def finishRun (run : Run) (c : RunCompletion) (now : DateTime) : Except StateTransitionError Run := do
  let run ← run.transition c.finalState now
  return { run with exitCode := c.evidence.exitCode, error := c.evidence.error, artifactIds := c.evidence.artifactIds }

/-- The lease that starts to wait for cleanup. -/
def awaitsCleanup (c : RunCompletion) (jobId : Uuid) (l : LeaseRow) : Bool :=
  l.id = c.leaseId && l.runId = c.runId && l.jobId = jobId && l.releasedAt.isNone && l.phase = .execution

/-- The rows a first completion writes. -/
def commitCompletion (env : Env) (db : Db) (stored : StoredJob) (c : RunCompletion) : StoreResult (Db × StoredJob) := do
  let now := env.now.timestamp
  let (db, stored) ← updateJobCas env db stored
  let completions ← inserted db.runCompletions
    { runId := c.runId, document := c, documentSha256 := completionSha256 c, createdAt := now }
  let db := revokeClaims { db with runCompletions := completions } c.runId now
  let deadline := satI64 (now + cleanupReservationTtlSeconds)
  let obligations ← inserted db.runCleanupObligations
    { runId := c.runId, jobId := stored.job.id, leaseId := c.leaseId, stateVersion := asI64 stored.version,
      finalState := stored.run.state, completionSha256 := completionSha256 c, terminalAcknowledgedAt := now,
      cleanupDeadlineAt := deadline, reservationReleasedAt := none, releaseReason := none,
      cleanupFailureCode := none, failureObservedAt := none }
  ensure (db.leases.rows.countP (awaitsCleanup c stored.job.id) = 1) .invalidTransition
  let leases := db.leases.modify (awaitsCleanup c stored.job.id)
    (fun l => { l with phase := .cleanupPending, expiresAt := deadline }) (fun _ _ => rfl)
  return ({ db with runCleanupObligations := obligations, leases }, stored)

/-- The first receipt of a run that is still executing. -/
def completeRun (env : Env) (db : Db) (workerCredential runCredential : String) (stored : StoredJob)
    (c : RunCompletion) : StoreResult (Db × StoredJob) := do
  let (db, _) ← authorizeRunTx db workerCredential runCredential c.runId c.leaseId env.now.timestamp
  ensure (stored.version = c.expectedVersion.toNat) (workerStateConflict stored)
  ensure (!stored.cancelRequested || c.finalState = .cancelled || c.finalState = .failed) (workerStateConflict stored)
  validateManagedCompletion db stored c
  let run ← (finishRun stored.run c (env.reading (.transition c.runId))).mapError fun _ => workerStateConflict stored
  run.validate.mapError fun _ => .invalidRunEvidence
  commitCompletion env db { stored with run } c

def workerCompleteManaged (env : Env) (db : Db) (workerCredential runCredential : String) (c : RunCompletion) :
    StoreResult (Db × StoredJob) := do
  c.validate.mapError fun _ => .invalidRunEvidence
  let now := env.now.timestamp
  let (db, _) ← expireLeases env db now
  let (db, nodeId) ← authorizeCompletionReceiptTx db workerCredential runCredential c.runId c.leaseId now
  let stored ← getJobByRunId db c.runId
  ensure (stored.run.nodeId = some nodeId) .runUnauthorized
  if stored.run.state.isTerminal then do
    -- a retry of the stored receipt is acknowledged again
    ensure ((db.runCompletions.find fun r => r.runId = c.runId).any fun r => r.documentSha256 = completionSha256 c)
      (workerStateConflict stored)
    return (db, stored)
  else completeRun env db workerCredential runCredential stored c

/-! ### Cleanup -/

def cleanupSha256 (receipt : CleanupReceipt) : String := Sha256.hex (Encode.cleanupReceipt receipt).bytes

/-- The obligation that a `removed` receipt releases. -/
def heldObligation (runId leaseId : Uuid) (o : CleanupObligationRow) : Bool :=
  o.runId = runId && o.leaseId = leaseId && o.reservationReleasedAt.isNone

/-- Marks an obligation released by a receipt, unless it is released already. -/
def releaseObligation (db : Db) (current : StoredCleanupObligation) (runId leaseId : Uuid) (now : Int) :
    StoreResult Db :=
  if current.reservationReleasedAt.isSome then .ok db
  else do
    ensure (db.runCleanupObligations.rows.countP (heldObligation runId leaseId) = 1) .invalidCleanupReceipt
    return { db with
      runCleanupObligations := db.runCleanupObligations.modify (heldObligation runId leaseId)
        (fun o => { o with reservationReleasedAt := some now, releaseReason := some .removedReceipt })
        (fun _ _ => rfl) }

def releaseCleanupReservationTx (db : Db) (runId leaseId : Uuid) (now : Int) : StoreResult Db := do
  let current ← required (← getCleanupObligationTx db runId) .invalidCleanupReceipt
  ensure (current.leaseId = leaseId) .invalidCleanupReceipt
  let db ← releaseObligation db current runId leaseId now
  let (db, _) ← releaseLease db (some leaseId) now
  return db

/-- Only the removal of an existing workspace frees the reservation. -/
def settleReservation (db : Db) (receipt : CleanupReceipt) (now : Int) : StoreResult Db :=
  if receipt.outcome = .removed then releaseCleanupReservationTx db receipt.runId receipt.leaseId now else .ok db

/-- The receipt answers the acknowledgement that the obligation records. -/
def matchesObligation (receipt : CleanupReceipt) (stored : StoredJob) (o : StoredCleanupObligation) : Bool :=
  o.jobId = stored.job.id && o.runId = receipt.runId && o.leaseId = receipt.leaseId &&
    o.stateVersion = receipt.terminalAck.stateVersion.toNat && o.finalState = receipt.terminalAck.finalState &&
    o.completionSha256 = receipt.terminalAck.completionSha256 &&
    o.terminalAcknowledgedAt = receipt.terminalAck.acknowledgedAt

/-- Stores a receipt that has been matched, or replays the stored one. -/
def storeReceipt (db : Db) (receipt : CleanupReceipt) (receivedAt : DateTime) : StoreResult (Db × StoredCleanup) :=
  match db.runCleanups.find fun r => r.runId = receipt.runId with
  | some existing => do
    ensure (existing.documentSha256 = cleanupSha256 receipt && existing.document = receipt) .cleanupConflict
    let db ← settleReservation db receipt receivedAt.timestamp
    let storedAt ← timestamp existing.receivedAt
    return (db, { receipt := existing.document, receivedAt := storedAt })
  | none => do
    let cleanups ← inserted db.runCleanups
      { runId := receipt.runId, document := receipt, documentSha256 := cleanupSha256 receipt,
        receivedAt := receivedAt.timestamp }
    let db ← settleReservation { db with runCleanups := cleanups } receipt receivedAt.timestamp
    return (db, { receipt, receivedAt })

def recordCleanup (env : Env) (db : Db) (workerCredential runCredential : String) (receipt : CleanupReceipt) :
    StoreResult (Db × StoredCleanup) := do
  receipt.validate.mapError fun _ => .invalidCleanupReceipt
  let receivedAt ← env.second
  let now := receivedAt.timestamp
  let (db, _) ← expireLeases env db now
  let (db, nodeId) ← authorizeCompletionReceiptTx db workerCredential runCredential receipt.runId receipt.leaseId now
  let stored ← getJobByRunId db receipt.runId
  ensure (stored.run.nodeId = some nodeId && stored.run.state = receipt.terminalAck.finalState &&
    stored.version = receipt.terminalAck.stateVersion.toNat) .invalidCleanupReceipt
  let obligation ← required (← getCleanupObligationTx db receipt.runId) .invalidCleanupReceipt
  ensure (matchesObligation receipt stored obligation) .invalidCleanupReceipt
  let completion ← required (db.runCompletions.find fun r => r.runId = receipt.runId) .invalidCleanupReceipt
  ensure (completion.documentSha256 = receipt.terminalAck.completionSha256) .invalidCleanupReceipt
  let completedAt ← timestamp completion.createdAt
  ensure (completedAt = receipt.terminalAck.acknowledgedAt) .invalidCleanupReceipt
  storeReceipt db receipt receivedAt

end CYC
