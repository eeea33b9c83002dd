import ClusterYourCodex.Spec.Run

/-! The documents a managed worker sends (`cyc-protocol/src/worker.rs`, `cyc-protocol/src/cleanup.rs`):
enrollment probes, node reports, the execution receipt that completes a run and the receipt for the
removal of its workspace, each with the checks made before the store sees it. -/

namespace CYC

open Checked

def workerApiVersion : String := "cyc.dev/worker/v1"

inductive WorkerValidationError where
  | unsupportedWorkerApiVersion (version : String)
  | invalidNodeReport (reason : String)
  | invalidRunEvidence (reason : String)
  | duplicateArtifactId
  | invalidExecutionEvidence (reason : String)
  | invalidStreamEvidence (reason : String)
  | invalidArtifactPath (source : PortablePathError)
  | gitMetadataArtifact
  | invalidArtifactDigest
  | invalidMediaType
  | nonTerminalCompletion
  | artifactRunMismatch
  | artifactManifestMismatch
  deriving DecidableEq

/-! ### Probes and reports -/

structure ProbeReport where
  observedAt : DateTime
  hostname : String
  os : OperatingSystem
  arch : Architecture
  capabilities : Capabilities
  resources : NodeResources
  load : NodeLoad
  deriving DecidableEq

/-- The node document the worker routes build from a probe before they call the store. -/
def nodeFromProbe (id : Uuid) (displayName : Option String) (probe : ProbeReport) (endpoint : String)
    (daemonActive : Bool) : Node where
  id := id
  name := displayName.getD probe.hostname
  enabled := true
  transport := .managed endpoint "controller-db:managed-worker"
  os := probe.os
  arch := probe.arch
  status := if daemonActive then .online else .offline
  capabilities := probe.capabilities
  resources := probe.resources
  load := probe.load
  priority := 0
  labels := .empty
  cachedSources := .empty
  lastSeenAt := if daemonActive then some probe.observedAt else none

structure NodeReportRequest where
  apiVersion : String
  inventory : Option NodeInventory
  telemetry : NodeTelemetry
  deriving DecidableEq

def NodeReportRequest.validateInventory (telemetry : NodeTelemetry) (inventory : NodeInventory) :
    Except WorkerValidationError Unit := do
  inventory.validate.mapError fun _ => .invalidNodeReport "invalid inventory"
  ensure (inventory.logicalCpuCores ≠ 0 && inventory.memoryMib ≠ 0 && inventory.diskMib ≠ 0)
    (.invalidNodeReport "inventory totals must be greater than zero")
  (telemetry.validate inventory).mapError fun _ => .invalidNodeReport "inventory mismatch"

def NodeReportRequest.validate (report : NodeReportRequest) : Except WorkerValidationError Unit := do
  ensure (report.apiVersion = workerApiVersion) (.unsupportedWorkerApiVersion report.apiVersion)
  ensure (!report.telemetry.bootId.isNil) (.invalidNodeReport "bootId must be non-nil")
  ensure (report.telemetry.sequence ≠ 0) (.invalidNodeReport "sequence must be greater than zero")
  ensure (report.telemetry.bootGeneration.toNat ≤ maxSafeJsonInteger &&
      report.telemetry.sequence.toNat ≤ maxSafeJsonInteger)
    (.invalidNodeReport
      "bootGeneration and sequence must not exceed the exact JSON integer limit 9007199254740991")
  report.telemetry.validateShape.mapError fun _ => .invalidNodeReport "invalid telemetry"
  checkSome report.inventory (NodeReportRequest.validateInventory report.telemetry)

/-! ### The execution receipt -/

structure RunEvidence where
  startedAt : Option DateTime
  finishedAt : Option DateTime
  exitCode : Option Int32
  error : Option String
  artifactIds : List Uuid
  deriving DecidableEq

def RunEvidence.validateFor (evidence : RunEvidence) (state : JobState) : Except WorkerValidationError Unit := do
  ensure evidence.artifactIds.Nodup .duplicateArtifactId
  ensure (evidence.startedAt.all fun s => evidence.finishedAt.all fun f => s.nanos ≤ f.nanos)
    (.invalidRunEvidence "finishedAt must not be earlier than startedAt")
  match state with
  | .succeeded =>
    ensure (evidence.startedAt.isSome && evidence.finishedAt.isSome && evidence.exitCode = some 0 &&
        evidence.error.all fun e => e = "")
      (.invalidRunEvidence "succeeded requires startedAt, finishedAt, exitCode 0, and no error")
  | .failed =>
    ensure (evidence.finishedAt.isSome &&
        (evidence.exitCode.any (· ≠ 0) || evidence.error.any fun e => !Text.blank e))
      (.invalidRunEvidence "failed requires finishedAt and a non-zero exitCode or non-empty error")
  | .cancelled => ensure evidence.finishedAt.isSome (.invalidRunEvidence "cancelled requires finishedAt")
  | .running | .verifying =>
    ensure (evidence.startedAt.isSome && evidence.finishedAt.isNone)
      (.invalidRunEvidence "active states require startedAt and no finishedAt")
  | .queued | .preparing =>
    ensure evidence.finishedAt.isNone (.invalidRunEvidence "queued/preparing states must not contain finishedAt")

/-- A complete Git object id: 40 or 64 lowercase hexadecimal digits. -/
def validObjectId (value : String) : Bool := isLowerHex 40 value.toList || isLowerHex 64 value.toList

structure ExecutionSourceEvidence where
  kind : String
  repository : String
  requestedRevision : String
  resolvedRevision : String
  tree : String
  gitVersion : String
  deriving DecidableEq

namespace ExecutionSourceEvidence

/-- Neither the revision nor the tree was resolved. -/
def unresolved (e : ExecutionSourceEvidence) : Bool := e.resolvedRevision = "" && e.tree = ""

def validateGit (e : ExecutionSourceEvidence) : Except WorkerValidationError Unit :=
  ensure (validObjectId e.requestedRevision && (e.resolvedRevision = "" || validObjectId e.resolvedRevision) &&
      (e.tree = "" || validObjectId e.tree))
    (.invalidExecutionEvidence "Git revisions and tree must be complete lowercase object IDs")

def validateSnapshot (e : ExecutionSourceEvidence) : Except WorkerValidationError Unit :=
  let resolved := e.resolvedRevision = e.requestedRevision && e.tree = e.requestedRevision
  ensure (e.repository = "snapshot" && e.gitVersion = "not-applicable" && (e.unresolved || resolved) &&
      (stripPrefix "sha256:".toList e.requestedRevision.toList).any (isLowerHex 64))
    (.invalidExecutionEvidence "snapshot source identity is invalid")

def validate (e : ExecutionSourceEvidence) : Except WorkerValidationError Unit := do
  ensure (!Text.blank e.kind && !Text.blank e.repository && !Text.blank e.gitVersion && !Text.hasControl e.kind &&
      !Text.hasControl e.repository && !Text.hasControl e.gitVersion && Text.byteCount e.gitVersion ≤ 512)
    (.invalidExecutionEvidence "source identity contains an empty, control, or oversized field")
  if e.kind = "git" then e.validateGit
  else if e.kind = "snapshot" then e.validateSnapshot
  else .error (.invalidExecutionEvidence "source kind is unsupported")

end ExecutionSourceEvidence

inductive TerminationReason where
  | exited
  | timedOut
  | cancelRequested
  | leaseLost
  | transportFailure
  | sourcePreparationFailed
  | executionFailed
  | artifactVerificationFailed
  deriving DecidableEq, Repr

structure StepExecutionEvidence where
  index : UInt32
  name : String
  shell : Shell
  startedAt : DateTime
  finishedAt : DateTime
  exitCode : Option Int32
  termination : TerminationReason
  deriving DecidableEq

def StepExecutionEvidence.validate (step : StepExecutionEvidence) : Except WorkerValidationError Unit := do
  ensure (!Text.blank step.name && !Text.hasControl step.name)
    (.invalidExecutionEvidence "step name is empty or contains a control character")
  ensure (step.startedAt.nanos ≤ step.finishedAt.nanos)
    (.invalidExecutionEvidence "step finishedAt precedes startedAt")

structure StreamEvidence where
  byteCount : UInt64
  sha256 : String
  truncated : Bool
  chunkCount : UInt64
  deriving DecidableEq

def emptySha256 : String := "e3b0c44298fc1c149afbf4c8996fb92427ae41e4649b934ca495991b7852b855"

def StreamEvidence.validate (stream : StreamEvidence) : Except WorkerValidationError Unit := do
  ensure (isLowerHex 64 stream.sha256.toList) (.invalidStreamEvidence "invalid sha256")
  ensure (decide (stream.byteCount = 0) == decide (stream.chunkCount = 0))
    (.invalidStreamEvidence "byteCount and chunkCount zero state is inconsistent")
  ensure (stream.byteCount ≠ 0 || stream.sha256 = emptySha256)
    (.invalidStreamEvidence "empty stream must use the SHA-256 of empty bytes")

structure RunStreamsEvidence where
  stdout : StreamEvidence
  stderr : StreamEvidence
  deriving DecidableEq

def RunStreamsEvidence.validate (streams : RunStreamsEvidence) : Except WorkerValidationError Unit := do
  streams.stdout.validate
  streams.stderr.validate

structure TerminationEvidence where
  reason : TerminationReason
  processTreeTerminated : Bool
  forcedKill : Bool
  rootExitCode : Option Int32
  signal : Option Int32
  observedAt : DateTime
  deriving DecidableEq

def TerminationEvidence.validate (t : TerminationEvidence) : Except WorkerValidationError Unit := do
  ensure (!t.forcedKill || t.processTreeTerminated)
    (.invalidExecutionEvidence "forcedKill requires processTreeTerminated")
  ensure (t.signal.all fun signal => 0 < signal) (.invalidExecutionEvidence "signal must be positive when present")
  ensure (t.processTreeTerminated ||
      !(t.reason = .timedOut || t.reason = .cancelRequested || t.reason = .leaseLost))
    (.invalidExecutionEvidence "cancel and timeout termination must cover the process tree")

structure ExecutionEvidence where
  source : ExecutionSourceEvidence
  steps : List StepExecutionEvidence
  streams : RunStreamsEvidence
  termination : TerminationEvidence
  deriving DecidableEq

/-- The step loop; `index` is the position of the next step. -/
def validateSteps : Nat → List StepExecutionEvidence → Except WorkerValidationError Unit
  | _, [] => .ok ()
  | index, step :: steps => do
    step.validate
    ensure (step.index.toNat = index)
      (.invalidExecutionEvidence "step indices must start at zero and be contiguous")
    validateSteps (index + 1) steps

def ExecutionEvidence.validate (execution : ExecutionEvidence) : Except WorkerValidationError Unit := do
  execution.source.validate
  execution.streams.validate
  execution.termination.validate
  validateSteps 0 execution.steps

structure ArtifactMetadata where
  id : Uuid
  runId : Uuid
  relativePath : String
  sizeBytes : UInt64
  sha256 : String
  mediaType : Option String
  createdAt : DateTime
  deriving DecidableEq

def ArtifactMetadata.validate (artifact : ArtifactMetadata) : Except WorkerValidationError Unit := do
  (validatePortableRelativePath artifact.relativePath).mapError .invalidArtifactPath
  ensure (!hasLiteralGitSegment artifact.relativePath) .gitMetadataArtifact
  ensure (isLowerHex 64 artifact.sha256.toList) .invalidArtifactDigest
  ensure (artifact.mediaType.all fun m => !Text.blank m && !Text.hasControl m) .invalidMediaType

structure RunCompletion where
  runId : Uuid
  leaseId : Uuid
  expectedVersion : UInt64
  finalState : JobState
  evidence : RunEvidence
  execution : ExecutionEvidence
  artifacts : List ArtifactMetadata
  deriving DecidableEq

namespace RunCompletion

/-- What a successful completion must show of its processes. -/
def cleanExit (c : RunCompletion) : Bool :=
  c.execution.termination.reason = .exited && c.execution.termination.rootExitCode = some 0 &&
    !c.execution.termination.forcedKill &&
    c.execution.steps.all fun step => step.exitCode = some 0 && step.termination = .exited

def validate (c : RunCompletion) : Except WorkerValidationError Unit := do
  ensure c.finalState.isTerminal .nonTerminalCompletion
  c.evidence.validateFor c.finalState
  c.execution.validate
  ensure c.execution.termination.processTreeTerminated
    (.invalidExecutionEvidence "terminal completion must prove process-tree cleanup")
  ensure (c.execution.termination.rootExitCode = c.evidence.exitCode)
    (.invalidExecutionEvidence "termination rootExitCode must match run exitCode")
  ensure (c.evidence.finishedAt.all fun f => f.nanos ≤ c.execution.termination.observedAt.nanos)
    (.invalidExecutionEvidence "termination observedAt precedes run finishedAt")
  ensure (c.finalState ≠ .succeeded || c.cleanExit)
    (.invalidExecutionEvidence "succeeded completion requires clean exited execution evidence")
  ensure (c.artifacts.all fun a => a.runId = c.runId) .artifactRunMismatch
  c.artifacts.forM ArtifactMetadata.validate
  ensure ((c.artifacts.map ArtifactMetadata.id).Nodup && (c.artifacts.map ArtifactMetadata.relativePath).Nodup &&
      c.evidence.artifactIds.Nodup &&
      (c.artifacts.map ArtifactMetadata.id).toFinset = c.evidence.artifactIds.toFinset)
    .artifactManifestMismatch

end RunCompletion

/-! ### The cleanup receipt -/

def cleanupApiVersion : String := "cyc.dev/cleanup/v1"

inductive CleanupValidationError where
  | unsupportedApiVersion
  | invalidIdentifier
  | invalidCompletionDigest
  | nonTerminalAck
  | bindingMismatch
  | outcomeMismatch
  | cleanupBeforeAck
  deriving DecidableEq, Repr

structure TerminalCompletionAck where
  runId : Uuid
  leaseId : Uuid
  completionSha256 : String
  stateVersion : UInt64
  finalState : JobState
  acknowledgedAt : DateTime
  deriving DecidableEq

def TerminalCompletionAck.validate (ack : TerminalCompletionAck) : Except CleanupValidationError Unit := do
  ensure (!ack.runId.isNil && !ack.leaseId.isNil) .invalidIdentifier
  ensure (isLowerHex 64 ack.completionSha256.toList) .invalidCompletionDigest
  ensure ack.finalState.isTerminal .nonTerminalAck

inductive JobRootCleanupOutcome where
  | removed
  | notCreated
  deriving DecidableEq, Repr

structure CleanupReceipt where
  apiVersion : String
  runId : Uuid
  leaseId : Uuid
  relativeRoot : String
  outcome : JobRootCleanupOutcome
  jobRootDeleted : Bool
  observedAt : DateTime
  terminalAck : TerminalCompletionAck
  deriving DecidableEq

def CleanupReceipt.validate (receipt : CleanupReceipt) : Except CleanupValidationError Unit := do
  ensure (receipt.apiVersion = cleanupApiVersion) .unsupportedApiVersion
  receipt.terminalAck.validate
  ensure (receipt.runId = receipt.terminalAck.runId && receipt.leaseId = receipt.terminalAck.leaseId &&
      receipt.relativeRoot = "jobs/" ++ receipt.runId.hyphenated) .bindingMismatch
  ensure (receipt.jobRootDeleted == decide (receipt.outcome = .removed)) .outcomeMismatch
  ensure (receipt.terminalAck.acknowledgedAt.nanos ≤ receipt.observedAt.nanos) .cleanupBeforeAck

/-! ### The documents -/

namespace Encode

open Json (optionalEntry)

def i32 (i : Int32) : Json := .int i.toInt

def jobState : JobState → Json
  | .queued => .str "queued"
  | .preparing => .str "preparing"
  | .running => .str "running"
  | .verifying => .str "verifying"
  | .succeeded => .str "succeeded"
  | .failed => .str "failed"
  | .cancelled => .str "cancelled"

def terminationReason : TerminationReason → Json
  | .exited => .str "exited"
  | .timedOut => .str "timed_out"
  | .cancelRequested => .str "cancel_requested"
  | .leaseLost => .str "lease_lost"
  | .transportFailure => .str "transport_failure"
  | .sourcePreparationFailed => .str "source_preparation_failed"
  | .executionFailed => .str "execution_failed"
  | .artifactVerificationFailed => .str "artifact_verification_failed"

def runEvidence (e : RunEvidence) : Json :=
  .obj (optionalEntry "startedAt" DateTime.toJson e.startedAt ++ optionalEntry "finishedAt" DateTime.toJson e.finishedAt ++
    optionalEntry "exitCode" i32 e.exitCode ++ optionalEntry "error" .str e.error ++
    [("artifactIds", .arr (e.artifactIds.map uuid))])

def executionSource (e : ExecutionSourceEvidence) : Json :=
  .obj [("kind", .str e.kind), ("repository", .str e.repository), ("requestedRevision", .str e.requestedRevision),
    ("resolvedRevision", .str e.resolvedRevision), ("tree", .str e.tree), ("gitVersion", .str e.gitVersion)]

def stepExecution (s : StepExecutionEvidence) : Json :=
  .obj [("index", u32 s.index), ("name", .str s.name), ("shell", shell s.shell), ("startedAt", s.startedAt.toJson),
    ("finishedAt", s.finishedAt.toJson), ("exitCode", nullable i32 s.exitCode),
    ("termination", terminationReason s.termination)]

def stream (s : StreamEvidence) : Json :=
  .obj [("byteCount", u64 s.byteCount), ("sha256", .str s.sha256), ("truncated", .bool s.truncated),
    ("chunkCount", u64 s.chunkCount)]

def termination (t : TerminationEvidence) : Json :=
  .obj [("reason", terminationReason t.reason), ("processTreeTerminated", .bool t.processTreeTerminated),
    ("forcedKill", .bool t.forcedKill), ("rootExitCode", nullable i32 t.rootExitCode),
    ("signal", nullable i32 t.signal), ("observedAt", t.observedAt.toJson)]

def execution (e : ExecutionEvidence) : Json :=
  .obj [("source", executionSource e.source), ("steps", .arr (e.steps.map stepExecution)),
    ("streams", .obj [("stdout", stream e.streams.stdout), ("stderr", stream e.streams.stderr)]),
    ("termination", termination e.termination)]

def artifactMetadata (a : ArtifactMetadata) : Json :=
  .obj ([("id", uuid a.id), ("runId", uuid a.runId), ("relativePath", .str a.relativePath),
    ("sizeBytes", u64 a.sizeBytes), ("sha256", .str a.sha256)] ++ optionalEntry "mediaType" .str a.mediaType ++
    [("createdAt", a.createdAt.toJson)])

def runCompletion (c : RunCompletion) : Json :=
  .obj [("runId", uuid c.runId), ("leaseId", uuid c.leaseId), ("expectedVersion", u64 c.expectedVersion),
    ("finalState", jobState c.finalState), ("evidence", runEvidence c.evidence), ("execution", execution c.execution),
    ("artifacts", .arr (c.artifacts.map artifactMetadata))]

def terminalAck (a : TerminalCompletionAck) : Json :=
  .obj [("runId", uuid a.runId), ("leaseId", uuid a.leaseId), ("completionSha256", .str a.completionSha256),
    ("stateVersion", u64 a.stateVersion), ("finalState", jobState a.finalState),
    ("acknowledgedAt", a.acknowledgedAt.toJson)]

def cleanupOutcome : JobRootCleanupOutcome → Json
  | .removed => .str "removed"
  | .notCreated => .str "not_created"

def cleanupReceipt (r : CleanupReceipt) : Json :=
  .obj [("apiVersion", .str r.apiVersion), ("runId", uuid r.runId), ("leaseId", uuid r.leaseId),
    ("relativeRoot", .str r.relativeRoot), ("outcome", cleanupOutcome r.outcome),
    ("jobRootDeleted", .bool r.jobRootDeleted), ("observedAt", r.observedAt.toJson),
    ("terminalAck", terminalAck r.terminalAck)]

end Encode

end CYC
