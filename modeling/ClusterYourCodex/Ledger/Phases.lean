import ClusterYourCodex.Spec.System

/-! The life of a run, seen apart from the statements that move it. A ledger holds for every run the
rows that belong to it. The rows of a run are coherent when they are those of one of seven phases, and
`Step` lists the moves between them. Invariants of the job store are proved here, of these moves; the
modules that follow show that every operation of the store is a sequence of them. -/

namespace CYC

/-- The rows of one run. -/
structure RunRows where
  job : Option JobRow := none
  lease : Option LeaseRow := none
  claim : Option WorkerClaimRow := none
  completion : Option RunCompletionRow := none
  cleanup : Option RunCleanupRow := none
  obligation : Option CleanupObligationRow := none
  chunks : List LogChunkRow := []
  artifacts : List ArtifactRow := []

/-- The rows of every run, and the bytes stored below the object root. -/
structure Ledger where
  rows : Uuid → RunRows
  objects : String → Option (List UInt8)

/-- The node that the binding of a job names. -/
def JobRow.boundNode (j : JobRow) : Option Uuid := j.planBinding.map fun b => b.decision.nodeId

/-- Reserved quantities that a column can hold, with at least one slot. -/
structure LeaseRow.Sized (l : LeaseRow) : Prop where
  slots : 1 ≤ l.slots ∧ l.slots ≤ i64Max
  cpuCores : 0 ≤ l.cpuCores ∧ l.cpuCores ≤ i64Max
  memoryMib : 0 ≤ l.memoryMib ∧ l.memoryMib ≤ i64Max
  diskMib : 0 ≤ l.diskMib ∧ l.diskMib ≤ i64Max
  gpuReserved : 0 ≤ l.gpuReserved ∧ l.gpuReserved ≤ i64Max

/-- Seconds that the calendar can represent. -/
def OnCalendar (seconds : Int) : Prop := (DateTime.ofTimestamp seconds).Representable

/-! ### Phases -/

/-- A run of a valid, bound job and the lease it was given; its instants are not after `T`. -/
structure Leased (T : Int) (r : Uuid) (j : JobRow) (l : LeaseRow) : Prop where
  runId : j.runId = r
  run : j.run.id = r
  runJob : j.run.jobId = j.jobId
  job : j.job.id = j.jobId
  valid : j.job.validate = .ok ()
  bound : ∃ b, j.planBinding = some b ∧ b.validate (some j.job) none = .ok ()
  version : 0 ≤ j.version ∧ j.version ≤ i64Max
  leaseId : j.leaseId = some l.id
  leaseRun : l.runId = r
  leaseJob : l.jobId = j.jobId
  sized : l.Sized
  created : j.run.createdAt.nanos ≤ T
  started : ∀ s, j.run.startedAt = some s → j.run.createdAt.nanos ≤ s.nanos ∧ s.nanos ≤ T

/-- The run is placed on the node of its lease. -/
structure Placed (T : Int) (r : Uuid) (j : JobRow) (l : LeaseRow) : Prop extends Leased T r j l where
  node : j.run.nodeId = some l.nodeId
  boundNode : j.boundNode = some l.nodeId

/-- Queued on a node, whose worker has not claimed it yet. -/
structure Dispatched (T : Int) (r : Uuid) (j : JobRow) (l : LeaseRow) : Prop extends Placed T r j l where
  state : j.run.state = .queued
  cancel : j.cancelRequested = false
  phase : l.phase = .dispatch
  held : l.releasedAt = none

/-- Queued without a node. -/
structure Waiting (T : Int) (r : Uuid) (j : JobRow) (l : LeaseRow) : Prop extends Leased T r j l where
  node : j.run.nodeId = none
  state : j.run.state = .queued
  cancel : j.cancelRequested = false
  phase : l.phase = .dispatch
  released : l.releasedAt ≠ none

/-- Cancelled before a worker claimed it. -/
structure Withdrawn (T : Int) (r : Uuid) (j : JobRow) (l : LeaseRow) : Prop extends Leased T r j l where
  node : j.run.nodeId = none ∨ j.run.nodeId = j.boundNode
  state : j.run.state = .cancelled
  released : l.releasedAt ≠ none

/-- The claim is one on the lease, by its node. -/
structure Claimed (r : Uuid) (l : LeaseRow) (c : WorkerClaimRow) : Prop where
  claimRun : c.runId = r
  claimLease : c.leaseId = l.id
  claimNode : c.nodeId = l.nodeId

def JobState.isActive : JobState → Bool
  | .preparing | .running | .verifying => true
  | _ => false

theorem JobState.isTerminal_of_isActive {s : JobState} (h : s.isActive = true) : s.isTerminal = false := by
  cases s <;> first
    | rfl
    | cases h

theorem JobState.isActive_of_progress {s : JobState} (h : s.isTerminal = false) (hq : s ≠ .queued) : s.isActive = true := by
  cases s <;> first
    | rfl
    | exact absurd rfl hq
    | cases h

/-- In the hands of the worker that claimed it. -/
structure Executing (T : Int) (r : Uuid) (j : JobRow) (l : LeaseRow) (c : WorkerClaimRow) : Prop
    extends Placed T r j l, Claimed r l c where
  state : j.run.state.isActive = true
  phase : l.phase = .execution
  held : l.releasedAt = none
  unrevoked : c.revokedAt = none
  claimExpires : c.expiresAt = l.expiresAt

/-- Failed because its worker went silent. -/
structure Lost (T : Int) (r : Uuid) (j : JobRow) (l : LeaseRow) (c : WorkerClaimRow) : Prop
    extends Placed T r j l, Claimed r l c where
  state : j.run.state = .failed
  released : l.releasedAt ≠ none
  revoked : c.revokedAt ≠ none

/-- The obligation records the acknowledgement of the completion. -/
structure Obliged (r : Uuid) (j : JobRow) (l : LeaseRow) (d : RunCompletionRow) (o : CleanupObligationRow) : Prop where
  completionRun : d.runId = r
  finalState : d.document.finalState = j.run.state
  obligationRun : o.runId = r
  obligationJob : o.jobId = j.jobId
  obligationLease : o.leaseId = l.id
  stateVersion : o.stateVersion = j.version
  obligationState : o.finalState = j.run.state
  completionSha256 : o.completionSha256 = d.documentSha256
  acknowledgedAt : o.terminalAcknowledgedAt = d.createdAt
  acknowledged : OnCalendar o.terminalAcknowledgedAt
  deadline : OnCalendar o.cleanupDeadlineAt

/-- The receipt answers the acknowledgement that the obligation records. -/
structure Answers (x : RunCleanupRow) (o : CleanupObligationRow) : Prop where
  run : x.runId = o.runId
  receiptRun : x.document.runId = o.runId
  receiptLease : x.document.leaseId = o.leaseId
  stateVersion : x.document.terminalAck.stateVersion.toNat = asU64 o.stateVersion
  finalState : x.document.terminalAck.finalState = o.finalState
  completionSha256 : x.document.terminalAck.completionSha256 = o.completionSha256
  acknowledgedAt : x.document.terminalAck.acknowledgedAt = .ofTimestamp o.terminalAcknowledgedAt

/-- What freed the reservation of an obligation: the receipt of a removal, or its deadline. -/
def Freed (o : CleanupObligationRow) (cleanup : Option RunCleanupRow) (t : Int) : Prop :=
  (o.releaseReason = some .removedReceipt ∧ ∃ x, cleanup = some x ∧ x.document.outcome = .removed) ∨
    (o.releaseReason = some .deadlineRecovery ∧ o.cleanupDeadlineAt ≤ t ∧ o.cleanupFailureCode ≠ none)

/-- The columns of an obligation agree with the receipt and with each other. -/
structure Settled (o : CleanupObligationRow) (cleanup : Option RunCleanupRow) : Prop where
  receipt : ∀ x, cleanup = some x → Answers x o
  pending : o.reservationReleasedAt = none → o.releaseReason = none ∧
    ∀ x, cleanup = some x → x.document.outcome ≠ .removed
  freed : ∀ t, o.reservationReleasedAt = some t → OnCalendar t ∧ Freed o cleanup t
  failure : o.cleanupFailureCode.isSome = o.failureObservedAt.isSome
  observed : ∀ t, o.failureObservedAt = some t → OnCalendar t

/-- Finished with a receipt; the lease waits for the workspace to be removed, or has been given back. -/
structure Completed (T : Int) (r : Uuid) (j : JobRow) (l : LeaseRow) (c : WorkerClaimRow) (d : RunCompletionRow)
    (o : CleanupObligationRow) (cleanup : Option RunCleanupRow) : Prop
    extends Placed T r j l, Claimed r l c, Obliged r j l d o, Settled o cleanup where
  terminal : j.run.state.isTerminal = true
  phase : l.phase = .cleanupPending
  revoked : c.revokedAt ≠ none
  released : o.reservationReleasedAt = l.releasedAt

/-- The rows of a run are those of one phase. -/
inductive Coherent (T : Int) (r : Uuid) : RunRows → Prop
  | absent : Coherent T r {}
  | dispatched {j l} : Dispatched T r j l → Coherent T r { job := some j, lease := some l }
  | waiting {j l} : Waiting T r j l → Coherent T r { job := some j, lease := some l }
  | withdrawn {j l} : Withdrawn T r j l → Coherent T r { job := some j, lease := some l }
  | executing {j l c chunks artifacts} : Executing T r j l c →
      Coherent T r { job := some j, lease := some l, claim := some c, chunks, artifacts }
  | lost {j l c chunks artifacts} : Lost T r j l c →
      Coherent T r { job := some j, lease := some l, claim := some c, chunks, artifacts }
  | completed {j l c d o cleanup chunks artifacts} : Completed T r j l c d o cleanup →
      Coherent T r { job := some j, lease := some l, claim := some c, completion := some d, cleanup,
                     obligation := some o, chunks, artifacts }

/-! ### Evidence -/

/-- The observed steps are those of the job, in order, on the shell they name or the node's default. -/
def StepsObserved (job : JobSpec) (steps : List StepExecutionEvidence) : Prop :=
  ∃ os, List.Forall₂ (fun observed (expected : JobStep) =>
    observed.name = expected.name ∧ observed.shell = expected.shell.getD (defaultShell os)) steps job.steps

/-- The source that was run is the one the job names. -/
def SourceResolved (source : SourceSpec) (observed : ExecutionSourceEvidence) : Prop :=
  match source with
  | .git repository revision =>
    observed.kind = "git" ∧ observed.repository = repository ∧ observed.resolvedRevision = revision
  | .snapshot digest _ =>
    observed.kind = "snapshot" ∧ observed.resolvedRevision = digest ∧ observed.tree = digest

/-- The chunks of one stream in the order of their offsets. -/
def RunRows.stream (rows : RunRows) (stream : String) : List LogChunkRow :=
  (rows.chunks.filter fun c => c.stream = stream).insertionSort fun a b => a.chunkOffset ≤ b.chunkOffset

/-- The evidence counts and digests the concatenation of the stored chunks. -/
def StreamStored (objects : String → Option (List UInt8)) (chunks : List LogChunkRow) (e : StreamEvidence) : Prop :=
  ∃ pieces, List.Forall₂ (fun (row : LogChunkRow) piece => objects row.relativePath = some piece) chunks pieces ∧
    e.byteCount.toNat = pieces.flatten.length ∧ e.chunkCount.toNat = chunks.length ∧
    e.sha256 = bytesSha256 pieces.flatten

/-- What the manifest and the store say of an artifact. -/
def ArtifactMetadata.entry (a : ArtifactMetadata) : Uuid × String × Nat × String :=
  (a.id, a.relativePath, a.sizeBytes.toNat, a.sha256)

def ArtifactRow.entry (a : ArtifactRow) : Uuid × String × Nat × String := (a.id, a.name, asU64 a.size, a.sha256)

/-- The completion of a success is borne out by the job and by what is stored of the run. -/
structure Evidenced (objects : String → Option (List UInt8)) (rows : RunRows) (job : JobSpec) (c : RunCompletion) :
    Prop where
  steps : StepsObserved job c.execution.steps
  exits : ∀ s ∈ c.execution.steps, s.exitCode = some 0
  ordered : c.execution.steps.Pairwise fun a b => a.finishedAt.nanos ≤ b.startedAt.nanos
  source : SourceResolved job.source c.execution.source
  stdout : StreamStored objects (rows.stream "stdout") c.execution.streams.stdout
  stderr : StreamStored objects (rows.stream "stderr") c.execution.streams.stderr
  artifacts : ∀ e, e ∈ c.artifacts.map ArtifactMetadata.entry ↔ e ∈ rows.artifacts.map ArtifactRow.entry

/-! ### Moves -/

namespace Ledger

/-- Writes the rows of one run. -/
def set (L : Ledger) (r : Uuid) (rows : RunRows) : Ledger := { L with rows := Function.update L.rows r rows }

/-- Replaces the stored bytes. -/
def store (L : Ledger) (objects : String → Option (List UInt8)) : Ledger := { L with objects }

@[simp] theorem rows_set (L : Ledger) (r : Uuid) (rows : RunRows) : (L.set r rows).rows r = rows :=
  Function.update_self ..

theorem rows_set_of_ne {L : Ledger} {r r' : Uuid} {rows : RunRows} (h : r' ≠ r) : (L.set r rows).rows r' = L.rows r' :=
  Function.update_of_ne h ..

@[simp] theorem set_set (L : Ledger) (r : Uuid) (a b : RunRows) : (L.set r a).set r b = L.set r b := by
  simp [set]

@[simp] theorem set_rows (L : Ledger) (r : Uuid) : L.set r (L.rows r) = L := by
  simp [set]

@[simp] theorem rows_store (L : Ledger) (objects : String → Option (List UInt8)) : (L.store objects).rows = L.rows := rfl

@[simp] theorem store_objects (L : Ledger) : L.store L.objects = L := rfl

/-- No lease holds the node. -/
def Free (L : Ledger) (node : Uuid) : Prop :=
  ∀ r l, (L.rows r).lease = some l → l.releasedAt = none → l.nodeId ≠ node

/-- The moves of a run; `T` bounds the instants it records, and a run that waits for a node can be
withdrawn only if `waiting` holds. -/
inductive Step (T : Int) (waiting : Prop) (L : Ledger) : Ledger → Prop
  | submit {r j l} (absent : L.rows r = {}) (new : Dispatched T r j l) (free : L.Free l.nodeId) :
      Step T waiting L (L.set r { job := some j, lease := some l })
  | requeue {r j j' l l'} (old : L.rows r = { job := some j, lease := some l }) (new : Waiting T r j' l') :
      Step T waiting L (L.set r { job := some j', lease := some l' })
  | redispatch {r j j' l l'} (old : L.rows r = { job := some j, lease := some l }) (new : Dispatched T r j' l')
      (free : L.Free l'.nodeId) : Step T waiting L (L.set r { job := some j', lease := some l' })
  | withdraw {r j j' l l'} (old : L.rows r = { job := some j, lease := some l }) (new : Withdrawn T r j' l')
      (placed : waiting ∨ j'.run.nodeId ≠ none) : Step T waiting L (L.set r { job := some j', lease := some l' })
  | claim {r j j' l l' c} (old : L.rows r = { job := some j, lease := some l }) (held : l.releasedAt = none)
      (new : Executing T r j' l' c) (node : l'.nodeId = l.nodeId) :
      Step T waiting L (L.set r { job := some j', lease := some l', claim := some c })
  | work {r j j' l l' c c' chunks chunks' artifacts artifacts' objects}
      (old : L.rows r = { job := some j, lease := some l, claim := some c, chunks, artifacts })
      (held : l.releasedAt = none) (new : Executing T r j' l' c') (node : l'.nodeId = l.nodeId)
      (grows : ∀ path bytes, L.objects path = some bytes → objects path = some bytes) :
      Step T waiting L ((L.store objects).set r { job := some j', lease := some l', claim := some c',
                                                  chunks := chunks', artifacts := artifacts' })
  | lose {r j j' l l' c c' chunks artifacts}
      (old : L.rows r = { job := some j, lease := some l, claim := some c, chunks, artifacts })
      (new : Lost T r j' l' c') (node : l'.nodeId = l.nodeId) :
      Step T waiting L (L.set r { job := some j', lease := some l', claim := some c', chunks, artifacts })
  | complete {r j j' l l' c c' d o chunks artifacts}
      (old : L.rows r = { job := some j, lease := some l, claim := some c, chunks, artifacts })
      (held : l.releasedAt = none) (new : Completed T r j' l' c' d o none) (node : l'.nodeId = l.nodeId)
      (verified : j'.run.state = .succeeded → Evidenced L.objects { chunks, artifacts } j'.job d.document) :
      Step T waiting L (L.set r { job := some j', lease := some l', claim := some c', completion := some d,
                                  obligation := some o, chunks, artifacts })
  | settle {r j l l' c d o o' cleanup cleanup' chunks artifacts}
      (old : L.rows r = { job := some j, lease := some l, claim := some c, completion := some d, cleanup,
                          obligation := some o, chunks, artifacts })
      (new : Completed T r j l' c d o' cleanup') (node : l'.nodeId = l.nodeId)
      (held : l'.releasedAt = none → l.releasedAt = none)
      (obligation : o.reservationReleasedAt ≠ none → o' = o) (receipt : ∀ x, cleanup = some x → cleanup' = some x) :
      Step T waiting L (L.set r { job := some j, lease := some l', claim := some c, completion := some d,
                                  cleanup := cleanup', obligation := some o', chunks, artifacts })

end Ledger

end CYC
