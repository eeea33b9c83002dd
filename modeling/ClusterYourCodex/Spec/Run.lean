import ClusterYourCodex.Spec.Placement

/-! Runs (`cyc-protocol/src/lib.rs`): the state machine of one execution of a job. -/

namespace CYC

open Checked

inductive JobState where
  | queued
  | preparing
  | running
  | verifying
  | succeeded
  | failed
  | cancelled
  deriving DecidableEq, Repr

namespace JobState

def isTerminal : JobState → Bool
  | succeeded | failed | cancelled => true
  | _ => false

def canTransitionTo : JobState → JobState → Bool
  | queued, next => next = preparing || next = failed || next = cancelled
  | preparing, next => next = running || next = failed || next = cancelled
  | running, next => next = verifying || next = succeeded || next = failed || next = cancelled
  | verifying, next => next = succeeded || next = failed || next = cancelled
  | succeeded, _ | failed, _ | cancelled, _ => false

end JobState

structure Run where
  id : Uuid
  jobId : Uuid
  nodeId : Option Uuid
  state : JobState
  createdAt : DateTime
  startedAt : Option DateTime
  finishedAt : Option DateTime
  exitCode : Option Int32
  error : Option String
  placement : Option PlacementExplain
  artifactIds : List Uuid
  deriving DecidableEq

structure StateTransitionError where
  source : JobState
  target : JobState
  deriving DecidableEq, Repr

inductive RunValidationError where
  | startedBeforeCreated
  | finishedBeforeCreated
  | finishedBeforeStarted
  | missingStartedAt (state : JobState)
  | missingFinishedAt (state : JobState)
  | unexpectedFinishedAt (state : JobState)
  | invalidSuccessExitCode (exitCode : Option Int32)
  | successContainsError
  | failedWithoutEvidence
  deriving DecidableEq

namespace Run

def queued (id jobId : Uuid) (now : DateTime) : Run where
  id := id
  jobId := jobId
  nodeId := none
  state := .queued
  createdAt := now
  startedAt := none
  finishedAt := none
  exitCode := none
  error := none
  placement := none
  artifactIds := []

def transition (run : Run) (next : JobState) (now : DateTime) : Except StateTransitionError Run :=
  if !run.state.canTransitionTo next then .error ⟨run.state, next⟩
  else .ok { run with
    startedAt := if next = .running && run.startedAt.isNone then some now else run.startedAt
    finishedAt := if next.isTerminal then some now else run.finishedAt
    state := next }

/-- The order of the instants of a run. -/
def validateTimes (run : Run) : Except RunValidationError Unit := do
  ensure (run.startedAt.all fun s => run.createdAt.nanos ≤ s.nanos) .startedBeforeCreated
  ensure (run.finishedAt.all fun f => run.createdAt.nanos ≤ f.nanos) .finishedBeforeCreated
  ensure (run.startedAt.all fun s => run.finishedAt.all fun f => s.nanos ≤ f.nanos) .finishedBeforeStarted

def validate (run : Run) : Except RunValidationError Unit := do
  run.validateTimes
  match run.state with
  | .queued | .preparing => ensure run.finishedAt.isNone (.unexpectedFinishedAt run.state)
  | .running | .verifying => do
    ensure run.startedAt.isSome (.missingStartedAt run.state)
    ensure run.finishedAt.isNone (.unexpectedFinishedAt run.state)
  | .succeeded => do
    ensure run.startedAt.isSome (.missingStartedAt run.state)
    ensure run.finishedAt.isSome (.missingFinishedAt run.state)
    ensure (run.exitCode = some 0) (.invalidSuccessExitCode run.exitCode)
    ensure (run.error.all fun e => e = "") .successContainsError
  | .failed => do
    ensure run.finishedAt.isSome (.missingFinishedAt run.state)
    ensure (run.exitCode.any (· ≠ 0) || run.error.any fun e => !Text.blank e) .failedWithoutEvidence
  | .cancelled => ensure run.finishedAt.isSome (.missingFinishedAt run.state)

end Run

end CYC
