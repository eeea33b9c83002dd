import ClusterYourCodex.Spec.Node

/-! Placement evidence (`cyc-protocol`): the explanation a scheduling decision carries and the
immutable plan binding that authorizes one job on one node (`placement_binding.rs`). -/

namespace CYC

open Checked

/-! ### Explanations -/

structure ScoreComponent where
  key : String
  value : Int
  detail : String
  deriving DecidableEq

inductive RejectionCode where
  | disabled
  | offline
  | draining
  | staleNode
  | manualNodeRequired
  | manualNodeMismatch
  | wrongOs
  | wrongArchitecture
  | missingCapability
  | insufficientCpu
  | insufficientMemory
  | insufficientDisk
  | gpuRequired
  | gpuUnavailable
  | gpuVendorMismatch
  | insufficientVram
  | exclusiveGpuUnavailable
  | policyJobKindDenied
  | batteryDisallowed
  | cpuLimitExceeded
  | cpuEwmaLimitExceeded
  | memoryLimitExceeded
  | temperatureLimitExceeded
  | slotLimitReached
  | containmentLimitReached
  deriving DecidableEq, Repr

structure PlacementRejection where
  code : RejectionCode
  detail : String
  deriving DecidableEq

structure PlacementCandidateExplain where
  nodeId : Uuid
  nodeName : String
  eligible : Bool
  score : Option Int
  scoreComponents : List ScoreComponent
  rejectionReasons : List PlacementRejection
  deriving DecidableEq

structure PlacementExplain where
  policy : PlacementPolicy
  selectedNodeId : Option Uuid
  candidates : List PlacementCandidateExplain
  deriving DecidableEq

structure PlacementPlanDecision where
  nodeId : Uuid
  score : Int
  explanation : PlacementExplain
  deriving DecidableEq

/-! ### Plan bindings -/

def placementPlanBindingApiVersion : String := "cyc.dev/placement-plan-binding/v1"

def maxClockSkewSeconds : Int := 30

def maxCandidates : Nat := 256

def maxEvidenceItems : Nat := 64

def maxTextBytes : Nat := 256

def maxSafeJsonI64 : Int := 9007199254740991

structure PlacementPlanBinding where
  apiVersion : String
  planId : Uuid
  jobId : Uuid
  jobDigest : String
  createdAt : DateTime
  expiresAt : DateTime
  fleetRevision : Int
  nodeRevision : Int
  policyRevision : Int
  decision : PlacementPlanDecision
  deriving DecidableEq

inductive PlacementBindingError where
  | unsupportedApiVersion
  | nilPlanId
  | nilJobId
  | nilDecisionNodeId
  | invalidJobDigest
  | negativeFleetRevision
  | fleetRevisionExceedsSafeInteger
  | negativeNodeRevision
  | nodeRevisionExceedsSafeInteger
  | negativePolicyRevision
  | policyRevisionExceedsSafeInteger
  | decisionScoreOutOfRange
  | candidateScoreOutOfRange
  | scoreComponentValueOutOfRange
  | invalidTimeRange
  | createdTooFarInFuture
  | expired
  | expectedJobInvalid
  | expectedJobIdMismatch
  | expectedJobDigestMismatch
  | expectedPolicyMismatch
  | expectedPreferredNodeMismatch
  | explanationSelectedNodeMismatch
  | candidateCountOutOfRange
  | candidateNilNodeId
  | candidateNameInvalid
  | duplicateCandidateNodeId
  | eligibleCandidateMissingScore
  | eligibleCandidateScoreComponentsOutOfRange
  | eligibleCandidateHasRejections
  | ineligibleCandidateHasScore
  | ineligibleCandidateHasScoreComponents
  | ineligibleCandidateRejectionsOutOfRange
  | scoreComponentKeyInvalid
  | scoreComponentDetailInvalid
  | duplicateScoreComponentKey
  | scoreComponentSumOverflow
  | scoreComponentSumOutOfRange
  | scoreComponentSumMismatch
  | rejectionDetailInvalid
  | duplicateRejectionCode
  | selectedCandidateCountMismatch
  | selectedCandidateIneligible
  | decisionScoreMismatch
  | nilRunId
  deriving DecidableEq, Repr

def validText (value : String) : Bool :=
  !Text.blank value && Text.byteCount value ≤ maxTextBytes && !Text.hasControl value

def isLowercaseSha256 (value : String) : Bool := isLowerHex 64 value.toList

def isSafeJsonI64 (value : Int) : Bool := -maxSafeJsonI64 ≤ value && value ≤ maxSafeJsonI64

/-- The component loop: `keys` have been seen and `sum` is the sum so far. Returns the sum. -/
def validateScoreComponents : List String → Int → List ScoreComponent → Except PlacementBindingError Int
  | _, sum, [] => .ok sum
  | keys, sum, c :: cs => do
    ensure (validText c.key) .scoreComponentKeyInvalid
    ensure (validText c.detail) .scoreComponentDetailInvalid
    ensure (!keys.contains c.key) .duplicateScoreComponentKey
    ensure (isSafeJsonI64 c.value) .scoreComponentValueOutOfRange
    ensure (i64Min ≤ sum + c.value && sum + c.value ≤ i64Max) .scoreComponentSumOverflow
    ensure (isSafeJsonI64 (sum + c.value)) .scoreComponentSumOutOfRange
    validateScoreComponents (c.key :: keys) (sum + c.value) cs

def validateEligibleCandidate (candidate : PlacementCandidateExplain) : Except PlacementBindingError Unit :=
  match candidate.score with
  | none => .error .eligibleCandidateMissingScore
  | some score => do
    ensure (isSafeJsonI64 score) .candidateScoreOutOfRange
    ensure (!candidate.scoreComponents.isEmpty && candidate.scoreComponents.length ≤ maxEvidenceItems)
      .eligibleCandidateScoreComponentsOutOfRange
    ensure candidate.rejectionReasons.isEmpty .eligibleCandidateHasRejections
    let sum ← validateScoreComponents [] 0 candidate.scoreComponents
    ensure (sum = score) .scoreComponentSumMismatch

/-- The rejection loop: `codes` have been seen. -/
def validateRejections : List RejectionCode → List PlacementRejection → Except PlacementBindingError Unit
  | _, [] => .ok ()
  | codes, r :: rs => do
    ensure (validText r.detail) .rejectionDetailInvalid
    ensure (!codes.contains r.code) .duplicateRejectionCode
    validateRejections (r.code :: codes) rs

def validateIneligibleCandidate (candidate : PlacementCandidateExplain) : Except PlacementBindingError Unit := do
  ensure candidate.score.isNone .ineligibleCandidateHasScore
  ensure candidate.scoreComponents.isEmpty .ineligibleCandidateHasScoreComponents
  ensure (!candidate.rejectionReasons.isEmpty && candidate.rejectionReasons.length ≤ maxEvidenceItems)
    .ineligibleCandidateRejectionsOutOfRange
  validateRejections [] candidate.rejectionReasons

def validateCandidate (candidate : PlacementCandidateExplain) : Except PlacementBindingError Unit :=
  if candidate.eligible then validateEligibleCandidate candidate else validateIneligibleCandidate candidate

/-- The candidate loop: `nodeIds` have been seen, `selected` is the candidate of the decision's node. -/
def validateCandidates (nodeId : Uuid) : List Uuid → Option PlacementCandidateExplain →
    List PlacementCandidateExplain → Except PlacementBindingError (Option PlacementCandidateExplain)
  | _, selected, [] => .ok selected
  | nodeIds, selected, c :: cs => do
    ensure (!c.nodeId.isNil) .candidateNilNodeId
    ensure (validText c.nodeName) .candidateNameInvalid
    ensure (!nodeIds.contains c.nodeId) .duplicateCandidateNodeId
    validateCandidate c
    if c.nodeId = nodeId then do
      ensure selected.isNone .selectedCandidateCountMismatch
      validateCandidates nodeId (c.nodeId :: nodeIds) (some c) cs
    else validateCandidates nodeId (c.nodeId :: nodeIds) selected cs

def validateExplanation (decision : PlacementPlanDecision) : Except PlacementBindingError Unit := do
  let explanation := decision.explanation
  ensure (explanation.selectedNodeId = some decision.nodeId) .explanationSelectedNodeMismatch
  ensure (!explanation.candidates.isEmpty && explanation.candidates.length ≤ maxCandidates) .candidateCountOutOfRange
  match ← validateCandidates decision.nodeId [] none explanation.candidates with
  | none => .error .selectedCandidateCountMismatch
  | some selected => do
    ensure selected.eligible .selectedCandidateIneligible
    ensure (selected.score = some decision.score) .decisionScoreMismatch

namespace PlacementPlanBinding

/-- The checks of the plan's own fields. -/
def validateFields (b : PlacementPlanBinding) : Except PlacementBindingError Unit := do
  ensure (b.apiVersion = placementPlanBindingApiVersion) .unsupportedApiVersion
  ensure (!b.planId.isNil) .nilPlanId
  ensure (!b.jobId.isNil) .nilJobId
  ensure (!b.decision.nodeId.isNil) .nilDecisionNodeId
  ensure (isLowercaseSha256 b.jobDigest) .invalidJobDigest
  ensure (0 ≤ b.fleetRevision) .negativeFleetRevision
  ensure (b.fleetRevision ≤ maxSafeJsonI64) .fleetRevisionExceedsSafeInteger
  ensure (0 ≤ b.nodeRevision) .negativeNodeRevision
  ensure (b.nodeRevision ≤ maxSafeJsonI64) .nodeRevisionExceedsSafeInteger
  ensure (0 ≤ b.policyRevision) .negativePolicyRevision
  ensure (b.policyRevision ≤ maxSafeJsonI64) .policyRevisionExceedsSafeInteger
  ensure (isSafeJsonI64 b.decision.score) .decisionScoreOutOfRange
  ensure (b.createdAt.nanos < b.expiresAt.nanos) .invalidTimeRange

/-- The checks against the caller's clock. -/
def validateTime (b : PlacementPlanBinding) (now : DateTime) : Except PlacementBindingError Unit := do
  ensure (b.createdAt.nanos ≤ (now.addSeconds maxClockSkewSeconds).nanos) .createdTooFarInFuture
  ensure (now.nanos < b.expiresAt.nanos) .expired

/-- The checks against the job that the plan is expected to bind. -/
def validateJob (b : PlacementPlanBinding) (job : JobSpec) : Except PlacementBindingError Unit := do
  job.validate.mapError fun _ => .expectedJobInvalid
  ensure (b.jobId = job.id) .expectedJobIdMismatch
  ensure (b.jobDigest = canonicalJobDigest job) .expectedJobDigestMismatch
  ensure (b.decision.explanation.policy = job.placementPolicy) .expectedPolicyMismatch
  ensure (job.preferredNodeId.all (· = b.decision.nodeId)) .expectedPreferredNodeMismatch

def validate (b : PlacementPlanBinding) (expectedJob : Option JobSpec) (now : Option DateTime) :
    Except PlacementBindingError Unit := do
  b.validateFields
  checkSome now b.validateTime
  checkSome expectedJob b.validateJob
  validateExplanation b.decision

end PlacementPlanBinding

end CYC
