import ClusterYourCodex.Proofs.Evidence
import ClusterYourCodex.Spec.Dispatch

/-! The binding of a plan to the scheduler's decision. The scheduler treats a preferred node as a bonus
unless placement is manual; the validator of a binding demands that the chosen node is the preferred
one whatever the policy. Everything else that the validator checks the controller has put there. -/

namespace CYC

open Checked

/-! ### What the explanation of a bindable decision says -/

/-- The selected candidate of the loop is the one it started with or a validated one of the decision's
node. -/
theorem validateCandidates_selected {nodeId : Uuid} {seen : List Uuid} {sel : Option PlacementCandidateExplain}
    {cs : List PlacementCandidateExplain} {c : PlacementCandidateExplain}
    (h : validateCandidates nodeId seen sel cs = .ok (some c)) :
    sel = some c ∨ (c.nodeId = nodeId ∧ c.nodeId.isNil = false ∧ validateCandidate c = .ok ()) := by
  induction cs generalizing seen sel with
  | nil =>
    simp only [validateCandidates, Except.ok.injEq] at h
    exact .inl h
  | cons d ds ih =>
    simp only [validateCandidates, seq_eq_ok, ensure_eq_ok, Bool.not_eq_true'] at h
    obtain ⟨hnil, -, -, hd, h⟩ := h
    split at h
    · rename_i hnode
      rw [seq_eq_ok] at h
      rcases ih h.2 with hc | hc
      · cases hc
        exact .inr ⟨hnode, hnil, hd⟩
      · exact .inr hc
    · exact ih h

theorem safe_score_of_eligible {c : PlacementCandidateExplain} {score : Int} (h : validateCandidate c = .ok ())
    (he : c.eligible = true) (hs : c.score = some score) : isSafeJsonI64 score = true := by
  simp only [validateCandidate, he, if_true, validateEligibleCandidate, hs, seq_eq_ok, ensure_eq_ok] at h
  exact h.1

/-- A decision whose explanation is valid names a real node and a score every JSON reader keeps. -/
theorem validateExplanation_decision {d : PlacementPlanDecision} (h : validateExplanation d = .ok ()) :
    d.nodeId.isNil = false ∧ isSafeJsonI64 d.score = true := by
  simp only [validateExplanation, seq_eq_ok] at h
  obtain ⟨-, -, h⟩ := h
  rw [bind_eq_ok] at h
  obtain ⟨selected, hloop, h⟩ := h
  cases selected with
  | none => cases h
  | some c =>
    simp only [seq_eq_ok, ensure_eq_ok, decide_eq_true_eq] at h
    rcases validateCandidates_selected hloop with hc | ⟨hnode, hnil, hc⟩
    · cases hc
    · exact ⟨hnode ▸ hnil, safe_score_of_eligible hc h.1 h.2⟩

theorem isLowercaseSha256_hex (message : List Nat) : isLowercaseSha256 (Sha256.hex message) = true := by
  simp only [isLowercaseSha256, isLowerHex, Sha256.length_hex, decide_true, Bool.true_and, List.all_eq_true]
  intro c hc
  rcases Sha256.hex_isHex message c hc with h | h
  · simp [Text.isLowerHexDigit, Text.isAsciiDigit, h.1, h.2]
  · simp [Text.isLowerHexDigit, h.1, h.2]

/-! ### Bindings -/

/-- A plan column that an exact JSON integer can carry. -/
def SafeRevision (revision : Int) : Prop := 0 ≤ revision ∧ revision ≤ maxSafeJsonI64

instance (revision : Int) : Decidable (SafeRevision revision) := inferInstanceAs (Decidable (_ ∧ _))

namespace PlacementPlanBinding

variable {b : PlacementPlanBinding} {job : Option JobSpec} {now : Option DateTime}

theorem validate_eq_ok {u : Unit} :
    b.validate job now = .ok u ↔ b.validateFields = .ok () ∧ checkSome now b.validateTime = .ok () ∧
      checkSome job b.validateJob = .ok () ∧ validateExplanation b.decision = .ok () := by
  simp only [validate, seq_eq_ok]

theorem validate_timeless (h : b.validate job now = .ok ()) : b.validate job none = .ok () := by
  rw [validate_eq_ok] at h ⊢
  exact ⟨h.1, rfl, h.2.2.1, h.2.2.2⟩

end PlacementPlanBinding

/-- The fields of the binding for a decision, before it is validated. -/
def bindingFor (planId : Uuid) (job : JobSpec) (jobDigest : String) (decision : PlacementPlanDecision)
    (createdAt : DateTime) (fleetRevision nodeRevision policyRevision : Int) : PlacementPlanBinding where
  apiVersion := placementPlanBindingApiVersion
  planId := planId
  jobId := job.id
  jobDigest := jobDigest
  createdAt := createdAt
  expiresAt := createdAt.addSeconds planTtlSeconds
  fleetRevision := fleetRevision
  nodeRevision := nodeRevision
  policyRevision := policyRevision
  decision := decision

section NewBinding

variable {planId : Uuid} {job : JobSpec} {digest : String} {decision : PlacementPlanDecision} {createdAt : DateTime}
  {fleet node policy : Int} {b : PlacementPlanBinding}

theorem newPlanBinding_def : newPlanBinding planId job digest decision createdAt fleet node policy = (do
      ((bindingFor planId job digest decision createdAt fleet node policy).validate (some job)
        (some createdAt)).mapError fun _ => StoreError.invalidPlanBinding
      return bindingFor planId job digest decision createdAt fleet node policy) := rfl

theorem newPlanBinding_eq_ok : newPlanBinding planId job digest decision createdAt fleet node policy = .ok b ↔
      b = bindingFor planId job digest decision createdAt fleet node policy ∧
        b.validate (some job) (some createdAt) = .ok () := by
  simp only [newPlanBinding_def, seq_eq_ok, mapError_eq_ok, pure_eq_ok]
  constructor
  · rintro ⟨hv, rfl⟩
    exact ⟨rfl, hv⟩
  · rintro ⟨rfl, hv⟩
    exact ⟨hv, rfl⟩

/-- The one error of a refused binding. -/
theorem newPlanBinding_eq_error {e : StoreError}
    (h : newPlanBinding planId job digest decision createdAt fleet node policy = .error e) : e = .invalidPlanBinding := by
  rw [newPlanBinding_def, bind_eq_error] at h
  rcases h with h | ⟨_, _, h⟩
  · obtain ⟨_, _, he⟩ := mapError_eq_error.1 h
    exact he.symm
  · cases h

/-- With revisions in range and a plan identifier of its own, a binding of a normalized job is refused
only for its explanation or for a preference that the decision does not follow. -/
theorem validate_bindingFor_iff (hplan : planId.isNil = false) (hid : job.id.isNil = false)
    (hjob : job.validate = .ok ()) (hpolicy : decision.explanation.policy = job.placementPolicy)
    (hfleet : SafeRevision fleet) (hnode : SafeRevision node) (hrev : SafeRevision policy) :
    (bindingFor planId job (canonicalJobDigest job) decision createdAt fleet node policy).validate (some job)
        (some createdAt) = .ok () ↔
      (job.preferredNodeId = none ∨ job.preferredNodeId = some decision.nodeId) ∧
        validateExplanation decision = .ok () := by
  have hdigest : isLowercaseSha256 (canonicalJobDigest job) = true := isLowercaseSha256_hex _
  have hprefers : (job.preferredNodeId.all fun n => decide (n = decision.nodeId)) = true ↔
      job.preferredNodeId = none ∨ job.preferredNodeId = some decision.nodeId := by
    cases job.preferredNodeId <;> simp
  have htime : (bindingFor planId job (canonicalJobDigest job) decision createdAt fleet node policy).validateTime
      createdAt = .ok () := by
    have hskew : createdAt.nanos ≤ (createdAt.addSeconds maxClockSkewSeconds).nanos :=
      Int.le_add_of_nonneg_right (by decide)
    have hlife : createdAt.nanos < (createdAt.addSeconds planTtlSeconds).nanos := Int.lt_add_of_pos_right _ (by decide)
    simp [PlacementPlanBinding.validateTime, bindingFor, hskew, hlife]
  rw [PlacementPlanBinding.validate_eq_ok, checkSome_some, checkSome_some]
  constructor
  · rintro ⟨-, -, hvj, hex⟩
    simp only [PlacementPlanBinding.validateJob, seq_eq_ok, ensure_eq_ok, bindingFor] at hvj
    exact ⟨hprefers.1 hvj.2.2.2.2, hex⟩
  · rintro ⟨hpref, hex⟩
    obtain ⟨hnil, hscore⟩ := validateExplanation_decision hex
    refine ⟨?_, htime, ?_, hex⟩
    · have hlife : createdAt.nanos < (createdAt.addSeconds planTtlSeconds).nanos :=
        Int.lt_add_of_pos_right _ (by decide)
      simp [PlacementPlanBinding.validateFields, bindingFor, hplan, hid, hnil, hdigest, hscore, hfleet.1, hfleet.2,
        hnode.1, hnode.2, hrev.1, hrev.2, hlife]
    · have hall := hprefers.2 hpref
      simp only [PlacementPlanBinding.validateJob, bindingFor, seq_eq_ok, mapError_eq_ok, ensure_eq_ok, hjob, hpolicy,
        decide_true, true_and]
      exact hall

end NewBinding

/-- For a schedulable job whose decision is well explained, the binding is refused exactly when the job
prefers a node that the scheduler did not choose. -/
theorem plan_binding_valid_iff {scheduler : Scheduler} {job : JobSpec} {nodes : List SchedulingNode} {t : DateTime}
    {d : PlacementPlanDecision} {planId : Uuid} {createdAt : DateTime} {fleet node policy : Int}
    (hplan : planId ≠ .nil) (hid : job.id ≠ .nil)
    (hd : scheduler.scheduleContextsAt (normalizeJobSpec job) nodes t = .ok d) (hex : validateExplanation d = .ok ())
    (hfleet : SafeRevision fleet) (hnode : SafeRevision node) (hpolicy : SafeRevision policy) :
    (∃ b, newPlanBinding planId (normalizeJobSpec job) (canonicalJobDigest (normalizeJobSpec job)) d createdAt fleet
        node policy = .ok b ∧ b.validate (some (normalizeJobSpec job)) (some createdAt) = .ok ()) ↔
      job.preferredNodeId = none ∨ job.preferredNodeId = some d.nodeId := by
  obtain ⟨hjob, -, -, -, -, -, hpol, -⟩ := scheduleContextsAt_eq_ok hd
  have hplan : planId.isNil = false := by simpa [Uuid.isNil] using hplan
  have hid : (normalizeJobSpec job).id.isNil = false := by simpa [Uuid.isNil, normalizeJobSpec_id] using hid
  have hiff : _ ↔ _ := @validate_bindingFor_iff planId _ d createdAt fleet node policy hplan hid hjob hpol hfleet hnode
    hpolicy
  rw [normalizeJobSpec_preferredNodeId] at hiff
  refine Iff.trans ⟨?_, ?_⟩ (hiff.trans (and_iff_left hex))
  · rintro ⟨b, hb, hv⟩
    rw [(newPlanBinding_eq_ok.1 hb).1] at hv
    exact hv
  · intro hv
    exact ⟨_, newPlanBinding_eq_ok.2 ⟨rfl, hv⟩, hv⟩

/-- A balanced job that prefers a node the fleet does not have: the scheduler places it, with a valid
explanation, and the binding is refused. -/
theorem preferring_another_node_unbindable :
    (sampleJob ⟨7⟩ .empty (some ⟨9⟩)).validate = .ok () ∧ (sampleJob ⟨7⟩ .empty (some ⟨9⟩)).placementPolicy = .balanced ∧
      ∃ d, Scheduler.default.scheduleContextsAt (normalizeJobSpec (sampleJob ⟨7⟩ .empty (some ⟨9⟩))) capableAndPlain
          epoch = .ok d ∧ d.nodeId = ⟨1⟩ ∧ validateExplanation d = .ok () ∧
        newPlanBinding ⟨3⟩ (normalizeJobSpec (sampleJob ⟨7⟩ .empty (some ⟨9⟩)))
          (canonicalJobDigest (normalizeJobSpec (sampleJob ⟨7⟩ .empty (some ⟨9⟩)))) d epoch 0 0 3 =
          .error .invalidPlanBinding := by
  refine ⟨by decide +kernel, rfl, _, rfl, by decide +kernel, by decide +kernel, ?_⟩
  cases h : newPlanBinding ⟨3⟩ (normalizeJobSpec (sampleJob ⟨7⟩ .empty (some ⟨9⟩)))
      (canonicalJobDigest (normalizeJobSpec (sampleJob ⟨7⟩ .empty (some ⟨9⟩)))) _ epoch 0 0 3 with
  | error e => rw [newPlanBinding_eq_error h]
  | ok b =>
    -- the preference is checked after the digest, which need not be computed to see it fail
    have hv := (newPlanBinding_eq_ok.1 h)
    rw [hv.1] at hv
    have hj := (PlacementPlanBinding.validate_eq_ok.1 hv.2).2.2.1
    simp only [checkSome_some, PlacementPlanBinding.validateJob, seq_eq_ok, ensure_eq_ok] at hj
    exact absurd hj.2.2.2.2 (by decide +kernel)

theorem plan_binding_valid_of_preferred :
    ∃ d, Scheduler.default.scheduleContextsAt (normalizeJobSpec (sampleJob ⟨7⟩ .empty (some ⟨1⟩))) capableAndPlain
        epoch = .ok d ∧
      ((∃ b, newPlanBinding ⟨3⟩ (normalizeJobSpec (sampleJob ⟨7⟩ .empty (some ⟨1⟩)))
          (canonicalJobDigest (normalizeJobSpec (sampleJob ⟨7⟩ .empty (some ⟨1⟩)))) d epoch 0 0 3 = .ok b ∧
          b.validate (some (normalizeJobSpec (sampleJob ⟨7⟩ .empty (some ⟨1⟩)))) (some epoch) = .ok ()) ↔
        (some ⟨1⟩ : Option Uuid) = none ∨ some ⟨1⟩ = some d.nodeId) :=
  ⟨_, rfl, @plan_binding_valid_iff .default (sampleJob ⟨7⟩ .empty (some ⟨1⟩)) capableAndPlain epoch _ ⟨3⟩ epoch 0 0 3
    (by decide) (by decide) rfl (by decide +kernel) (by decide) (by decide) (by decide)⟩

end CYC
