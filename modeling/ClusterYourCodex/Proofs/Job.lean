import ClusterYourCodex.Spec.Job

/-! What a validated job promises the scheduler and the store, and that normalization keeps both the
validity and the digest of a job. -/

namespace CYC

open Checked

theorem JobSpec.validate_resourceRequest {job : JobSpec} (h : job.validate = .ok ()) {request : ResourceRequest}
    (hr : job.resourceRequest = some request) : validateResourceRequest request job.requirements = .ok () := by
  simp only [JobSpec.validate, seq_eq_ok, hr, checkSome_some] at h
  obtain ⟨-, -, -, -, -, -, -, -, -, -, hrequest, -⟩ := h
  exact hrequest

/-- Every valid job asks for at least one slot. -/
theorem JobSpec.one_le_slots {job : JobSpec} (h : job.validate = .ok ()) :
    1 ≤ job.effectiveResourceRequest.slots.toNat := by
  unfold JobSpec.effectiveResourceRequest
  cases hr : job.resourceRequest with
  | none => exact le_refl 1
  | some request =>
    have := JobSpec.validate_resourceRequest h hr
    simp only [validateResourceRequest, seq_eq_ok, ensure_eq_ok, decide_eq_true_eq] at this
    obtain ⟨hslots, -⟩ := this
    rw [Option.getD_some, Nat.one_le_iff_ne_zero]
    exact fun h0 => hslots (UInt32.toNat_inj.1 h0)

/-- A device that a valid job names has printable text. -/
theorem JobSpec.deviceId_printable {job : JobSpec} (h : job.validate = .ok ()) {request : GpuResourceRequest}
    {deviceId : String} (hr : job.effectiveResourceRequest.gpu = some request) (hd : request.deviceId = some deviceId) :
    Text.hasControl deviceId = false := by
  unfold JobSpec.effectiveResourceRequest at hr
  cases hrr : job.resourceRequest with
  | none =>
    -- the legacy requirements name no device
    rw [hrr, Option.getD_none, resourceRequestFromLegacy, Option.map_eq_some_iff] at hr
    obtain ⟨gpu, -, rfl⟩ := hr
    cases hd
  | some full =>
    have := JobSpec.validate_resourceRequest h hrr
    rw [hrr, Option.getD_some] at hr
    simp only [validateResourceRequest, seq_eq_ok, ensure_eq_ok, hr, Option.all_some, hd, validGpuDeviceId,
      Bool.and_eq_true, Bool.not_eq_true'] at this
    obtain ⟨-, -, -, ⟨-, hcontrol⟩, -⟩ := this
    exact hcontrol

/-! ### Normalization -/

@[simp] theorem normalizeJobSpec_id (job : JobSpec) : (normalizeJobSpec job).id = job.id := by
  unfold normalizeJobSpec
  split <;> rfl

@[simp] theorem normalizeJobSpec_preferredNodeId (job : JobSpec) :
    (normalizeJobSpec job).preferredNodeId = job.preferredNodeId := by
  unfold normalizeJobSpec
  split <;> rfl

end CYC
