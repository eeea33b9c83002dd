import Mathlib.Data.Prod.Lex
import ClusterYourCodex.Proofs.Admission

/-! What the scheduler chooses. A node fits a job by conditions on the two alone; the scheduler takes the best fitting
node whatever the order of the list, up to one place: where the sum of slots saturates, a node without room is taken
for one that fits. -/

namespace CYC

open Checked

/-! ### What a job asks of a node -/

def JobSpec.requestedSlots (job : JobSpec) : Nat := ((job.resourceRequest.map ResourceRequest.slots).getD 1).toNat

/-- The explicit request for a GPU. -/
def JobSpec.requestedGpu (job : JobSpec) : Option GpuResourceRequest := job.resourceRequest.bind ResourceRequest.gpu

/-- A GPU is asked for by the kind of the job, its requirements or its request. -/
def JobSpec.AsksGpu (job : JobSpec) : Prop := job.kind = .gpu ∨ job.requirements.gpu ≠ none ∨ job.requestedGpu ≠ none

/-- The device at a position is one that the job can have. -/
structure MeetsGpu (job : JobSpec) (n : SchedulingNode) (index : Nat) (gpu : GpuDevice) : Prop where
  allocatable : gpu.allocatable = true
  requiredVendor : ∀ g ∈ job.requirements.gpu, ∀ vendor ∈ g.vendor, gpu.vendor = vendor
  requestedVendor : ∀ r ∈ job.requestedGpu, ∀ vendor ∈ r.vendor, gpu.vendor = vendor
  requiredVram : ∀ g ∈ job.requirements.gpu, ∀ minimum ∈ g.minVramMib, minimum ≤ gpu.availableVramMib
  requestedVram : ∀ r ∈ job.requestedGpu, r.vramMib ≤ gpu.availableVramMib
  device : ∀ r ∈ job.requestedGpu, ∀ deviceId ∈ r.deviceId, (n.gpuDeviceIds[index]?).join = some deviceId
  unreserved : ∀ r ∈ job.effectiveResourceRequest.gpu, r.exclusive = true → (n.gpuActiveReservations[index]?).getD 0 = 0

/-- Everything but the slots. -/
structure Suits (job : JobSpec) (n : SchedulingNode) (t : DateTime) (ttl : Int) : Prop extends Welcomes job n t ttl where
  capabilities : ∀ c ∈ job.requirements.capabilities.elems, c ∈ n.node.capabilities.elems
  requiredCores : job.requirements.minCpuCores.getD 1 ≤ n.node.resources.availableCpuCores
  requestedCores : ∀ r ∈ job.resourceRequest, r.cpuCores ≤ n.node.resources.availableCpuCores
  requiredMemory : job.requirements.minMemoryMib.getD 0 ≤ n.node.resources.availableMemoryMib
  requestedMemory : ∀ r ∈ job.resourceRequest, r.memoryMib ≤ n.node.resources.availableMemoryMib
  requiredDisk : job.requirements.minDiskMib.getD 0 ≤ n.node.resources.availableDiskMib
  requestedDisk : ∀ r ∈ job.resourceRequest, r.diskMib ≤ n.node.resources.availableDiskMib
  gpu : job.AsksGpu → ∃ index gpu, n.node.resources.gpus[index]? = some gpu ∧ MeetsGpu job n index gpu

/-- There is room for the slots of the job, by the configuration and by the containment. -/
structure HasRoom (job : JobSpec) (n : SchedulingNode) : Prop where
  configured : n.activeSlots.toNat + job.requestedSlots ≤ n.configuredMaxSlots.toNat
  contained : n.activeSlots.toNat + job.requestedSlots ≤ n.containmentMaxSafeSlots.toNat

/-- The node fits the job. -/
structure Fits (job : JobSpec) (n : SchedulingNode) (t : DateTime) (ttl : Int) : Prop extends Suits job n t ttl, HasRoom job n

/-- The node lacks room, but both limits are the greatest number of 32 bits, at which the sum of slots stops. -/
structure Crammed (job : JobSpec) (n : SchedulingNode) (t : DateTime) (ttl : Int) : Prop extends Suits job n t ttl where
  configured : n.configuredMaxSlots.toNat = u32Max
  contained : n.containmentMaxSafeSlots.toNat = u32Max
  full : u32Max < n.activeSlots.toNat + job.requestedSlots

/-! ### Devices -/

section Devices

variable {job : JobSpec} {n : SchedulingNode} {request : GpuResourceRequest}

variable {index : Nat} {gpu : GpuDevice} {requirement : GpuRequirement}

theorem gpuAvailable_iff : gpuAvailable n request index gpu = true ↔
    gpu.allocatable = true ∧ request.vramMib ≤ gpu.availableVramMib ∧ (∀ vendor ∈ request.vendor, gpu.vendor = vendor) ∧
      (∀ deviceId ∈ request.deviceId, (n.gpuDeviceIds[index]?).join = some deviceId) ∧
      (request.exclusive = true → (n.gpuActiveReservations[index]?).getD 0 = 0) := by
  have hvendor : request.vendor.all (fun vendor => decide (vendor = gpu.vendor)) = true ↔ ∀ vendor ∈ request.vendor, gpu.vendor = vendor := by
    cases request.vendor <;> simp [eq_comm]
  have hdevice : request.deviceId.all (fun requested => decide ((n.gpuDeviceIds[index]?).join = some requested)) = true ↔
      ∀ deviceId ∈ request.deviceId, (n.gpuDeviceIds[index]?).join = some deviceId := by
    cases request.deviceId <;> simp
  have hexclusive : (!request.exclusive || decide ((n.gpuActiveReservations[index]?).getD 0 = 0)) = true ↔
      (request.exclusive = true → (n.gpuActiveReservations[index]?).getD 0 = 0) := by
    cases request.exclusive <;> simp
  rw [gpuAvailable, Bool.and_eq_true, Bool.and_eq_true, Bool.and_eq_true, Bool.and_eq_true, hvendor, hdevice, hexclusive,
    decide_eq_true_eq]
  simp only [and_assoc]

/-- The loop of the scheduler stops at a device that can take the request. The induction is on the devices left. -/
theorem searchGpus_eq_none {gpus : List GpuDevice} {seen : GpuSearch} : searchGpus n request index seen gpus = none ↔
      ∃ i gpu, gpus[i]? = some gpu ∧ gpuAvailable n request (index + i) gpu = true := by
  induction gpus generalizing index seen with
  | nil => simp [searchGpus]
  | cons gpu gpus ih =>
    have hrest : (∃ i g, (gpu :: gpus)[i]? = some g ∧ gpuAvailable n request (index + i) g = true) ↔
        gpuAvailable n request index gpu = true ∨ ∃ i g, gpus[i]? = some g ∧ gpuAvailable n request (index + 1 + i) g = true := by
      constructor
      · rintro ⟨i, g, hg, ha⟩
        cases i with
        | zero =>
          cases hg
          exact .inl ha
        | succ i => exact .inr ⟨i, g, hg, by rwa [Nat.add_assoc, Nat.add_comm 1 i]⟩
      · rintro (ha | ⟨i, g, hg, ha⟩)
        · exact ⟨0, gpu, rfl, ha⟩
        · exact ⟨i + 1, g, hg, by rwa [Nat.add_comm i 1, ← Nat.add_assoc]⟩
    have hskip : gpuAvailable n request index gpu = false → ∀ seen,
        (searchGpus n request (index + 1) seen gpus = none ↔
          ∃ i g, (gpu :: gpus)[i]? = some g ∧ gpuAvailable n request (index + i) g = true) := by
      intro hfalse seen
      rw [hrest, ih, hfalse]
      simp
    rw [searchGpus]
    split_ifs with hother hdenied hreserved hvram
    · refine hskip ?_ _
      rw [← Bool.not_eq_true, gpuAvailable_iff]
      rintro ⟨-, -, hvendor, hdevice, -⟩
      rw [Bool.or_eq_true, Option.any_eq_true, Option.any_eq_true] at hother
      rcases hother with ⟨vendor, hmem, hne⟩ | ⟨deviceId, hmem, hne⟩
      · exact of_decide_eq_true hne (hvendor vendor hmem)
      · exact of_decide_eq_true hne (hdevice deviceId hmem)
    · refine hskip ?_ _
      rw [← Bool.not_eq_true, gpuAvailable_iff]
      rintro ⟨hallocatable, -⟩
      rw [hallocatable] at hdenied
      cases hdenied
    · refine hskip ?_ _
      rw [← Bool.not_eq_true, gpuAvailable_iff]
      rintro ⟨-, -, -, -, hfree⟩
      rw [Bool.and_eq_true, decide_eq_true_eq] at hreserved
      rw [hfree hreserved.1] at hreserved
      exact absurd hreserved.2 (by decide)
    · rw [hrest]
      refine iff_of_true rfl (.inl (gpuAvailable_iff.2 ⟨?_, hvram, ?_, ?_, ?_⟩))
      · simpa using hdenied
      · intro vendor hvendor
        by_contra hne
        refine hother ?_
        rw [Bool.or_eq_true, Option.any_eq_true]
        exact .inl ⟨vendor, hvendor, decide_eq_true hne⟩
      · intro deviceId hdevice
        by_contra hne
        refine hother ?_
        rw [Bool.or_eq_true, Option.any_eq_true, Option.any_eq_true]
        exact .inr ⟨deviceId, hdevice, decide_eq_true hne⟩
      · intro hexclusive
        by_contra hne
        refine hreserved ?_
        rw [Bool.and_eq_true, decide_eq_true_eq]
        exact ⟨hexclusive, UInt32.pos_iff_ne_zero.2 hne⟩
    · refine hskip ?_ _
      rw [← Bool.not_eq_true, gpuAvailable_iff]
      rintro ⟨-, henough, -⟩
      exact hvram henough

theorem gpuResourceRejections_eq_nil : gpuResourceRejections n request = [] ↔
    ∃ i gpu, n.node.resources.gpus[i]? = some gpu ∧ gpuAvailable n request i gpu = true := by
  unfold gpuResourceRejections
  split
  · rename_i hempty
    rw [List.isEmpty_iff.1 hempty]
    simp
  · have hsearch : searchGpus n request 0 ⟨false, false, 0⟩ n.node.resources.gpus = none ↔ _ := searchGpus_eq_none
    simp only [Nat.zero_add] at hsearch
    rw [← hsearch]
    split
    · rename_i hnone
      exact iff_of_true rfl hnone
    · rename_i seen hsome
      rw [hsome]
      refine iff_of_false ?_ nofun
      split_ifs
      · cases request.deviceId <;> nofun
      all_goals nofun

theorem gpuRejections_eq_nil {node : Node} : gpuRejections node requirement = [] ↔
    ∃ gpu ∈ node.resources.gpus, gpu.allocatable = true ∧ (∀ vendor ∈ requirement.vendor, gpu.vendor = vendor) ∧
      ∀ minimum ∈ requirement.minVramMib, minimum ≤ gpu.availableVramMib := by
  unfold gpuRejections
  split
  · rename_i hempty
    rw [List.isEmpty_iff.1 hempty]
    simp
  · have hmem : ∀ gpu, gpu ∈ ((node.resources.gpus.filter fun gpu => requirement.vendor.all (gpu.vendor = ·)).filter
        GpuDevice.allocatable).filter (fun gpu => requirement.minVramMib.all (· ≤ gpu.availableVramMib)) ↔
        gpu ∈ node.resources.gpus ∧ gpu.allocatable = true ∧ (∀ vendor ∈ requirement.vendor, gpu.vendor = vendor) ∧
          ∀ minimum ∈ requirement.minVramMib, minimum ≤ gpu.availableVramMib := by
      intro gpu
      rw [List.mem_filter, List.mem_filter, List.mem_filter, Option.all_eq_true, Option.all_eq_true]
      simp only [decide_eq_true_eq]
      tauto
    rw [← exists_congr hmem, ← List.isEmpty_eq_false_iff_exists_mem]
    dsimp only
    split_ifs with hvendors hallocatable hexclusive
    · rw [List.isEmpty_iff.1 hvendors]
      simp
    · rw [List.isEmpty_iff.1 hallocatable]
      simp
    · rw [List.isEmpty_iff.1 hallocatable]
      simp
    · rw [reject_eq_nil]

/-- What a validated request adds to the requirements it stands beside. -/
theorem gpu_not_weaker (hvalid : job.validate = .ok ()) {full : ResourceRequest} (hfull : job.resourceRequest = some full)
    (hrequired : job.requirements.gpu = some requirement) :
    ∃ r, full.gpu = some r ∧ requirement.minVramMib.getD 0 ≤ r.vramMib ∧ ∀ vendor ∈ requirement.vendor, r.vendor = some vendor := by
  have h := JobSpec.validate_resourceRequest hvalid hfull
  simp only [validateResourceRequest, seq_eq_ok] at h
  obtain ⟨-, -, -, -, h⟩ := h
  rw [hrequired] at h
  cases hgpu : full.gpu with
  | none =>
    rw [hgpu] at h
    cases h
  | some r =>
    rw [hgpu] at h
    simp only [validateGpuRequest, seq_eq_ok, ensure_eq_ok, Bool.not_eq_true', Bool.or_eq_false_iff, decide_eq_false_iff_not,
      UInt64.not_lt] at h
    obtain ⟨⟨⟨hvram, -⟩, hvendors⟩, hnamed⟩ := h
    refine ⟨r, rfl, hvram, fun vendor hvendor => ?_⟩
    rw [hvendor] at hvendors hnamed
    cases hr : r.vendor with
    | none =>
      rw [hr] at hnamed
      cases hnamed
    | some requested =>
      rw [hr] at hvendors
      simp only [decide_eq_false_iff_not, not_not] at hvendors
      rw [hvendors]

theorem getD_zero_le {minimum : Option UInt64} {available : UInt64} :
    minimum.getD 0 ≤ available ↔ ∀ m ∈ minimum, m ≤ available := by
  cases minimum with
  | none | some => simp

/-- The effective request asks for what the requirements and the explicit request do. -/
theorem gpuAvailable_iff_meets (hvalid : job.validate = .ok ()) {r : GpuResourceRequest}
    (hrequest : job.effectiveResourceRequest.gpu = some r) :
    gpuAvailable n r index gpu = true ↔ MeetsGpu job n index gpu := by
  rw [gpuAvailable_iff]
  have hexclusive : (∀ r ∈ job.effectiveResourceRequest.gpu, r.exclusive = true → (n.gpuActiveReservations[index]?).getD 0 = 0) ↔
      (r.exclusive = true → (n.gpuActiveReservations[index]?).getD 0 = 0) := by
    rw [hrequest]
    simp
  cases hfull : job.resourceRequest with
  | none =>
    have hnone : job.requestedGpu = none := by rw [JobSpec.requestedGpu, hfull, Option.bind_none]
    have hlegacy := hrequest
    rw [JobSpec.effectiveResourceRequest, hfull, Option.getD_none, resourceRequestFromLegacy, Option.map_eq_some_iff] at hlegacy
    obtain ⟨g, hg, rfl⟩ := hlegacy
    constructor
    · rintro ⟨hallocatable, hvram, hvendor, -, hfree⟩
      refine ⟨hallocatable, ?_, ?_, ?_, ?_, ?_, hexclusive.2 hfree⟩
      · rw [hg]
        rintro _ ⟨⟩
        exact hvendor
      · rw [hnone]
        rintro _ ⟨⟩
      · rw [hg]
        rintro _ ⟨⟩
        exact getD_zero_le.1 hvram
      · rw [hnone]
        rintro _ ⟨⟩
      · rw [hnone]
        rintro _ ⟨⟩
    · intro h
      exact ⟨h.allocatable, getD_zero_le.2 (h.requiredVram g hg), h.requiredVendor g hg, by rintro _ ⟨⟩, hexclusive.1 h.unreserved⟩
  | some full =>
    have hexplicit := hrequest
    rw [JobSpec.effectiveResourceRequest, hfull, Option.getD_some] at hexplicit
    have hsome : job.requestedGpu = some r := by rw [JobSpec.requestedGpu, hfull, Option.bind_some, hexplicit]
    constructor
    · rintro ⟨hallocatable, hvram, hvendor, hdevice, hfree⟩
      have hrequired : ∀ g ∈ job.requirements.gpu, (∀ vendor ∈ g.vendor, gpu.vendor = vendor) ∧
          ∀ minimum ∈ g.minVramMib, minimum ≤ gpu.availableVramMib := by
        intro g hg
        obtain ⟨r', hr', hless, hsame⟩ := gpu_not_weaker hvalid hfull hg
        cases hexplicit.symm.trans hr'
        exact ⟨fun vendor hmem => hvendor vendor (hsame vendor hmem), getD_zero_le.1 (UInt64.le_trans hless hvram)⟩
      refine ⟨hallocatable, fun g hg => (hrequired g hg).1, ?_, fun g hg => (hrequired g hg).2, ?_, ?_, hexclusive.2 hfree⟩
      · rw [hsome]
        rintro _ ⟨⟩
        exact hvendor
      · rw [hsome]
        rintro _ ⟨⟩
        exact hvram
      · rw [hsome]
        rintro _ ⟨⟩
        exact hdevice
    · intro h
      exact ⟨h.allocatable, h.requestedVram r hsome, h.requestedVendor r hsome, h.device r hsome, hexclusive.1 h.unreserved⟩

/-- A request is effective if one is stated, in either way. -/
theorem effective_gpu_eq_none (hvalid : job.validate = .ok ()) : job.effectiveResourceRequest.gpu = none ↔
    job.requirements.gpu = none ∧ job.requestedGpu = none := by
  unfold JobSpec.effectiveResourceRequest JobSpec.requestedGpu
  cases hfull : job.resourceRequest with
  | none => simp [resourceRequestFromLegacy]
  | some full =>
    rw [Option.getD_some, Option.bind_some]
    refine ⟨fun hnone => ⟨?_, hnone⟩, And.right⟩
    cases hrequired : job.requirements.gpu with
    | none => rfl
    | some g =>
      obtain ⟨r, hr, -⟩ := gpu_not_weaker hvalid hfull hrequired
      cases hnone.symm.trans hr

/-- The scheduler's two paths ask for the devices that the job can have. -/
theorem gpuReasons_eq_nil (hvalid : job.validate = .ok ()) : gpuReasons job n = [] ↔
    (job.AsksGpu → ∃ index gpu, n.node.resources.gpus[index]? = some gpu ∧ MeetsGpu job n index gpu) := by
  unfold gpuReasons
  cases hrequest : job.effectiveResourceRequest.gpu with
  | some r =>
    have hasks : job.AsksGpu := by
      by_contra hno
      rw [JobSpec.AsksGpu, not_or, not_or, not_not, not_not] at hno
      rw [(effective_gpu_eq_none hvalid).2 hno.2] at hrequest
      cases hrequest
    simp only [gpuResourceRejections_eq_nil, gpuAvailable_iff_meets hvalid hrequest]
    exact ⟨fun h _ => h, fun h => h hasks⟩
  | none =>
    obtain ⟨hrequired, hrequested⟩ := (effective_gpu_eq_none hvalid).1 hrequest
    have hmeets : ∀ index gpu, MeetsGpu job n index gpu ↔ gpu.allocatable = true := by
      intro index gpu
      refine ⟨MeetsGpu.allocatable, fun hallocatable => ⟨hallocatable, ?_, ?_, ?_, ?_, ?_, ?_⟩⟩
      · rw [hrequired]
        nofun
      · rw [hrequested]
        nofun
      · rw [hrequired]
        nofun
      · rw [hrequested]
        nofun
      · rw [hrequested]
        nofun
      · rw [hrequest]
        nofun
    have hasks : job.AsksGpu ↔ job.kind = .gpu := by
      unfold JobSpec.AsksGpu
      simp [hrequired, hrequested]
    rw [hrequired]
    simp only [hmeets, hasks]
    split_ifs with hkind
    · rw [gpuRejections_eq_nil]
      simp only [hkind, true_implies, implicitGpuRequirement]
      constructor
      · rintro ⟨gpu, hgpu, hallocatable, -⟩
        obtain ⟨index, hindex⟩ := List.mem_iff_getElem?.1 hgpu
        exact ⟨index, gpu, hindex, hallocatable⟩
      · rintro ⟨index, gpu, hindex, hallocatable⟩
        exact ⟨gpu, List.mem_of_getElem? hindex, hallocatable, nofun, nofun⟩
    · simp [hkind]

end Devices

/-! ### Rejections and fitting -/

section Fitting

variable {job : JobSpec} {n : SchedulingNode} {t : DateTime} {ttl : Int}

/-- The effective request is at least what is required and what is requested. -/
theorem effective_le (hvalid : job.validate = .ok ()) (cores : UInt32) (memory disk : UInt64) :
    (job.effectiveResourceRequest.cpuCores ≤ cores ↔
      job.requirements.minCpuCores.getD 1 ≤ cores ∧ ∀ r ∈ job.resourceRequest, r.cpuCores ≤ cores) ∧
    (job.effectiveResourceRequest.memoryMib ≤ memory ↔
      job.requirements.minMemoryMib.getD 0 ≤ memory ∧ ∀ r ∈ job.resourceRequest, r.memoryMib ≤ memory) ∧
    (job.effectiveResourceRequest.diskMib ≤ disk ↔
      job.requirements.minDiskMib.getD 0 ≤ disk ∧ ∀ r ∈ job.resourceRequest, r.diskMib ≤ disk) := by
  unfold JobSpec.effectiveResourceRequest
  cases hfull : job.resourceRequest with
  | none => simp [resourceRequestFromLegacy]
  | some full =>
    have h := JobSpec.validate_resourceRequest hvalid hfull
    simp only [validateResourceRequest, seq_eq_ok, ensure_eq_ok, Bool.not_eq_true', Bool.or_eq_false_iff,
      decide_eq_false_iff_not, UInt32.not_lt, UInt64.not_lt] at h
    obtain ⟨-, -, ⟨⟨hcores, hmemory⟩, hdisk⟩, -⟩ := h
    simp only [Option.getD_some, Option.mem_def, Option.some.injEq, forall_eq']
    exact ⟨⟨fun h => ⟨UInt32.le_trans hcores h, h⟩, And.right⟩, ⟨fun h => ⟨UInt64.le_trans hmemory h, h⟩, And.right⟩,
      ⟨fun h => ⟨UInt64.le_trans hdisk h, h⟩, And.right⟩⟩

theorem requestedSlots_eq (job : JobSpec) : job.requestedSlots = job.effectiveResourceRequest.slots.toNat := by
  unfold JobSpec.requestedSlots JobSpec.effectiveResourceRequest
  cases job.resourceRequest <;> rfl

/-- The slot check lets a node pass that has room, or at which the sum stops short of the truth. -/
theorem slots_iff (hvalid : job.validate = .ok ()) :
    (n.effectiveSlots ≠ 0 ∧ satU32 (n.activeSlots.toNat + job.effectiveResourceRequest.slots.toNat) ≤ n.effectiveSlots.toNat) ↔
      HasRoom job n ∨ (n.configuredMaxSlots.toNat = u32Max ∧ n.containmentMaxSafeSlots.toNat = u32Max ∧
        u32Max < n.activeSlots.toNat + job.requestedSlots) := by
  have hone := JobSpec.one_le_slots hvalid
  have hmin : n.effectiveSlots.toNat = min n.configuredMaxSlots.toNat n.containmentMaxSafeSlots.toNat := by
    have hle := Std.le_min_iff.1 (UInt32.le_refl n.effectiveSlots)
    have h₁ := UInt32.le_iff_toNat_le.1 hle.1
    have h₂ := UInt32.le_iff_toNat_le.1 hle.2
    have hcases : n.effectiveSlots = n.configuredMaxSlots ∨ n.effectiveSlots = n.containmentMaxSafeSlots := by
      change (if _ then _ else _) = _ ∨ (if _ then _ else _) = _
      split
      · exact .inl rfl
      · exact .inr rfl
    rcases hcases with h | h
    · rw [h] at h₁ h₂ ⊢
      omega
    · rw [h] at h₁ h₂ ⊢
      omega
  have hzero : n.effectiveSlots ≠ 0 ↔ n.effectiveSlots.toNat ≠ 0 := by
    rw [ne_eq, ne_eq, ← UInt32.toNat_inj]
    rfl
  have hconfigured := n.configuredMaxSlots.toNat_lt
  have hcontained := n.containmentMaxSafeSlots.toNat_lt
  rw [hzero, hmin]
  have hroom : HasRoom job n ↔ n.activeSlots.toNat + job.effectiveResourceRequest.slots.toNat ≤ n.configuredMaxSlots.toNat ∧
      n.activeSlots.toNat + job.effectiveResourceRequest.slots.toNat ≤ n.containmentMaxSafeSlots.toNat := by
    rw [← requestedSlots_eq]
    exact ⟨fun h => ⟨h.configured, h.contained⟩, fun h => ⟨h.1, h.2⟩⟩
  rw [hroom, requestedSlots_eq]
  unfold satU32 u32Max
  omega

theorem capabilities_iff : missingCapabilities job n.node = [] ↔
    ∀ c ∈ job.requirements.capabilities.elems, c ∈ n.node.capabilities.elems := by
  rw [missingCapabilities, List.eq_nil_iff_forall_not_mem]
  simp only [OrdSet.mem_difference, not_and, not_not]

/-- A node is rejected for no reason exactly if it fits the job or is crammed. -/
theorem admissible_iff (hvalid : job.validate = .ok ()) : Admissible job n t ttl ↔ Fits job n t ttl ∨ Crammed job n t ttl := by
  have hresources := effective_le hvalid n.node.resources.availableCpuCores n.node.resources.availableMemoryMib
    n.node.resources.availableDiskMib
  obtain ⟨hcores, hmemory, hdisk⟩ := hresources
  constructor
  · intro h
    have hsuits : Suits job n t ttl :=
      { h with
        capabilities := capabilities_iff.1 h.capabilities
        requiredCores := (hcores.1 h.cores).1
        requestedCores := (hcores.1 h.cores).2
        requiredMemory := (hmemory.1 h.memory).1
        requestedMemory := (hmemory.1 h.memory).2
        requiredDisk := (hdisk.1 h.disk).1
        requestedDisk := (hdisk.1 h.disk).2
        gpu := (gpuReasons_eq_nil hvalid).1 h.gpu }
    rcases (slots_iff hvalid).1 ⟨h.safe, h.slots⟩ with hroom | ⟨hconfigured, hcontained, hfull⟩
    · exact .inl ⟨hsuits, hroom⟩
    · exact .inr ⟨hsuits, hconfigured, hcontained, hfull⟩
  · intro h
    have hsuits : Suits job n t ttl := by
      rcases h with h | h
      · exact h.toSuits
      · exact h.toSuits
    have hslots := (slots_iff hvalid).2 (by
      rcases h with h | h
      · exact .inl h.toHasRoom
      · exact .inr ⟨h.configured, h.contained, h.full⟩)
    exact
      { hsuits with
        safe := hslots.1
        slots := hslots.2
        capabilities := capabilities_iff.2 hsuits.capabilities
        cores := hcores.2 ⟨hsuits.requiredCores, hsuits.requestedCores⟩
        memory := hmemory.2 ⟨hsuits.requiredMemory, hsuits.requestedMemory⟩
        disk := hdisk.2 ⟨hsuits.requiredDisk, hsuits.requestedDisk⟩
        gpu := (gpuReasons_eq_nil hvalid).2 hsuits.gpu }

end Fitting

/-! ### Selection -/

/-- The order in which candidates are preferred: by score, then by the lower identifier. -/
def PlacementCandidateExplain.rank (c : PlacementCandidateExplain) : Int ×ₗ Int :=
  toLex (c.score.getD i64Min, -(c.nodeId.value.toNat : Int))

variable {a b : PlacementCandidateExplain} {cs cs' : List PlacementCandidateExplain}

theorem compareCandidates_eq_gt : compareCandidates a b = .gt ↔ b.rank < a.rank := by
  rw [compareCandidates, Ordering.then_eq_gt, compare_gt_iff_gt, compare_eq_iff_eq, Uuid.compare, compare_gt_iff_gt,
    PlacementCandidateExplain.rank, PlacementCandidateExplain.rank, Prod.Lex.toLex_lt_toLex]
  constructor
  all_goals
    rintro (h | ⟨he, h⟩)
    · exact .inl h
    · exact .inr ⟨he.symm, by omega⟩

/-- The fold keeps a candidate that none exceeds. -/
theorem maxCandidate_spec {best : PlacementCandidateExplain}
    (h : maxCandidate cs = some best) : best ∈ cs ∧ ∀ c ∈ cs, c.rank ≤ best.rank := by
  refine ⟨maxCandidate_mem h, ?_⟩
  cases cs with
  | nil => cases h
  | cons first cs =>
    rw [maxCandidate, Option.some.injEq] at h
    subst h
    induction cs generalizing first with
    | nil =>
      intro c hc
      rw [List.mem_singleton.1 hc]
      exact le_rfl
    | cons second cs ih =>
      rw [List.foldl_cons]
      have hboth : first.rank ≤ (if compareCandidates first second = .gt then first else second).rank ∧
          second.rank ≤ (if compareCandidates first second = .gt then first else second).rank := by
        split_ifs with hgt
        · exact ⟨le_rfl, (compareCandidates_eq_gt.1 hgt).le⟩
        · rw [compareCandidates_eq_gt, not_lt] at hgt
          exact ⟨hgt, le_rfl⟩
      have hrest := ih (if compareCandidates first second = .gt then first else second)
      have hhead := hrest _ List.mem_cons_self
      intro c hc
      rcases List.mem_cons.1 hc with rfl | hc
      · exact hboth.1.trans hhead
      · rcases List.mem_cons.1 hc with rfl | hc
        · exact hboth.2.trans hhead
        · exact hrest c (List.mem_cons_of_mem _ hc)

theorem maxCandidate_eq_none : maxCandidate cs = none ↔ cs = [] := by
  cases cs <;> simp [maxCandidate]

theorem uuid_eq_of_value {a b : Uuid} (h : a.value = b.value) : a = b := by
  cases a
  cases b
  cases h
  rfl

/-- Candidates of different nodes have different ranks. -/
theorem rank_injOn (hids : (cs.map PlacementCandidateExplain.nodeId).Nodup) (ha : a ∈ cs) (hb : b ∈ cs) (h : a.rank = b.rank) : a = b := by
  have hsecond : (-(a.nodeId.value.toNat : Int)) = -(b.nodeId.value.toNat : Int) := congrArg (fun x => (ofLex x).2) h
  have hid : a.nodeId = b.nodeId := uuid_eq_of_value (BitVec.eq_of_toNat_eq (by omega))
  exact List.inj_on_of_nodup_map hids ha hb hid

/-- So the choice does not depend on the order of the candidates. -/
theorem maxCandidate_perm (hids : (cs.map PlacementCandidateExplain.nodeId).Nodup)
    (hperm : cs'.Perm cs) : maxCandidate cs' = maxCandidate cs := by
  cases h : maxCandidate cs with
  | none =>
    rw [maxCandidate_eq_none] at h
    subst h
    rw [hperm.eq_nil]
    rfl
  | some best =>
    cases h' : maxCandidate cs' with
    | none =>
      rw [maxCandidate_eq_none] at h'
      subst h'
      rw [hperm.symm.eq_nil] at h
      cases h
    | some best' =>
      obtain ⟨hmem, hmax⟩ := maxCandidate_spec h
      obtain ⟨hmem', hmax'⟩ := maxCandidate_spec h'
      have hrank : best'.rank = best.rank :=
        le_antisymm (hmax best' (hperm.mem_iff.1 hmem')) (hmax' best (hperm.mem_iff.2 hmem))
      rw [rank_injOn hids (hperm.mem_iff.1 hmem') hmem hrank]

instance : IsTrans PlacementCandidateExplain candidateLe where
  trans a b c := by
    rintro (hab | ⟨hab, hab'⟩) (hbc | ⟨hbc, hbc'⟩)
    · exact .inl (hab.trans hbc)
    · exact .inl (hbc ▸ hab)
    · exact .inl (hab ▸ hbc)
    · exact .inr ⟨hab.trans hbc, BitVec.le_trans hab' hbc'⟩

instance : Std.Total candidateLe where
  total a b := by
    rcases lt_trichotomy a.nodeName b.nodeName with h | h | h
    · exact .inl (.inl h)
    · rcases BitVec.le_total a.nodeId.value b.nodeId.value with h' | h'
      · exact .inl (.inr ⟨h, h'⟩)
      · exact .inr (.inr ⟨h.symm, h'⟩)
    · exact .inr (.inl h)

/-- Nor does the explanation. -/
theorem insertionSort_perm (hids : (cs.map PlacementCandidateExplain.nodeId).Nodup)
    (hperm : cs'.Perm cs) : cs'.insertionSort candidateLe = cs.insertionSort candidateLe := by
  refine List.Perm.eq_of_pairwise ?_ (List.pairwise_insertionSort candidateLe cs') (List.pairwise_insertionSort candidateLe cs)
    (((List.perm_insertionSort _ _).trans hperm).trans (List.perm_insertionSort _ _).symm)
  intro a b ha hb hab hba
  rw [List.mem_insertionSort] at ha hb
  have hid : a.nodeId.value = b.nodeId.value := by
    rcases hab with hab | ⟨he, hab⟩
    · rcases hba with hba | ⟨he, -⟩
      · exact absurd hba hab.asymm
      · exact absurd hab (he ▸ lt_irrefl _)
    · rcases hba with hba | ⟨-, hba⟩
      · exact absurd hba (he ▸ lt_irrefl _)
      · exact BitVec.le_antisymm hab hba
  exact List.inj_on_of_nodup_map hids (hperm.mem_iff.1 ha) hb (uuid_eq_of_value hid)

/-! ### The best fitting node -/

section Schedule

variable {scheduler : Scheduler} {job : JobSpec} {nodes nodes' : List SchedulingNode} {t : DateTime}

/-- The score of a node: its components, added up within 64 bits. -/
def Scheduler.score (scheduler : Scheduler) (job : JobSpec) (n : SchedulingNode) : Int :=
  (scoreComponents job n.node (scheduler.weights job.placementPolicy)).foldl (fun total c => satI64 (total + c.value)) 0

/-- The first node is preferred: by a greater score, or by the smaller identifier at the same score. -/
def Scheduler.Beats (scheduler : Scheduler) (job : JobSpec) (n m : SchedulingNode) : Prop :=
  scheduler.score job m < scheduler.score job n ∨
    (scheduler.score job m = scheduler.score job n ∧ n.node.id.value < m.node.id.value)

/-- The candidate of a node. -/
def Scheduler.candidate (scheduler : Scheduler) (job : JobSpec) (t : DateTime) (n : SchedulingNode) : PlacementCandidateExplain :=
  evaluateNode job (scheduler.weights job.placementPolicy) t scheduler.nodeFreshnessTtl n

variable {m n : SchedulingNode}

theorem candidate_eligible :
    (scheduler.candidate job t n).eligible = true ↔ Admissible job n t scheduler.nodeFreshnessTtl := by
  rw [← hardRejections_eq_nil, Scheduler.candidate, evaluateNode]
  cases hardRejections job n t scheduler.nodeFreshnessTtl <;> simp

theorem candidate_score (h : (scheduler.candidate job t n).eligible = true) :
    (scheduler.candidate job t n).score = some (scheduler.score job n) := by
  have hnone := hardRejections_of_eligible h
  simp only [Scheduler.candidate, evaluateNode, hnone]
  rfl

theorem candidate_nodeId (n : SchedulingNode) : (scheduler.candidate job t n).nodeId = n.node.id := evaluateNode_nodeId _ _ _ _ _

theorem beats_iff_rank (hn : (scheduler.candidate job t n).eligible = true)
    (hm : (scheduler.candidate job t m).eligible = true) :
    scheduler.Beats job n m ↔ (scheduler.candidate job t m).rank < (scheduler.candidate job t n).rank := by
  rw [PlacementCandidateExplain.rank, PlacementCandidateExplain.rank, Prod.Lex.toLex_lt_toLex, candidate_score hn,
    candidate_score hm, candidate_nodeId, candidate_nodeId, Scheduler.Beats, BitVec.lt_def]
  simp only [Option.getD_some]
  refine or_congr Iff.rfl (and_congr Iff.rfl ?_)
  omega

theorem eligible_nodup (hids : (nodes.map fun n => n.node.id).Nodup) :
    ((nodes.map (scheduler.candidate job t)).map PlacementCandidateExplain.nodeId).Nodup := by
  rw [List.map_map]
  have hsame : (PlacementCandidateExplain.nodeId ∘ scheduler.candidate job t) = fun n => n.node.id := funext candidate_nodeId
  rwa [hsame]

/-- The answer for a selected candidate, if there is one, with all the candidates as explanation. -/
def answerOf (policy : PlacementPolicy) (candidates : List PlacementCandidateExplain) :
    Option PlacementCandidateExplain → Except ScheduleError PlacementPlanDecision
  | some best => .ok { nodeId := best.nodeId, score := best.score.getD 0, explanation := ⟨policy, some best.nodeId, candidates⟩ }
  | none => .error (.noEligibleNodes ⟨policy, none, candidates⟩)

theorem scheduleContextsAt_eq (hvalid : job.validate = .ok ()) : scheduler.scheduleContextsAt job nodes t =
      answerOf job.placementPolicy ((nodes.map (scheduler.candidate job t)).insertionSort candidateLe)
        (maxCandidate ((nodes.map (scheduler.candidate job t)).filter PlacementCandidateExplain.eligible)) := by
  have hanswer : ∀ (candidates : List PlacementCandidateExplain) (selected : Option PlacementCandidateExplain),
      (match selected with
        | some best => .ok { nodeId := best.nodeId, score := best.score.getD 0, explanation :=
            ⟨job.placementPolicy, selected.map PlacementCandidateExplain.nodeId, candidates⟩ }
        | none => .error (.noEligibleNodes ⟨job.placementPolicy, selected.map PlacementCandidateExplain.nodeId, candidates⟩)) =
        answerOf job.placementPolicy candidates selected := by
    intro candidates selected
    cases selected with
    | none | some => rfl
  rw [Scheduler.scheduleContextsAt, hvalid]
  exact hanswer _ _

/-- The whole answer is the same for every order of the nodes. -/
theorem scheduleContextsAt_perm (hids : (nodes.map fun n => n.node.id).Nodup) (hperm : nodes'.Perm nodes) :
    scheduler.scheduleContextsAt job nodes' t = scheduler.scheduleContextsAt job nodes t := by
  cases hvalid : job.validate with
  | error e =>
    rw [Scheduler.scheduleContextsAt, Scheduler.scheduleContextsAt, hvalid]
    rfl
  | ok _ =>
    have hcandidates := hperm.map (scheduler.candidate job t)
    have hselected : maxCandidate ((nodes'.map (scheduler.candidate job t)).filter PlacementCandidateExplain.eligible) =
        maxCandidate ((nodes.map (scheduler.candidate job t)).filter PlacementCandidateExplain.eligible) :=
      maxCandidate_perm ((eligible_nodup hids).sublist ((List.filter_sublist).map _)) (hcandidates.filter _)
    rw [scheduleContextsAt_eq hvalid, scheduleContextsAt_eq hvalid, hselected,
      insertionSort_perm (eligible_nodup hids) hcandidates]

/-- A node is chosen that no other admissible node beats. -/
theorem scheduleContextsAt_top (nodes : List SchedulingNode) (hvalid : job.validate = .ok ()) :
    (∃ d, scheduler.scheduleContextsAt job nodes t = .ok d ∧
      ∃ n ∈ nodes, Admissible job n t scheduler.nodeFreshnessTtl ∧ d.nodeId = n.node.id ∧ d.score = scheduler.score job n ∧
        ∀ m ∈ nodes, Admissible job m t scheduler.nodeFreshnessTtl → ¬scheduler.Beats job m n) ∨
    ((∃ e, scheduler.scheduleContextsAt job nodes t = .error e) ∧ ∀ n ∈ nodes, ¬Admissible job n t scheduler.nodeFreshnessTtl) := by
  rw [scheduleContextsAt_eq hvalid]
  cases hselected : maxCandidate ((nodes.map (scheduler.candidate job t)).filter PlacementCandidateExplain.eligible) with
  | none =>
    refine .inr ⟨⟨_, rfl⟩, fun n hn hadmissible => ?_⟩
    rw [maxCandidate_eq_none, List.filter_eq_nil_iff] at hselected
    exact hselected _ (List.mem_map_of_mem hn) (candidate_eligible.2 hadmissible)
  | some best =>
    obtain ⟨hmem, hmax⟩ := maxCandidate_spec hselected
    obtain ⟨hcandidate, heligible⟩ := List.mem_filter.1 hmem
    obtain ⟨n, hn, rfl⟩ := List.mem_map.1 hcandidate
    refine .inl ⟨_, rfl, n, hn, candidate_eligible.1 heligible, candidate_nodeId n, ?_, ?_⟩
    · show (scheduler.candidate job t n).score.getD 0 = scheduler.score job n
      rw [candidate_score heligible, Option.getD_some]
    · intro m hm hadmissible
      have heligible' := candidate_eligible.2 hadmissible
      rw [beats_iff_rank heligible' heligible, not_lt]
      exact hmax _ (List.mem_filter.2 ⟨List.mem_map_of_mem hm, heligible'⟩)

/-- Of two nodes, one beats the other. -/
theorem beats_of_not_beats (hid : m.node.id ≠ n.node.id) (h : ¬scheduler.Beats job m n) : scheduler.Beats job n m := by
  have hvalue : m.node.id.value.toNat ≠ n.node.id.value.toNat :=
    fun heq => hid (uuid_eq_of_value (BitVec.eq_of_toNat_eq heq))
  unfold Scheduler.Beats at h ⊢
  rw [BitVec.lt_def] at h ⊢
  omega

/-- A node is chosen if one fits, and then the best fitting one, whatever the order of the list. -/
structure Exact (scheduler : Scheduler) (job : JobSpec) (nodes : List SchedulingNode) (t : DateTime) : Prop where
  placed : (∃ d, scheduler.scheduleContextsAt job nodes t = .ok d) ↔ ∃ n ∈ nodes, Fits job n t scheduler.nodeFreshnessTtl
  best : ∀ d, scheduler.scheduleContextsAt job nodes t = .ok d → ∃ n ∈ nodes, Fits job n t scheduler.nodeFreshnessTtl ∧
    d.nodeId = n.node.id ∧ d.score = scheduler.score job n ∧
      ∀ m ∈ nodes, Fits job m t scheduler.nodeFreshnessTtl → m ≠ n → scheduler.Beats job n m
  unordered : ∀ nodes', nodes'.Perm nodes → scheduler.scheduleContextsAt job nodes' t = scheduler.scheduleContextsAt job nodes t

theorem beats_asymm (h : scheduler.Beats job n m) : ¬scheduler.Beats job m n := by
  unfold Scheduler.Beats at h ⊢
  rw [BitVec.lt_def] at h ⊢
  omega

/-- The scheduler is exact unless a node without room, at which the sum of slots saturates, is preferred to every
fitting node. -/
theorem schedule_exact_iff (scheduler : Scheduler) (job : JobSpec) (nodes : List SchedulingNode) (t : DateTime)
    (hvalid : job.validate = .ok ()) (hids : (nodes.map fun n => n.node.id).Nodup) :
    Exact scheduler job nodes t ↔ ∀ n ∈ nodes, Crammed job n t scheduler.nodeFreshnessTtl →
      ∃ m ∈ nodes, Fits job m t scheduler.nodeFreshnessTtl ∧ scheduler.Beats job m n := by
  have hdisjoint : ∀ {n : SchedulingNode}, Crammed job n t scheduler.nodeFreshnessTtl → ¬Fits job n t scheduler.nodeFreshnessTtl := by
    intro n hcrammed hfits
    have hfull := hcrammed.full
    have hroom := hfits.configured
    have hmax := hcrammed.configured
    omega
  rcases scheduleContextsAt_top _ hvalid with ⟨d, hd, n, hn, hadmissible, hid, hscore, htop⟩ | ⟨⟨e, he⟩, hnone⟩
  · have hbest : ∀ m ∈ nodes, Admissible job m t scheduler.nodeFreshnessTtl → m ≠ n → scheduler.Beats job n m := by
      intro m hm hm' hne
      exact beats_of_not_beats (fun heq => hne (List.inj_on_of_nodup_map hids hm hn heq)) (htop m hm hm')
    constructor
    · intro hexact m hm hcrammed
      obtain ⟨k, hk, hfits, hkid, -, -⟩ := hexact.best d hd
      have hsame : k = n := List.inj_on_of_nodup_map hids hk hn (hkid.symm.trans hid)
      subst hsame
      refine ⟨k, hk, hfits, hbest m hm ((admissible_iff hvalid).2 (.inr hcrammed)) ?_⟩
      rintro rfl
      exact hdisjoint hcrammed hfits
    · intro hcondition
      have hfits : Fits job n t scheduler.nodeFreshnessTtl := by
        rcases (admissible_iff hvalid).1 hadmissible with hfits | hcrammed
        · exact hfits
        · obtain ⟨m, hm, hfits, hbeats⟩ := hcondition n hn hcrammed
          have hne : m ≠ n := by
            rintro rfl
            exact hdisjoint hcrammed hfits
          exact absurd hbeats (beats_asymm (hbest m hm ((admissible_iff hvalid).2 (.inl hfits)) hne))
      refine ⟨iff_of_true ⟨d, hd⟩ ⟨n, hn, hfits⟩, ?_, fun nodes' hperm => scheduleContextsAt_perm hids hperm⟩
      intro d' hd'
      cases hd.symm.trans hd'
      exact ⟨n, hn, hfits, hid, hscore, fun m hm hm' hne => hbest m hm ((admissible_iff hvalid).2 (.inl hm')) hne⟩
  · refine iff_of_true ⟨iff_of_false ?_ ?_, ?_, fun nodes' hperm => scheduleContextsAt_perm hids hperm⟩ ?_
    · rintro ⟨d, hd⟩
      cases hd.symm.trans he
    · rintro ⟨n, hn, hfits⟩
      exact hnone n hn ((admissible_iff hvalid).2 (.inl hfits))
    · intro d hd
      cases hd.symm.trans he
    · intro n hn hcrammed
      exact absurd ((admissible_iff hvalid).2 (.inr hcrammed)) (hnone n hn)

/-- Two nodes with a slot each. -/
theorem schedule_exact_capableAndPlain : Exact Scheduler.default (sampleJob ⟨7⟩ .empty none) capableAndPlain epoch := by
  refine (schedule_exact_iff Scheduler.default (sampleJob ⟨7⟩ .empty none) capableAndPlain epoch (by decide +kernel)
    (by decide)).2 fun n hn hcrammed => ?_
  have hslots : ∀ n ∈ capableAndPlain, n.configuredMaxSlots.toNat ≠ u32Max := by decide
  exact absurd hcrammed.configured (hslots n hn)

/-- A node that has handed out all of its 2^32 - 1 slots. -/
def fullNode : SchedulingNode :=
  { sampleContext (sampleNode ⟨1⟩ "alpha" .empty epoch) with
    configuredMaxSlots := 4294967295, containmentMaxSafeSlots := 4294967295, activeSlots := 4294967295 }

/-- It is given one more job. -/
theorem full_node_scheduled :
    (sampleJob ⟨7⟩ .empty none).validate = .ok () ∧ ([fullNode].map fun n => n.node.id).Nodup ∧
      (Scheduler.default.scheduleContextsAt (sampleJob ⟨7⟩ .empty none) [fullNode] epoch).isOk = true ∧
      ¬∃ n ∈ [fullNode], Fits (sampleJob ⟨7⟩ .empty none) n epoch defaultNodeFreshnessTtl := by
  refine ⟨by decide +kernel, by decide, by decide +kernel, ?_⟩
  rintro ⟨n, hn, hfits⟩
  rw [List.mem_singleton.1 hn] at hfits
  exact absurd hfits.configured (by decide)

end Schedule

/-! ### The device of a placement -/

section Reservation

variable {scheduler : Scheduler} {job : JobSpec} {nodes : List SchedulingNodeRecord} {t : DateTime}

variable {request : GpuResourceRequest} {gs : List (Nat × GpuDevice)} {nodeId : Uuid}

/-- The devices that can take a request, with their positions. The induction is on the devices left. -/
theorem mem_availableGpus {n : SchedulingNode} {start : Nat} {gpus : List GpuDevice} {index : Nat}
    {gpu : GpuDevice} : (index, gpu) ∈ availableGpus n request start gpus ↔
      ∃ i, index = start + i ∧ gpus[i]? = some gpu ∧ gpuAvailable n request index gpu = true := by
  induction gpus generalizing start with
  | nil => simp [availableGpus]
  | cons first gpus ih =>
    have hshift : (∃ i, index = start + i ∧ (first :: gpus)[i]? = some gpu ∧ gpuAvailable n request index gpu = true) ↔
        (index = start ∧ first = gpu ∧ gpuAvailable n request index gpu = true) ∨
          ∃ i, index = start + 1 + i ∧ gpus[i]? = some gpu ∧ gpuAvailable n request index gpu = true := by
      constructor
      · rintro ⟨i, hi, hget, ha⟩
        cases i with
        | zero => exact .inl ⟨hi, Option.some.inj hget, ha⟩
        | succ i => exact .inr ⟨i, by omega, hget, ha⟩
      · rintro (⟨hi, hfirst, ha⟩ | ⟨i, hi, hget, ha⟩)
        · exact ⟨0, hi, congrArg some hfirst, ha⟩
        · exact ⟨i + 1, by omega, hget, ha⟩
    rw [hshift, ← ih, availableGpus]
    split_ifs with havailable
    · rw [List.mem_cons, Prod.mk.injEq]
      refine or_congr_left ⟨?_, fun h => ⟨h.1, h.2.1.symm⟩⟩
      rintro ⟨rfl, rfl⟩
      exact ⟨rfl, rfl, havailable⟩
    · refine ⟨.inr, ?_⟩
      rintro (⟨rfl, rfl, ha⟩ | h)
      · exact absurd ha havailable
      · exact h

theorem largestGpu_mem {g : Nat × GpuDevice} (h : largestGpu gs = some g) : g ∈ gs := by
  cases gs with
  | nil => cases h
  | cons first gs =>
    rw [largestGpu, Option.some.injEq] at h
    subst h
    induction gs generalizing first with
    | nil => exact List.mem_singleton.2 rfl
    | cons second gs ih =>
      rw [List.foldl_cons]
      have hrest := ih (if second.2.availableVramMib ≤ first.2.availableVramMib then first else second)
      rcases List.mem_cons.1 hrest with heq | hmem
      · rw [heq]
        split_ifs
        · exact List.mem_cons_self
        · exact List.mem_cons_of_mem _ List.mem_cons_self
      · exact List.mem_cons_of_mem _ (List.mem_cons_of_mem _ hmem)

theorem largestGpu_isSome (h : gs ≠ []) : ∃ g, largestGpu gs = some g := by
  cases gs with
  | nil => exact absurd rfl h
  | cons first gs => exact ⟨_, rfl⟩

/-- The first record of a node has a device that can take the request. -/
def HasDevice (nodes : List SchedulingNodeRecord) (nodeId : Uuid) (request : GpuResourceRequest) : Prop :=
  ∃ record, (nodes.find? fun r => r.scheduling.node.id = nodeId) = some record ∧
    ∃ index gpu, record.scheduling.node.resources.gpus[index]? = some gpu ∧ gpuAvailable record.scheduling request index gpu = true

/-- Every device has its identifier. -/
def Identified (nodes : List SchedulingNodeRecord) : Prop :=
  ∀ record ∈ nodes, ∀ (index : Nat) (gpu : GpuDevice), record.scheduling.node.resources.gpus[index]? = some gpu →
    ∃ deviceId, record.scheduling.gpuDeviceIds[index]? = some (some deviceId)

/-- A device of the node that is allocatable, of the requested vendor and identifier, with the requested memory free, and
unreserved if it is to be exclusive. -/
def Reserves (nodes : List SchedulingNodeRecord) (nodeId : Uuid) (request : GpuResourceRequest) (deviceId : String) : Prop :=
  ∃ record ∈ nodes, record.scheduling.node.id = nodeId ∧ ∃ (index : Nat) (gpu : GpuDevice),
    record.scheduling.node.resources.gpus[index]? = some gpu ∧ record.scheduling.gpuDeviceIds[index]? = some (some deviceId) ∧
    gpu.allocatable = true ∧ (∀ vendor ∈ request.vendor, gpu.vendor = vendor) ∧
    (∀ requested ∈ request.deviceId, deviceId = requested) ∧ request.vramMib ≤ gpu.availableVramMib ∧
    (request.exclusive = true → (record.scheduling.gpuActiveReservations[index]?).getD 0 = 0)

theorem selectGpuReservation_isOk_iff (hidentified : Identified nodes) :
    (∃ r, selectGpuReservation nodes nodeId (some request) = .ok r) ↔ HasDevice nodes nodeId request := by
  simp only [selectGpuReservation, bind_eq_ok, required_eq_ok, pure_eq_ok]
  constructor
  · rintro ⟨_, record, hrecord, ⟨index, gpu⟩, hlargest, -⟩
    obtain ⟨i, rfl, hget, havailable⟩ := mem_availableGpus.1 (largestGpu_mem hlargest)
    rw [Nat.zero_add] at havailable
    exact ⟨record, hrecord, i, gpu, hget, havailable⟩
  · rintro ⟨record, hrecord, index, gpu, hget, havailable⟩
    have hmem : (index, gpu) ∈ availableGpus record.scheduling request 0 record.scheduling.node.resources.gpus :=
      mem_availableGpus.2 ⟨index, (Nat.zero_add index).symm, hget, havailable⟩
    obtain ⟨g, hg⟩ := largestGpu_isSome (List.ne_nil_of_mem hmem)
    obtain ⟨i, hi, hget', -⟩ := mem_availableGpus.1 (largestGpu_mem hg)
    obtain ⟨deviceId, hdevice⟩ := hidentified record (List.mem_of_find?_eq_some hrecord) i g.2 hget'
    rw [Nat.zero_add] at hi
    refine ⟨_, record, hrecord, g, hg, deviceId, ?_, rfl⟩
    rw [hi, hdevice]
    rfl

theorem selectGpuReservation_reserves {r : Option (String × GpuResourceRequest)}
    (h : selectGpuReservation nodes nodeId (some request) = .ok r) :
    ∃ deviceId, r = some (deviceId, request) ∧ Reserves nodes nodeId request deviceId := by
  simp only [selectGpuReservation, bind_eq_ok, required_eq_ok, pure_eq_ok] at h
  obtain ⟨record, hrecord, ⟨index, gpu⟩, hlargest, deviceId, hdevice, rfl⟩ := h
  obtain ⟨i, hi, hget, havailable⟩ := mem_availableGpus.1 (largestGpu_mem hlargest)
  rw [Nat.zero_add] at hi
  subst hi
  obtain ⟨hallocatable, hvram, hvendor, hrequested, hfree⟩ := gpuAvailable_iff.1 havailable
  refine ⟨deviceId, rfl, record, List.mem_of_find?_eq_some hrecord, ?_, index, gpu, hget, Option.join_eq_some_iff.1 hdevice,
    hallocatable, hvendor, ?_, hvram, hfree⟩
  · have hfound := List.find?_some hrecord
    exact of_decide_eq_true hfound
  · intro requested hmem
    exact Option.some.inj (hdevice.symm.trans (hrequested requested hmem))

theorem effectiveGpuRequest_eq_none (hvalid : job.validate = .ok ()) : effectiveGpuRequest job = none ↔ ¬job.AsksGpu := by
  rw [effectiveGpuRequest, Option.or_eq_none_iff, effective_gpu_eq_none hvalid, JobSpec.AsksGpu]
  by_cases hkind : job.kind = .gpu
  · simp [hkind]
  · simp [hkind]

/-- Whatever the scheduler places has a device to reserve, if the job asks for one. -/
def PlacementReserves (scheduler : Scheduler) (job : JobSpec) (nodes : List SchedulingNodeRecord) (t : DateTime) : Prop :=
  ∀ d, scheduler.scheduleContextsAt job (nodes.map SchedulingNodeRecord.scheduling) t = .ok d →
    ∃ r, selectGpuReservation nodes d.nodeId (effectiveGpuRequest job) = .ok r ∧ (r = none ↔ ¬job.AsksGpu) ∧
      ∀ deviceId request, r = some (deviceId, request) →
        effectiveGpuRequest job = some request ∧ Reserves nodes d.nodeId request deviceId

/-- No other admissible node is preferred to the one of the record. -/
def Top (scheduler : Scheduler) (job : JobSpec) (nodes : List SchedulingNodeRecord) (t : DateTime) (record : SchedulingNodeRecord) : Prop :=
  Admissible job record.scheduling t scheduler.nodeFreshnessTtl ∧
    ∀ other ∈ nodes, Admissible job other.scheduling t scheduler.nodeFreshnessTtl →
      ¬scheduler.Beats job other.scheduling record.scheduling

/-- Neither beats the other only if they are records of one node. -/
theorem Top.same_node {record other : SchedulingNodeRecord} (hrecord : record ∈ nodes) (hother : other ∈ nodes)
    (h : Top scheduler job nodes t record) (h' : Top scheduler job nodes t other) :
    record.scheduling.node.id = other.scheduling.node.id := by
  by_contra hne
  exact h'.2 record hrecord h.1 (beats_of_not_beats (fun heq => hne heq.symm) (h.2 other hother h'.1))

/-- The reservation agrees with the placement exactly if the preferred node has a device for the effective request, which
the scheduler has seen to unless the GPU is asked for by the kind alone or the node has an earlier record. -/
theorem placement_reserves_iff (scheduler : Scheduler) (job : JobSpec) (nodes : List SchedulingNodeRecord) (t : DateTime)
    (hvalid : job.validate = .ok ()) (hidentified : Identified nodes) :
    PlacementReserves scheduler job nodes t ↔ ∀ record ∈ nodes, Top scheduler job nodes t record →
      ∀ request ∈ effectiveGpuRequest job,
        (job.effectiveResourceRequest.gpu ≠ none ∧
          (nodes.find? fun r => r.scheduling.node.id = record.scheduling.node.id) = some record) ∨
        HasDevice nodes record.scheduling.node.id request := by
  have htop : ∀ d, scheduler.scheduleContextsAt job (nodes.map SchedulingNodeRecord.scheduling) t = .ok d →
      ∃ record ∈ nodes, Top scheduler job nodes t record ∧ d.nodeId = record.scheduling.node.id := by
    intro d hd
    rcases scheduleContextsAt_top _ hvalid with ⟨d', hd', n, hn, hadmissible, hid, -, hbest⟩ | ⟨⟨e, he⟩, -⟩
    · cases hd.symm.trans hd'
      obtain ⟨record, hrecord, rfl⟩ := List.mem_map.1 hn
      exact ⟨record, hrecord, ⟨hadmissible, fun other hother => hbest _ (List.mem_map_of_mem hother)⟩, hid⟩
    · cases hd.symm.trans he
  constructor
  · intro hreserves record hrecord hrecordTop request hrequest
    refine .inr ?_
    rcases scheduleContextsAt_top _ hvalid with ⟨d, hd, -⟩ | ⟨-, hnone⟩
    · obtain ⟨other, hother, hotherTop, hid⟩ := htop d hd
      obtain ⟨r, hr, -⟩ := hreserves d hd
      rw [hid, hotherTop.same_node hother hrecord hrecordTop, hrequest] at hr
      exact (selectGpuReservation_isOk_iff hidentified).1 ⟨r, hr⟩
    · exact absurd hrecordTop.1 (hnone _ (List.mem_map_of_mem hrecord))
  · intro hcondition d hd
    obtain ⟨record, hrecord, hrecordTop, hid⟩ := htop d hd
    cases hrequest : effectiveGpuRequest job with
    | none => exact ⟨none, rfl, iff_of_true rfl ((effectiveGpuRequest_eq_none hvalid).1 hrequest), by nofun⟩
    | some request =>
      have hdevice : HasDevice nodes record.scheduling.node.id request := by
        rcases hcondition record hrecord hrecordTop request hrequest with ⟨hstated, hfirst⟩ | hdevice
        · -- the scheduler's loop has found it
          obtain ⟨stated, hstated⟩ := Option.ne_none_iff_exists'.1 hstated
          have hsame : stated = request := by
            rw [effectiveGpuRequest, hstated, Option.some_or] at hrequest
            exact Option.some.inj hrequest
          subst hsame
          have hreasons := hrecordTop.1.gpu
          rw [gpuReasons, hstated] at hreasons
          exact ⟨record, hfirst, gpuResourceRejections_eq_nil.1 hreasons⟩
        · exact hdevice
      rw [← hid] at hdevice
      obtain ⟨r, hr⟩ := (selectGpuReservation_isOk_iff hidentified).2 hdevice
      obtain ⟨deviceId, rfl, hreserve⟩ := selectGpuReservation_reserves hr
      refine ⟨_, hr, iff_of_false nofun ?_, ?_⟩
      · intro hno
        cases hrequest.symm.trans ((effectiveGpuRequest_eq_none hvalid).2 hno)
      · rintro deviceId' request' ⟨⟩
        exact ⟨rfl, hreserve⟩

/-- A job that asks for a GPU by its kind alone. -/
def gpuKindJob : JobSpec := { sampleJob ⟨7⟩ .empty none with kind := .gpu }

/-- A node of two slots, one of them taken, and one device with some reservations. -/
def sharedGpuNode (reservations : UInt32) : SchedulingNodeRecord where
  scheduling :=
    { sampleContext { sampleNode ⟨1⟩ "alpha" .empty epoch with
        resources := { (sampleNode ⟨1⟩ "alpha" .empty epoch).resources with gpus := [⟨.nvidia, "A2", 16384, 8192, true⟩] } } with
      configuredMaxSlots := 2
      containmentMaxSafeSlots := 2
      activeSlots := 1
      gpuDeviceIds := [some "gpu-0"]
      gpuActiveReservations := [reservations] }
  revision := 1

theorem identified_sharedGpuNode (reservations : UInt32) : Identified [sharedGpuNode reservations] := by
  intro record hrecord index gpu hget
  rw [List.mem_singleton.1 hrecord] at hget ⊢
  cases index with
  | zero => exact ⟨"gpu-0", rfl⟩
  | succ index => cases hget

/-- The free device is reserved. -/
theorem placement_reserves_sharedGpuNode : PlacementReserves Scheduler.default gpuKindJob [sharedGpuNode 0] epoch := by
  refine (placement_reserves_iff Scheduler.default gpuKindJob [sharedGpuNode 0] epoch (by decide +kernel)
    (identified_sharedGpuNode 0)).2 fun record hrecord _ request hrequest => .inr ?_
  rw [List.mem_singleton.1 hrecord]
  cases hrequest
  exact ⟨sharedGpuNode 0, rfl, 0, ⟨.nvidia, "A2", 16384, 8192, true⟩, rfl, rfl⟩

/-- With a reservation on the device the job is placed, and then refused. -/
theorem shared_gpu_placed_not_reserved : gpuKindJob.validate = .ok () ∧ Identified [sharedGpuNode 1] ∧
      ∃ d, Scheduler.default.scheduleContextsAt gpuKindJob ([sharedGpuNode 1].map SchedulingNodeRecord.scheduling) epoch = .ok d ∧
        selectGpuReservation [sharedGpuNode 1] d.nodeId (effectiveGpuRequest gpuKindJob) = .error .invalidTransition := by
  refine ⟨by decide +kernel, identified_sharedGpuNode 1, ?_⟩
  obtain ⟨d, hd⟩ := exists_ok_of_isOk
    (show (Scheduler.default.scheduleContextsAt gpuKindJob ([sharedGpuNode 1].map SchedulingNodeRecord.scheduling) epoch).isOk = true
      by decide +kernel)
  obtain ⟨-, best, hbest, -, hnode, -⟩ := scheduleContextsAt_eq_ok hd
  refine ⟨d, hd, ?_⟩
  rw [List.map_singleton, List.map_singleton, List.mem_singleton] at hbest
  rw [hnode, hbest, evaluateNode_nodeId]
  rfl

end Reservation

end CYC
