import ClusterYourCodex.Spec.Scheduler

/-! The reasons a scheduler rejects a node for, as evidence. Apart from the names a job brings along
(capabilities and a GPU device id) every reason is bounded printable text, and apart from missing
capabilities no code is given twice. -/

namespace CYC

open Text
open scoped List

variable {n : SchedulingNode} {request : GpuResourceRequest} {gpus : List GpuDevice}

theorem validText_of_legible {s : String} (h : Legible 256 s) : validText s = true := by
  have := h.bytes
  simp [validText, maxTextBytes, h.nonblank, h.printable, this]

/-- Every reason has a text that evidence may carry. -/
def LegibleReasons (rs : List PlacementRejection) : Prop := ∀ r ∈ rs, validText r.detail = true

def codes (rs : List PlacementRejection) : List RejectionCode := rs.map PlacementRejection.code

theorem legibleReasons_nil : LegibleReasons [] := by simp [LegibleReasons]

theorem legibleReasons_singleton {r : PlacementRejection} : LegibleReasons [r] ↔ validText r.detail = true := by
  simp [LegibleReasons]

theorem legibleReasons_append {rs rs' : List PlacementRejection} :
    LegibleReasons (rs ++ rs') ↔ LegibleReasons rs ∧ LegibleReasons rs' := by
  simp [LegibleReasons, or_imp, forall_and]

theorem legibleReasons_reject {failed : Bool} {code : RejectionCode} {detail : String}
    (h : validText detail = true) : LegibleReasons (reject failed code detail) := by
  unfold reject
  split
  · exact legibleReasons_singleton.2 h
  · exact legibleReasons_nil

theorem codes_append (rs rs' : List PlacementRejection) : codes (rs ++ rs') = codes rs ++ codes rs' :=
  List.map_append

theorem codes_reject (failed : Bool) (code : RejectionCode) (detail : String) :
    codes (reject failed code detail) <+ [code] := by
  unfold reject
  split
  · exact List.Sublist.refl _
  · exact List.nil_sublist _

/-! ### Texts of numbers and names -/

theorem fits_show8 (n : UInt8) : Fits 3 (show8 n) :=
  fits_nat (by decide) (lt_trans n.toNat_lt (by decide))

theorem fits_show32 (n : UInt32) : Fits 10 (show32 n) :=
  fits_nat (by decide) (lt_trans n.toNat_lt (by decide))

theorem fits_show64 (n : UInt64) : Fits 20 (show64 n) :=
  fits_nat (by decide) (lt_trans n.toNat_lt (by decide))

theorem fits_showI16 (n : Int16) : Fits 6 (showI16 n) := by
  have h1 := n.le_toInt
  have h2 := n.toInt_lt
  exact fits_int (by decide) (by omega)

theorem fits_osName (os : OperatingSystem) : Fits 7 (osName os) := by cases os <;> decide

theorem fits_archName (arch : Architecture) : Fits 7 (archName arch) := by cases arch <;> decide

theorem fits_jobKindName (kind : JobKind) : Fits 9 (jobKindName kind) := by cases kind <;> decide

theorem fits_vendorName (vendor : Option GpuVendor) : Fits 12 (vendorName vendor) := by
  rcases vendor with _ | vendor
  · decide
  · cases vendor <;> decide

/-! ### Liveness, policy and slots -/

theorem fits_numSeconds {t s : DateTime} (ht : t.Representable) (hs : s.Representable) :
    Fits 21 (toString (DateTime.numSeconds (t.since s))) := by
  refine fits_int (by decide) ?_
  obtain ⟨h1, h2⟩ := ht
  obtain ⟨h3, h4⟩ := hs
  have : (DateTime.numSeconds (t.since s)).natAbs = (t.nanos - s.nanos).natAbs / 1000000000 := by
    rw [DateTime.numSeconds, Int.natAbs_tdiv]
    rfl
  omega

theorem legible_status (status : NodeStatus) : LegibleReasons (statusRejections status) := by
  cases status <;> simp [statusRejections, LegibleReasons] <;> decide

theorem codes_status (status : NodeStatus) : codes (statusRejections status) <+ [.offline, .draining] := by
  cases status <;> decide

theorem legible_stale {lastSeenAt : Option DateTime} {observedAt : DateTime} (ht : observedAt.Representable)
    (hs : ∀ s, lastSeenAt = some s → s.Representable) :
    LegibleReasons (staleRejections lastSeenAt observedAt defaultNodeFreshnessTtl) := by
  cases lastSeenAt with
  | none => exact legibleReasons_singleton.2 (by decide)
  | some s =>
    refine legibleReasons_reject (validText_of_legible (Legible.mono (((((legible_lit ?_ ?_).append
      (fits_numSeconds ht (hs s rfl))).append (fits_lit ?_)).append (fits_lit ?_)).append (fits_lit ?_)) ?_))
    all_goals decide

theorem codes_stale (lastSeenAt : Option DateTime) (observedAt : DateTime) (ttl : Int) :
    codes (staleRejections lastSeenAt observedAt ttl) <+ [.staleNode] := by
  cases lastSeenAt with
  | none => exact List.Sublist.refl _
  | some s => exact codes_reject _ _ _

theorem legible_percent (observed : UInt8) (maximum : Option UInt8) (code : RejectionCode) {what : String}
    (hw : Legible 20 what) : LegibleReasons (percentRejection observed maximum code what) := by
  refine legibleReasons_reject (validText_of_legible (Legible.mono ((((hw.append (fits_show8 _)).append
    (fits_lit ?_)).append (fits_show8 _)).append (fits_lit ?_)) ?_))
  all_goals decide

section Conditions

variable (job : JobSpec) (n : SchedulingNode) (node : Node)

theorem legible_temperature : LegibleReasons (temperatureRejections n) := by
  unfold temperatureRejections
  split
  · refine legibleReasons_reject (validText_of_legible (Legible.mono (((((legible_lit ?_ ?_).append
      (fits_showI16 _)).append (fits_lit ?_)).append (fits_showI16 _)).append (fits_lit ?_)) ?_))
    all_goals decide
  · exact legibleReasons_nil

theorem codes_temperature : codes (temperatureRejections n) <+ [.temperatureLimitExceeded] := by
  unfold temperatureRejections
  split
  · exact codes_reject _ _ _
  · exact List.nil_sublist _

theorem legible_policy : LegibleReasons (policyRejections job n) := by
  simp only [policyRejections, legibleReasons_append]
  refine ⟨⟨⟨⟨⟨?_, ?_⟩, ?_⟩, ?_⟩, ?_⟩, legible_temperature n⟩
  · refine legibleReasons_reject (validText_of_legible (Legible.mono (((legible_lit ?_ ?_).append
      (fits_jobKindName _)).append (fits_lit ?_)) ?_))
    all_goals decide
  · exact legibleReasons_reject (by decide)
  all_goals exact legible_percent _ _ _ (by decide)

theorem codes_policy : codes (policyRejections job n) <+ [.policyJobKindDenied, .batteryDisallowed, .cpuLimitExceeded,
      .cpuEwmaLimitExceeded, .memoryLimitExceeded, .temperatureLimitExceeded] := by
  simp only [policyRejections, codes_append]
  exact (((((codes_reject _ _ _).append (codes_reject _ _ _)).append (codes_reject _ _ _)).append
    (codes_reject _ _ _)).append (codes_reject _ _ _)).append (codes_temperature n)

theorem legible_slots : LegibleReasons (slotRejections job n) := by
  simp only [slotRejections]
  split_ifs
  · exact legibleReasons_singleton.2 (by decide)
  · refine legibleReasons_singleton.2 (validText_of_legible (Legible.mono (((((((fits_show32 _).append_legible
      (legible_lit ?_ ?_)).append (fits_show32 _)).append (fits_lit ?_)).append (fits_show32 _)).append
      (fits_lit ?_)).append (fits_show32 _) |>.append (fits_lit ?_)) ?_))
    all_goals decide
  · refine legibleReasons_singleton.2 (validText_of_legible (Legible.mono (((((fits_show32 _).append_legible
      (legible_lit ?_ ?_)).append (fits_show32 _)).append (fits_lit ?_)).append (fits_show32 _)) ?_))
    all_goals decide
  · exact legibleReasons_nil

theorem codes_slots :
    codes (slotRejections job n) <+ [.containmentLimitReached, .slotLimitReached] := by
  simp only [slotRejections]
  split_ifs
  all_goals simp [codes]

/-! ### Placement, platform and resources -/

theorem legible_manual : LegibleReasons (manualRejections job node) := by
  unfold manualRejections
  split
  · split
    · exact legibleReasons_singleton.2 (by decide)
    · refine legibleReasons_reject (validText_of_legible (Legible.mono ((legible_lit ?_ ?_).append
        (Uuid.fits_hyphenated _)) ?_))
      all_goals decide
  · exact legibleReasons_nil

theorem codes_manual :
    codes (manualRejections job node) <+ [.manualNodeRequired, .manualNodeMismatch] := by
  unfold manualRejections
  split
  · split
    · simp [codes]
    · exact (codes_reject _ _ _).trans (List.sublist_cons_self _ _)
  · exact List.nil_sublist _

theorem legible_os : LegibleReasons (osRejections job node) := by
  unfold osRejections
  split
  · refine legibleReasons_reject (validText_of_legible (Legible.mono ((((legible_lit ?_ ?_).append
      (fits_osName _)).append (fits_lit ?_)).append (fits_osName _)) ?_))
    all_goals decide
  · exact legibleReasons_nil

theorem codes_os : codes (osRejections job node) <+ [.wrongOs] := by
  unfold osRejections
  split
  · exact codes_reject _ _ _
  · exact List.nil_sublist _

theorem legible_arch : LegibleReasons (archRejections job node) := by
  unfold archRejections
  split
  · refine legibleReasons_reject (validText_of_legible (Legible.mono ((((legible_lit ?_ ?_).append
      (fits_archName _)).append (fits_lit ?_)).append (fits_archName _)) ?_))
    all_goals decide
  · exact legibleReasons_nil

theorem codes_arch : codes (archRejections job node) <+ [.wrongArchitecture] := by
  unfold archRejections
  split
  · exact codes_reject _ _ _
  · exact List.nil_sublist _

end Conditions

theorem legible_resources (request : ResourceRequest) (node : Node) :
    LegibleReasons (resourceRejections request node) := by
  simp only [resourceRejections, legibleReasons_append]
  refine ⟨⟨?_, ?_⟩, ?_⟩
  · refine legibleReasons_reject (validText_of_legible (Legible.mono (((((((legible_lit ?_ ?_).append
      (fits_show32 _)).append (fits_lit ?_)).append (fits_show32 _)).append (fits_lit ?_)).append
      (fits_show8 _)).append (fits_lit ?_)) ?_))
    all_goals decide
  all_goals
    refine legibleReasons_reject (validText_of_legible (Legible.mono (((((legible_lit ?_ ?_).append
      (fits_show64 _)).append (fits_lit ?_)).append (fits_show64 _)).append (fits_lit ?_)) ?_))
    all_goals decide

theorem codes_resources (request : ResourceRequest) (node : Node) :
    codes (resourceRejections request node) <+ [.insufficientCpu, .insufficientMemory, .insufficientDisk] := by
  simp only [resourceRejections, codes_append]
  exact ((codes_reject _ _ _).append (codes_reject _ _ _)).append (codes_reject _ _ _)

/-! ### Graphics devices -/

/-- No device of the node has the vendor and the stable id of the request. -/
def noDeviceMatches (n : SchedulingNode) (request : GpuResourceRequest) : Nat → List GpuDevice → Bool
  | _, [] => true
  | index, gpu :: gpus =>
    (request.vendor.any (gpu.vendor ≠ ·) || request.deviceId.any ((n.gpuDeviceIds[index]?).join ≠ some ·)) &&
      noDeviceMatches n request (index + 1) gpus

variable {index : Nat} {result seen : GpuSearch}

theorem searchGpus_of_noDeviceMatches
    (h : noDeviceMatches n request index gpus = true) : searchGpus n request index seen gpus = some seen := by
  induction gpus generalizing index with
  | nil => rfl
  | cons gpu gpus ih =>
    simp only [noDeviceMatches, Bool.and_eq_true] at h
    simp only [searchGpus, h.1, if_true]
    exact ih h.2

/-- Once a device has matched, the search reports a match. -/
theorem searchGpus_matching (h : searchGpus n request index seen gpus = some result)
    (hm : seen.matching = true ∨ noDeviceMatches n request index gpus = false) : result.matching = true := by
  induction gpus generalizing index seen with
  | nil =>
    rcases hm with hm | hm
    · cases h; exact hm
    · simp [noDeviceMatches] at hm
  | cons gpu gpus ih =>
    simp only [searchGpus] at h
    split_ifs at h with h1 h2 h3 h4
    · refine ih h (hm.imp_right fun hn => ?_)
      simpa only [noDeviceMatches, h1, Bool.true_and] using hn
    all_goals exact ih h (.inl rfl)

theorem searchGpus_bestVram (h : searchGpus n request index seen gpus = some result) (hs : seen.bestVram < 2 ^ 64) :
    result.bestVram < 2 ^ 64 := by
  induction gpus generalizing index seen with
  | nil => cases h; exact hs
  | cons gpu gpus ih =>
    simp only [searchGpus] at h
    split_ifs at h
    · exact ih h hs
    · exact ih h hs
    · exact ih h hs
    · exact ih h (max_lt hs gpu.availableVramMib.toNat_lt)

/-- The text that names a device the node does not have. -/
def absentDeviceDetail (deviceId : String) : String := "node has no GPU device `" ++ deviceId ++ "`"

/-- A GPU request is rejected with bounded text, unless it names a device the node lacks. -/
theorem legible_gpuResource (n : SchedulingNode) (request : GpuResourceRequest) :
    LegibleReasons (gpuResourceRejections n request) ↔
      ∀ deviceId, request.deviceId = some deviceId → n.node.resources.gpus ≠ [] →
        noDeviceMatches n request 0 n.node.resources.gpus = true → validText (absentDeviceDetail deviceId) = true := by
  unfold gpuResourceRejections
  by_cases hempty : n.node.resources.gpus = []
  · simp only [hempty, List.isEmpty_nil, if_true, legibleReasons_singleton]
    exact ⟨fun _ _ _ h => absurd rfl h, fun _ => by decide⟩
  have hne : n.node.resources.gpus.isEmpty = false := by simpa using hempty
  simp only [hne, Bool.false_eq_true, if_false]
  cases hm : noDeviceMatches n request 0 n.node.resources.gpus with
  | true =>
    -- nothing matched: the reason names the requested device, or its vendor
    rw [searchGpus_of_noDeviceMatches hm]
    cases hd : request.deviceId with
    | none =>
      simp only [Bool.not_false, if_true, legibleReasons_singleton, reduceCtorEq, false_imp_iff, implies_true,
        iff_true]
      refine validText_of_legible (Legible.mono (((legible_lit ?_ ?_).append (fits_vendorName _)).append
        (fits_lit ?_)) ?_)
      all_goals decide
    | some deviceId =>
      simp only [Bool.not_false, if_true, legibleReasons_singleton]
      exact ⟨fun h d hd _ _ => by cases hd; exact h, fun h => h deviceId rfl hempty trivial⟩
  | false =>
    simp only [Bool.false_eq_true, false_imp_iff, implies_true, iff_true]
    cases hs : searchGpus n request 0 ⟨false, false, 0⟩ n.node.resources.gpus with
    | none => exact legibleReasons_nil
    | some seen =>
      simp only [searchGpus_matching hs (.inr hm), Bool.not_true, Bool.false_eq_true, if_false]
      have hv : Fits 20 (toString seen.bestVram) :=
        fits_nat (by decide) (lt_trans (searchGpus_bestVram hs (by decide)) (by decide))
      split
      · exact legibleReasons_singleton.2 (show validText "matching GPU is not allocatable" = true by decide)
      · refine legibleReasons_singleton.2 (validText_of_legible (Legible.mono (((((legible_lit ?_ ?_).append
          (fits_show64 _)).append (fits_lit ?_)).append hv).append (fits_lit ?_)) ?_))
        all_goals decide

theorem legible_gpu (node : Node) (requirement : GpuRequirement) : LegibleReasons (gpuRejections node requirement) := by
  simp only [gpuRejections]
  split_ifs
  · exact legibleReasons_singleton.2 (by decide)
  · refine legibleReasons_singleton.2 (validText_of_legible (Legible.mono (((legible_lit ?_ ?_).append
      (fits_vendorName _)).append (fits_lit ?_)) ?_))
    all_goals decide
  · exact legibleReasons_singleton.2 (by decide)
  · exact legibleReasons_singleton.2 (by decide)
  · refine legibleReasons_reject (validText_of_legible (Legible.mono (((((legible_lit ?_ ?_).append
      (fits_show64 _)).append (fits_lit ?_)).append (fits_show64 _)).append (fits_lit ?_)) ?_))
    all_goals decide

def gpuCodes : List RejectionCode :=
  [.gpuRequired, .gpuUnavailable, .gpuVendorMismatch, .insufficientVram, .exclusiveGpuUnavailable]

theorem codes_gpuResource (n : SchedulingNode) (request : GpuResourceRequest) :
    codes (gpuResourceRejections n request) <+ gpuCodes := by
  unfold gpuResourceRejections
  split
  · decide
  · split
    · exact List.nil_sublist _
    · split
      · split <;> simp [codes, gpuCodes]
      · split
        · cases request.exclusive <;> simp [codes, gpuCodes]
        · simp [codes, gpuCodes]

theorem codes_gpu (node : Node) (requirement : GpuRequirement) :
    codes (gpuRejections node requirement) <+ gpuCodes := by
  simp only [gpuRejections]
  split_ifs
  · decide
  · simp [codes, gpuCodes]
  · simp [codes, gpuCodes]
  · simp [codes, gpuCodes]
  · exact (codes_reject _ _ _).trans (List.singleton_sublist.2 (by decide))

theorem codes_gpuReasons (job : JobSpec) (n : SchedulingNode) : codes (gpuReasons job n) <+ gpuCodes := by
  unfold gpuReasons
  split
  · exact codes_gpuResource _ _
  · split
    · exact codes_gpu _ _
    · split
      · exact codes_gpu _ _
      · exact List.nil_sublist _

end CYC
