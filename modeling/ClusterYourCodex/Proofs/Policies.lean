import ClusterYourCodex.Fleet.Readable
import ClusterYourCodex.Proofs.Recording
import ClusterYourCodex.Proofs.Runs
import ClusterYourCodex.Spec.Configuration

/-! The policy that a computer is configured with, and the policy that the controller enforces after the desktop
has written it. The labels are read back as they were written; what they say beyond the fields of the capacity is
what makes the two policies differ. -/

namespace CYC.Provision

open Checked Relational

/-! ### The labels are read back -/

theorem mem_controllerJobKindNames (kind : AllowedJobKind) : controllerJobKindName kind ∈ controllerJobKindNames := by
  cases kind <;> decide

theorem splitKinds_allowedJobKindsLabel {kinds : Finset AllowedJobKind} (h : kinds ≠ ∅) :
    splitKinds (allowedJobKindsLabel kinds) =
      controllerJobKindNames.filter fun name => name ∈ kinds.image controllerJobKindName := by
  have hne : (controllerJobKindNames.filter fun name => name ∈ kinds.image controllerJobKindName) ≠ [] := by
    obtain ⟨kind, hkind⟩ := Finset.nonempty_iff_ne_empty.2 h
    apply List.ne_nil_of_mem (a := controllerJobKindName kind)
    exact List.mem_filter.2 ⟨mem_controllerJobKindNames kind, decide_eq_true (Finset.mem_image_of_mem _ hkind)⟩
  have hplain : (controllerJobKindNames.all fun name => name.toList.all fun c => !decide (c = ',')) = true := by decide
  rw [splitKinds, allowedJobKindsLabel, String.toList_ofList, Text.splitOnChar_intercalate (decide_eq_true rfl) (by simpa using hne)]
  · simp
  · intro piece hpiece
    obtain ⟨name, hname, rfl⟩ := List.mem_map.1 hpiece
    have hchars := List.all_eq_true.1 hplain name (List.mem_of_mem_filter hname)
    intro c hc
    simpa using List.all_eq_true.1 hchars c hc

theorem validateJobKindsLabel_allowed {kinds : Finset AllowedJobKind} (h : kinds ≠ ∅) :
    validateJobKindsLabel (allowedJobKindsLabel kinds) = .ok () := by
  have hknown : (controllerJobKindNames.all fun name => (jobKindLabel name).isSome) = true := by decide
  rw [validateJobKindsLabel, ensure_eq_ok, Bool.or_eq_true, List.all_eq_true]
  right
  intro name hname
  rw [splitKinds_allowedJobKindsLabel h] at hname
  exact List.all_eq_true.1 hknown name (List.mem_of_mem_filter hname)

/-- The numbers fit the fields of the source: a byte limit has 64 bits. -/
def ResourcePolicy.Fits (resources : ResourcePolicy) : Prop := ∀ bytes ∈ resources.memoryLimitBytes, bytes < 18446744073709551616

section Resources

variable {resources : ResourcePolicy}

theorem validate_resources (h : resources.validate = .ok ()) :
    (∀ n ∈ resources.maximumParallelJobs, 1 ≤ n ∧ n ≤ 1024) ∧ (∀ n ∈ resources.cpuLimitPercent, 1 ≤ n ∧ n ≤ 100) ∧
      ∀ n ∈ resources.memoryLimitBytes, 1 ≤ n := by
  obtain ⟨jobs, cpu, memory⟩ := resources
  simp only [ResourcePolicy.validate, ensure_eq_ok, Bool.not_eq_true', Bool.or_eq_false_iff] at h
  obtain ⟨⟨hjobs, hcpu⟩, hmemory⟩ := h
  refine ⟨?_, ?_, ?_⟩
  · rintro n rfl
    simp only [Option.any_some, Bool.or_eq_false_iff, decide_eq_false_iff_not] at hjobs
    omega
  · rintro n rfl
    simp only [Option.any_some, Bool.or_eq_false_iff, decide_eq_false_iff_not] at hcpu
    omega
  · rintro n rfl
    simp only [Option.some.injEq, decide_eq_false_iff_not] at hmemory
    omega

theorem scalar_optionalNumber {o : Option Nat} (h : ∀ n ∈ o, n < 18446744073709551616) : Json.Scalar (optionalNumber o) := by
  cases o with
  | none => exact .null
  | some n => exact .nat (h n rfl)

/-- The keys of the labels need no escapes. -/
theorem plain_keys : "cpuLimitPercent".toList.all Json.plain = true ∧ "maximumParallelJobs".toList.all Json.plain = true ∧
    "memoryLimitBytes".toList.all Json.plain = true ∧ "allowOnBattery".toList.all Json.plain = true := by
  decide

theorem flat_resourcePolicyEntries (h : resources.validate = .ok ()) (hfits : resources.Fits) :
    ∀ e ∈ resourcePolicyEntries resources, Json.Flat e := by
  obtain ⟨hjobs, hcpu, -⟩ := validate_resources h
  intro e he
  simp only [resourcePolicyEntries, List.mem_cons, List.not_mem_nil, or_false] at he
  rcases he with rfl | rfl | rfl
  · exact ⟨plain_keys.1, scalar_optionalNumber fun n hn => by have := hcpu n hn; omega⟩
  · exact ⟨plain_keys.2.1, scalar_optionalNumber fun n hn => by have := hjobs n hn; omega⟩
  · exact ⟨plain_keys.2.2.1, scalar_optionalNumber hfits⟩

theorem read_resourcePolicyLabel (h : resources.validate = .ok ()) (hfits : resources.Fits) :
    Json.read (resourcePolicyLabel resources) = some (.obj (resourcePolicyEntries resources)) :=
  Json.read_write_flat (flat_resourcePolicyEntries h hfits) (by simp [resourcePolicyEntries])

theorem get_resourcePolicyEntries (resources : ResourcePolicy) :
    Json.get (resourcePolicyEntries resources) "cpuLimitPercent" = some (optionalNumber resources.cpuLimitPercent) ∧
    Json.get (resourcePolicyEntries resources) "maximumParallelJobs" = some (optionalNumber resources.maximumParallelJobs) ∧
    Json.get (resourcePolicyEntries resources) "memoryLimitBytes" = some (optionalNumber resources.memoryLimitBytes) :=
  ⟨rfl, rfl, rfl⟩

theorem asUInt64_optionalNumber {o : Option Nat} (h : ∀ n ∈ o, n < 18446744073709551616) : (optionalNumber o).asUInt64 = o := by
  cases o with
  | none => rfl
  | some n =>
    have hn : n < 18446744073709551616 := h n rfl
    have hint : (0 : Int) ≤ n ∧ (n : Int) < 18446744073709551616 := by omega
    rw [optionalNumber, Json.asUInt64, if_pos hint]
    rfl

end Resources

theorem read_batteryPolicyLabel (b : Bool) : Json.read (batteryPolicyLabel b) = some (.obj [("allowOnBattery", .bool b)]) := by
  refine Json.read_write_flat ?_ (by simp)
  intro e he
  obtain rfl := List.mem_singleton.1 he
  exact ⟨plain_keys.2.2.2, .bool b⟩

/-! ### The controller's reading -/

section Labels

variable {configuration : ComputerConfiguration}

theorem get_desiredLabels (configuration : ComputerConfiguration) (labels : OrdMap String String) :
    (desiredLabels configuration labels).get PolicyLabel.allowedJobKinds =
      some (allowedJobKindsLabel configuration.allowedJobKinds) ∧
    (desiredLabels configuration labels).get PolicyLabel.resource = some (resourcePolicyLabel configuration.resources) ∧
    (desiredLabels configuration labels).get PolicyLabel.battery = some (batteryPolicyLabel configuration.allowOnBattery) := by
  have hkeys : PolicyLabel.allowedJobKinds ≠ PolicyLabel.resource ∧ PolicyLabel.allowedJobKinds ≠ PolicyLabel.battery ∧
      PolicyLabel.resource ≠ PolicyLabel.battery := by decide
  unfold desiredLabels
  refine ⟨?_, ?_, ?_⟩
  · rw [OrdMap.get_insert, if_neg hkeys.2.1, OrdMap.get_insert, if_neg hkeys.1, OrdMap.get_insert, if_pos rfl]
  · rw [OrdMap.get_insert, if_neg hkeys.2.2, OrdMap.get_insert, if_pos rfl]
  · rw [OrdMap.get_insert, if_pos rfl]

/-- The configuration is one that the desktop accepts, with numbers that its fields hold. -/
structure Accepted (configuration : ComputerConfiguration) : Prop where
  kinds : configuration.allowedJobKinds ≠ ∅
  priority : -10000 ≤ configuration.priority ∧ configuration.priority ≤ 10000
  resources : configuration.resources.validate = .ok ()
  fits : configuration.resources.Fits

theorem accepted_of_validate (h : configuration.validate = .ok ()) (hfits : configuration.resources.Fits) :
    Accepted configuration := by
  simp only [ComputerConfiguration.validate, seq_eq_ok, ensure_eq_ok, Bool.and_eq_true, decide_eq_true_eq] at h
  obtain ⟨-, hpriority, -, hkinds, hresources⟩ := h
  exact ⟨hkinds, hpriority, hresources, hfits⟩

theorem validateResourceLabel_desired (h : Accepted configuration) :
    validateResourceLabel (resourcePolicyLabel configuration.resources) = .ok () := by
  obtain ⟨hjobs, hcpu, hmemory⟩ := validate_resources h.resources
  obtain ⟨hgetCpu, hgetJobs, hgetMemory⟩ := get_resourcePolicyEntries configuration.resources
  have hrange : ∀ (key : String) (o : Option Nat) (low high : Nat), high ≤ u64Max →
      Json.get (resourcePolicyEntries configuration.resources) key = some (optionalNumber o) →
      (∀ n ∈ o, low ≤ n ∧ n ≤ high) → optionalInRange (resourcePolicyEntries configuration.resources) key low high = true := by
    intro key o low high hhigh hget ho
    rw [optionalInRange, hget, Option.all_some]
    cases o with
    | none => rfl
    | some n =>
      obtain ⟨hlow, hn⟩ := ho n rfl
      have hword : (optionalNumber (some n)).asUInt64 = some n := by
        apply asUInt64_optionalNumber
        rintro _ ⟨⟩
        have : u64Max = 18446744073709551615 := rfl
        omega
      simp [hword, hlow, hn]
  simp only [validateResourceLabel, labelObject, read_resourcePolicyLabel h.resources h.fits, ok_bind, ensure_eq_ok,
    Bool.and_eq_true]
  refine ⟨⟨⟨rfl, ?_⟩, ?_⟩, ?_⟩
  · exact hrange _ _ _ _ (by decide) hgetCpu hcpu
  · exact hrange _ _ _ _ (by decide) hgetJobs hjobs
  · refine hrange _ _ _ _ (le_refl _) hgetMemory fun n hn => ⟨hmemory n hn, ?_⟩
    exact Nat.le_of_lt_succ (h.fits n hn)

theorem validateBatteryLabel_desired (b : Bool) : validateBatteryLabel (batteryPolicyLabel b) = .ok () := by
  simp only [validateBatteryLabel, labelObject, read_batteryPolicyLabel, ok_bind, ensure_eq_ok]
  rfl

end Labels

section Capacity

variable {configuration : ComputerConfiguration} {current : CapacityPolicy}

/-- The capacity with what the resource label adds: a CPU limit also bounds the CPU use that is tolerated, where
nothing else bounded it. -/
def enforcedCapacity (configuration : ComputerConfiguration) (current : CapacityPolicy) : CapacityPolicy :=
  { desiredCapacity configuration current with
    maxCpuPercent := current.maxCpuPercent.or (configuration.resources.cpuLimitPercent.map UInt8.ofNat) }

theorem applyResourceLabel_desired (h : Accepted configuration) :
    applyResourceLabel (desiredCapacity configuration current) (resourcePolicyLabel configuration.resources) =
      .ok (enforcedCapacity configuration current) := by
  obtain ⟨hjobs, hcpu, -⟩ := validate_resources h.resources
  obtain ⟨hgetCpu, hgetJobs, hgetMemory⟩ := get_resourcePolicyEntries configuration.resources
  have hreadCpu : (optionalNumber configuration.resources.cpuLimitPercent).asUInt64 = configuration.resources.cpuLimitPercent :=
    asUInt64_optionalNumber fun n hn => by have := hcpu n hn; omega
  have hreadJobs : (optionalNumber configuration.resources.maximumParallelJobs).asUInt64 =
      configuration.resources.maximumParallelJobs :=
    asUInt64_optionalNumber fun n hn => by have := hjobs n hn; omega
  have hreadMemory : (optionalNumber configuration.resources.memoryLimitBytes).asUInt64 =
      configuration.resources.memoryLimitBytes := asUInt64_optionalNumber h.fits
  simp only [applyResourceLabel, read_resourcePolicyLabel h.resources h.fits, required, ok_bind, hgetCpu, hgetJobs, hgetMemory,
    Option.bind_some, hreadCpu, hreadJobs, hreadMemory, enforcedCapacity, pure_eq_ok]
  have hnarrowCpu : configuration.resources.cpuLimitPercent.bind (narrow 255) = configuration.resources.cpuLimitPercent := by
    cases hlimit : configuration.resources.cpuLimitPercent with
    | none => rfl
    | some n => exact if_pos (by have := hcpu n hlimit; omega)
  have hnarrowJobs : configuration.resources.maximumParallelJobs.bind (narrow u32Max) =
      configuration.resources.maximumParallelJobs := by
    cases hlimit : configuration.resources.maximumParallelJobs with
    | none => rfl
    | some n => exact if_pos (by have := hjobs n hlimit; have : u32Max = 4294967295 := rfl; omega)
  have hslots : (if (desiredCapacity configuration current).maxConcurrentJobs = 1 then
      (configuration.resources.maximumParallelJobs.map UInt32.ofNat).getD (desiredCapacity configuration current).maxConcurrentJobs
      else (desiredCapacity configuration current).maxConcurrentJobs) = (desiredCapacity configuration current).maxConcurrentJobs := by
    split
    · rename_i hone
      rw [hone]
      exact hone
    · rfl
  have hmemory : (desiredCapacity configuration current).memoryLimitMib.or (configuration.resources.memoryLimitBytes.map fun bytes =>
      UInt64.ofNat (satU64 (bytes + 1048575) / 1048576)) = (desiredCapacity configuration current).memoryLimitMib := by
    unfold desiredCapacity
    cases configuration.resources.memoryLimitBytes <;> rfl
  rw [hnarrowCpu, hnarrowJobs, hslots, hmemory]
  rfl

theorem applyBatteryLabel_desired {capacity : CapacityPolicy} (h : capacity.allowOnBattery = false) :
    applyBatteryLabel capacity (batteryPolicyLabel false) = .ok capacity := by
  simp only [applyBatteryLabel, read_batteryPolicyLabel, required, ok_bind, pure_eq_ok]
  rw [← h]
  rfl

theorem validate_capacity {policy : CapacityPolicy} : policy.validate = .ok () ↔ policy.maxConcurrentJobs ≠ 0 ∧
    policy.allocatableCpuCores ≠ some 0 ∧ policy.memoryLimitMib ≠ some 0 ∧
    (policy.allocatableCpuPercent.all fun v => 1 ≤ v && v ≤ 100) = true ∧
    (policy.maxCpuPercent.all fun v => 1 ≤ v && v ≤ 100) = true ∧
    (policy.maxCpuEwmaPercent.all fun v => 1 ≤ v && v ≤ 100) = true ∧
    (policy.maxMemoryPercent.all fun v => 1 ≤ v && v ≤ 100) = true ∧
    (policy.maxTemperatureC.all fun t => minTemperatureC ≤ t && t ≤ maxTemperatureC) = true := by
  simp only [CapacityPolicy.validate, CapacityPolicy.percentInRange, seq_eq_ok, ensure_eq_ok, decide_eq_true_eq]

/-- A limit in percent is one that the controller accepts. -/
theorem percent_cpuLimit (h : Accepted configuration) :
    ((configuration.resources.cpuLimitPercent.map UInt8.ofNat).all fun v => 1 ≤ v && v ≤ 100) = true := by
  obtain ⟨-, hcpu, -⟩ := validate_resources h.resources
  cases hlimit : configuration.resources.cpuLimitPercent with
  | none => rfl
  | some n =>
    have hn := hcpu n hlimit
    have hnat : (UInt8.ofNat n).toNat = n := by simp; omega
    simp only [Option.map_some, Option.all_some, Bool.and_eq_true, decide_eq_true_eq, UInt8.le_iff_toNat_le, hnat]
    exact hn

theorem maxConcurrentJobs_desired (h : Accepted configuration) : (desiredCapacity configuration current).maxConcurrentJobs.toNat =
    configuration.resources.maximumParallelJobs.getD 1 := by
  obtain ⟨hjobs, -, -⟩ := validate_resources h.resources
  unfold desiredCapacity
  cases hlimit : configuration.resources.maximumParallelJobs with
  | none => rfl
  | some n =>
    have hn := hjobs n hlimit
    simp
    omega

theorem memoryLimit_desired (h : Accepted configuration) : (desiredCapacity configuration current).memoryLimitMib ≠ some 0 ↔
    ∀ bytes ∈ configuration.resources.memoryLimitBytes, 1048576 ≤ bytes := by
  unfold desiredCapacity
  cases hlimit : configuration.resources.memoryLimitBytes with
  | none => simp
  | some bytes =>
    have hbytes := h.fits bytes hlimit
    simp only [Option.map_some, ne_eq, Option.some.injEq, Option.mem_def, forall_eq', ← UInt64.toNat_inj]
    have hnat : (UInt64.ofNat (bytes / 1048576)).toNat = bytes / 1048576 := by simp; omega
    rw [hnat]
    show ¬bytes / 1048576 = 0 ↔ _
    omega

theorem validate_desiredCapacity (h : Accepted configuration) (hcurrent : current.validate = .ok ()) :
    (desiredCapacity configuration current).validate = .ok () ↔
      ∀ bytes ∈ configuration.resources.memoryLimitBytes, 1048576 ≤ bytes := by
  have hjobs : (desiredCapacity configuration current).maxConcurrentJobs ≠ 0 := by
    intro hzero
    have hnat := @maxConcurrentJobs_desired _ current h
    rw [hzero] at hnat
    obtain ⟨hrange, -, -⟩ := validate_resources h.resources
    cases hlimit : configuration.resources.maximumParallelJobs with
    | none => rw [hlimit] at hnat; exact absurd hnat (by decide)
    | some n =>
      rw [hlimit] at hnat
      have := hrange n hlimit
      have : (0 : UInt32).toNat = n := hnat
      have : (0 : UInt32).toNat = 0 := rfl
      omega
  obtain ⟨-, hcores, -, -, hcpu, hewma, hmemory, htemperature⟩ := validate_capacity.1 hcurrent
  rw [validate_capacity, memoryLimit_desired h]
  constructor
  · rintro ⟨-, -, hlimit, -⟩
    exact hlimit
  · intro hlimit
    exact ⟨hjobs, hcores, hlimit, percent_cpuLimit h, hcpu, hewma, hmemory, htemperature⟩

theorem validate_enforcedCapacity (h : Accepted configuration) (hdesired : (desiredCapacity configuration current).validate = .ok ()) :
    (enforcedCapacity configuration current).validate = .ok () := by
  obtain ⟨hjobs, hcores, hlimit, hpercent, hcpu, hewma, hmemory, htemperature⟩ := validate_capacity.1 hdesired
  refine validate_capacity.2 ⟨hjobs, hcores, hlimit, hpercent, ?_, hewma, hmemory, htemperature⟩
  unfold enforcedCapacity
  cases hmax : current.maxCpuPercent with
  | none => exact percent_cpuLimit h
  | some v =>
    have : (desiredCapacity configuration current).maxCpuPercent = some v := hmax
    rw [this] at hcpu
    exact hcpu

theorem effectiveCapacityPolicy_desired {record : ComputerRecord} {config : NodeConfig} (h : Accepted record.configuration)
    (hvalid : (desiredCapacity record.configuration config.capacity).validate = .ok ()) :
    effectiveCapacityPolicy (desiredConfig record config) = .ok (enforcedCapacity record.configuration config.capacity) := by
  obtain ⟨hkinds, hresource, hbattery⟩ := get_desiredLabels record.configuration config.labels
  have hreserved : validateReservedPolicyLabels (desiredConfig record config) = .ok () := by
    simp only [validateReservedPolicyLabels, desiredConfig, hkinds, hresource, hbattery, checkSome_some,
      validateJobKindsLabel_allowed h.kinds, validateResourceLabel_desired h, validateBatteryLabel_desired, ok_bind]
  have hsome : (desiredConfig record config).capacity.allowedJobKinds ≠ ∅ := by
    simpa [desiredConfig, desiredCapacity] using h.kinds
  have hfirst : applyLabel (if (desiredConfig record config).capacity.allowedJobKinds = ∅ then
      (desiredConfig record config).labels.get PolicyLabel.allowedJobKinds else none) applyJobKindsLabel
      (desiredConfig record config).capacity = .ok (desiredCapacity record.configuration config.capacity) := by
    rw [if_neg hsome]
    rfl
  have hsecond : applyLabel ((desiredConfig record config).labels.get PolicyLabel.resource) applyResourceLabel
      (desiredCapacity record.configuration config.capacity) = .ok (enforcedCapacity record.configuration config.capacity) := by
    have hlabel : (desiredConfig record config).labels.get PolicyLabel.resource =
      some (resourcePolicyLabel record.configuration.resources) := hresource
    rw [hlabel]
    exact applyResourceLabel_desired h
  have hthird : applyLabel (if (enforcedCapacity record.configuration config.capacity).allowOnBattery then none
      else (desiredConfig record config).labels.get PolicyLabel.battery) applyBatteryLabel
      (enforcedCapacity record.configuration config.capacity) = .ok (enforcedCapacity record.configuration config.capacity) := by
    have hlabel : (desiredConfig record config).labels.get PolicyLabel.battery =
      some (batteryPolicyLabel record.configuration.allowOnBattery) := hbattery
    have hflag : (enforcedCapacity record.configuration config.capacity).allowOnBattery = record.configuration.allowOnBattery := rfl
    cases hallow : record.configuration.allowOnBattery with
    | true =>
      rw [hflag, hallow, if_pos rfl]
      rfl
    | false =>
      rw [hflag, hallow, if_neg nofun, hlabel, hallow]
      exact applyBatteryLabel_desired (hflag.trans hallow)
  simp only [effectiveCapacityPolicy, hreserved, hfirst, hsecond, hthird, validate_enforcedCapacity h hvalid, ok_bind]
  rfl

end Capacity

/-! ### What the controller accepts -/

theorem validate_config {config : NodeConfig} : config.validate = .ok () ↔ boundedText 128 config.name = true ∧
    config.labels.entries.all NodeConfig.validLabel = true ∧ config.capacity.validate = .ok () := by
  simp only [NodeConfig.validate, seq_eq_ok, ensure_eq_ok]

theorem isControl_digit {c : Char} (h : Json.isDigit c = true) : Text.isControl c = false := by
  rcases Json.digit_cases h with rfl | rfl | rfl | rfl | rfl | rfl | rfl | rfl | rfl | rfl <;> decide

theorem write_optionalNumber {o : Option Nat} (h : ∀ n ∈ o, n < 18446744073709551616) :
    (optionalNumber o).write.length ≤ 20 ∧ ∀ c ∈ (optionalNumber o).write, Text.isControl c = false := by
  cases o with
  | none =>
    have hplain : ("null".toList.all fun c => !Text.isControl c) = true := by decide
    exact ⟨by decide, fun c hc => by simpa using List.all_eq_true.1 hplain c hc⟩
  | some n =>
    have hn : n < 18446744073709551616 := h n rfl
    have htext : (optionalNumber (some n)).write = Json.decimal n := by
      rw [optionalNumber, Json.write, Json.toString_nat]
    rw [htext]
    exact ⟨(Nat.length_toDigits_le_iff (by decide) (by decide)).2 (by omega), fun c hc => isControl_digit (Json.isDigit_of_mem_decimal hc)⟩

section Config

variable {configuration : ComputerConfiguration}

theorem validLabel_of_text {key : String} {cs : List Char} (hkey : NodeConfig.validLabel (key, "") = true) (hlength : cs.length ≤ 1024)
    (hplain : ∀ c ∈ cs, Text.isControl c = false) : NodeConfig.validLabel (key, String.ofList cs) = true := by
  simp only [NodeConfig.validLabel, Bool.and_eq_true, Bool.not_eq_true', decide_eq_true_eq] at hkey ⊢
  obtain ⟨⟨⟨⟨hblank, hshort⟩, -⟩, hcontrol⟩, -⟩ := hkey
  refine ⟨⟨⟨⟨hblank, hshort⟩, ?_⟩, hcontrol⟩, ?_⟩
  · rw [Text.charCount, String.toList_ofList]
    exact hlength
  · rw [Text.hasControl, String.toList_ofList, List.any_eq_false]
    intro c hc
    simp [hplain c hc]

theorem validLabel_kinds (kinds : Finset AllowedJobKind) :
    NodeConfig.validLabel (PolicyLabel.allowedJobKinds, allowedJobKindsLabel kinds) = true := by
  have hnames : (controllerJobKindNames.all fun name => name.toList.length ≤ 9 && name.toList.all fun c => !Text.isControl c) = true := by
    decide
  have hfew : (controllerJobKindNames.filter fun name => name ∈ kinds.image controllerJobKindName).length ≤ 7 :=
    List.length_filter_le _ controllerJobKindNames
  have hpieces : ∀ piece ∈ (controllerJobKindNames.filter fun name => name ∈ kinds.image controllerJobKindName).map String.toList,
      piece.length ≤ 9 ∧ ∀ c ∈ piece, Text.isControl c = false := by
    intro piece hpiece
    obtain ⟨name, hname, rfl⟩ := List.mem_map.1 hpiece
    have hchecked := List.all_eq_true.1 hnames name (List.mem_of_mem_filter hname)
    simp only [Bool.and_eq_true, decide_eq_true_eq, List.all_eq_true, Bool.not_eq_true'] at hchecked
    exact hchecked
  have hcomma : Text.isControl ',' = false := by decide
  have htext := Text.intercalate_text hcomma 9 _ hpieces
  refine validLabel_of_text (by decide) ?_ htext.2
  rw [List.length_map] at htext
  omega

theorem validLabel_resource (h : Accepted configuration) :
    NodeConfig.validLabel (PolicyLabel.resource, resourcePolicyLabel configuration.resources) = true := by
  obtain ⟨hjobs, hcpu, -⟩ := validate_resources h.resources
  obtain ⟨hcpuLength, hcpuText⟩ := write_optionalNumber (o := configuration.resources.cpuLimitPercent)
    fun n hn => by have := hcpu n hn; omega
  obtain ⟨hjobsLength, hjobsText⟩ := write_optionalNumber (o := configuration.resources.maximumParallelJobs)
    fun n hn => by have := hjobs n hn; omega
  obtain ⟨hmemoryLength, hmemoryText⟩ := write_optionalNumber h.fits
  have htext : (Json.obj (resourcePolicyEntries configuration.resources)).write =
      '\x7b' :: (Json.quote "cpuLimitPercent" ++ ':' :: (optionalNumber configuration.resources.cpuLimitPercent).write ++
        ',' :: (Json.quote "maximumParallelJobs" ++ ':' :: (optionalNumber configuration.resources.maximumParallelJobs).write ++
        ',' :: (Json.quote "memoryLimitBytes" ++ ':' :: (optionalNumber configuration.resources.memoryLimitBytes).write))) ++
        ['\x7d'] := rfl
  have hlength : (Json.quote "cpuLimitPercent").length = 17 ∧ (Json.quote "maximumParallelJobs").length = 21 ∧
      (Json.quote "memoryLimitBytes").length = 18 := by decide
  have hkeys : ((Json.quote "cpuLimitPercent" ++ Json.quote "maximumParallelJobs" ++ Json.quote "memoryLimitBytes").all
      fun c => !Text.isControl c) = true := by decide
  have hkeys : ∀ c ∈ Json.quote "cpuLimitPercent" ++ Json.quote "maximumParallelJobs" ++ Json.quote "memoryLimitBytes",
      Text.isControl c = false := fun c hc => by simpa using List.all_eq_true.1 hkeys c hc
  unfold resourcePolicyLabel
  rw [htext]
  refine validLabel_of_text (by decide) ?_ ?_
  · simp only [List.length_append, List.length_cons, List.length_nil, hlength]
    omega
  · simp only [List.mem_append] at hkeys
    intro c hc
    simp only [List.mem_append, List.mem_cons, List.not_mem_nil, or_false] at hc
    rcases hc with (rfl | (hc | rfl | hc) | rfl | (hc | rfl | hc) | rfl | hc | rfl | hc) | rfl
    all_goals first
      | decide
      | exact hcpuText c hc
      | exact hjobsText c hc
      | exact hmemoryText c hc
      | exact hkeys c (by simp [hc])

theorem validLabel_battery (b : Bool) : NodeConfig.validLabel (PolicyLabel.battery, batteryPolicyLabel b) = true := by
  cases b <;> decide

theorem validLabels_desired (h : Accepted configuration) {labels : OrdMap String String}
    (hlabels : labels.entries.all NodeConfig.validLabel = true) :
    (desiredLabels configuration labels).entries.all NodeConfig.validLabel = true := by
  rw [List.all_eq_true] at hlabels ⊢
  intro e he
  rcases OrdMap.mem_insertEntry he with rfl | he
  · exact validLabel_battery _
  rcases OrdMap.mem_insertEntry he with rfl | he
  · exact validLabel_resource h
  rcases OrdMap.mem_insertEntry he with rfl | he
  · exact validLabel_kinds _
  · exact hlabels e he

end Config

section Record

variable {paths : PathRules} {r : ComputerRecord} {config : NodeConfig}

theorem validateText_eq_ok {field value : String} {limit : Nat} : validateText field value limit = .ok () ↔
    Text.blank value = false ∧ Text.byteCount value ≤ limit ∧ Text.hasControl value = false := by
  simp only [validateText, ensure_eq_ok, Bool.not_eq_true', Bool.or_eq_false_iff, decide_eq_false_iff_not, not_lt, and_assoc]

/-- A text that passed the desktop's check passes the controller's, if it is short enough in characters. -/
theorem boundedText_of_validateText {field value : String} {limit : Nat} (h : validateText field value limit = .ok ()) :
    boundedText 128 value = true ↔ Text.charCount value ≤ 128 := by
  obtain ⟨hblank, -, hcontrol⟩ := validateText_eq_ok.1 h
  simp [boundedText, hblank, hcontrol]

theorem boundedText_desiredName (h : Valid paths r) : boundedText 128 (desiredName r) = true ↔
    (Text.trim r.displayName = Text.trim r.endpoint.host → ∀ i ∈ r.inventory, Text.charCount i.hostname ≤ 128) := by
  have hidentity := h.identity
  simp only [ComputerRecord.validateIdentity, seq_eq_ok] at hidentity
  obtain ⟨-, -, hname, -⟩ := hidentity
  have hdisplay : boundedText 128 r.displayName = true := by
    rw [boundedText_of_validateText hname]
    exact (Text.charCount_le_byteCount _).trans (validateText_eq_ok.1 hname).2.1
  unfold desiredName
  by_cases hdefault : Text.trim r.displayName = Text.trim r.endpoint.host
  · rw [if_pos hdefault]
    cases hinventory : r.inventory with
    | none => simpa using hdisplay
    | some i =>
      have hvalid := h.inventory
      rw [hinventory, checkSome_some, DiscoveredComputer.validate, seq_eq_ok] at hvalid
      simpa [hdefault] using boundedText_of_validateText hvalid.1
  · rw [if_neg hdefault]
    simp [hdefault, hdisplay]

theorem accepted_of_valid (h : Valid paths r) (hfits : r.configuration.resources.Fits) : Accepted r.configuration :=
  accepted_of_validate h.configuration hfits

/-- The desktop's own check of the configuration it is about to write. -/
theorem desiredNodeConfig_eq_ok {desired : NodeConfig} (h : Valid paths r) (hfits : r.configuration.resources.Fits)
    (hconfig : config.validate = .ok ()) : desiredNodeConfig r config = .ok desired ↔
      ((∀ bytes ∈ r.configuration.resources.memoryLimitBytes, 1048576 ≤ bytes) ∧
        (Text.trim r.displayName = Text.trim r.endpoint.host → ∀ i ∈ r.inventory, Text.charCount i.hostname ≤ 128)) ∧
      desired = desiredConfig r config := by
  have haccepted := accepted_of_valid h hfits
  obtain ⟨-, hlabels, hcapacity⟩ := validate_config.1 hconfig
  have hvalid : (desiredConfig r config).validate = .ok () ↔ _ := validate_config
  simp only [desiredNodeConfig, seq_eq_ok, mapError_eq_ok, pure_eq_ok, hvalid]
  have hfield : (desiredConfig r config).name = desiredName r := by simp only [desiredConfig]
  have hlimits : (desiredConfig r config).capacity = desiredCapacity r.configuration config.capacity := rfl
  have hentries : (desiredConfig r config).labels.entries.all NodeConfig.validLabel = true := validLabels_desired haccepted hlabels
  rw [hfield, boundedText_desiredName h, hlimits, validate_desiredCapacity haccepted hcapacity]
  simp only [hentries, true_and]
  constructor
  · rintro ⟨⟨hname, hbytes⟩, rfl⟩
    exact ⟨⟨hbytes, hname⟩, rfl⟩
  · rintro ⟨⟨hbytes, hname⟩, rfl⟩
    exact ⟨⟨hname, hbytes⟩, rfl⟩

end Record

/-- A valid configuration is accepted at the revision of the one that is stored, until the counter of the fleet is
used up. -/
theorem updateNodeConfig_isOk (env : Env) {db : Db} (hsound : ∀ id, (db.nodeRows id).Sound id) (hnumbered : Numbered db.nodeConfigs)
    {row : NodeConfigRow} (hrow : row ∈ db.nodeConfigs.rows) {config : NodeConfig} {policy : CapacityPolicy}
    (hvalid : config.validate = .ok ()) (hpolicy : effectiveCapacityPolicy config = .ok policy) :
    (∃ db' stored, updateNodeConfig env db row.nodeId row.revision config = .ok (db', stored)) ↔
      db.fleetRevision < maxSafeJsonInteger := by
  have hstored : (db.nodeRows row.nodeId).config = some row :=
    Table.lookup_of_mem (fun a b hab => (NodeConfigRow.clash_iff a b).2 hab) hrow
  have hlabels : validateReservedPolicyLabels config = .ok () := by
    simp only [effectiveCapacityPolicy, seq_eq_ok] at hpolicy
    exact hpolicy.1
  obtain ⟨n, i, t, boots, hrows, hd⟩ : ∃ n i t boots, db.nodeRows row.nodeId = ⟨some n, some row, some i, some t, boots⟩ ∧
      Described row.nodeId n row i t boots := by
    have hs := hsound row.nodeId
    generalize db.nodeRows row.nodeId = rows at hs hstored ⊢
    cases hs with
    | absent => cases hstored
    | described hd => cases hstored; exact ⟨_, _, _, _, rfl, hd⟩
  have hnode : (db.nodes.find fun r => r.id = row.nodeId) = some n := congrArg NodeRows.node hrows
  have hid : n.id = row.nodeId := (Table.lookup_some (t := db.nodes) hnode).2
  have hdocuments : db.documents n = some ⟨n.id, row, i, t, n.revision⟩ := by
    have hi : (db.nodeRows n.id).inventory = some i := by rw [hid, hrows]
    have ht : (db.nodeRows n.id).telemetry = some t := by rw [hid, hrows]
    have hc : (db.nodeRows n.id).config = some row := by rw [hid, hrows]
    simp only [Db.documents, Option.bind_eq_bind, Option.bind_eq_some_iff, Option.pure_def]
    exact ⟨row, hc, i, hi, t, ht, rfl⟩
  have hmerges : Merges row.nodeId config i.document t.document := { hd.merges with config := hvalid }
  obtain ⟨view, node, hview, htoNode, -⟩ := hmerges.merge t.receivedAt (env.reading .configured) nodeFreshnessTtl
  simp only [updateNodeConfig, hvalid, hlabels, hpolicy, hnode, hdocuments, hview, htoNode, required, Except.mapError, ok_bind,
    decide_eq_true (hnumbered row hrow), decide_true, ensure_true, bind_eq_ok, pair_eq_ok,
    incrementFleetRevision_eq_ok]
  constructor
  · rintro ⟨db', stored, db₁, ⟨hlt, -⟩, -⟩
    exact hlt
  · intro hlt
    exact ⟨_, _, _, ⟨hlt, rfl⟩, rfl, rfl⟩

/-! ### The enforced policy -/

/-- The policy is the one that the computer is configured with, and keeps the other limits of the previous one. -/
structure Enforces (configuration : ComputerConfiguration) (previous policy : CapacityPolicy) : Prop where
  jobs : policy.maxConcurrentJobs.toNat = configuration.resources.maximumParallelJobs.getD 1
  limited : policy.memoryLimitMib.isSome = configuration.resources.memoryLimitBytes.isSome
  memory : ∀ mib ∈ policy.memoryLimitMib, ∀ bytes ∈ configuration.resources.memoryLimitBytes,
    mib.toNat * 1048576 ≤ bytes ∧ bytes < (mib.toNat + 1) * 1048576
  cpu : policy.allocatableCpuPercent.map UInt8.toNat = configuration.resources.cpuLimitPercent
  kinds : policy.allowedJobKinds = configuration.allowedJobKinds.image protocolJobKind
  battery : policy.allowOnBattery = configuration.allowOnBattery
  maxCpuPercent : policy.maxCpuPercent = previous.maxCpuPercent
  maxCpuEwmaPercent : policy.maxCpuEwmaPercent = previous.maxCpuEwmaPercent
  maxMemoryPercent : policy.maxMemoryPercent = previous.maxMemoryPercent
  maxTemperatureC : policy.maxTemperatureC = previous.maxTemperatureC
  cores : policy.allocatableCpuCores = previous.allocatableCpuCores

theorem enforces_iff {configuration : ComputerConfiguration} {previous : CapacityPolicy} (h : Accepted configuration) :
    Enforces configuration previous (enforcedCapacity configuration previous) ↔
      (configuration.resources.cpuLimitPercent ≠ none → previous.maxCpuPercent ≠ none) := by
  have hmax : (enforcedCapacity configuration previous).maxCpuPercent = previous.maxCpuPercent ↔
      (configuration.resources.cpuLimitPercent ≠ none → previous.maxCpuPercent ≠ none) := by
    unfold enforcedCapacity
    cases previous.maxCpuPercent <;> cases configuration.resources.cpuLimitPercent <;> simp
  rw [← hmax]
  refine ⟨Enforces.maxCpuPercent, fun hmax => ?_⟩
  obtain ⟨-, hcpu, -⟩ := validate_resources h.resources
  exact {
    jobs := by
      have hjobs : (desiredCapacity configuration previous).maxConcurrentJobs.toNat = _ := maxConcurrentJobs_desired h
      exact hjobs
    limited := by simp [enforcedCapacity, desiredCapacity]
    memory := by
      intro mib hmib bytes hbytes
      have hlimit : (desiredCapacity configuration previous).memoryLimitMib = some mib := hmib
      have hfits := h.fits bytes hbytes
      rw [Option.mem_def] at hbytes
      simp only [desiredCapacity, hbytes, Option.map_some, Option.some.injEq] at hlimit
      subst hlimit
      have hnat : (UInt64.ofNat (bytes / 1048576)).toNat = bytes / 1048576 := by simp; omega
      rw [hnat]
      omega
    cpu := by
      show (configuration.resources.cpuLimitPercent.map UInt8.ofNat).map UInt8.toNat = _
      cases hlimit : configuration.resources.cpuLimitPercent with
      | none => rfl
      | some n =>
        have hn := hcpu n hlimit
        simp
        omega
    kinds := rfl
    battery := rfl
    maxCpuPercent := hmax
    maxCpuEwmaPercent := rfl
    maxMemoryPercent := rfl
    maxTemperatureC := rfl
    cores := rfl }

/-- For every history of the store, every configuration it stores and every valid record: the desktop's translation
succeeds, the controller accepts it at the current revision and enforces the configured policy, exactly when the byte
limit is at least one mebibyte, the discovered host name that replaces a defaulted display name has at most 128
characters, a CPU limit comes with a limit of the tolerated CPU use in the previous capacity, and the counter of the
fleet is not used up. -/
theorem configured_policy_enforced_iff (seed : String) (calls : List Call) {paths : PathRules} {r : ComputerRecord}
    (hr : r.validate paths = .ok ()) (hfits : r.configuration.resources.Fits) {row : NodeConfigRow}
    (hrow : row ∈ (storeAfter seed calls).nodeConfigs.rows) (env : Env) :
    (∃ desired db' stored policy, desiredNodeConfig r row.document = .ok desired ∧
      updateNodeConfig env (storeAfter seed calls) row.nodeId row.revision desired = .ok (db', stored) ∧
      effectiveCapacityPolicy desired = .ok policy ∧ Enforces r.configuration row.document.capacity policy) ↔
    (∀ bytes ∈ r.configuration.resources.memoryLimitBytes, 1048576 ≤ bytes) ∧
    (Text.trim r.displayName = Text.trim r.endpoint.host → ∀ i ∈ r.inventory, Text.charCount i.hostname ≤ 128) ∧
    (r.configuration.resources.cpuLimitPercent ≠ none → row.document.capacity.maxCpuPercent ≠ none) ∧
    (storeAfter seed calls).fleetRevision < maxSafeJsonInteger := by
  have hvalid := validate_eq_ok.1 hr
  have haccepted := accepted_of_valid hvalid hfits
  have hsound := nodeRows_sound_after seed calls
  have hconfig : row.document.validate = .ok () := by
    have hstored : ((storeAfter seed calls).nodeRows row.nodeId).config = some row :=
      Table.lookup_of_mem (fun a b hab => (NodeConfigRow.clash_iff a b).2 hab) hrow
    have hs := hsound row.nodeId
    generalize (storeAfter seed calls).nodeRows row.nodeId = rows at hs hstored
    cases hs with
    | absent => cases hstored
    | described hd => cases hstored; exact hd.merges.config
  have hupdate : ∀ {desired policy}, desired.validate = .ok () → effectiveCapacityPolicy desired = .ok policy →
      ((∃ db' stored, updateNodeConfig env (storeAfter seed calls) row.nodeId row.revision desired = .ok (db', stored)) ↔
        (storeAfter seed calls).fleetRevision < maxSafeJsonInteger) := by
    intro desired policy hvalid hpolicy
    exact updateNodeConfig_isOk env hsound (numbered_after seed calls) hrow hvalid hpolicy
  have hwritten : ∀ {desired}, desiredNodeConfig r row.document = .ok desired → desired.validate = .ok () := by
    intro desired h
    simp only [desiredNodeConfig, seq_eq_ok, mapError_eq_ok, pure_eq_ok] at h
    rw [← h.2]
    exact h.1
  have hcapacity : (∀ bytes ∈ r.configuration.resources.memoryLimitBytes, 1048576 ≤ bytes) →
      effectiveCapacityPolicy (desiredConfig r row.document) = .ok (enforcedCapacity r.configuration row.document.capacity) :=
    fun hbytes => effectiveCapacityPolicy_desired haccepted
      ((validate_desiredCapacity haccepted (validate_config.1 hconfig).2.2).2 hbytes)
  constructor
  · rintro ⟨desired, db', stored, policy, hdesired, haccept, hpolicy, henforces⟩
    have hchecked := hwritten hdesired
    obtain ⟨⟨hbytes, hname⟩, rfl⟩ := (desiredNodeConfig_eq_ok hvalid hfits hconfig).1 hdesired
    obtain rfl : enforcedCapacity r.configuration row.document.capacity = policy := by
      rw [hcapacity hbytes] at hpolicy
      exact Except.ok.inj hpolicy
    exact ⟨hbytes, hname, (enforces_iff haccepted).1 henforces, (hupdate hchecked hpolicy).1 ⟨db', stored, haccept⟩⟩
  · rintro ⟨hbytes, hname, hcpu, hrevision⟩
    have hdesired := (desiredNodeConfig_eq_ok hvalid hfits hconfig).2 ⟨⟨hbytes, hname⟩, rfl⟩
    obtain ⟨db', stored, haccept⟩ := (hupdate (hwritten hdesired) (hcapacity hbytes)).2 hrevision
    exact ⟨_, db', stored, _, hdesired, haccept, hcapacity hbytes, (enforces_iff haccepted).2 hcpu⟩

/-- A new record of the laptop with the given limits. -/
def limitedLaptop (resources : ResourcePolicy) : ComputerRecord :=
  .newWithIdentity { laptop with configuration := { ComputerConfiguration.initial with resources } } (.ofTimestamp 1000) ⟨9⟩ ⟨1⟩

/-- A computer without limits is configured as its user asked. -/
theorem configured_policy_enforced_laptop : ∃ row ∈ (storeAfter "s" (enrollCalls 1000 10 ⟨1⟩ "a")).nodeConfigs.rows,
    ∃ desired db' stored policy, desiredNodeConfig (limitedLaptop ⟨some 4, none, some 1073741824⟩) row.document = .ok desired ∧
      updateNodeConfig (envAt 1001 30) (storeAfter "s" (enrollCalls 1000 10 ⟨1⟩ "a")) row.nodeId row.revision desired =
        .ok (db', stored) ∧
      effectiveCapacityPolicy desired = .ok policy ∧
      Enforces (limitedLaptop ⟨some 4, none, some 1073741824⟩).configuration row.document.capacity policy := by
  have hstore : (storeAfter "s" (enrollCalls 1000 10 ⟨1⟩ "a")).nodeConfigs.rows.isEmpty = false ∧
      (storeAfter "s" (enrollCalls 1000 10 ⟨1⟩ "a")).fleetRevision < maxSafeJsonInteger := by decide +kernel
  obtain ⟨row, hrow⟩ := List.exists_mem_of_ne_nil _ (List.isEmpty_eq_false_iff.1 hstore.1)
  have hvalid : (limitedLaptop ⟨some 4, none, some 1073741824⟩).validate desktopPaths = .ok () := by decide +kernel
  have hfits : (limitedLaptop ⟨some 4, none, some 1073741824⟩).configuration.resources.Fits := by
    rintro bytes ⟨⟩
    decide
  have hbytes : ∀ bytes ∈ (limitedLaptop ⟨some 4, none, some 1073741824⟩).configuration.resources.memoryLimitBytes,
      1048576 ≤ bytes := by
    rintro bytes ⟨⟩
    decide
  have hiff := configured_policy_enforced_iff "s" _ hvalid hfits hrow (envAt 1001 30)
  exact ⟨row, hrow, hiff.2 ⟨hbytes, fun _ _ hi => (nomatch hi), fun hcpu => absurd rfl hcpu, hstore.2⟩⟩

/-- A newly enrolled node tolerates any CPU use. After its user limits it to half of its CPU, the controller also
refuses it jobs whenever its CPU use is above one half; and a limit below one mebibyte cannot be written at all. -/
theorem cpu_limit_bounds_observed_use :
    (limitedLaptop ⟨none, some 50, none⟩).validate desktopPaths = .ok () ∧
    (limitedLaptop ⟨none, none, some 1000⟩).validate desktopPaths = .ok () ∧
    ((storeAfter "s" (enrollCalls 1000 10 ⟨1⟩ "a")).nodeConfigs.rows.any fun row =>
      row.document.capacity.maxCpuPercent = none &&
      (match desiredNodeConfig (limitedLaptop ⟨none, some 50, none⟩) row.document with
        | .ok desired => match effectiveCapacityPolicy desired with
          | .ok policy => policy.maxCpuPercent = some 50
          | .error _ => false
        | .error _ => false) &&
      (match desiredNodeConfig (limitedLaptop ⟨none, none, some 1000⟩) row.document with
        | .ok _ => false
        | .error failure => failure.code = "NODE_CONFIG_INVALID")) = true := by
  decide +kernel

end CYC.Provision
