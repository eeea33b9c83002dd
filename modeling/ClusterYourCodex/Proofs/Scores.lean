import ClusterYourCodex.Proofs.Scheduling

/-! The arithmetic of scores. A component is a number of units times a weight; the product saturates, and a penalty is
negated afterwards, which is not the same as saturating the negated product. With weights that are not negative a better
node has the better score, so that improving the chosen node keeps it chosen. The memory of a GPU counts even if the job
could not be given that GPU. -/

namespace CYC

open Checked

/-! ### Terms -/

/-- What a component of a score is computed from. A term that is not `present` has no component. -/
structure ScoreTerm where
  key : String
  present : Bool
  units : Int
  weight : Int
  penalty : Bool
  detail : String

namespace ScoreTerm

/-- Units times weight, and less than nothing for a penalty. -/
def exact (t : ScoreTerm) : Int := if t.penalty then -(t.units * t.weight) else t.units * t.weight

/-- The product saturates before it is negated. -/
def value (t : ScoreTerm) : Int := if t.penalty then -satI64 (t.units * t.weight) else satI64 (t.units * t.weight)

/-- The component, unless the negation overflows: the least number of 64 bits has no negation. -/
def evaluate (t : ScoreTerm) : Option ScoreComponent :=
  if t.penalty && satI64 (t.units * t.weight) = i64Min then none else some ⟨t.key, t.value, t.detail⟩

/-- What the term adds to the score. -/
def effect (t : ScoreTerm) : Int := if t.present then t.value else 0

end ScoreTerm

/-- The memory that `gpu_capacity` counts: the most of any device of the requested vendor. -/
def scoredVram (job : JobSpec) (node : Node) : UInt64 :=
  maxVram (node.resources.gpus.filter fun gpu => (requestedVendor job).all (gpu.vendor = ·))

/-- The terms of a score, in the order of the components. -/
def scoreTerms (job : JobSpec) (node : Node) (w : SchedulerWeights) : List ScoreTerm :=
  let resources := node.resources
  [⟨"priority", true, node.priority.toInt, w.priority, false, "configured priority " ++ toString node.priority.toInt⟩,
    ⟨"cpu_capacity", true, resources.availableCpuCores.toNat, w.availableCpuCore, false,
      show32 resources.availableCpuCores ++ " available logical CPU cores"⟩,
    ⟨"memory_capacity", true, cappedUnits resources.availableMemoryMib 1024 1024, w.availableMemoryGib, false,
      show64 resources.availableMemoryMib ++ " MiB available memory"⟩,
    ⟨"disk_capacity", true, cappedUnits resources.availableDiskMib 10240 1024, w.availableDisk10Gib, false,
      show64 resources.availableDiskMib ++ " MiB available disk"⟩,
    ⟨"cpu_headroom", true, ((100 - min node.load.cpuPercent.toNat 100 : Nat) : Int), w.cpuHeadroomPercent, false,
      show8 node.load.cpuPercent ++ "% observed CPU utilization"⟩,
    ⟨"queue_penalty", true, node.load.queueDepth.toNat, w.queueDepthPenalty, true, show32 node.load.queueDepth ++ " queued jobs"⟩,
    ⟨"running_job_penalty", true, node.load.runningJobs.toNat, w.runningJobPenalty, true,
      show32 node.load.runningJobs ++ " running jobs"⟩,
    ⟨"gpu_capacity", usesGpu job, cappedUnits (scoredVram job node) 1024 1024, w.gpuVramGib, false,
      show64 (scoredVram job node) ++ " MiB available VRAM"⟩,
    ⟨"source_cache", job.source.cacheKey ∈ node.cachedSources.elems, 1, w.sourceCacheBonus, false,
      "exact source is already cached"⟩,
    ⟨"preferred_node", job.preferredNodeId = some node.id, 1, w.preferredNodeBonus, false, "job prefers this node"⟩,
    ⟨"degraded_penalty", node.status = .degraded, 1, w.degradedPenalty, true, "node reports degraded health"⟩]

def SchedulerWeights.all (w : SchedulerWeights) : List Int :=
  [w.priority, w.availableCpuCore, w.availableMemoryGib, w.availableDisk10Gib, w.cpuHeadroomPercent, w.gpuVramGib,
    w.queueDepthPenalty, w.runningJobPenalty, w.sourceCacheBonus, w.preferredNodeBonus, w.degradedPenalty]

/-- The weights are numbers of 64 bits. -/
def SchedulerWeights.Representable (w : SchedulerWeights) : Prop := ∀ x ∈ w.all, i64Min ≤ x ∧ x ≤ i64Max

instance (w : SchedulerWeights) : Decidable w.Representable := inferInstanceAs (Decidable (∀ x ∈ w.all, _))

section Terms

variable {job : JobSpec} {node : Node} {w : SchedulerWeights}

theorem satI64_of_mem {i : Int} (h : i64Min ≤ i ∧ i ≤ i64Max) : satI64 i = i := by
  unfold satI64
  omega

theorem satI64_range (i : Int) : i64Min ≤ satI64 i ∧ satI64 i ≤ i64Max := by
  unfold satI64 i64Min i64Max
  omega

/-- The components are those of the terms that are present. -/
theorem scoreComponents_eq (job : JobSpec) (node : Node) (hw : w.Representable) :
    scoreComponents job node w = ((scoreTerms job node w).filter ScoreTerm.present).map fun t => ⟨t.key, t.value, t.detail⟩ := by
  have hcache : satI64 w.sourceCacheBonus = w.sourceCacheBonus := satI64_of_mem (hw _ (by simp [SchedulerWeights.all]))
  have hpreferred : satI64 w.preferredNodeBonus = w.preferredNodeBonus := satI64_of_mem (hw _ (by simp [SchedulerWeights.all]))
  have hdegraded : satI64 w.degradedPenalty = w.degradedPenalty := satI64_of_mem (hw _ (by simp [SchedulerWeights.all]))
  simp only [scoreTerms, List.filter_cons, List.filter_nil, if_true, scoreComponents, decide_eq_true_eq]
  split_ifs <;> simp [ScoreTerm.value, gpuCapacity, scoredVram, hcache, hpreferred, hdegraded]

/-- A term that is not present adds nothing. The induction is on the terms left, for every total within 64 bits. -/
theorem foldl_present {terms : List ScoreTerm} {start : Int} (hstart : i64Min ≤ start ∧ start ≤ i64Max) :
    ((terms.filter ScoreTerm.present).map fun t => (⟨t.key, t.value, t.detail⟩ : ScoreComponent)).foldl
      (fun total c => satI64 (total + c.value)) start = terms.foldl (fun total t => satI64 (total + t.effect)) start := by
  induction terms generalizing start with
  | nil => rfl
  | cons t terms ih =>
    rw [List.filter_cons, List.foldl_cons]
    cases hpresent : t.present with
    | true =>
      rw [if_pos rfl, List.map_cons, List.foldl_cons, ih (satI64_range _), ScoreTerm.effect, hpresent, if_pos rfl]
    | false =>
      rw [if_neg nofun, ih hstart, ScoreTerm.effect, hpresent, if_neg nofun, Int.add_zero, satI64_of_mem hstart]

theorem score_eq_terms {scheduler : Scheduler} {n : SchedulingNode} (hw : (scheduler.weights job.placementPolicy).Representable) :
    scheduler.score job n = (scoreTerms job n.node (scheduler.weights job.placementPolicy)).foldl
      (fun total t => satI64 (total + t.effect)) 0 := by
  rw [Scheduler.score, scoreComponents_eq _ _ hw]
  exact foldl_present (by decide)

end Terms

/-! ### Overflow -/

/-- No operation overflows, every component is its mathematical value clamped to 64 bits, and the score of a node is the
saturating sum of the components from left to right. -/
structure ScoredExactly (job : JobSpec) (node : Node) (w : SchedulerWeights) : Prop where
  evaluates : ((scoreTerms job node w).filter ScoreTerm.present).mapM ScoreTerm.evaluate = some (scoreComponents job node w)
  clamped : (scoreComponents job node w).map ScoreComponent.value =
    ((scoreTerms job node w).filter ScoreTerm.present).map fun t => satI64 t.exact
  summed : ∀ (n : SchedulingNode) (t : DateTime) (ttl score : Int), n.node = node → (evaluateNode job w t ttl n).score = some score →
    score = ((scoreComponents job node w).map ScoreComponent.value).foldl (fun total value => satI64 (total + value)) 0

/-- The products of the penalties fit 64 bits on both sides of zero. -/
structure PenaltiesFit (node : Node) (w : SchedulerWeights) : Prop where
  queue : |node.load.queueDepth.toNat * w.queueDepthPenalty| ≤ i64Max
  running : |node.load.runningJobs.toNat * w.runningJobPenalty| ≤ i64Max
  degraded : node.status = .degraded → w.degradedPenalty ≠ i64Min

section Overflow

variable {job : JobSpec} {node : Node} {w : SchedulerWeights}

/-- A saturated product can be negated, and to the right number, exactly if nothing was lost on either side. -/
theorem negated_exactly_iff {product : Int} :
    (satI64 product ≠ i64Min ∧ -satI64 product = satI64 (-product)) ↔ |product| ≤ i64Max := by
  rw [abs_le]
  unfold satI64 i64Min i64Max
  omega

theorem evaluates_iff {terms : List ScoreTerm} : terms.mapM ScoreTerm.evaluate = some (terms.map fun t => ⟨t.key, t.value, t.detail⟩) ↔
    ∀ t ∈ terms, t.penalty = true → satI64 (t.units * t.weight) ≠ i64Min := by
  induction terms with
  | nil => simp
  | cons t terms ih =>
    rw [List.mapM_cons, List.forall_mem_cons, ← ih, ScoreTerm.evaluate]
    by_cases hover : t.penalty = true ∧ satI64 (t.units * t.weight) = i64Min
    · simp [hover]
    · have hnone : (t.penalty && decide (satI64 (t.units * t.weight) = i64Min)) = false := by
        simpa using hover
      have hfine : t.penalty = true → satI64 (t.units * t.weight) ≠ i64Min := fun hpenalty heq => hover ⟨hpenalty, heq⟩
      rw [hnone, if_neg nofun]
      cases hrest : terms.mapM ScoreTerm.evaluate with
      | none => simp
      | some cs =>
        rw [and_iff_right hfine]
        simp

theorem clamped_iff {terms : List ScoreTerm} : (terms.map ScoreTerm.value = terms.map fun t => satI64 t.exact) ↔
    ∀ t ∈ terms, t.penalty = true → -satI64 (t.units * t.weight) = satI64 (-(t.units * t.weight)) := by
  rw [List.map_inj_left]
  refine forall₂_congr fun t _ => ?_
  unfold ScoreTerm.value ScoreTerm.exact
  cases t.penalty <;> simp

/-- The arithmetic of a score is exact if and only if the penalties fit. -/
theorem scored_exactly_iff (job : JobSpec) (node : Node) (w : SchedulerWeights) (hw : w.Representable) :
    ScoredExactly job node w ↔ PenaltiesFit node w := by
  have hsummed : ∀ (n : SchedulingNode) (t : DateTime) (ttl score : Int), n.node = node →
      (evaluateNode job w t ttl n).score = some score →
      score = ((scoreComponents job node w).map ScoreComponent.value).foldl (fun total value => satI64 (total + value)) 0 := by
    rintro n t ttl score rfl hscore
    rw [evaluateNode] at hscore
    rw [List.foldl_map]
    split at hscore
    · cases hscore
    · exact (Option.some.inj hscore).symm
  have hterms : ScoredExactly job node w ↔ ∀ t ∈ (scoreTerms job node w).filter ScoreTerm.present, t.penalty = true →
      |t.units * t.weight| ≤ i64Max := by
    have hcomponents := scoreComponents_eq job node hw
    have hvalues : (scoreComponents job node w).map ScoreComponent.value =
        ((scoreTerms job node w).filter ScoreTerm.present).map ScoreTerm.value := by
      rw [hcomponents, List.map_map]
      rfl
    constructor
    · intro h t ht hpenalty
      have hruns := h.evaluates
      have hclamped := h.clamped
      rw [hcomponents] at hruns
      rw [hvalues] at hclamped
      exact negated_exactly_iff.1 ⟨evaluates_iff.1 hruns t ht hpenalty, clamped_iff.1 hclamped t ht hpenalty⟩
    · intro h
      refine ⟨?_, ?_, hsummed⟩
      · rw [hcomponents]
        exact evaluates_iff.2 fun t ht hpenalty => (negated_exactly_iff.2 (h t ht hpenalty)).1
      · rw [hvalues]
        exact clamped_iff.2 fun t ht hpenalty => (negated_exactly_iff.2 (h t ht hpenalty)).2
  have hweight : |1 * w.degradedPenalty| ≤ i64Max ↔ w.degradedPenalty ≠ i64Min := by
    have hrange := hw w.degradedPenalty (by simp [SchedulerWeights.all])
    rw [Int.one_mul, abs_le]
    unfold i64Min i64Max at *
    omega
  rw [hterms]
  simp only [List.mem_filter, and_imp, scoreTerms, List.forall_mem_cons, true_implies, implies_true,
    true_and, and_true, decide_eq_true_eq, hweight, List.not_mem_nil, Bool.false_eq_true, IsEmpty.forall_iff]
  exact ⟨fun h => ⟨h.1, h.2.1, h.2.2⟩, fun h => ⟨h.queue, h.running, h.degraded⟩⟩

/-- A node with two jobs in its queue. -/
def queuedNode : Node := { sampleNode ⟨1⟩ "alpha" .empty epoch with load := { cpuPercent := 5, queueDepth := 2, runningJobs := 0 } }

def queueWeights (penalty : Int) : SchedulerWeights := { SchedulerWeights.balanced with queueDepthPenalty := penalty }

theorem scored_exactly_balanced : ScoredExactly (sampleJob ⟨7⟩ .empty none) queuedNode .balanced :=
  (scored_exactly_iff (sampleJob ⟨7⟩ .empty none) queuedNode .balanced (by decide)).2 ⟨by decide, by decide, nofun⟩

/-- The least weight makes the negation overflow, and at half of it the other way the clamped value is missed by one. -/
theorem queue_penalty_inexact : (queueWeights i64Min).Representable ∧
      ((scoreTerms (sampleJob ⟨7⟩ .empty none) queuedNode (queueWeights i64Min)).filter ScoreTerm.present).mapM ScoreTerm.evaluate = none ∧
      (queueWeights 4611686018427387904).Representable ∧
      ∃ term ∈ scoreTerms (sampleJob ⟨7⟩ .empty none) queuedNode (queueWeights 4611686018427387904), term.key = "queue_penalty" ∧
        term.evaluate = some ⟨"queue_penalty", -i64Max, term.detail⟩ ∧ satI64 term.exact = i64Min := by
  refine ⟨by decide, by decide +kernel, by decide, ?_⟩
  refine ⟨_, List.mem_of_getElem? (i := 5) rfl, rfl, ?_, ?_⟩
  · decide +kernel
  · decide

end Overflow

/-! ### Better nodes -/

/-- The second node is the first one, improved. -/
structure Improves (n n' : SchedulingNode) : Prop where
  id : n'.node.id = n.node.id
  enabled : n'.node.enabled = n.node.enabled
  seen : n'.node.lastSeenAt = n.node.lastSeenAt
  os : n'.node.os = n.node.os
  arch : n'.node.arch = n.node.arch
  capabilities : n'.node.capabilities = n.node.capabilities
  kinds : n'.allowedJobKinds = n.allowedJobKinds
  power : n'.onBattery = n.onBattery ∧ n'.allowOnBattery = n.allowOnBattery
  limits : n'.maxCpuPercent = n.maxCpuPercent ∧ n'.maxCpuEwmaPercent = n.maxCpuEwmaPercent ∧
    n'.maxMemoryPercent = n.maxMemoryPercent ∧ n'.maxTemperatureC = n.maxTemperatureC
  maxSlots : n'.configuredMaxSlots = n.configuredMaxSlots ∧ n'.containmentMaxSafeSlots = n.containmentMaxSafeSlots
  devices : n'.gpuDeviceIds = n.gpuDeviceIds
  cores : n.node.resources.availableCpuCores ≤ n'.node.resources.availableCpuCores
  memory : n.node.resources.availableMemoryMib ≤ n'.node.resources.availableMemoryMib
  disk : n.node.resources.availableDiskMib ≤ n'.node.resources.availableDiskMib
  gpus : ∀ (index : Nat) (gpu : GpuDevice), n.node.resources.gpus[index]? = some gpu →
    ∃ gpu', n'.node.resources.gpus[index]? = some gpu' ∧ gpu'.vendor = gpu.vendor ∧
      (gpu.allocatable = true → gpu'.allocatable = true) ∧ gpu.availableVramMib ≤ gpu'.availableVramMib
  cpu : n'.node.load.cpuPercent ≤ n.node.load.cpuPercent
  cpuEwma : n'.cpuEwmaPercent ≤ n.cpuEwmaPercent
  memoryUse : n'.memoryUsedPercent ≤ n.memoryUsedPercent
  temperature : ∀ c' ∈ n'.temperatureC, ∃ c ∈ n.temperatureC, c' ≤ c
  queue : n'.node.load.queueDepth ≤ n.node.load.queueDepth
  running : n'.node.load.runningJobs ≤ n.node.load.runningJobs
  slots : n'.activeSlots ≤ n.activeSlots
  reservations : ∀ index : Nat, (n'.gpuActiveReservations[index]?).getD 0 ≤ (n.gpuActiveReservations[index]?).getD 0
  cached : ∀ key ∈ n.node.cachedSources.elems, key ∈ n'.node.cachedSources.elems
  status : n'.node.status = n.node.status ∨ (n.node.status = .degraded ∧ n'.node.status = .online)
  priority : n.node.priority ≤ n'.node.priority

section Better

variable {scheduler : Scheduler} {job : JobSpec} {n n' m m' : SchedulingNode} {t : DateTime} {ttl : Int}

theorem Improves.meetsGpu (h : Improves n n') {index : Nat} {gpu gpu' : GpuDevice} (hvendor : gpu'.vendor = gpu.vendor)
    (hallocatable : gpu.allocatable = true → gpu'.allocatable = true) (hvram : gpu.availableVramMib ≤ gpu'.availableVramMib)
    (hmeets : MeetsGpu job n index gpu) : MeetsGpu job n' index gpu' where
  allocatable := hallocatable hmeets.allocatable
  requiredVendor g hg vendor hmem := hvendor.trans (hmeets.requiredVendor g hg vendor hmem)
  requestedVendor r hr vendor hmem := hvendor.trans (hmeets.requestedVendor r hr vendor hmem)
  requiredVram g hg minimum hmem := UInt64.le_trans (hmeets.requiredVram g hg minimum hmem) hvram
  requestedVram r hr := UInt64.le_trans (hmeets.requestedVram r hr) hvram
  device r hr deviceId hmem := by
    rw [h.devices]
    exact hmeets.device r hr deviceId hmem
  unreserved r hr hexclusive := by
    have hle := h.reservations index
    rw [hmeets.unreserved r hr hexclusive] at hle
    exact UInt32.le_antisymm hle UInt32.zero_le

/-- What admits a node admits a better one. -/
theorem Improves.admissible (h : Improves n n') (hvalid : job.validate = .ok ()) (hn : Admissible job n t ttl) :
    Admissible job n' t ttl where
  enabled := h.enabled.trans hn.enabled
  status := by
    rcases h.status with hsame | ⟨-, honline⟩
    · rw [hsame]
      exact hn.status
    · exact .inl honline
  fresh := by
    rw [h.seen]
    exact hn.fresh
  kind := by
    rw [h.kinds]
    exact hn.kind
  power := by
    rw [h.power.1, h.power.2]
    exact hn.power
  cpu m hm := by
    rw [h.limits.1] at hm
    exact UInt8.le_trans h.cpu (hn.cpu m hm)
  cpuEwma m hm := by
    rw [h.limits.2.1] at hm
    exact UInt8.le_trans h.cpuEwma (hn.cpuEwma m hm)
  memoryUse m hm := by
    rw [h.limits.2.2.1] at hm
    exact UInt8.le_trans h.memoryUse (hn.memoryUse m hm)
  temperature m hm c' hc' := by
    rw [h.limits.2.2.2] at hm
    obtain ⟨c, hc, hle⟩ := h.temperature c' hc'
    exact Int16.le_trans hle (hn.temperature m hm c hc)
  safe := by
    rw [SchedulingNode.effectiveSlots, h.maxSlots.1, h.maxSlots.2]
    exact hn.safe
  slots := by
    have hle := UInt32.le_iff_toNat_le.1 h.slots
    have hroom := hn.slots
    rw [SchedulingNode.effectiveSlots] at hroom ⊢
    rw [h.maxSlots.1, h.maxSlots.2]
    unfold satU32 at hroom ⊢
    omega
  manual := by
    rw [h.id]
    exact hn.manual
  os := by
    rw [h.os]
    exact hn.os
  arch := by
    rw [h.arch]
    exact hn.arch
  capabilities := by
    rw [missingCapabilities, h.capabilities]
    exact hn.capabilities
  cores := UInt32.le_trans hn.cores h.cores
  headroom := UInt8.lt_of_le_of_lt h.cpu hn.headroom
  memory := UInt64.le_trans hn.memory h.memory
  disk := UInt64.le_trans hn.disk h.disk
  gpu := by
    rw [gpuReasons_eq_nil hvalid]
    intro hasks
    obtain ⟨index, gpu, hget, hmeets⟩ := (gpuReasons_eq_nil hvalid).1 hn.gpu hasks
    obtain ⟨gpu', hget', hvendor, hallocatable, hvram⟩ := h.gpus index gpu hget
    exact ⟨index, gpu', hget', h.meetsGpu hvendor hallocatable hvram hmeets⟩

/-! The score is monotone: each term is, and so is the saturating sum. -/

theorem satI64_mono {i j : Int} (h : i ≤ j) : satI64 i ≤ satI64 j := by
  unfold satI64
  omega

theorem cappedUnits_mono {value value' : UInt64} (h : value ≤ value') (divisor cap : Nat) :
    cappedUnits value divisor cap ≤ cappedUnits value' divisor cap := by
  have hdiv := Nat.div_le_div_right (c := divisor) (UInt64.le_iff_toNat_le.1 h)
  unfold cappedUnits
  omega

theorem le_max_u64 (a b : UInt64) : a ≤ max a b ∧ b ≤ max a b ∧ (max a b = a ∨ max a b = b) := by
  change _ ≤ (if _ then _ else _) ∧ _ ≤ (if _ then _ else _) ∧ ((if _ then _ else _) = _ ∨ (if _ then _ else _) = _)
  split_ifs with h
  · exact ⟨h, UInt64.le_refl b, .inr rfl⟩
  · exact ⟨UInt64.le_refl a, UInt64.le_of_lt (UInt64.not_le.1 h), .inl rfl⟩

/-- The induction is on the devices left, for every memory seen so far. -/
theorem foldl_max_spec (gpus : List GpuDevice) (seen : UInt64) :
    let most := (gpus.map GpuDevice.availableVramMib).foldl max seen
    seen ≤ most ∧ (∀ gpu ∈ gpus, gpu.availableVramMib ≤ most) ∧ (most = seen ∨ ∃ gpu ∈ gpus, gpu.availableVramMib = most) := by
  induction gpus generalizing seen with
  | nil => exact ⟨UInt64.le_refl seen, nofun, .inl rfl⟩
  | cons gpu gpus ih =>
    obtain ⟨hseen, hrest, hmost⟩ := ih (max seen gpu.availableVramMib)
    obtain ⟨hleft, hright, hmax⟩ := le_max_u64 seen gpu.availableVramMib
    refine ⟨UInt64.le_trans hleft hseen, List.forall_mem_cons.2 ⟨UInt64.le_trans hright hseen, hrest⟩, ?_⟩
    rcases hmost with hmost | ⟨g, hg, hmost⟩
    · rcases hmax with hmax | hmax
      · exact .inl (hmost.trans hmax)
      · exact .inr ⟨gpu, List.mem_cons_self, (hmost.trans hmax).symm⟩
    · exact .inr ⟨g, List.mem_cons_of_mem _ hg, hmost⟩

/-- The greatest memory: no device has more, and one has it. -/
theorem maxVram_spec (gpus : List GpuDevice) : (∀ gpu ∈ gpus, gpu.availableVramMib ≤ maxVram gpus) ∧
    (maxVram gpus = 0 ∨ ∃ gpu ∈ gpus, gpu.availableVramMib = maxVram gpus) := (foldl_max_spec gpus 0).2

theorem Improves.scoredVram_le (h : Improves n n') : scoredVram job n.node ≤ scoredVram job n'.node := by
  unfold scoredVram
  rcases (maxVram_spec (n.node.resources.gpus.filter fun gpu => (requestedVendor job).all (gpu.vendor = ·))).2 with hzero | ⟨gpu, hgpu, hmax⟩
  · rw [hzero]
    exact UInt64.zero_le
  · rw [← hmax]
    obtain ⟨hmem, hvendor⟩ := List.mem_filter.1 hgpu
    obtain ⟨index, hget⟩ := List.mem_iff_getElem?.1 hmem
    obtain ⟨gpu', hget', hsame, -, hvram⟩ := h.gpus index gpu hget
    rw [← hsame] at hvendor
    exact UInt64.le_trans hvram ((maxVram_spec _).1 gpu' (List.mem_filter.2 ⟨List.mem_of_getElem? hget', hvendor⟩))

/-- The induction is on the two lists of terms together, for every pair of totals. -/
theorem foldl_effect_mono {terms terms' : List ScoreTerm} (h : List.Forall₂ (fun s s' => s.effect ≤ s'.effect) terms terms')
    {start start' : Int} (hstart : start ≤ start') :
    terms.foldl (fun total s => satI64 (total + s.effect)) start ≤ terms'.foldl (fun total s => satI64 (total + s.effect)) start' := by
  induction h generalizing start start' with
  | nil => exact hstart
  | cons heffect _ ih => exact ih (satI64_mono (Int.add_le_add hstart heffect))

/-- The weights count for a node what is for it, and against it what is against it. -/
def SchedulerWeights.Sound (w : SchedulerWeights) : Prop := ∀ x ∈ w.all, 0 ≤ x ∧ x ≤ i64Max

variable {w : SchedulerWeights} {detail detail' key key' : String} {units units' weight : Int}

theorem SchedulerWeights.Sound.representable (h : w.Sound) : w.Representable := by
  intro x hx
  have hrange := h x hx
  unfold i64Min
  omega

theorem gain_mono {present : Bool} (hweight : 0 ≤ weight) (h : units ≤ units') :
    ScoreTerm.effect ⟨key, present, units, weight, false, detail⟩ ≤ ScoreTerm.effect ⟨key', present, units', weight, false, detail'⟩ := by
  cases present with
  | false => exact Int.le_refl _
  | true => exact satI64_mono (Int.mul_le_mul_of_nonneg_right h hweight)

theorem penalty_anti (hweight : 0 ≤ weight) (h : units' ≤ units) :
    ScoreTerm.effect ⟨key, true, units, weight, true, detail⟩ ≤ ScoreTerm.effect ⟨key', true, units', weight, true, detail'⟩ :=
  Int.neg_le_neg (satI64_mono (Int.mul_le_mul_of_nonneg_right h hweight))

theorem Improves.effects (h : Improves n n') (hw : w.Sound) :
    List.Forall₂ (fun s s' => s.effect ≤ s'.effect) (scoreTerms job n.node w) (scoreTerms job n'.node w) := by
  simp only [SchedulerWeights.Sound, SchedulerWeights.all, List.forall_mem_cons] at hw
  obtain ⟨hpriority, hcores, hmemory, hdisk, hheadroom, hvram, hqueue, hrunning, hcache, -, hdegraded, -⟩ := hw
  have hcpu := UInt8.le_iff_toNat_le.1 h.cpu
  refine .cons (gain_mono hpriority.1 (Int32.le_iff_toInt_le.1 h.priority)) <|
    .cons (gain_mono hcores.1 (Int.ofNat_le.2 (UInt32.le_iff_toNat_le.1 h.cores))) <|
    .cons (gain_mono hmemory.1 (cappedUnits_mono h.memory 1024 1024)) <|
    .cons (gain_mono hdisk.1 (cappedUnits_mono h.disk 10240 1024)) <|
    .cons (gain_mono hheadroom.1 (by omega)) <|
    .cons (penalty_anti hqueue.1 (Int.ofNat_le.2 (UInt32.le_iff_toNat_le.1 h.queue))) <|
    .cons (penalty_anti hrunning.1 (Int.ofNat_le.2 (UInt32.le_iff_toNat_le.1 h.running))) <|
    .cons (gain_mono hvram.1 (cappedUnits_mono h.scoredVram_le 1024 1024)) <|
    .cons ?_ <| .cons ?_ <| .cons ?_ .nil
  · -- a bonus that appears
    simp only [ScoreTerm.effect, ScoreTerm.value, decide_eq_true_eq, Bool.false_eq_true, if_false]
    split_ifs with hbefore hafter hafter
    · exact Int.le_refl _
    · exact absurd (h.cached _ hbefore) hafter
    · exact satI64_mono (i := 0) (by omega)
    · exact Int.le_refl 0
  · rw [h.id]
  · -- a penalty that disappears
    rcases h.status with hsame | ⟨hbefore, hafter⟩
    · rw [hsame]
    · have hpositive : 0 ≤ satI64 (1 * w.degradedPenalty) := satI64_mono (i := 0) (by omega)
      rw [hbefore, hafter]
      exact Int.neg_nonpos_of_nonneg hpositive

theorem Improves.score_le (h : Improves n n') (hw : (scheduler.weights job.placementPolicy).Sound) :
    scheduler.score job n ≤ scheduler.score job n' := by
  rw [score_eq_terms hw.representable, score_eq_terms hw.representable]
  exact foldl_effect_mono (h.effects hw) (Int.le_refl 0)

theorem Scheduler.Beats.mono (h : scheduler.Beats job n m) (hn : scheduler.score job n ≤ scheduler.score job n')
    (hm : scheduler.score job m' ≤ scheduler.score job m) (hnid : n'.node.id = n.node.id) (hmid : m'.node.id = m.node.id) :
    scheduler.Beats job n' m' := by
  unfold Scheduler.Beats at h ⊢
  rw [hnid, hmid]
  rcases h with h | ⟨heq, h⟩
  · exact .inl (by omega)
  · by_cases hstill : scheduler.score job m' = scheduler.score job n'
    · exact .inr ⟨hstill, h⟩
    · exact .inl (by omega)

/-- A node that beats all others that are admissible is chosen. -/
theorem scheduleContextsAt_of_best {nodes : List SchedulingNode} (hvalid : job.validate = .ok ()) (hn : n ∈ nodes)
    (hadmissible : Admissible job n t scheduler.nodeFreshnessTtl)
    (hbest : ∀ m ∈ nodes, Admissible job m t scheduler.nodeFreshnessTtl → m.node.id ≠ n.node.id → scheduler.Beats job n m) :
    ∃ d, scheduler.scheduleContextsAt job nodes t = .ok d ∧ ∃ k ∈ nodes, k.node.id = n.node.id ∧ d.nodeId = k.node.id ∧
      d.score = scheduler.score job k := by
  rcases scheduleContextsAt_top _ hvalid with ⟨d, hd, k, hk, hkadmissible, hid, hscore, htop⟩ | ⟨-, hnone⟩
  · refine ⟨d, hd, k, hk, ?_, hid, hscore⟩
    by_contra hne
    exact htop n hn hadmissible (hbest k hk hkadmissible hne)
  · exact absurd hadmissible (hnone n hn)

/-- Improving the chosen node, and changing others for the worse, leaves the node chosen, with a score that is not lower. -/
theorem improved_winner_kept (scheduler : Scheduler) (job : JobSpec) (nodes : List SchedulingNode) (t : DateTime)
    (hw : (scheduler.weights job.placementPolicy).Sound) (hids : (nodes.map fun n => n.node.id).Nodup)
    (d : PlacementPlanDecision) (hd : scheduler.scheduleContextsAt job nodes t = .ok d) (change : SchedulingNode → SchedulingNode)
    (hbetter : ∀ n ∈ nodes, n.node.id = d.nodeId → Improves n (change n))
    (hworse : ∀ m ∈ nodes, m.node.id ≠ d.nodeId → Improves (change m) m) :
    ∃ d', scheduler.scheduleContextsAt job (nodes.map change) t = .ok d' ∧ d'.nodeId = d.nodeId ∧ d.score ≤ d'.score := by
  have hvalid := (scheduleContextsAt_eq_ok hd).1
  rcases scheduleContextsAt_top _ hvalid with ⟨e, he, n, hn, hadmissible, hid, hscore, htop⟩ | ⟨⟨e, he⟩, -⟩
  · cases hd.symm.trans he
    have himproves := hbetter n hn hid.symm
    have hbest : ∀ k ∈ nodes.map change, Admissible job k t scheduler.nodeFreshnessTtl → k.node.id ≠ (change n).node.id →
        scheduler.Beats job (change n) k := by
      intro k hk hkadmissible hne
      obtain ⟨m, hm, rfl⟩ := List.mem_map.1 hk
      have hother : m.node.id ≠ d.nodeId := by
        intro heq
        cases List.inj_on_of_nodup_map hids hm hn (heq.trans hid)
        exact hne rfl
      have hworsened := hworse m hm hother
      rw [hid] at hother
      have hbeats : scheduler.Beats job n m := beats_of_not_beats hother (htop m hm (hworsened.admissible hvalid hkadmissible))
      exact hbeats.mono (himproves.score_le hw) (hworsened.score_le hw) himproves.id hworsened.id.symm
    obtain ⟨d', hd', k, hk, hsame, hid', hscore'⟩ :=
      scheduleContextsAt_of_best hvalid (List.mem_map_of_mem hn) (himproves.admissible hvalid hadmissible) hbest
    refine ⟨d', hd', ?_, ?_⟩
    · rw [hid', hsame, himproves.id, hid]
    · obtain ⟨m, hm, rfl⟩ := List.mem_map.1 hk
      have hmid : m.node.id = d.nodeId := by
        by_contra hne
        rw [himproves.id, (hworse m hm hne).id.symm] at hsame
        exact hne (hsame.trans hid.symm)
      cases List.inj_on_of_nodup_map hids hm hn (hmid.trans hid)
      rw [hscore, hscore']
      exact himproves.score_le hw
  · cases hd.symm.trans he

theorem Improves.refl (n : SchedulingNode) : Improves n n :=
  ⟨rfl, rfl, rfl, rfl, rfl, rfl, rfl, ⟨rfl, rfl⟩, ⟨rfl, rfl, rfl, rfl⟩, ⟨rfl, rfl⟩, rfl, UInt32.le_refl _, UInt64.le_refl _,
    UInt64.le_refl _, fun _ gpu h => ⟨gpu, h, rfl, fun h => h, UInt64.le_refl _⟩, UInt8.le_refl _, UInt8.le_refl _, UInt8.le_refl _,
    fun c h => ⟨c, h, Int16.le_refl c⟩, UInt32.le_refl _, UInt32.le_refl _, UInt32.le_refl _, fun _ => UInt32.le_refl _,
    fun _ h => h, .inl rfl, Int32.le_refl _⟩

/-- The node without load. -/
def idle (n : SchedulingNode) : SchedulingNode :=
  { n with node := { n.node with load := { cpuPercent := 0, queueDepth := 0, runningJobs := 0 } } }

theorem capableAndPlain_placed :
    ∃ d, Scheduler.default.scheduleContextsAt (sampleJob ⟨7⟩ .empty none) capableAndPlain epoch = .ok d :=
  exists_ok_of_isOk (by decide +kernel)

/-- Of two nodes the chosen one loses its load. -/
theorem idle_winner_kept : ∃ d d', Scheduler.default.scheduleContextsAt (sampleJob ⟨7⟩ .empty none) capableAndPlain epoch = .ok d ∧
    Scheduler.default.scheduleContextsAt (sampleJob ⟨7⟩ .empty none)
      (capableAndPlain.map fun n => if n.node.id = d.nodeId then idle n else n) epoch = .ok d' ∧
    d'.nodeId = d.nodeId ∧ d.score ≤ d'.score := by
  obtain ⟨d, hd⟩ := capableAndPlain_placed
  obtain ⟨d', hd', hkept⟩ := improved_winner_kept Scheduler.default (sampleJob ⟨7⟩ .empty none) capableAndPlain epoch
    (show ∀ x ∈ SchedulerWeights.balanced.all, 0 ≤ x ∧ x ≤ i64Max by decide) (by decide) d hd
    (fun n => if n.node.id = d.nodeId then idle n else n)
    (fun n _ hid => by
      rw [if_pos hid]
      exact { Improves.refl n with cpu := UInt8.zero_le, queue := UInt32.zero_le, running := UInt32.zero_le })
    (fun m _ hid => by
      rw [if_neg hid]
      exact Improves.refl m)
  exact ⟨d, d', hd, hd', hkept⟩

/-- Nodes that were not chosen do not matter: without any of them the same node is chosen, with the same score. -/
theorem subfleet_winner_kept (scheduler : Scheduler) (job : JobSpec) (nodes fewer : List SchedulingNode) (t : DateTime)
    (d : PlacementPlanDecision) (hd : scheduler.scheduleContextsAt job nodes t = .ok d) (hsub : fewer ⊆ nodes)
    (hchosen : ∀ n ∈ nodes, n.node.id = d.nodeId → n ∈ fewer) :
    ∃ d', scheduler.scheduleContextsAt job fewer t = .ok d' ∧ d'.nodeId = d.nodeId ∧ d'.score = d.score := by
  have hvalid := (scheduleContextsAt_eq_ok hd).1
  rcases scheduleContextsAt_top nodes hvalid with ⟨e, he, n, hn, hadmissible, hid, hscore, htop⟩ | ⟨⟨e, he⟩, -⟩
  · cases hd.symm.trans he
    have hn' := hchosen n hn hid.symm
    rcases scheduleContextsAt_top fewer hvalid with ⟨d', hd', k, hk, hkadmissible, hid', hscore', htop'⟩ | ⟨-, hnone⟩
    · -- neither of the two winners beats the other
      have hkn := htop k (hsub hk) hkadmissible
      have hnk := htop' n hn' hadmissible
      have hsame : k.node.id = n.node.id := by
        by_contra hne
        exact hnk (beats_of_not_beats hne hkn)
      simp only [Scheduler.Beats, hsame] at hkn hnk
      exact ⟨d', hd', by rw [hid', hsame, hid], by rw [hscore, hscore']; omega⟩
    · exact absurd hadmissible (hnone n hn')
  · cases hd.symm.trans he

theorem subfleet_winner_kept_alone : ∃ d, Scheduler.default.scheduleContextsAt (sampleJob ⟨7⟩ .empty none) capableAndPlain epoch = .ok d ∧
    ∃ d', Scheduler.default.scheduleContextsAt (sampleJob ⟨7⟩ .empty none) (capableAndPlain.filter (·.node.id = d.nodeId)) epoch = .ok d' ∧
      d'.nodeId = d.nodeId ∧ d'.score = d.score := by
  obtain ⟨d, hd⟩ := capableAndPlain_placed
  exact ⟨d, hd, subfleet_winner_kept _ _ _ _ _ d hd (List.filter_subset_self _) fun n hn hid =>
    List.mem_filter.2 ⟨hn, decide_eq_true hid⟩⟩

end Better

/-! ### Devices that a job cannot be given -/

/-- The memory of the device at a position is changed. -/
def SchedulingNode.withVram (n : SchedulingNode) (index : Nat) (gpu : GpuDevice) (vram : UInt64) : SchedulingNode :=
  { n with node := { n.node with resources := { n.node.resources with
      gpus := n.node.resources.gpus.set index { gpu with availableVramMib := vram } } } }

/-- The same node is chosen, or none is, and every candidate has the same score. -/
structure Unmoved (scheduler : Scheduler) (job : JobSpec) (nodes nodes' : List SchedulingNode) (t : DateTime) : Prop where
  chosen : (scheduler.scheduleContextsAt job nodes' t).toOption.map PlacementPlanDecision.nodeId =
    (scheduler.scheduleContextsAt job nodes t).toOption.map PlacementPlanDecision.nodeId
  scores : (nodes'.map fun n => (scheduler.candidate job t n).score) = nodes.map fun n => (scheduler.candidate job t n).score

/-- The memory of the device does not show, before or after it is changed: the device is of another vendor, both amounts
have the same number of units, or another device of the vendor has as many. -/
def Hidden (job : JobSpec) (n : SchedulingNode) (index : Nat) (gpu : GpuDevice) (vram : UInt64) : Prop :=
  (requestedVendor job).all (gpu.vendor = ·) = false ∨
  cappedUnits gpu.availableVramMib 1024 1024 = cappedUnits vram 1024 1024 ∨
  ∃ j other, j ≠ index ∧ n.node.resources.gpus[j]? = some other ∧ (requestedVendor job).all (other.vendor = ·) = true ∧
    cappedUnits gpu.availableVramMib 1024 1024 ≤ cappedUnits other.availableVramMib 1024 1024 ∧
    cappedUnits vram 1024 1024 ≤ cappedUnits other.availableVramMib 1024 1024

/-- Two nodes that are one to the scheduler. -/
structure Agree (scheduler : Scheduler) (job : JobSpec) (t : DateTime) (m m' : SchedulingNode) : Prop where
  id : m'.node.id = m.node.id
  admissible : Admissible job m t scheduler.nodeFreshnessTtl ↔ Admissible job m' t scheduler.nodeFreshnessTtl
  score : Admissible job m t scheduler.nodeFreshnessTtl → scheduler.score job m' = scheduler.score job m

section Spare

variable {scheduler : Scheduler} {job : JobSpec} {nodes nodes' : List SchedulingNode} {n m m' : SchedulingNode} {t : DateTime}
  {request : GpuResourceRequest} {index : Nat} {gpu : GpuDevice} {vram : UInt64}

theorem Agree.candidate_score (h : Agree scheduler job t m m') :
    (scheduler.candidate job t m').score = (scheduler.candidate job t m).score := by
  have hnone : ∀ k, ¬Admissible job k t scheduler.nodeFreshnessTtl → (scheduler.candidate job t k).score = none := by
    intro k hk
    rw [← candidate_eligible, Scheduler.candidate, evaluateNode] at hk
    rw [Scheduler.candidate, evaluateNode]
    split at hk
    · rename_i hrejected
      rw [if_pos hrejected]
    · exact absurd rfl hk
  by_cases hm : Admissible job m t scheduler.nodeFreshnessTtl
  · rw [CYC.candidate_score (candidate_eligible.2 (h.admissible.1 hm)), CYC.candidate_score (candidate_eligible.2 hm), h.score hm]
  · rw [hnone m hm, hnone m' fun hm' => hm (h.admissible.2 hm')]

/-- The choice depends on what the nodes are to the scheduler. -/
theorem chosen_of_agree (hvalid : job.validate = .ok ()) (hleft : ∀ m ∈ nodes, ∃ m' ∈ nodes', Agree scheduler job t m m')
    (hright : ∀ m' ∈ nodes', ∃ m ∈ nodes, Agree scheduler job t m m') :
    (scheduler.scheduleContextsAt job nodes' t).toOption.map PlacementPlanDecision.nodeId =
      (scheduler.scheduleContextsAt job nodes t).toOption.map PlacementPlanDecision.nodeId := by
  rcases scheduleContextsAt_top nodes hvalid with ⟨d, hd, k, hk, hadmissible, hid, -, htop⟩ | ⟨⟨e, he⟩, hnone⟩
  · obtain ⟨k', hk', hagree⟩ := hleft k hk
    have hbest : ∀ m' ∈ nodes', Admissible job m' t scheduler.nodeFreshnessTtl → m'.node.id ≠ k'.node.id → scheduler.Beats job k' m' := by
      intro m' hm' hm'admissible hne
      obtain ⟨m, hm, hother⟩ := hright m' hm'
      have hmadmissible := hother.admissible.2 hm'admissible
      rw [hagree.id, hother.id] at hne
      exact (beats_of_not_beats hne (htop m hm hmadmissible)).mono (hagree.score hadmissible).ge (hother.score hmadmissible).le
        hagree.id hother.id
    obtain ⟨d', hd', j, -, hj, hid', -⟩ := scheduleContextsAt_of_best hvalid hk' (hagree.admissible.1 hadmissible) hbest
    rw [hd, hd']
    exact congrArg some (hid'.trans (hj.trans (hagree.id.trans hid.symm)))
  · rcases scheduleContextsAt_top nodes' hvalid with ⟨d', -, k', hk', hadmissible', -⟩ | ⟨⟨e', he'⟩, -⟩
    · obtain ⟨k, hk, hagree⟩ := hright k' hk'
      exact absurd (hagree.admissible.2 hadmissible') (hnone k hk)
    · rw [he, he']
      rfl

/-- The memory of a device that the job cannot be given does not decide whether the scheduler would take the device. -/
theorem meetsGpu_vram (hvalid : job.validate = .ok ()) (hrequest : effectiveGpuRequest job = some request)
    (hunusable : gpuAvailable n { request with vramMib := 0 } index gpu = false) {vram' : UInt64}
    (h : MeetsGpu job n index { gpu with availableVramMib := vram }) : MeetsGpu job n index { gpu with availableVramMib := vram' } := by
  cases heffective : job.effectiveResourceRequest.gpu with
  | some r =>
    rw [effectiveGpuRequest, heffective, Option.some_or, Option.some.injEq] at hrequest
    subst hrequest
    have havailable := gpuAvailable_iff.1 ((gpuAvailable_iff_meets hvalid heffective).2 h)
    have husable : gpuAvailable n { r with vramMib := 0 } index gpu = true :=
      gpuAvailable_iff.2 ⟨havailable.1, UInt64.zero_le, havailable.2.2⟩
    rw [hunusable] at husable
    cases husable
  | none =>
    obtain ⟨hrequired, hrequested⟩ := (effective_gpu_eq_none hvalid).1 heffective
    refine { h with requiredVram := ?_, requestedVram := ?_ }
    · rw [hrequired]
      rintro _ ⟨⟩
    · rw [hrequested]
      rintro _ ⟨⟩

theorem withVram_self (hgpu : n.node.resources.gpus[index]? = some gpu) : n.withVram index gpu gpu.availableVramMib = n := by
  have hset : n.node.resources.gpus.set index gpu = n.node.resources.gpus := by
    refine List.ext_getElem? fun i => ?_
    rw [List.getElem?_set]
    split_ifs with hi hlength
    · rw [← hi, hgpu]
    · rw [← hi, List.getElem?_eq_none (by omega)]
    · rfl
  rw [SchedulingNode.withVram, hset]

theorem admissible_withVram (t : DateTime) (ttl : Int) (vram : UInt64) (hvalid : job.validate = .ok ())
    (hrequest : effectiveGpuRequest job = some request)
    (hgpu : n.node.resources.gpus[index]? = some gpu)
    (hunusable : gpuAvailable n { request with vramMib := 0 } index gpu = false) :
    Admissible job n t ttl ↔ Admissible job (n.withVram index gpu vram) t ttl := by
  have hdevices : ∀ v v' : UInt64, gpuReasons job (n.withVram index gpu v) = [] → gpuReasons job (n.withVram index gpu v') = [] := by
    intro v v'
    rw [gpuReasons_eq_nil hvalid, gpuReasons_eq_nil hvalid]
    intro h hasks
    obtain ⟨i, g, hget, hmeets⟩ := h hasks
    rw [SchedulingNode.withVram, List.getElem?_set] at hget
    by_cases hi : index = i
    · subst hi
      have hlength : index < n.node.resources.gpus.length := (List.getElem?_eq_some_iff.1 hgpu).1
      rw [if_pos rfl, if_pos hlength, Option.some.injEq] at hget
      subst hget
      refine ⟨index, { gpu with availableVramMib := v' }, ?_, meetsGpu_vram (n := n.withVram index gpu v') hvalid hrequest hunusable { hmeets with }⟩
      rw [SchedulingNode.withVram, List.getElem?_set, if_pos rfl, if_pos hlength]
    · rw [if_neg hi] at hget
      refine ⟨i, g, ?_, { hmeets with }⟩
      rw [SchedulingNode.withVram, List.getElem?_set, if_neg hi]
      exact hget
  have hself := withVram_self hgpu
  constructor
  · intro h
    have hreasons := h.gpu
    rw [← hself] at hreasons
    exact { h with gpu := hdevices _ _ hreasons }
  · intro h
    have hreasons := hdevices _ gpu.availableVramMib h.gpu
    rw [hself] at hreasons
    exact { h with gpu := hreasons }

/-- The units of memory that are scored come from the device or from another of the vendor. -/
theorem le_scored_units (job : JobSpec) (vram : UInt64) (hgpu : n.node.resources.gpus[index]? = some gpu) (k : Int) :
    k ≤ cappedUnits (scoredVram job (n.withVram index gpu vram).node) 1024 1024 ↔
      k ≤ 0 ∨ ((requestedVendor job).all (gpu.vendor = ·) = true ∧ k ≤ cappedUnits vram 1024 1024) ∨
      ∃ j other, j ≠ index ∧ n.node.resources.gpus[j]? = some other ∧ (requestedVendor job).all (other.vendor = ·) = true ∧
        k ≤ cappedUnits other.availableVramMib 1024 1024 := by
  have hlength : index < n.node.resources.gpus.length := (List.getElem?_eq_some_iff.1 hgpu).1
  have hmem : ∀ g, g ∈ (n.withVram index gpu vram).node.resources.gpus ↔
      g = { gpu with availableVramMib := vram } ∨ ∃ j, j ≠ index ∧ n.node.resources.gpus[j]? = some g := by
    intro g
    rw [List.mem_iff_getElem?, SchedulingNode.withVram]
    constructor
    · rintro ⟨j, hj⟩
      rw [List.getElem?_set] at hj
      by_cases hi : index = j
      · rw [if_pos hi, if_pos hlength, Option.some.injEq] at hj
        exact .inl hj.symm
      · rw [if_neg hi] at hj
        exact .inr ⟨j, fun heq => hi heq.symm, hj⟩
    · rintro (rfl | ⟨j, hne, hj⟩)
      · exact ⟨index, by rw [List.getElem?_set, if_pos rfl, if_pos hlength]⟩
      · exact ⟨j, by rw [List.getElem?_set, if_neg fun heq => hne heq.symm]; exact hj⟩
  obtain ⟨hall, hmost⟩ := maxVram_spec ((n.withVram index gpu vram).node.resources.gpus.filter
    fun g => (requestedVendor job).all (g.vendor = ·))
  constructor
  · intro hk
    rcases hmost with hzero | ⟨g, hg, hmax⟩
    · rw [scoredVram, hzero] at hk
      exact .inl hk
    · rw [scoredVram, ← hmax] at hk
      obtain ⟨hg, hvendor⟩ := List.mem_filter.1 hg
      rcases (hmem g).1 hg with rfl | ⟨j, hne, hj⟩
      · exact .inr (.inl ⟨hvendor, hk⟩)
      · exact .inr (.inr ⟨j, g, hne, hj, hvendor, hk⟩)
  · have hscored : ∀ g, g ∈ (n.withVram index gpu vram).node.resources.gpus → (requestedVendor job).all (g.vendor = ·) = true →
        k ≤ cappedUnits g.availableVramMib 1024 1024 → k ≤ cappedUnits (scoredVram job (n.withVram index gpu vram).node) 1024 1024 :=
      fun g hg hvendor hk => Int.le_trans hk (cappedUnits_mono (hall g (List.mem_filter.2 ⟨hg, hvendor⟩)) 1024 1024)
    rintro (hk | ⟨hvendor, hk⟩ | ⟨j, other, hne, hj, hvendor, hk⟩)
    · exact Int.le_trans hk (Int.natCast_nonneg _)
    · exact hscored _ ((hmem _).2 (.inl rfl)) hvendor hk
    · exact hscored _ ((hmem _).2 (.inr ⟨j, hne, hj⟩)) hvendor hk

/-- The scored units are the same before and after exactly if the memory does not show. -/
theorem scored_units_iff (hgpu : n.node.resources.gpus[index]? = some gpu) :
    cappedUnits (scoredVram job (n.withVram index gpu vram).node) 1024 1024 = cappedUnits (scoredVram job n.node) 1024 1024 ↔
      Hidden job n index gpu vram := by
  have hafter := le_scored_units job vram hgpu
  have hbefore := le_scored_units job gpu.availableVramMib hgpu
  rw [withVram_self hgpu] at hbefore
  have hold : 0 ≤ cappedUnits gpu.availableVramMib 1024 1024 := Int.natCast_nonneg _
  have hnew : 0 ≤ cappedUnits vram 1024 1024 := Int.natCast_nonneg _
  constructor
  · intro heq
    rw [heq] at hafter
    cases hvendor : (requestedVendor job).all (gpu.vendor = ·) with
    | false => exact .inl hvendor
    | true =>
      refine .inr ?_
      rcases Int.lt_trichotomy (cappedUnits gpu.availableVramMib 1024 1024) (cappedUnits vram 1024 1024) with hlt | hunits | hgt
      · rcases (hbefore _).1 ((hafter _).2 (.inr (.inl ⟨hvendor, Int.le_refl _⟩))) with hzero | ⟨-, hle⟩ | ⟨j, other, hne, hj, hother, hle⟩
        · omega
        · omega
        · exact .inr ⟨j, other, hne, hj, hother, by omega, hle⟩
      · exact .inl hunits
      · rcases (hafter _).1 ((hbefore _).2 (.inr (.inl ⟨hvendor, Int.le_refl _⟩))) with hzero | ⟨-, hle⟩ | ⟨j, other, hne, hj, hother, hle⟩
        · omega
        · omega
        · exact .inr ⟨j, other, hne, hj, hother, hle, by omega⟩
  · intro hhidden
    have hsame : ∀ k, k ≤ cappedUnits (scoredVram job (n.withVram index gpu vram).node) 1024 1024 ↔
        k ≤ cappedUnits (scoredVram job n.node) 1024 1024 := by
      intro k
      rw [hafter, hbefore]
      rcases hhidden with hvendor | hunits | ⟨j, other, hne, hj, hother, hle, hle'⟩
      · rw [hvendor]
        simp
      · rw [hunits]
      · have hrest : k ≤ cappedUnits other.availableVramMib 1024 1024 → ∃ j other, j ≠ index ∧ n.node.resources.gpus[j]? = some other ∧
            (requestedVendor job).all (other.vendor = ·) = true ∧ k ≤ cappedUnits other.availableVramMib 1024 1024 :=
          fun hk => ⟨j, other, hne, hj, hother, hk⟩
        refine or_congr_right ((or_iff_right_of_imp ?_).trans (or_iff_right_of_imp ?_).symm)
        · exact fun h => hrest (Int.le_trans h.2 hle')
        · exact fun h => hrest (Int.le_trans h.2 hle)
    exact Int.le_antisymm ((hsame _).1 (Int.le_refl _)) ((hsame _).2 (Int.le_refl _))

/-- Only the units count. -/
theorem score_withVram (hw : (scheduler.weights job.placementPolicy).Representable)
    (h : cappedUnits (scoredVram job (n.withVram index gpu vram).node) 1024 1024 = cappedUnits (scoredVram job n.node) 1024 1024) :
    scheduler.score job (n.withVram index gpu vram) = scheduler.score job n := by
  have hfold : ∀ terms : List ScoreTerm, terms.foldl (fun total s => satI64 (total + s.effect)) 0 =
      (terms.map ScoreTerm.effect).foldl (fun total value => satI64 (total + value)) 0 := by
    intro terms
    rw [List.foldl_map]
  rw [score_eq_terms hw, score_eq_terms hw, hfold, hfold]
  simp only [scoreTerms, List.map_cons, ScoreTerm.effect, ScoreTerm.value, h]
  rfl

/-- The weights by which nothing counts but the memory of the GPUs. -/
def vramWeights : SchedulerWeights := ⟨0, 0, 0, 0, 0, 1, 0, 0, 0, 0, 0⟩

theorem score_vramWeights {ttl : Int} (huses : usesGpu job = true) :
    Scheduler.score ⟨vramWeights, vramWeights, ttl⟩ job n = cappedUnits (scoredVram job n.node) 1024 1024 := by
  have hweights : Scheduler.weights ⟨vramWeights, vramWeights, ttl⟩ job.placementPolicy = vramWeights := by
    cases job.placementPolicy <;> rfl
  have hunits : satI64 (cappedUnits (scoredVram job n.node) 1024 1024) = cappedUnits (scoredVram job n.node) 1024 1024 := by
    unfold satI64 i64Min i64Max cappedUnits
    omega
  have hzero : satI64 0 = 0 := by decide
  rw [score_eq_terms (by rw [hweights]; decide), hweights]
  simp [scoreTerms, ScoreTerm.effect, ScoreTerm.value, vramWeights, huses, hunits, hzero]

/-- Under all weights the memory of a device that the job cannot be given is without influence, if and only if the node is
not admissible or that memory does not show. -/
theorem unusable_gpu_ignored_iff (job : JobSpec) (hvalid : job.validate = .ok ()) (request : GpuResourceRequest)
    (hrequest : effectiveGpuRequest job = some request) (before after : List SchedulingNode) (n : SchedulingNode) (index : Nat)
    (gpu : GpuDevice) (hgpu : n.node.resources.gpus[index]? = some gpu)
    (hunusable : gpuAvailable n { request with vramMib := 0 } index gpu = false) (vram : UInt64) (t : DateTime) (ttl : Int) :
    (∀ balanced performance : SchedulerWeights, balanced.Representable → performance.Representable →
      Unmoved ⟨balanced, performance, ttl⟩ job (before ++ n :: after) (before ++ n.withVram index gpu vram :: after) t) ↔
    (Admissible job n t ttl → Hidden job n index gpu vram) := by
  have hadmissible := admissible_withVram t ttl vram hvalid hrequest hgpu hunusable
  constructor
  · intro hunmoved hn
    have huses : usesGpu job = true := by
      have hsome : effectiveGpuRequest job ≠ none := by rw [hrequest]; nofun
      rw [effectiveGpuRequest] at hsome
      unfold usesGpu
      cases heffective : job.effectiveResourceRequest.gpu with
      | some r => simp
      | none =>
        by_cases hkind : job.kind = .gpu
        · simp [hkind]
        · simp [heffective, hkind] at hsome
    have hscores := (hunmoved vramWeights vramWeights (by decide) (by decide)).scores
    rw [List.map_append, List.map_append, List.map_cons, List.map_cons] at hscores
    have hscore := (List.cons.inj (List.append_cancel_left hscores)).1
    rw [candidate_score (candidate_eligible.2 (hadmissible.1 hn)), candidate_score (candidate_eligible.2 hn),
      score_vramWeights huses, score_vramWeights huses, Option.some.injEq] at hscore
    exact (scored_units_iff hgpu).1 hscore
  · intro hhidden balanced performance hbalanced hperformance
    have hw : (Scheduler.weights ⟨balanced, performance, ttl⟩ job.placementPolicy).Representable := by
      cases job.placementPolicy with
      | performance => exact hperformance
      | _ => exact hbalanced
    have hsame : ∀ m : SchedulingNode, Agree ⟨balanced, performance, ttl⟩ job t m m := fun m => ⟨rfl, Iff.rfl, fun _ => rfl⟩
    have hagree : Agree ⟨balanced, performance, ttl⟩ job t n (n.withVram index gpu vram) :=
      ⟨rfl, hadmissible, fun hn => score_withVram hw ((scored_units_iff hgpu).2 (hhidden hn))⟩
    refine ⟨chosen_of_agree hvalid ?_ ?_, ?_⟩
    · simp only [List.mem_append, List.mem_cons]
      rintro m (hm | rfl | hm)
      exacts [⟨m, .inl hm, hsame m⟩, ⟨_, .inr (.inl rfl), hagree⟩, ⟨m, .inr (.inr hm), hsame m⟩]
    · simp only [List.mem_append, List.mem_cons]
      rintro m (hm | rfl | hm)
      exacts [⟨m, .inl hm, hsame m⟩, ⟨n, .inr (.inl rfl), hagree⟩, ⟨m, .inr (.inr hm), hsame m⟩]
    · rw [List.map_append, List.map_append, List.map_cons, List.map_cons, hagree.candidate_score]

/-- A job that asks for a GPU of a vendor. -/
def nvidiaJob : JobSpec := { sampleJob ⟨7⟩ .empty none with requirements :=
  { (sampleJob ⟨7⟩ .empty none).requirements with gpu := some { vendor := some .nvidia, minVramMib := none, exclusive := false } } }

/-- A node with a device of 8 GiB, and one that is not allocatable. -/
def withheldGpuNode (id : Uuid) (withheld : UInt64) : SchedulingNode :=
  sampleContext { sampleNode id "alpha" .empty epoch with
    resources := { (sampleNode id "alpha" .empty epoch).resources with
      gpus := [⟨.nvidia, "A2", 16384, 8192, true⟩, ⟨.nvidia, "A2", 16384, withheld, false⟩] } }

theorem withheld_gpu_ignored :
    Unmoved .default nvidiaJob [withheldGpuNode ⟨1⟩ 0, withheldGpuNode ⟨2⟩ 0] [withheldGpuNode ⟨1⟩ 0, withheldGpuNode ⟨2⟩ 4096]
      epoch := by
  have hignored := (unusable_gpu_ignored_iff nvidiaJob (by decide +kernel) _ rfl [withheldGpuNode ⟨1⟩ 0] []
    (withheldGpuNode ⟨2⟩ 0) 1 ⟨.nvidia, "A2", 16384, 0, false⟩ rfl rfl 4096 epoch defaultNodeFreshnessTtl).2 fun _ =>
      .inr (.inr ⟨0, _, by decide, rfl, rfl, by decide, by decide⟩)
  exact hignored .balanced .performance (by decide) (by decide)

/-- The node with more memory on the device that is not allocatable is preferred for it. -/
theorem withheld_gpu_decides :
    nvidiaJob.validate = .ok () ∧ nvidiaJob.AsksGpu ∧ ¬MeetsGpu nvidiaJob (withheldGpuNode ⟨2⟩ 0) 1 ⟨.nvidia, "A2", 16384, 0, false⟩ ∧
      MeetsGpu nvidiaJob (withheldGpuNode ⟨2⟩ 0) 0 ⟨.nvidia, "A2", 16384, 8192, true⟩ ∧
      (withheldGpuNode ⟨2⟩ 0).withVram 1 ⟨.nvidia, "A2", 16384, 0, false⟩ 16384 = withheldGpuNode ⟨2⟩ 16384 ∧
      (Scheduler.default.scheduleContextsAt nvidiaJob [withheldGpuNode ⟨1⟩ 0, withheldGpuNode ⟨2⟩ 0] epoch).toOption.map
        PlacementPlanDecision.nodeId = some ⟨1⟩ ∧
      (Scheduler.default.scheduleContextsAt nvidiaJob [withheldGpuNode ⟨1⟩ 0, withheldGpuNode ⟨2⟩ 16384] epoch).toOption.map
        PlacementPlanDecision.nodeId = some ⟨2⟩ := by
  refine ⟨by decide +kernel, .inr (.inl nofun), fun h => absurd h.allocatable nofun, ?_, rfl, by decide +kernel, by decide +kernel⟩
  refine (gpuAvailable_iff_meets (by decide +kernel) rfl).1 ?_
  rfl

end Spare

end CYC
