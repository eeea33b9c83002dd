import ClusterYourCodex.Spec.Placement

/-! The scheduler (`cyc-scheduler`): every node is either rejected, with the reasons, or scored, with
the components of the score; the best eligible candidate is selected. Scores are 64-bit and their
arithmetic saturates. -/

namespace CYC

/-- 15 seconds, in nanoseconds. -/
def defaultNodeFreshnessTtl : Int := 15 * 1000000000

structure SchedulerWeights where
  priority : Int
  availableCpuCore : Int
  availableMemoryGib : Int
  availableDisk10Gib : Int
  cpuHeadroomPercent : Int
  gpuVramGib : Int
  queueDepthPenalty : Int
  runningJobPenalty : Int
  sourceCacheBonus : Int
  preferredNodeBonus : Int
  degradedPenalty : Int

namespace SchedulerWeights

def balanced : SchedulerWeights where
  priority := 1
  availableCpuCore := 12
  availableMemoryGib := 2
  availableDisk10Gib := 1
  cpuHeadroomPercent := 2
  gpuVramGib := 4
  queueDepthPenalty := 60
  runningJobPenalty := 25
  sourceCacheBonus := 180
  preferredNodeBonus := 250
  degradedPenalty := 300

def performance : SchedulerWeights where
  priority := 1
  availableCpuCore := 30
  availableMemoryGib := 5
  availableDisk10Gib := 1
  cpuHeadroomPercent := 3
  gpuVramGib := 10
  queueDepthPenalty := 45
  runningJobPenalty := 20
  sourceCacheBonus := 80
  preferredNodeBonus := 180
  degradedPenalty := 400

end SchedulerWeights

structure Scheduler where
  balancedWeights : SchedulerWeights
  performanceWeights : SchedulerWeights
  nodeFreshnessTtl : Int

def Scheduler.default : Scheduler := ⟨.balanced, .performance, defaultNodeFreshnessTtl⟩

/-- A node with the policy and runtime facts that its compatibility document lacks. -/
structure SchedulingNode where
  node : Node
  allowedJobKinds : Finset JobKind
  allowOnBattery : Bool
  onBattery : Bool
  cpuEwmaPercent : UInt8
  memoryUsedPercent : UInt8
  temperatureC : Option Int16
  maxCpuPercent : Option UInt8
  maxCpuEwmaPercent : Option UInt8
  maxMemoryPercent : Option UInt8
  maxTemperatureC : Option Int16
  configuredMaxSlots : UInt32
  containmentMaxSafeSlots : UInt32
  activeSlots : UInt32
  gpuDeviceIds : List (Option String)
  gpuActiveReservations : List UInt32
  deriving DecidableEq

def SchedulingNode.effectiveSlots (n : SchedulingNode) : UInt32 := min n.configuredMaxSlots n.containmentMaxSafeSlots

/-! ### Rejections -/

def osName : OperatingSystem → String
  | .windows => "Windows"
  | .linux => "Linux"
  | .macos => "Macos"

def archName : Architecture → String
  | .x8664 => "X86_64"
  | .aarch64 => "Aarch64"

def jobKindName : JobKind → String
  | .shell => "Shell"
  | .build => "Build"
  | .test => "Test"
  | .lint => "Lint"
  | .container => "Container"
  | .gpu => "Gpu"
  | .batch => "Batch"

/-- The debug form of an optional vendor. -/
def vendorName : Option GpuVendor → String
  | none => "None"
  | some .nvidia => "Some(Nvidia)"
  | some .amd => "Some(Amd)"
  | some .intel => "Some(Intel)"
  | some .apple => "Some(Apple)"

def show8 (n : UInt8) : String := toString n.toNat

def show32 (n : UInt32) : String := toString n.toNat

def show64 (n : UInt64) : String := toString n.toNat

def showI16 (n : Int16) : String := toString n.toInt

/-- The reason, when the test fails the node. -/
def reject (failed : Bool) (code : RejectionCode) (detail : String) : List PlacementRejection :=
  if failed then [⟨code, detail⟩] else []

def statusRejections : NodeStatus → List PlacementRejection
  | .offline => [⟨.offline, "node is offline"⟩]
  | .draining => [⟨.draining, "node is draining and accepts no new jobs"⟩]
  | .online | .degraded => []

def staleRejections (lastSeenAt : Option DateTime) (observedAt : DateTime) (freshnessTtl : Int) :
    List PlacementRejection :=
  match lastSeenAt with
  | none => [⟨.staleNode, "node has never reported a heartbeat"⟩]
  | some lastSeenAt =>
    reject (freshnessTtl < observedAt.since lastSeenAt) .staleNode
      ("last heartbeat is " ++ toString (DateTime.numSeconds (observedAt.since lastSeenAt)) ++
        " seconds old; freshness TTL is " ++ toString (freshnessTtl / 1000000000) ++ " seconds")

def temperatureRejections (n : SchedulingNode) : List PlacementRejection :=
  match n.temperatureC, n.maxTemperatureC with
  | some temperature, some maximum =>
    reject (maximum < temperature) .temperatureLimitExceeded
      ("temperature " ++ showI16 temperature ++ " C exceeds policy maximum " ++ showI16 maximum ++ " C")
  | _, _ => []

/-- The slot check; the sum of slots saturates at 32 bits. -/
def slotRejections (job : JobSpec) (n : SchedulingNode) : List PlacementRejection :=
  let requested := job.effectiveResourceRequest.slots
  if n.effectiveSlots = 0 then
    [⟨.containmentLimitReached, "worker containment reports zero safe execution slots"⟩]
  else if n.effectiveSlots.toNat < satU32 (n.activeSlots.toNat + requested.toNat) then
    if n.containmentMaxSafeSlots < n.configuredMaxSlots then
      [⟨.containmentLimitReached, show32 n.activeSlots ++ " active plus " ++ show32 requested ++
        " requested slots exceed containment maximum " ++ show32 n.containmentMaxSafeSlots ++ " (configured " ++
        show32 n.configuredMaxSlots ++ ")"⟩]
    else
      [⟨.slotLimitReached, show32 n.activeSlots ++ " active plus " ++ show32 requested ++
        " requested slots exceed configured maximum " ++ show32 n.configuredMaxSlots⟩]
  else []

def manualRejections (job : JobSpec) (node : Node) : List PlacementRejection :=
  if job.placementPolicy = .manual then
    match job.preferredNodeId with
    | none => [⟨.manualNodeRequired, "manual placement requires preferredNodeId"⟩]
    | some preferred =>
      reject (preferred ≠ node.id) .manualNodeMismatch ("manual placement selected node " ++ preferred.hyphenated)
  else []

def missingCapability (capability : String) : PlacementRejection :=
  ⟨.missingCapability, "missing capability `" ++ capability ++ "`"⟩

/-- What the device loop of a GPU request has seen: a device of the requested vendor and id, one that
can be allocated, and the most memory among those; `none` when a device satisfies the request. -/
structure GpuSearch where
  matching : Bool
  allocatable : Bool
  bestVram : Nat

def searchGpus (n : SchedulingNode) (request : GpuResourceRequest) :
    Nat → GpuSearch → List GpuDevice → Option GpuSearch
  | _, seen, [] => some seen
  | index, seen, gpu :: gpus =>
    let stableId := (n.gpuDeviceIds[index]?).join
    if request.vendor.any (gpu.vendor ≠ ·) || request.deviceId.any (stableId ≠ some ·) then
      searchGpus n request (index + 1) seen gpus
    else if !gpu.allocatable then
      searchGpus n request (index + 1) { seen with matching := true } gpus
    else if request.exclusive && 0 < (n.gpuActiveReservations[index]?).getD 0 then
      searchGpus n request (index + 1) { seen with matching := true } gpus
    else if request.vramMib ≤ gpu.availableVramMib then none
    else searchGpus n request (index + 1)
      { matching := true, allocatable := true, bestVram := max seen.bestVram gpu.availableVramMib.toNat } gpus

def gpuResourceRejections (n : SchedulingNode) (request : GpuResourceRequest) : List PlacementRejection :=
  if n.node.resources.gpus.isEmpty then [⟨.gpuRequired, "node has no GPU"⟩]
  else match searchGpus n request 0 ⟨false, false, 0⟩ n.node.resources.gpus with
    | none => []
    | some seen =>
      if !seen.matching then
        match request.deviceId with
        | none => [⟨.gpuVendorMismatch, "node has no " ++ vendorName request.vendor ++ " GPU"⟩]
        | some deviceId => [⟨.gpuUnavailable, "node has no GPU device `" ++ deviceId ++ "`"⟩]
      else if !seen.allocatable then
        [⟨if request.exclusive then .exclusiveGpuUnavailable else .gpuUnavailable, "matching GPU is not allocatable"⟩]
      else
        [⟨.insufficientVram, "requires " ++ show64 request.vramMib ++
          " MiB available VRAM, best matching GPU has " ++ toString seen.bestVram ++ " MiB"⟩]

def maxVram (gpus : List GpuDevice) : UInt64 := (gpus.map GpuDevice.availableVramMib).foldl max 0

def gpuRejections (node : Node) (requirement : GpuRequirement) : List PlacementRejection :=
  if node.resources.gpus.isEmpty then [⟨.gpuRequired, "node has no GPU"⟩]
  else
    let vendorMatches := node.resources.gpus.filter fun gpu => requirement.vendor.all (gpu.vendor = ·)
    let allocatableMatches := vendorMatches.filter GpuDevice.allocatable
    let vramMatches := allocatableMatches.filter fun gpu => requirement.minVramMib.all (· ≤ gpu.availableVramMib)
    if vendorMatches.isEmpty then
      [⟨.gpuVendorMismatch, "node has no " ++ vendorName requirement.vendor ++ " GPU"⟩]
    else if allocatableMatches.isEmpty then
      if requirement.exclusive then
        [⟨.exclusiveGpuUnavailable, "matching GPUs cannot accept an exclusive lease"⟩]
      else [⟨.gpuUnavailable, "matching GPUs are administratively unavailable"⟩]
    else
      reject vramMatches.isEmpty .insufficientVram
        ("requires " ++ show64 (requirement.minVramMib.getD 0) ++ " MiB available VRAM, best matching GPU has " ++
          show64 (maxVram allocatableMatches) ++ " MiB")

/-- The requirement a GPU job has when it states none. -/
def implicitGpuRequirement : GpuRequirement := ⟨none, none, true⟩

def gpuReasons (job : JobSpec) (n : SchedulingNode) : List PlacementRejection :=
  match job.effectiveResourceRequest.gpu with
  | some request => gpuResourceRejections n request
  | none => match job.requirements.gpu with
    | some requirement => gpuRejections n.node requirement
    | none => if job.kind = .gpu then gpuRejections n.node implicitGpuRequirement else []

def percentRejection (observed : UInt8) (maximum : Option UInt8) (code : RejectionCode) (what : String) :
    List PlacementRejection :=
  reject (maximum.any (· < observed)) code
    (what ++ show8 observed ++ "% exceeds policy maximum " ++ show8 (maximum.getD 0) ++ "%")

def policyRejections (job : JobSpec) (n : SchedulingNode) : List PlacementRejection :=
  reject (n.allowedJobKinds ≠ ∅ && job.kind ∉ n.allowedJobKinds) .policyJobKindDenied
      ("node policy does not allow " ++ jobKindName job.kind ++ " jobs") ++
    reject (n.onBattery && !n.allowOnBattery) .batteryDisallowed "node is on battery and policy requires AC power" ++
    percentRejection n.node.load.cpuPercent n.maxCpuPercent .cpuLimitExceeded "observed CPU " ++
    percentRejection n.cpuEwmaPercent n.maxCpuEwmaPercent .cpuEwmaLimitExceeded "CPU EWMA " ++
    percentRejection n.memoryUsedPercent n.maxMemoryPercent .memoryLimitExceeded "memory use " ++
    temperatureRejections n

def osRejections (job : JobSpec) (node : Node) : List PlacementRejection :=
  match job.requirements.os with
  | some required => reject (node.os ≠ required) .wrongOs
      ("requires " ++ osName required ++ ", node provides " ++ osName node.os)
  | none => []

def archRejections (job : JobSpec) (node : Node) : List PlacementRejection :=
  match job.requirements.arch with
  | some required => reject (node.arch ≠ required) .wrongArchitecture
      ("requires " ++ archName required ++ ", node provides " ++ archName node.arch)
  | none => []

/-- The capabilities the job requires and the node lacks. -/
def missingCapabilities (job : JobSpec) (node : Node) : List String :=
  job.requirements.capabilities.difference node.capabilities

def resourceRejections (request : ResourceRequest) (node : Node) : List PlacementRejection :=
  reject (node.resources.availableCpuCores < request.cpuCores || 100 ≤ node.load.cpuPercent) .insufficientCpu
      ("requires " ++ show32 request.cpuCores ++ " available CPU cores, node has " ++
        show32 node.resources.availableCpuCores ++ " at " ++ show8 node.load.cpuPercent ++ "% utilization") ++
    reject (node.resources.availableMemoryMib < request.memoryMib) .insufficientMemory
      ("requires " ++ show64 request.memoryMib ++ " MiB available memory, node has " ++
        show64 node.resources.availableMemoryMib ++ " MiB") ++
    reject (node.resources.availableDiskMib < request.diskMib) .insufficientDisk
      ("requires " ++ show64 request.diskMib ++ " MiB available disk, node has " ++
        show64 node.resources.availableDiskMib ++ " MiB")

def hardRejections (job : JobSpec) (n : SchedulingNode) (observedAt : DateTime) (freshnessTtl : Int) :
    List PlacementRejection :=
  reject (!n.node.enabled) .disabled "node is disabled" ++ statusRejections n.node.status ++
    staleRejections n.node.lastSeenAt observedAt freshnessTtl ++ policyRejections job n ++ slotRejections job n ++
    manualRejections job n.node ++ osRejections job n.node ++ archRejections job n.node ++
    (missingCapabilities job n.node).map missingCapability ++
    resourceRejections job.effectiveResourceRequest n.node ++ gpuReasons job n

/-! ### Scores -/

def cappedUnits (value : UInt64) (divisor cap : Nat) : Int := ((min (value.toNat / divisor) cap : Nat) : Int)

def requestedVendor (job : JobSpec) : Option GpuVendor :=
  (job.effectiveResourceRequest.gpu.bind GpuResourceRequest.vendor).or
    (job.requirements.gpu.bind GpuRequirement.vendor)

def usesGpu (job : JobSpec) : Bool :=
  job.kind = .gpu || job.requirements.gpu.isSome || job.effectiveResourceRequest.gpu.isSome

def gpuCapacity (job : JobSpec) (node : Node) (weights : SchedulerWeights) : ScoreComponent :=
  let available := maxVram (node.resources.gpus.filter fun gpu => (requestedVendor job).all (gpu.vendor = ·))
  ⟨"gpu_capacity", satI64 (cappedUnits available 1024 1024 * weights.gpuVramGib),
    show64 available ++ " MiB available VRAM"⟩

def scoreComponents (job : JobSpec) (node : Node) (weights : SchedulerWeights) : List ScoreComponent :=
  let resources := node.resources
  [⟨"priority", satI64 (node.priority.toInt * weights.priority),
      "configured priority " ++ toString node.priority.toInt⟩,
    ⟨"cpu_capacity", satI64 (resources.availableCpuCores.toNat * weights.availableCpuCore),
      show32 resources.availableCpuCores ++ " available logical CPU cores"⟩,
    ⟨"memory_capacity", satI64 (cappedUnits resources.availableMemoryMib 1024 1024 * weights.availableMemoryGib),
      show64 resources.availableMemoryMib ++ " MiB available memory"⟩,
    ⟨"disk_capacity", satI64 (cappedUnits resources.availableDiskMib 10240 1024 * weights.availableDisk10Gib),
      show64 resources.availableDiskMib ++ " MiB available disk"⟩,
    ⟨"cpu_headroom", satI64 (((100 - min node.load.cpuPercent.toNat 100 : Nat) : Int) * weights.cpuHeadroomPercent),
      show8 node.load.cpuPercent ++ "% observed CPU utilization"⟩,
    ⟨"queue_penalty", -satI64 (node.load.queueDepth.toNat * weights.queueDepthPenalty),
      show32 node.load.queueDepth ++ " queued jobs"⟩,
    ⟨"running_job_penalty", -satI64 (node.load.runningJobs.toNat * weights.runningJobPenalty),
      show32 node.load.runningJobs ++ " running jobs"⟩] ++
  (if usesGpu job then [gpuCapacity job node weights] else []) ++
  (if job.source.cacheKey ∈ node.cachedSources.elems then
    [⟨"source_cache", weights.sourceCacheBonus, "exact source is already cached"⟩] else []) ++
  (if job.preferredNodeId = some node.id then
    [⟨"preferred_node", weights.preferredNodeBonus, "job prefers this node"⟩] else []) ++
  (if node.status = .degraded then
    [⟨"degraded_penalty", -weights.degradedPenalty, "node reports degraded health"⟩] else [])

/-! ### Selection -/

def evaluateNode (job : JobSpec) (weights : SchedulerWeights) (observedAt : DateTime) (freshnessTtl : Int)
    (n : SchedulingNode) : PlacementCandidateExplain :=
  let reasons := hardRejections job n observedAt freshnessTtl
  if !reasons.isEmpty then
    { nodeId := n.node.id, nodeName := n.node.name, eligible := false, score := none, scoreComponents := [],
      rejectionReasons := reasons }
  else
    let components := scoreComponents job n.node weights
    { nodeId := n.node.id, nodeName := n.node.name, eligible := true,
      score := some (components.foldl (fun total c => satI64 (total + c.value)) 0),
      scoreComponents := components, rejectionReasons := [] }

/-- A higher score wins, and among equal scores the lower identifier. -/
def compareCandidates (left right : PlacementCandidateExplain) : Ordering :=
  (compare (left.score.getD i64Min) (right.score.getD i64Min)).then (Uuid.compare right.nodeId left.nodeId)

/-- The last of the greatest candidates. -/
def maxCandidate : List PlacementCandidateExplain → Option PlacementCandidateExplain
  | [] => none
  | c :: cs => some (cs.foldl (fun best c => if compareCandidates best c = .gt then best else c) c)

/-- The order of the explanation: by name, then by identifier. -/
def candidateLe (left right : PlacementCandidateExplain) : Prop :=
  left.nodeName < right.nodeName ∨ (left.nodeName = right.nodeName ∧ left.nodeId.value ≤ right.nodeId.value)

instance : DecidableRel candidateLe := fun _ _ => inferInstanceAs (Decidable (_ ∨ _))

inductive ScheduleError where
  | invalidJob (error : ValidationError)
  | noEligibleNodes (explanation : PlacementExplain)
  deriving DecidableEq

def Scheduler.weights (scheduler : Scheduler) : PlacementPolicy → SchedulerWeights
  | .balanced | .manual => scheduler.balancedWeights
  | .performance => scheduler.performanceWeights

def Scheduler.scheduleContextsAt (scheduler : Scheduler) (job : JobSpec) (nodes : List SchedulingNode)
    (observedAt : DateTime) : Except ScheduleError PlacementPlanDecision := do
  job.validate.mapError .invalidJob
  let candidates := nodes.map
    (evaluateNode job (scheduler.weights job.placementPolicy) observedAt scheduler.nodeFreshnessTtl)
  let selected := maxCandidate (candidates.filter PlacementCandidateExplain.eligible)
  let explanation : PlacementExplain :=
    { policy := job.placementPolicy, selectedNodeId := selected.map PlacementCandidateExplain.nodeId,
      candidates := candidates.insertionSort candidateLe }
  match selected with
  | some best => .ok { nodeId := best.nodeId, score := best.score.getD 0, explanation }
  | none => .error (.noEligibleNodes explanation)

end CYC
