import ClusterYourCodex.Lib.Ordered
import ClusterYourCodex.Spec.Source

/-! Jobs (`cyc-protocol/src/lib.rs`): the specification a client submits, its validation, the
resource contract the scheduler derives from it and the digest that binds it to a plan. -/

namespace CYC

open Checked

def apiVersion : String := "cyc.dev/v1"

def defaultGitArtifactExclude : String := ".git/**"

inductive OperatingSystem where
  | windows
  | linux
  | macos
  deriving DecidableEq, Repr

inductive Architecture where
  | x8664
  | aarch64
  deriving DecidableEq, Repr

inductive GpuVendor where
  | nvidia
  | amd
  | intel
  | apple
  deriving DecidableEq, Repr

/-- The capability names of a node or a job. -/
abbrev Capabilities := OrdSet String

structure JobOrigin where
  codexSessionId : Option String
  projectId : Option String
  workspaceId : Option String
  deriving DecidableEq

inductive JobKind where
  | shell
  | build
  | test
  | lint
  | container
  | gpu
  | batch
  deriving DecidableEq, Repr

inductive SourceSpec where
  | git (repository revision : String)
  | snapshot (digest : String) (sizeBytes : Option UInt64)
  deriving DecidableEq

/-- The key a worker's source cache is compared by. -/
def SourceSpec.cacheKey : SourceSpec → String
  | .git repository revision => "git:" ++ repository ++ "@" ++ revision
  | .snapshot digest _ => "snapshot:" ++ digest

structure GpuRequirement where
  vendor : Option GpuVendor
  minVramMib : Option UInt64
  exclusive : Bool
  deriving DecidableEq

structure JobRequirements where
  os : Option OperatingSystem
  arch : Option Architecture
  capabilities : Capabilities
  minCpuCores : Option UInt32
  minMemoryMib : Option UInt64
  minDiskMib : Option UInt64
  gpu : Option GpuRequirement
  deriving DecidableEq

structure GpuResourceRequest where
  deviceId : Option String
  vendor : Option GpuVendor
  vramMib : UInt64
  exclusive : Bool
  deriving DecidableEq

structure ResourceRequest where
  slots : UInt32
  cpuCores : UInt32
  memoryMib : UInt64
  diskMib : UInt64
  gpu : Option GpuResourceRequest
  deriving DecidableEq

inductive Shell where
  | powershell
  | bash
  | zsh
  | cmd
  deriving DecidableEq, Repr

structure JobStep where
  name : String
  shell : Option Shell
  script : String
  workingDirectory : Option String
  timeoutSeconds : Option UInt64
  deriving DecidableEq

structure ArtifactSpec where
  includes : List String
  excludes : List String
  retentionDays : Option UInt32
  deriving DecidableEq

inductive PlacementPolicy where
  | balanced
  | performance
  | manual
  deriving DecidableEq, Repr

structure JobSpec where
  apiVersion : String
  id : Uuid
  origin : Option JobOrigin
  kind : JobKind
  source : SourceSpec
  requirements : JobRequirements
  resourceRequest : Option ResourceRequest
  steps : List JobStep
  artifacts : ArtifactSpec
  timeoutSeconds : Option UInt64
  placementPolicy : PlacementPolicy
  preferredNodeId : Option Uuid
  deriving DecidableEq

/-! ### Validation -/

def validateTimeout (value : Option UInt64) (field : String) : Except ValidationError Unit :=
  ensure (value.all fun v => 1 ≤ v && v ≤ 86400) (.invalidTimeout field)

def validateOriginField (value : Option String) (field : String) : Except ValidationError Unit :=
  ensure (value.all fun v => Text.charCount v ≤ 256) (.originFieldTooLong field)

def validateOrigin (origin : JobOrigin) : Except ValidationError Unit := do
  validateOriginField origin.codexSessionId "codexSessionId"
  validateOriginField origin.projectId "projectId"
  validateOriginField origin.workspaceId "workspaceId"

def validateStep (index : Nat) (step : JobStep) : Except ValidationError Unit := do
  ensure (!Text.blank step.name) (.emptyStepName index)
  ensure (!Text.blank step.script) (.emptyStepScript index)
  checkSome step.workingDirectory fun directory =>
    (validatePortableRelativePath directory).mapError (.invalidWorkingDirectory index ·)
  validateTimeout step.timeoutSeconds "step timeoutSeconds"

/-- Runs a check on every element with its index, in order. -/
def forIndexed {α ε : Type} (check : Nat → α → Except ε Unit) : Nat → List α → Except ε Unit
  | _, [] => .ok ()
  | i, a :: as => do
    check i a
    forIndexed check (i + 1) as

def requirementNonZero (value : Option UInt64) (field : String) : Except ValidationError Unit :=
  ensure (value ≠ some 0) (.zeroRequirement field)

def validateGpuRequest (request : GpuResourceRequest) (legacy : GpuRequirement) : Except ValidationError Unit := do
  ensure (!(request.vramMib < legacy.minVramMib.getD 0 || (legacy.exclusive && !request.exclusive) ||
    (match request.vendor, legacy.vendor with
      | some requested, some required => requested ≠ required
      | _, _ => false))) .resourceRequestWeakensLegacy
  ensure (!(legacy.vendor.isSome && request.vendor.isNone)) .resourceRequestWeakensLegacy

def validGpuDeviceId (deviceId : String) : Bool :=
  !Text.blank deviceId && Text.charCount deviceId ≤ 256 && !Text.hasControl deviceId

def validateResourceRequest (request : ResourceRequest) (legacy : JobRequirements) : Except ValidationError Unit := do
  ensure (request.slots ≠ 0) (.zeroResourceRequest "slots")
  ensure (request.cpuCores ≠ 0) (.zeroResourceRequest "cpuCores")
  ensure (!(request.cpuCores < legacy.minCpuCores.getD 1 || request.memoryMib < legacy.minMemoryMib.getD 0 ||
    request.diskMib < legacy.minDiskMib.getD 0)) .resourceRequestWeakensLegacy
  ensure (request.gpu.all fun gpu => gpu.deviceId.all validGpuDeviceId) .invalidGpuDeviceId
  match request.gpu, legacy.gpu with
  | none, some _ => .error .resourceRequestWeakensLegacy
  | some gpu, some legacyGpu => validateGpuRequest gpu legacyGpu
  | _, none => .ok ()

def validateIncludePattern (index : Nat) (pattern : String) : Except ValidationError Unit := do
  (validatePortableRelativeGlob pattern).mapError (.invalidArtifactPattern "include" index ·)
  ensure (!hasLiteralGitSegment pattern) (.gitMetadataIncluded index)

def validateExcludePattern (index : Nat) (pattern : String) : Except ValidationError Unit :=
  (validatePortableRelativeGlob pattern).mapError (.invalidArtifactPattern "exclude" index ·)

def validateSource : SourceSpec → Except ValidationError Unit
  | .git repository revision => do
    validatePublicHttpsRepository repository
    ensure (isLowerHex 40 revision.toList || isLowerHex 64 revision.toList)
      (.invalidSource "git revision must be a complete 40- or 64-character lowercase hex object ID")
  | .snapshot digest sizeBytes => do
    (validateSnapshotDigest digest).mapError fun _ =>
      .invalidSource "snapshot digest must be sha256 followed by 64 lowercase hex digits"
    match sizeBytes with
    | none => .error (.invalidSource "snapshot sizeBytes is required and must bind the raw archive bytes")
    | some size => (validateSnapshotSize size).mapError fun _ =>
      .invalidSource "snapshot sizeBytes must be in the supported bounded range"

def JobSpec.validate (job : JobSpec) : Except ValidationError Unit := do
  ensure (job.apiVersion = CYC.apiVersion) (.unsupportedApiVersion job.apiVersion)
  ensure (!job.steps.isEmpty) .noSteps
  checkSome job.origin validateOrigin
  forIndexed validateStep 0 job.steps
  validateTimeout job.timeoutSeconds "timeoutSeconds"
  ensure (job.requirements.capabilities.elems.all fun c => !Text.blank c) .emptyCapability
  requirementNonZero (job.requirements.minCpuCores.map UInt32.toUInt64) "minCpuCores"
  requirementNonZero job.requirements.minMemoryMib "minMemoryMiB"
  requirementNonZero job.requirements.minDiskMib "minDiskMiB"
  requirementNonZero (job.requirements.gpu.bind GpuRequirement.minVramMib) "minVramMiB"
  checkSome job.resourceRequest fun request => validateResourceRequest request job.requirements
  ensure (job.artifacts.retentionDays.all fun days => 1 ≤ days && days ≤ 3650) .invalidRetentionDays
  forIndexed validateIncludePattern 0 job.artifacts.includes
  forIndexed validateExcludePattern 0 job.artifacts.excludes
  ensure (job.artifacts.excludes.any fun p => p = ".git" || p = defaultGitArtifactExclude) .gitMetadataNotExcluded
  validateSource job.source

/-! ### The scheduler's view of a job -/

def resourceRequestFromLegacy (requirements : JobRequirements) : ResourceRequest where
  slots := 1
  cpuCores := requirements.minCpuCores.getD 1
  memoryMib := requirements.minMemoryMib.getD 0
  diskMib := requirements.minDiskMib.getD 0
  gpu := requirements.gpu.map fun gpu =>
    { deviceId := none, vendor := gpu.vendor, vramMib := gpu.minVramMib.getD 0, exclusive := gpu.exclusive }

def JobSpec.effectiveResourceRequest (job : JobSpec) : ResourceRequest :=
  job.resourceRequest.getD (resourceRequestFromLegacy job.requirements)

/-- The defaults the scheduler would apply, written out before a job is bound to a plan. -/
def normalizeJobSpec (job : JobSpec) : JobSpec :=
  if job.requirements.minCpuCores.isNone then
    { job with requirements := { job.requirements with minCpuCores := some 1 } }
  else job

/-! ### The canonical digest -/

namespace Encode

open Json (optionalEntry)

def u32 (n : UInt32) : Json := .int n.toNat

def u64 (n : UInt64) : Json := .int n.toNat

def uuid (u : Uuid) : Json := .str u.hyphenated

def os : OperatingSystem → Json
  | .windows => .str "windows"
  | .linux => .str "linux"
  | .macos => .str "macos"

def arch : Architecture → Json
  | .x8664 => .str "x86_64"
  | .aarch64 => .str "aarch64"

def vendor : GpuVendor → Json
  | .nvidia => .str "nvidia"
  | .amd => .str "amd"
  | .intel => .str "intel"
  | .apple => .str "apple"

def jobKind : JobKind → Json
  | .shell => .str "shell"
  | .build => .str "build"
  | .test => .str "test"
  | .lint => .str "lint"
  | .container => .str "container"
  | .gpu => .str "gpu"
  | .batch => .str "batch"

def shell : Shell → Json
  | .powershell => .str "powershell"
  | .bash => .str "bash"
  | .zsh => .str "zsh"
  | .cmd => .str "cmd"

def policy : PlacementPolicy → Json
  | .balanced => .str "balanced"
  | .performance => .str "performance"
  | .manual => .str "manual"

def strings (ss : List String) : Json := .arr (ss.map .str)

def origin (o : JobOrigin) : Json :=
  .obj (optionalEntry "codexSessionId" .str o.codexSessionId ++ optionalEntry "projectId" .str o.projectId ++
    optionalEntry "workspaceId" .str o.workspaceId)

def source : SourceSpec → Json
  | .git repository revision =>
    .obj [("type", .str "git"), ("repository", .str repository), ("revision", .str revision)]
  | .snapshot digest sizeBytes =>
    .obj ([("type", .str "snapshot"), ("digest", .str digest)] ++ optionalEntry "sizeBytes" u64 sizeBytes)

def gpuRequirement (g : GpuRequirement) : Json :=
  .obj (optionalEntry "vendor" vendor g.vendor ++ optionalEntry "minVramMiB" u64 g.minVramMib ++
    [("exclusive", .bool g.exclusive)])

def requirements (r : JobRequirements) : Json :=
  .obj (optionalEntry "os" os r.os ++ optionalEntry "arch" arch r.arch ++ [("capabilities", strings r.capabilities.elems)] ++
    optionalEntry "minCpuCores" u32 r.minCpuCores ++ optionalEntry "minMemoryMiB" u64 r.minMemoryMib ++
    optionalEntry "minDiskMiB" u64 r.minDiskMib ++ optionalEntry "gpu" gpuRequirement r.gpu)

def gpuResourceRequest (g : GpuResourceRequest) : Json :=
  .obj (optionalEntry "deviceId" .str g.deviceId ++ optionalEntry "vendor" vendor g.vendor ++
    [("vramMiB", u64 g.vramMib), ("exclusive", .bool g.exclusive)])

def resourceRequest (r : ResourceRequest) : Json :=
  .obj ([("slots", u32 r.slots), ("cpuCores", u32 r.cpuCores), ("memoryMiB", u64 r.memoryMib),
    ("diskMiB", u64 r.diskMib)] ++ optionalEntry "gpu" gpuResourceRequest r.gpu)

def step (s : JobStep) : Json :=
  .obj ([("name", .str s.name)] ++ optionalEntry "shell" shell s.shell ++ [("script", .str s.script)] ++
    optionalEntry "workingDirectory" .str s.workingDirectory ++ optionalEntry "timeoutSeconds" u64 s.timeoutSeconds)

def artifacts (a : ArtifactSpec) : Json :=
  .obj ([("include", strings a.includes), ("exclude", strings a.excludes)] ++
    optionalEntry "retentionDays" u32 a.retentionDays)

def jobSpec (job : JobSpec) : Json :=
  .obj ([("apiVersion", .str job.apiVersion), ("id", uuid job.id)] ++ optionalEntry "origin" origin job.origin ++
    [("kind", jobKind job.kind), ("source", source job.source), ("requirements", requirements job.requirements)] ++
    optionalEntry "resourceRequest" resourceRequest job.resourceRequest ++
    [("steps", .arr (job.steps.map step)), ("artifacts", artifacts job.artifacts)] ++
    optionalEntry "timeoutSeconds" u64 job.timeoutSeconds ++ [("placementPolicy", policy job.placementPolicy)] ++
    optionalEntry "preferredNodeId" uuid job.preferredNodeId)

end Encode

/-- The resource-unit spellings of the digest contract. -/
def preview100ResourceKey (key : String) : String :=
  if key = "minMemoryMiB" then "minMemoryMib"
  else if key = "minDiskMiB" then "minDiskMib"
  else if key = "minVramMiB" then "minVramMib"
  else if key = "memoryMiB" then "memoryMib"
  else if key = "diskMiB" then "diskMib"
  else if key = "vramMiB" then "vramMib"
  else key

/-- SHA-256 of the normalized job as key-sorted JSON without whitespace. -/
def canonicalJobDigest (job : JobSpec) : String :=
  Sha256.hex ((Encode.jobSpec (normalizeJobSpec job)).mapKeys preview100ResourceKey).sortKeys.bytes

end CYC
