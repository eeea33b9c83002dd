import ClusterYourCodex.Lib.Encoding
import ClusterYourCodex.Spec.Placement

/-! The provisioning record of one computer (`cyc-provision`, `model.rs` and `smoke.rs`; host keys from
`cyc-ssh`). A record names the checkpoint its computer has reached and the evidence gathered on the way;
`validate` says which evidence each checkpoint requires, and it runs before every write and after every
read of the journal. -/

namespace CYC.Provision

open Checked

inductive RecordValidationError where
  | invalidField (field : String)
  | invalidIdentity
  | invalidTimestamp
  | invalidHostKey
  | invalidFailureCode
  | missingCheckpoint (field : String)
  | invalidIntent
  | invalidCredentialState
  | invalidAuthenticationPolicy
  | invalidTeardownCheckpoint
  | unsupportedFormatVersion
  | invalidSmokeBinding
  | smokeBindingJobMismatch
  | smokeBindingNodeMismatch
  | invalidSmokeCheckpoint
  deriving DecidableEq, Repr

def validateText (field : String) (value : String) (maximumBytes : Nat) : Except RecordValidationError Unit :=
  ensure (!(Text.blank value || maximumBytes < Text.byteCount value || Text.hasControl value)) (.invalidField field)

/-! ### Authentication policy -/

/-- What the standard library says of a path on the platform the desktop runs on. -/
structure PathRules where
  isAbsolute : String → Bool
  /-- Some component of the path is the current or the parent directory. -/
  hasDotComponent : String → Bool

inductive SshAuthenticationMethod where
  | password
  | agent
  | privateKey
  deriving DecidableEq, Repr

structure SshAuthenticationPolicy where
  method : SshAuthenticationMethod
  privateKeyPath : Option String
  deriving DecidableEq, Repr

def maxPrivateKeyPathBytes : Nat := 16 * 1024

def isDurablePrivateKeyPath (paths : PathRules) (value : String) : Bool :=
  !value.toList.isEmpty && Text.byteCount value ≤ maxPrivateKeyPathBytes &&
    !value.toList.any (fun c => c = Char.ofNat 0 || c = '\r' || c = '\n') && paths.isAbsolute value &&
    !paths.hasDotComponent value

namespace SshAuthenticationPolicy

def password : SshAuthenticationPolicy := ⟨.password, none⟩

def validateDurable (paths : PathRules) (policy : SshAuthenticationPolicy) : Except RecordValidationError Unit :=
  match policy.method, policy.privateKeyPath with
  | .password, none => .ok ()
  | .agent, none => .ok ()
  | .privateKey, some path => ensure (isDurablePrivateKeyPath paths path) .invalidAuthenticationPolicy
  | _, _ => .error .invalidAuthenticationPolicy

/-- The check of a new request; `keyFileUsable` is what the inspection of the key file found. -/
def validateForNew (paths : PathRules) (keyFileUsable : Bool) (policy : SshAuthenticationPolicy) :
    Except RecordValidationError Unit := do
  policy.validateDurable paths
  ensure (policy.method ≠ .privateKey || keyFileUsable) .invalidAuthenticationPolicy

end SshAuthenticationPolicy

/-! ### Configuration and endpoint -/

inductive ServiceScope where
  | auto
  | user
  | system
  deriving DecidableEq, Repr

inductive AllowedJobKind where
  | build
  | test
  | staticAnalysis
  | compute
  | gpu
  | container
  | service
  | dataTransform
  | mediaTransform
  | render
  deriving DecidableEq, Repr

structure ResourcePolicy where
  maximumParallelJobs : Option Nat
  cpuLimitPercent : Option Nat
  memoryLimitBytes : Option Nat
  deriving DecidableEq, Repr

def ResourcePolicy.validate (policy : ResourcePolicy) : Except RecordValidationError Unit :=
  ensure (!(policy.maximumParallelJobs.any (fun value => value = 0 || 1024 < value) ||
    policy.cpuLimitPercent.any (fun value => value = 0 || 100 < value) || policy.memoryLimitBytes = some 0))
    (.invalidField "configuration.resources")

def maxWorkspaceBytes : Nat := 4 * 1024

def isWindowsAbsolute : List Char → Bool
  | drive :: ':' :: '/' :: _ => Text.isAsciiAlphabetic drive
  | _ => false

def isPosixAbsolute : List Char → Bool
  | '/' :: '/' :: _ => false
  | '/' :: _ => true
  | _ => false

def validateRemoteWorkspace (value : String) : Except RecordValidationError Unit := do
  validateText "configuration.workspace" value maxWorkspaceBytes
  let normalized := value.toList.map fun c => if c = '\\' then '/' else c
  let invalidComponent := (segments normalized).any fun component => component = ['.'] || component = ['.', '.']
  ensure (!((!isWindowsAbsolute normalized && !isPosixAbsolute normalized) || invalidComponent ||
    value.toList.any fun c => c = Char.ofNat 0 || c = '\r' || c = '\n' || c = '"'))
    (.invalidField "configuration.workspace")

structure ComputerConfiguration where
  windowsInstanceName : Option String
  serviceScope : ServiceScope
  workspace : Option String
  priority : Int
  resources : ResourcePolicy
  allowedJobKinds : Finset AllowedJobKind
  allowOnBattery : Bool
  deriving DecidableEq

namespace ComputerConfiguration

def initial : ComputerConfiguration where
  windowsInstanceName := none
  serviceScope := .auto
  workspace := none
  priority := 0
  resources := ⟨none, none, none⟩
  allowedJobKinds := {.build, .test, .compute}
  allowOnBattery := false

def validateInstanceName (configuration : ComputerConfiguration) (name : String) : Except RecordValidationError Unit :=
  ensure (!(name.toList.isEmpty || 32 < Text.byteCount name ||
    !name.toList.all (fun c => Text.isAsciiLower c || Text.isAsciiDigit c || c = '-') ||
    name.toList.head? = some '-' || configuration.workspace.isSome))
    (.invalidField "configuration.windowsInstanceName")

def validate (configuration : ComputerConfiguration) : Except RecordValidationError Unit := do
  checkSome configuration.windowsInstanceName configuration.validateInstanceName
  ensure (-10000 ≤ configuration.priority && configuration.priority ≤ 10000) (.invalidField "configuration.priority")
  checkSome configuration.workspace validateRemoteWorkspace
  ensure (configuration.allowedJobKinds ≠ ∅) (.invalidField "configuration.allowedJobKinds")
  configuration.resources.validate

end ComputerConfiguration

structure ComputerEndpoint where
  host : String
  port : Nat
  username : String
  deriving DecidableEq, Repr

def ComputerEndpoint.validate (endpoint : ComputerEndpoint) : Except RecordValidationError Unit := do
  validateText "endpoint.host" endpoint.host 1024
  validateText "endpoint.username" endpoint.username 256
  ensure (endpoint.port ≠ 0) (.invalidField "endpoint.port")

def maxDisplayNameBytes : Nat := 128

structure NewComputer where
  displayName : String
  endpoint : ComputerEndpoint
  sshAuthentication : SshAuthenticationPolicy
  rememberCredential : Bool
  configuration : ComputerConfiguration
  deriving DecidableEq

def NewComputer.validate (paths : PathRules) (keyFileUsable : Bool) (input : NewComputer) :
    Except RecordValidationError Unit := do
  validateText "displayName" input.displayName maxDisplayNameBytes
  input.endpoint.validate
  input.sshAuthentication.validateForNew paths keyFileUsable
  ensure (input.sshAuthentication.method = .password || !input.rememberCredential) .invalidAuthenticationPolicy
  input.configuration.validate

/-! ### Host keys -/

structure HostKey where
  algorithm : String
  keyBytes : List Nat
  fingerprint : String

def sha256Fingerprint (bytes : List Nat) : String :=
  "SHA256:" ++ String.ofList (Base64.encode false ((Sha256.digest bytes).map UInt8.ofNat))

def hostKeyAlgorithms : List String :=
  ["ssh-rsa", "ssh-dss", "ecdsa-sha2-nistp256", "ecdsa-sha2-nistp384", "ecdsa-sha2-nistp521", "ssh-ed25519"]

def maxHostKeyBytes : Nat := 64 * 1024

def HostKey.fromParts (algorithm : String) (keyBytes : List Nat) : Option HostKey :=
  if !hostKeyAlgorithms.contains algorithm then none
  else if keyBytes.isEmpty || maxHostKeyBytes < keyBytes.length then none
  else some ⟨algorithm, keyBytes, sha256Fingerprint keyBytes⟩

structure PinnedHostKeyRecord where
  algorithm : String
  publicKeyBase64 : String
  fingerprint : String
  deriving DecidableEq, Repr

namespace PinnedHostKeyRecord

def hostKey (record : PinnedHostKeyRecord) : Except RecordValidationError HostKey := do
  let bytes ← required (Base64.decode false record.publicKeyBase64.toList) .invalidHostKey
  required (HostKey.fromParts record.algorithm (bytes.map UInt8.toNat)) .invalidHostKey

def validate (record : PinnedHostKeyRecord) : Except RecordValidationError Unit := do
  validateText "hostKey.algorithm" record.algorithm 128
  validateText "hostKey.publicKeyBase64" record.publicKeyBase64 (64 * 1024)
  validateText "hostKey.fingerprint" record.fingerprint 256
  let key ← record.hostKey
  ensure (key.fingerprint = record.fingerprint) .invalidHostKey

end PinnedHostKeyRecord

/-! ### Inventory -/

def maxInventoryTextBytes : Nat := 512

structure GpuInventory where
  name : String
  stableDeviceId : Option String
  memoryBytes : Option Nat
  deriving DecidableEq, Repr

def GpuInventory.validate (gpu : GpuInventory) : Except RecordValidationError Unit := do
  validateText "inventory.gpu.name" gpu.name maxInventoryTextBytes
  checkSome gpu.stableDeviceId fun id => validateText "inventory.gpu.stableDeviceId" id maxInventoryTextBytes

/-- `toolchains` is a map, in the order of its names. -/
structure DiscoveredComputer where
  hostname : String
  operatingSystem : String
  architecture : String
  cpuModel : String
  logicalCpuCount : Nat
  memoryBytes : Nat
  workspaceFreeBytes : Nat
  gpuDevices : List GpuInventory
  toolchains : List (String × String)
  deriving DecidableEq, Repr

def DiscoveredComputer.validate (inventory : DiscoveredComputer) : Except RecordValidationError Unit := do
  validateText "inventory.hostname" inventory.hostname maxInventoryTextBytes
  validateText "inventory.operatingSystem" inventory.operatingSystem maxInventoryTextBytes
  validateText "inventory.architecture" inventory.architecture maxInventoryTextBytes
  validateText "inventory.cpuModel" inventory.cpuModel maxInventoryTextBytes
  ensure (inventory.logicalCpuCount ≠ 0) (.invalidField "inventory.logicalCpuCount")
  ensure (inventory.gpuDevices.length ≤ 32) (.invalidField "inventory.gpuDevices")
  inventory.gpuDevices.forM GpuInventory.validate
  ensure (inventory.toolchains.length ≤ 128) (.invalidField "inventory.toolchains")
  inventory.toolchains.forM fun (name, version) => do
    validateText "inventory.toolchain.name" name maxInventoryTextBytes
    validateText "inventory.toolchain.version" version maxInventoryTextBytes

/-! ### Steps, failures and intents -/

inductive ProvisioningStep where
  | draft
  | sshConnecting
  | hostKeyPending
  | authenticated
  | discovering
  | credentialStored
  | kitStaged
  | workerInstalled
  | enrollmentIssued
  | paired
  | serviceEnabled
  | heartbeatSeen
  | smokeCheck
  | ready
  deriving DecidableEq, Repr

def ProvisioningStep.rank : ProvisioningStep → Nat
  | .draft => 0
  | .sshConnecting => 1
  | .hostKeyPending => 2
  | .authenticated => 3
  | .discovering => 4
  | .credentialStored => 5
  | .kitStaged => 6
  | .workerInstalled => 7
  | .enrollmentIssued => 8
  | .paired => 9
  | .serviceEnabled => 10
  | .heartbeatSeen => 11
  | .smokeCheck => 12
  | .ready => 13

def ProvisioningStep.isAtLeast (step checkpoint : ProvisioningStep) : Bool := checkpoint.rank ≤ step.rank

def isFailureCode (value : String) : Bool :=
  !value.toList.isEmpty && Text.byteCount value ≤ 64 &&
    value.toList.all fun c => Text.isAsciiUpper c || Text.isAsciiDigit c || c = '_' || c = '-' || c = '.'

structure FailureCode where
  value : String
  wellFormed : isFailureCode value = true
  deriving DecidableEq, Repr

def FailureCode.new (value : String) : Except RecordValidationError FailureCode :=
  if h : isFailureCode value = true then .ok ⟨value, h⟩ else .error .invalidFailureCode

inductive ProvisioningState where
  | draft
  | sshConnecting
  | hostKeyPending
  | authenticated
  | discovering
  | credentialStored
  | kitStaged
  | workerInstalled
  | enrollmentIssued
  | paired
  | serviceEnabled
  | heartbeatSeen
  | smokeCheck
  | ready
  | failed (step : ProvisioningStep) (code : FailureCode) (retryable : Bool)
  deriving DecidableEq, Repr

namespace ProvisioningState

def activeStep : ProvisioningState → ProvisioningStep
  | draft => .draft
  | sshConnecting => .sshConnecting
  | hostKeyPending => .hostKeyPending
  | authenticated => .authenticated
  | discovering => .discovering
  | credentialStored => .credentialStored
  | kitStaged => .kitStaged
  | workerInstalled => .workerInstalled
  | enrollmentIssued => .enrollmentIssued
  | paired => .paired
  | serviceEnabled => .serviceEnabled
  | heartbeatSeen => .heartbeatSeen
  | smokeCheck => .smokeCheck
  | ready => .ready
  | failed step _ _ => step

def fromStep : ProvisioningStep → ProvisioningState
  | .draft => draft
  | .sshConnecting => sshConnecting
  | .hostKeyPending => hostKeyPending
  | .authenticated => authenticated
  | .discovering => discovering
  | .credentialStored => credentialStored
  | .kitStaged => kitStaged
  | .workerInstalled => workerInstalled
  | .enrollmentIssued => enrollmentIssued
  | .paired => paired
  | .serviceEnabled => serviceEnabled
  | .heartbeatSeen => heartbeatSeen
  | .smokeCheck => smokeCheck
  | .ready => ready

def isFailed : ProvisioningState → Bool
  | failed _ _ _ => true
  | _ => false

@[simp] theorem activeStep_fromStep (step : ProvisioningStep) : (fromStep step).activeStep = step := by
  cases step <;> rfl

end ProvisioningState

/-- `continuing` is the source's `Continue`. -/
inductive ProvisioningIntent where
  | continuing
  | resume
  | retry
  | rollback
  | remove
  deriving DecidableEq, Repr

inductive CredentialState where
  | pending
  | sessionOnly
  | stored
  | forgotten
  deriving DecidableEq, Repr

structure CredentialPolicy where
  rememberRequested : Bool
  state : CredentialState
  deriving DecidableEq, Repr

/-- The name of a vault entry. -/
structure CredentialReference where
  value : String
  deriving DecidableEq, Repr

/-! ### The smoke run -/

/-- The binding of a smoke run: the plan it was dispatched by, and the run. -/
structure SmokeRunBinding where
  plan : PlacementPlanBinding
  runId : Uuid
  deriving DecidableEq

def SmokeRunBinding.validate (binding : SmokeRunBinding) (expectedJob : Option JobSpec) (now : Option DateTime) :
    Except PlacementBindingError Unit := do
  binding.plan.validate expectedJob now
  ensure (!binding.runId.isNil) .nilRunId

def canonicalSmokeOperationId (recordId : Uuid) (cycle : Nat) : String :=
  recordId.hyphenated ++ ":" ++ toString cycle ++ ":run_smoke_check"

/-- The first half of the operation's digest, marked as an identifier of version five. -/
def canonicalSmokeJobId (recordId : Uuid) (cycle : Nat) : Uuid :=
  let digest := (Sha256.digest (textBytes (canonicalSmokeOperationId recordId cycle))).take 16
  let bytes := (digest.modify 6 fun b => b % 16 + 0x50).modify 8 fun b => b % 64 + 0x80
  ⟨BitVec.ofNat 128 (bytes.foldl (fun n b => n * 256 + b) 0)⟩

/-! ### The record -/

def computerRecordFormatVersion : Nat := 2

def legacyComputerRecordFormatVersion : Nat := 1

structure ComputerRecord where
  formatVersion : Nat
  id : Uuid
  displayName : String
  endpoint : ComputerEndpoint
  sshAuthentication : SshAuthenticationPolicy
  state : ProvisioningState
  intent : ProvisioningIntent
  teardownCompleted : Bool
  revision : Nat
  cycle : Nat
  intendedNodeId : Uuid
  pairingId : Option Uuid
  pairedNodeId : Option Uuid
  hostKey : Option PinnedHostKeyRecord
  hostKeyApprovedAt : Option DateTime
  inventory : Option DiscoveredComputer
  credentialPolicy : CredentialPolicy
  credentialReference : Option CredentialReference
  configuration : ComputerConfiguration
  heartbeatSeenAt : Option DateTime
  smokeRunBinding : Option SmokeRunBinding
  smokeCheckCompletedAt : Option DateTime
  createdAt : DateTime
  updatedAt : DateTime
  deriving DecidableEq

namespace ComputerRecord

def newWithIdentity (input : NewComputer) (now : DateTime) (id intendedNodeId : Uuid) : ComputerRecord where
  formatVersion := computerRecordFormatVersion
  id := id
  displayName := input.displayName
  endpoint := input.endpoint
  sshAuthentication := input.sshAuthentication
  state := .draft
  intent := .continuing
  teardownCompleted := false
  revision := 1
  cycle := 0
  intendedNodeId := intendedNodeId
  pairingId := none
  pairedNodeId := none
  hostKey := none
  hostKeyApprovedAt := none
  inventory := none
  credentialPolicy := ⟨input.rememberCredential, .pending⟩
  credentialReference := none
  configuration := input.configuration
  heartbeatSeenAt := none
  smokeRunBinding := none
  smokeCheckCompletedAt := none
  createdAt := now
  updatedAt := now

def step (r : ComputerRecord) : ProvisioningStep := r.state.activeStep

def reached (r : ComputerRecord) (checkpoint : ProvisioningStep) : Bool := r.step.isAtLeast checkpoint

/-- The version, the identities and the user's own input. -/
def validateIdentity (paths : PathRules) (r : ComputerRecord) : Except RecordValidationError Unit := do
  ensure (r.formatVersion = legacyComputerRecordFormatVersion || r.formatVersion = computerRecordFormatVersion)
    .unsupportedFormatVersion
  ensure (!(r.id.isNil || r.intendedNodeId.isNil || r.pairingId.any Uuid.isNil || r.pairedNodeId.any Uuid.isNil ||
    r.revision = 0)) .invalidIdentity
  validateText "displayName" r.displayName maxDisplayNameBytes
  r.endpoint.validate
  r.sshAuthentication.validateDurable paths

def validateAuthentication (r : ComputerRecord) : Except RecordValidationError Unit :=
  ensure (!(r.sshAuthentication.method ≠ .password && (r.credentialPolicy.rememberRequested ||
    r.credentialReference.isSome || r.credentialPolicy.state = .stored))) .invalidAuthenticationPolicy

def validateTimestamps (r : ComputerRecord) : Except RecordValidationError Unit := do
  ensure (r.createdAt.nanos ≤ r.updatedAt.nanos) .invalidTimestamp
  ensure (!(r.hostKeyApprovedAt.any (fun value => value.nanos < r.createdAt.nanos) ||
    r.heartbeatSeenAt.any (fun value => value.nanos < r.createdAt.nanos) ||
    r.smokeCheckCompletedAt.any (fun value => value.nanos < r.createdAt.nanos) ||
    (match r.heartbeatSeenAt, r.smokeCheckCompletedAt with
      | some heartbeat, some smoke => smoke.nanos < heartbeat.nanos
      | _, _ => false))) .invalidTimestamp

def validateTeardown (r : ComputerRecord) : Except RecordValidationError Unit :=
  ensure (!(r.teardownCompleted && !(r.intent = .rollback || r.intent = .remove))) .invalidTeardownCheckpoint

/-- A stored credential has a reference, and no other credential has one. -/
def validateCredentialReference (r : ComputerRecord) : Except RecordValidationError Unit :=
  match r.credentialPolicy.state with
  | .stored => ensure r.credentialReference.isSome (.missingCheckpoint "credentialReference")
  | .pending => ensure r.credentialReference.isNone .invalidCredentialState
  | .sessionOnly => ensure r.credentialReference.isNone .invalidCredentialState
  | .forgotten => ensure r.credentialReference.isNone .invalidCredentialState

/-- Past the discovery there is an inventory, and a credential that is not pending. -/
def validateDiscovery (r : ComputerRecord) : Except RecordValidationError Unit :=
  if r.reached .credentialStored then do
    ensure r.inventory.isSome (.missingCheckpoint "inventory")
    ensure (r.credentialPolicy.state = .stored || r.credentialPolicy.state = .sessionOnly ||
      r.credentialPolicy.state = .forgotten) .invalidCredentialState
  else .ok ()

def validateSmokeBinding (r : ComputerRecord) (binding : SmokeRunBinding) : Except RecordValidationError Unit := do
  (binding.validate none none).mapError fun _ => .invalidSmokeBinding
  ensure (binding.plan.jobId = canonicalSmokeJobId r.id r.cycle) .smokeBindingJobMismatch
  ensure (!(binding.plan.decision.nodeId ≠ r.intendedNodeId || r.pairedNodeId ≠ some r.intendedNodeId))
    .smokeBindingNodeMismatch

def validateBoundSmoke (r : ComputerRecord) : Except RecordValidationError Unit :=
  match r.reached .smokeCheck, r.smokeRunBinding with
  | true, some binding => r.validateSmokeBinding binding
  | true, none => .error (.missingCheckpoint "smokeRunBinding")
  | false, some _ => .error .invalidSmokeCheckpoint
  | false, none => .ok ()

def validateSmokeCheckpoint (r : ComputerRecord) : Except RecordValidationError Unit :=
  if r.formatVersion = legacyComputerRecordFormatVersion then
    ensure r.smokeRunBinding.isNone .invalidSmokeCheckpoint
  else do
    r.validateBoundSmoke
    ensure (!(!(r.step = .smokeCheck || r.step = .ready) && r.smokeCheckCompletedAt.isSome)) .invalidSmokeCheckpoint
    match r.smokeRunBinding, r.smokeCheckCompletedAt with
    | some binding, some completedAt => ensure (binding.plan.createdAt.nanos ≤ completedAt.nanos) .invalidTimestamp
    | _, _ => .ok ()

/-- The evidence that the checkpoint requires, in the order of the checkpoints. -/
def validateCheckpoints (r : ComputerRecord) : Except RecordValidationError Unit := do
  ensure (!(r.reached .hostKeyPending && r.hostKey.isNone)) (.missingCheckpoint "hostKey")
  ensure (!(r.reached .authenticated && r.hostKeyApprovedAt.isNone)) (.missingCheckpoint "hostKeyApprovedAt")
  r.validateDiscovery
  ensure (!(r.credentialPolicy.state = .forgotten && r.state ≠ .ready)) .invalidCredentialState
  ensure (!(r.reached .enrollmentIssued && r.pairingId.isNone)) (.missingCheckpoint "pairingId")
  ensure (!(r.reached .paired && r.pairedNodeId ≠ some r.intendedNodeId)) (.missingCheckpoint "pairedNodeId")
  ensure (!(r.reached .heartbeatSeen && r.heartbeatSeenAt.isNone)) (.missingCheckpoint "heartbeatSeenAt")
  r.validateSmokeCheckpoint
  ensure (!(r.reached .ready && r.smokeCheckCompletedAt.isNone)) (.missingCheckpoint "smokeCheckCompletedAt")

def validateIntent (r : ComputerRecord) : Except RecordValidationError Unit :=
  match r.state, r.intent with
  | .failed _ _ true, .retry => .ok ()
  | _, .continuing => .ok ()
  | _, .rollback => .ok ()
  | _, .remove => .ok ()
  | .failed _ _ _, .resume => .error .invalidIntent
  | _, .retry => .error .invalidIntent
  | .ready, .resume => .error .invalidIntent
  | _, .resume => .ok ()

def validate (paths : PathRules) (r : ComputerRecord) : Except RecordValidationError Unit := do
  r.validateIdentity paths
  r.validateAuthentication
  r.validateTimestamps
  checkSome r.hostKey PinnedHostKeyRecord.validate
  checkSome r.inventory DiscoveredComputer.validate
  r.configuration.validate
  r.validateTeardown
  r.validateCredentialReference
  r.validateCheckpoints
  r.validateIntent

end ComputerRecord

end CYC.Provision
