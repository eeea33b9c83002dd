import ClusterYourCodex.Lib.JsonText
import ClusterYourCodex.Spec.Computer
import ClusterYourCodex.Spec.Fleet

/-! The configuration that the desktop writes for a computer (`provisioning.rs`, `desired_node_config`) and the
job by which it verifies the computer afterwards (`full_run.rs`). Each limit is written twice: as a field of the
capacity, and in a label that the controller reads as a fallback. -/

namespace CYC.Provision

open Checked

/-- `code` and `retryable` of a failure at the controller's boundary. -/
structure ControllerBoundaryFailure where
  code : String
  retryable : Bool
  deriving DecidableEq, Repr

def protocolJobKind : AllowedJobKind → JobKind
  | .build => .build
  | .test => .test
  | .staticAnalysis => .lint
  | .compute | .dataTransform | .mediaTransform | .render => .batch
  | .gpu => .gpu
  | .container => .container
  | .service => .shell

def controllerJobKindName : AllowedJobKind → String
  | .build => "build"
  | .test => "test"
  | .staticAnalysis => "lint"
  | .compute | .dataTransform | .mediaTransform | .render => "batch"
  | .gpu => "gpu"
  | .container => "container"
  | .service => "shell"

/-- Every name of a kind, in the order of the set they are collected in. -/
def controllerJobKindNames : List String := ["batch", "build", "container", "gpu", "lint", "shell", "test"]

def allowedJobKindsLabel (kinds : Finset AllowedJobKind) : String :=
  String.ofList ([','].intercalate
    ((controllerJobKindNames.filter fun name => name ∈ kinds.image controllerJobKindName).map String.toList))

/-- A number that may be absent. -/
def optionalNumber : Option Nat → Json
  | none => .null
  | some n => .int n

def resourcePolicyEntries (resources : ResourcePolicy) : List (String × Json) :=
  [("cpuLimitPercent", optionalNumber resources.cpuLimitPercent),
    ("maximumParallelJobs", optionalNumber resources.maximumParallelJobs),
    ("memoryLimitBytes", optionalNumber resources.memoryLimitBytes)]

def resourcePolicyLabel (resources : ResourcePolicy) : String :=
  String.ofList (Json.obj (resourcePolicyEntries resources)).write

def batteryPolicyLabel (allowOnBattery : Bool) : String :=
  String.ofList (Json.obj [("allowOnBattery", .bool allowOnBattery)]).write

/-- The name of the node: a display name that repeats the host gives way to the discovered one. -/
def desiredName (record : ComputerRecord) : String :=
  if Text.trim record.displayName = Text.trim record.endpoint.host then
    (record.inventory.map DiscoveredComputer.hostname).getD record.displayName
  else record.displayName

def desiredCapacity (configuration : ComputerConfiguration) (current : CapacityPolicy) : CapacityPolicy :=
  { current with
    maxConcurrentJobs := (configuration.resources.maximumParallelJobs.map UInt32.ofNat).getD 1
    allocatableCpuPercent := configuration.resources.cpuLimitPercent.map UInt8.ofNat
    memoryLimitMib := configuration.resources.memoryLimitBytes.map fun bytes => UInt64.ofNat (bytes / 1048576)
    allowedJobKinds := configuration.allowedJobKinds.image protocolJobKind
    allowOnBattery := configuration.allowOnBattery }

def desiredLabels (configuration : ComputerConfiguration) (current : OrdMap String String) : OrdMap String String :=
  ((current.insert PolicyLabel.allowedJobKinds (allowedJobKindsLabel configuration.allowedJobKinds)).insert
    PolicyLabel.resource (resourcePolicyLabel configuration.resources)).insert
    PolicyLabel.battery (batteryPolicyLabel configuration.allowOnBattery)

def desiredConfig (record : ComputerRecord) (current : NodeConfig) : NodeConfig where
  name := desiredName record
  enabled := true
  priority := Int32.ofInt record.configuration.priority
  labels := desiredLabels record.configuration current.labels
  desiredState := current.desiredState
  capacity := desiredCapacity record.configuration current.capacity

def desiredNodeConfig (record : ComputerRecord) (current : NodeConfig) : Except ControllerBoundaryFailure NodeConfig := do
  (desiredConfig record current).validate.mapError fun _ => ⟨"NODE_CONFIG_INVALID", false⟩
  return desiredConfig record current

/-! ### The verification job -/

structure SnapshotPayload where
  bytes : List UInt8
  digest : String

def windowsProof : String :=
  "$ErrorActionPreference = \"Stop\"\n" ++
  "$inputText = [System.IO.File]::ReadAllText((Join-Path (Get-Location) \"input.txt\"))\n" ++
  "if ($inputText.Trim() -ne \"ClusterYourCodex full run check\") \x7b throw \"snapshot input mismatch\" \x7d\n" ++
  "[Console]::Out.WriteLine($inputText.Trim())\n" ++
  "[Console]::Out.WriteLine(\"CYC_FULL_RUN_EXECUTED\")\n" ++
  "[Console]::Error.WriteLine(\"CYC_FULL_RUN_STDERR\")\n" ++
  "[System.IO.File]::WriteAllBytes((Join-Path (Get-Location) \"full-run-proof.txt\"), " ++
  "[System.Text.Encoding]::UTF8.GetBytes(\"CYC_FULL_RUN_OK`n\"))"

def posixProof : String :=
  "set -euo pipefail\n" ++
  "input_text=\"$(cat input.txt)\"\n" ++
  "test \"$input_text\" = \"ClusterYourCodex full run check\"\n" ++
  "printf '%s\\n' \"$input_text\"\n" ++
  "printf 'CYC_FULL_RUN_EXECUTED\\n'\n" ++
  "printf 'CYC_FULL_RUN_STDERR\\n' >&2\n" ++
  "printf 'CYC_FULL_RUN_OK\\n' > full-run-proof.txt"

def proofStep (os : OperatingSystem) : JobStep where
  name := "full-run-proof"
  shell := some (match os with
    | .windows => .powershell
    | .linux => .bash
    | .macos => .zsh)
  script := match os with
    | .windows => windowsProof
    | .linux | .macos => posixProof
  workingDirectory := none
  timeoutSeconds := some 30

/-- The job before it is validated; `id` is the fresh identifier of the constructor. -/
def proofJob (id : Uuid) (os : OperatingSystem) (arch : Architecture) (snapshot : SnapshotPayload) : JobSpec where
  apiVersion := CYC.apiVersion
  id := id
  origin := none
  kind := .test
  source := .snapshot snapshot.digest (some (UInt64.ofNat snapshot.bytes.length))
  requirements := { os := some os, arch := some arch, capabilities := .empty, minCpuCores := some 1,
                    minMemoryMib := some 64, minDiskMib := some 16, gpu := none }
  resourceRequest := none
  steps := [proofStep os]
  artifacts := { includes := ["full-run-proof.txt"], excludes := [".git/**"], retentionDays := some 1 }
  timeoutSeconds := some 60
  placementPolicy := .performance
  preferredNodeId := none

def buildJob (id : Uuid) (os : OperatingSystem) (arch : Architecture) (snapshot : SnapshotPayload) : Except Unit JobSpec := do
  (proofJob id os arch snapshot).validate.mapError fun _ => ()
  return proofJob id os arch snapshot

def buildBoundSmokeJob (fresh nodeId : Uuid) (os : OperatingSystem) (arch : Architecture) (jobId : Uuid)
    (snapshot : SnapshotPayload) : Except Unit JobSpec := do
  ensure (!(nodeId.isNil || jobId.isNil)) ()
  let job ← buildJob fresh os arch snapshot
  let job := { job with id := jobId, placementPolicy := .manual, preferredNodeId := some nodeId }
  job.validate.mapError fun _ => ()
  return job

end CYC.Provision
