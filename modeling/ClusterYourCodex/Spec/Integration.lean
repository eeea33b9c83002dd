import ClusterYourCodex.Lib.Text

/-! Installing or repairing the Codex plugin from the desktop (`apps/desktop`, `integration.rs`): the switch of
the registered marketplace, the steps after it, and the rollbacks. The Codex command line is known by what each
marketplace command answers and whether it took effect; the steps that do not touch the marketplace are known by
their answers alone. -/

namespace CYC.Integration

abbrev FilePath := List Char

inductive RollbackStage where
  | removeReplacement
  | restorePreviousMarketplace
  | restorePreviousPlugin
  deriving DecidableEq

inductive StateRollbackFailure where
  | backupRestoreFailed
  | recoveryRestoreFailed
  | unsafeRecoveryCandidate
  | ambiguousRecoveryCandidates
  deriving DecidableEq

inductive IntegrationError where
  | dataUnavailable
  | operationUnavailable
  | codexNotFound
  | codexInvocationFailed
  | codexOutputInvalid
  | payloadUnavailable
  | marketplaceInstallFailed
  | pluginInstallFailed
  | agentsIntegrationFailed
  | statePersistenceFailed
  | marketplaceRepairRequired (primary : IntegrationError) (stage : RollbackStage) (cause : IntegrationError)
  | stateRepairRequired (primary : IntegrationError) (rollback : StateRollbackFailure)
  | mcpStartFailed
  | mcpSelfTestFailed
  deriving DecidableEq

/-- The two forms of `RepairRequired`. -/
def IntegrationError.repairRequired : IntegrationError → Bool
  | .marketplaceRepairRequired .. => true
  | .stateRepairRequired .. => true
  | _ => false

/-! ### Paths -/

/-- What the disk says about paths while the call runs. -/
structure Disk where
  windows : Bool
  isAbsolute : FilePath → Bool
  canonicalize : FilePath → Option FilePath
  validPayloadRoot : FilePath → Bool
  /-- A canonical path is its own canonical path. -/
  canonical : ∀ p q, canonicalize p = some q → canonicalize q = some q

def samePath (disk : Disk) (left right : FilePath) : Bool :=
  let left := (disk.canonicalize left).getD left
  let right := (disk.canonicalize right).getD right
  if disk.windows then left.map Text.toAsciiLower = right.map Text.toAsciiLower else left = right

def validateOwnedMarketplaceRoot (disk : Disk) (root : FilePath) : Option FilePath :=
  if !disk.isAbsolute root then none
  else match disk.canonicalize root with
    | none => none
    | some canonical => if disk.validPayloadRoot canonical then some canonical else none

/-! ### Marketplace commands -/

/-- How a command ends: it succeeds, it exits with a failure, or it cannot be run to its end. A command that
fails may have taken effect. -/
inductive Outcome where
  | success
  | refused (effect : Bool)
  | broken (effect : Bool)
  deriving DecidableEq

def Outcome.effect : Outcome → Bool
  | .success => true
  | .refused effect => effect
  | .broken effect => effect

def Outcome.answer : Outcome → Except IntegrationError Bool
  | .success => .ok true
  | .refused _ => .ok false
  | .broken _ => .error .codexInvocationFailed

/-- The registered marketplace and the number of marketplace commands run. -/
structure Cli where
  registered : Option FilePath
  issued : Nat := 0
  deriving DecidableEq

abbrev Outcomes := Nat → Outcome

def command (o : Outcomes) (after : Option FilePath) (s : Cli) : Except IntegrationError Bool × Cli :=
  ((o s.issued).answer, { registered := if (o s.issued).effect then after else s.registered, issued := s.issued + 1 })

def removeOwned (o : Outcomes) (s : Cli) : Except IntegrationError Bool × Cli := command o none s

def addLocal (o : Outcomes) (root : FilePath) (s : Cli) : Except IntegrationError Bool × Cli := command o (some root) s

/-! ### The switch and its rollback -/

structure MarketplaceSwitch where
  changed : Bool
  previousOwnedRoot : Option FilePath

abbrev RollbackError := RollbackStage × IntegrationError

def restoreMarketplace (o : Outcomes) (switch : MarketplaceSwitch) (s : Cli) : Except RollbackError Unit × Cli :=
  if !switch.changed then (.ok (), s)
  else match removeOwned o s with
    | (.error cause, s) => (.error (.removeReplacement, cause), s)
    | (.ok false, s) => (.error (.removeReplacement, .marketplaceInstallFailed), s)
    | (.ok true, s) => match switch.previousOwnedRoot with
      | none => (.ok (), s)
      | some previous => match addLocal o previous s with
        | (.error cause, s) => (.error (.restorePreviousMarketplace, cause), s)
        | (.ok false, s) => (.error (.restorePreviousMarketplace, .marketplaceInstallFailed), s)
        | (.ok true, s) => (.ok (), s)

def finishMarketplaceFailure (o : Outcomes) (primary : IntegrationError) (switch : MarketplaceSwitch) (s : Cli) :
    IntegrationError × Cli :=
  match restoreMarketplace o switch s with
  | (.ok (), s) => (primary, s)
  | (.error (stage, cause), s) => (.marketplaceRepairRequired primary stage cause, s)

/-- The part of the switch after the previous marketplace is out of the way. -/
def addDesired (o : Outcomes) (desired : FilePath) (switch : MarketplaceSwitch) (s : Cli) :
    Except IntegrationError MarketplaceSwitch × Cli :=
  match addLocal o desired s with
  | (.ok true, s) => (.ok switch, s)
  | (.ok false, s) =>
    let (e, s) := finishMarketplaceFailure o .marketplaceInstallFailed switch s
    (.error e, s)
  | (.error e, s) =>
    let (e, s) := finishMarketplaceFailure o e switch s
    (.error e, s)

def switchMarketplace (disk : Disk) (o : Outcomes) (current : Option FilePath) (desired : FilePath) (s : Cli) :
    Except IntegrationError MarketplaceSwitch × Cli :=
  match current with
  | none => addDesired o desired { changed := true, previousOwnedRoot := none } s
  | some root =>
    if samePath disk root desired then (.ok { changed := false, previousOwnedRoot := none }, s)
    else
      let switch : MarketplaceSwitch := { changed := true, previousOwnedRoot := validateOwnedMarketplaceRoot disk root }
      match removeOwned o s with
      | (.error e, s) => (.error e, s)
      | (.ok false, s) => (.error .marketplaceInstallFailed, s)
      | (.ok true, s) => addDesired o desired switch s

/-- How `plugin add` ends; it leaves the marketplace alone. -/
abbrev PluginAnswer := Except IntegrationError Bool

def restorePluginAfterFailure (o : Outcomes) (pluginAdd : PluginAnswer) (switch : MarketplaceSwitch) (s : Cli) :
    Except RollbackError Unit × Cli :=
  match restoreMarketplace o switch s with
  | (.error rollback, s) => (.error rollback, s)
  | (.ok (), s) =>
    if switch.previousOwnedRoot.isSome then
      match pluginAdd with
      | .error cause => (.error (.restorePreviousPlugin, cause), s)
      | .ok false => (.error (.restorePreviousPlugin, .pluginInstallFailed), s)
      | .ok true => (.ok (), s)
    else (.ok (), s)

def finishPluginFailure (o : Outcomes) (pluginAdd : PluginAnswer) (primary : IntegrationError) (switch : MarketplaceSwitch)
    (s : Cli) : IntegrationError × Cli :=
  match restorePluginAfterFailure o pluginAdd switch s with
  | (.ok (), s) => (primary, s)
  | (.error (stage, cause), s) => (.marketplaceRepairRequired primary stage cause, s)

/-! ### Installing -/

structure Payload where
  marketplaceRoot : FilePath
  pluginRoot : FilePath
  desiredVersion : String

structure PluginRegistration where
  version : String
  enabled : Bool
  sourcePath : FilePath

/-- The digests of an installation that are compared. -/
structure VerifiedInstall where
  buildCatalogSha256 : String
  payloadCatalogSha256 : String
  deriving DecidableEq

inductive CodexOnlyStatus where
  | installed
  | repaired
  | unchanged
  deriving DecidableEq

inductive IntegrationState where
  | notFound
  | notInstalled
  | installed
  | restartRequired
  | connected
  | stale
  | broken
  | versionMismatch
  deriving DecidableEq

/-- What the steps answer that do not touch the marketplace, in the order in which they run. -/
structure Answers where
  payloadAtFirst : Except IntegrationError (Payload × VerifiedInstall)
  payload : Except IntegrationError (Payload × VerifiedInstall)
  cli : Except IntegrationError Bool
  /-- An error of the marketplace listing; without one it shows what is registered. -/
  listing : Except IntegrationError Unit
  existingRegistration : Except IntegrationError (Option PluginRegistration)
  validInstalledPlugin : PluginRegistration → Bool
  receiptState : IntegrationState
  pluginAdd : PluginAnswer
  registration : Except IntegrationError (Option PluginRegistration)
  currentInstall : Except IntegrationError VerifiedInstall
  globalAgents : Except IntegrationError CodexOnlyStatus
  nowMs : Except IntegrationError Nat
  writeRestartReceipt : Nat → Except IntegrationError Unit
  status : Except IntegrationError IntegrationState
  pluginAddAtRollback : PluginAnswer

structure IntegrationActionResult where
  changed : Bool
  restartRequired : Bool
  steps : List (String × String)
  status : IntegrationState

def integrationActionFlags (runtimeBuildChanged : Bool) (agents : CodexOnlyStatus) (state : IntegrationState)
    (runtimeWasConnected : Bool) : Bool × Bool :=
  (runtimeBuildChanged || agents ≠ .unchanged,
    state = .restartRequired || (runtimeBuildChanged && !runtimeWasConnected))

def cliStep : String × String := ("codex_cli", "Codex CLI detected")

/-- A native installation is enough where there is no payload to repair it from. -/
def useNativePlugin (a : Answers) : Except IntegrationError IntegrationActionResult := do
  let found ← a.cli
  if !found then throw .codexNotFound
  let registration ← a.existingRegistration
  match registration with
  | none => throw .payloadUnavailable
  | some registration =>
    if registration.enabled && a.validInstalledPlugin registration then
      let status ← a.status
      return {
        changed := false
        restartRequired := status = .restartRequired || status = .stale
        steps := [cliStep, ("plugin", "Native ClusterYourCodex plugin is installed and enabled"),
          ("native_source", "Installed native plugin source and MCP runtime are valid")]
        status }
    else throw .payloadUnavailable

/-- What the switch needs to know. -/
structure Prepared where
  payload : Payload
  install : VerifiedInstall
  pluginAlreadyExact : Bool

def matchesPayload (disk : Disk) (a : Answers) (payload : Payload) (registration : PluginRegistration) : Bool :=
  registration.enabled && registration.version = payload.desiredVersion &&
    samePath disk registration.sourcePath payload.pluginRoot && a.validInstalledPlugin registration

/-- The steps before the switch. -/
def prepare (disk : Disk) (a : Answers) (registered : Option FilePath) : Except IntegrationError Prepared := do
  let (payload, install) ← a.payload
  let found ← a.cli
  if !found then throw .codexNotFound
  a.listing
  let existing ← a.existingRegistration
  let pluginAlreadyExact := registered.any (fun root => samePath disk root payload.marketplaceRoot) &&
    existing.any (matchesPayload disk a payload)
  return { payload, install, pluginAlreadyExact }

/-- The steps after the switch that are answered by a rollback when they fail. -/
def installPlugin (disk : Disk) (a : Answers) (p : Prepared) : Except IntegrationError CodexOnlyStatus := do
  if !p.pluginAlreadyExact then
    let added ← a.pluginAdd
    if !added then throw .pluginInstallFailed
  match a.registration with
  | .error _ => throw .pluginInstallFailed
  | .ok none => throw .pluginInstallFailed
  | .ok (some registration) =>
    if !matchesPayload disk a p.payload registration then throw .pluginInstallFailed
    let current ← a.currentInstall
    if current ≠ p.install then throw .payloadUnavailable
    a.globalAgents

/-- The steps at the end. -/
def finish (a : Answers) (p : Prepared) (changed : Bool) (agents : CodexOnlyStatus) :
    Except IntegrationError IntegrationActionResult := do
  let runtimeWasConnected := p.pluginAlreadyExact && a.receiptState = .connected
  let runtimeBuildChanged := changed || !p.pluginAlreadyExact
  if runtimeBuildChanged then
    let now ← a.nowMs
    a.writeRestartReceipt now
  let status ← a.status
  let (stateChanged, restartRequired) := integrationActionFlags runtimeBuildChanged agents status runtimeWasConnected
  return {
    changed := stateChanged
    restartRequired
    steps := [cliStep, ("marketplace", "Local ClusterYourCodex marketplace registered"),
      ("plugin", "ClusterYourCodex plugin installed and enabled"),
      ("global_agents", "Global AGENTS.md cluster routing installed")]
    status }

/-- The steps after the switch. -/
def afterSwitch (disk : Disk) (o : Outcomes) (a : Answers) (p : Prepared) :
    Except IntegrationError MarketplaceSwitch × Cli → Except IntegrationError IntegrationActionResult × Cli
  | (.error e, s) => (.error e, s)
  | (.ok switch, s) => match installPlugin disk a p with
    | .error primary =>
      let (e, s) := finishPluginFailure o a.pluginAddAtRollback primary switch s
      (.error e, s)
    | .ok agents => (finish a p switch.changed agents, s)

def installOrRepair (disk : Disk) (o : Outcomes) (a : Answers) (s : Cli) :
    Except IntegrationError IntegrationActionResult × Cli :=
  match a.payloadAtFirst with
  | .error .payloadUnavailable => (useNativePlugin a, s)
  | _ => match prepare disk a s.registered with
    | .error e => (.error e, s)
    | .ok p => afterSwitch disk o a p (switchMarketplace disk o s.registered p.payload.marketplaceRoot s)

end CYC.Integration
