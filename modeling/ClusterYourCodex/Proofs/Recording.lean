import ClusterYourCodex.Provision.Changes

/-! Which driver failures the engine can record. A failure is saved on the record at its checkpoint, and
the credential that it casts doubt on is dropped with the same save; the save is refused when the
checkpoint already requires a credential, or when the computer was ready with its credential forgotten. -/

namespace CYC.Provision

open Checked

variable {paths : PathRules} {j : Journal} {r : ComputerRecord} {id : Uuid} {revision : Nat} {savedAt : DateTime}
  {driver : Driver} {f : DriverFailure}

/-- The failure that an action, a rollback or a removal ended in. -/
def DriverCall.failure : DriverCall → Option DriverFailure
  | .execute _ (.error failure) => some failure
  | .rollback _ (.error failure) => some failure
  | .remove _ (.error failure) => some failure
  | _ => none

/-- The drive reports the failure, or waits for a credential. -/
def Recorded (result : Except ProvisioningError (Journal × DriveOutcome)) : Prop :=
  ∃ j' r', result = .ok (j', .failed r') ∨ result = .ok (j', .awaitingCredential r')

/-- The record can carry the failure: a credential is only dropped before the checkpoint that requires
one, a forgotten credential never meets another failure, and there is a next revision. -/
def recordable (r : ComputerRecord) (failure : DriverFailure) : Bool :=
  if failure.isCredentialRequired then
    r.credentialPolicy.state ≠ .stored || (!r.reached .credentialStored && (r.revision : Int) < i64Max)
  else
    (if failure.rejectsCredential then !r.reached .credentialStored else r.credentialPolicy.state ≠ .forgotten) &&
      (r.revision : Int) < i64Max

/-! ### Validity of the saved record -/

structure Valid (paths : PathRules) (r : ComputerRecord) : Prop where
  identity : r.validateIdentity paths = .ok ()
  authentication : r.validateAuthentication = .ok ()
  timestamps : r.validateTimestamps = .ok ()
  hostKey : checkSome r.hostKey PinnedHostKeyRecord.validate = .ok ()
  inventory : checkSome r.inventory DiscoveredComputer.validate = .ok ()
  configuration : r.configuration.validate = .ok ()
  teardown : r.validateTeardown = .ok ()
  credentialReference : r.validateCredentialReference = .ok ()
  checkpoints : r.validateCheckpoints = .ok ()
  intent : r.validateIntent = .ok ()

theorem validate_eq_ok : r.validate paths = .ok () ↔ Valid paths r := by
  simp only [ComputerRecord.validate, seq_eq_ok]
  constructor
  all_goals
    rintro ⟨h₁, h₂, h₃, h₄, h₅, h₆, h₇, h₈, h₉, h₁₀⟩
    exact ⟨h₁, h₂, h₃, h₄, h₅, h₆, h₇, h₈, h₉, h₁₀⟩

theorem le_monotonicNow (now previous : DateTime) : previous.nanos ≤ (monotonicNow now previous).nanos := by
  unfold monotonicNow
  split
  · exact le_of_lt ‹_›
  · show previous.nanos ≤ previous.nanos + 1000
    omega

/-- The record with another state, intent and credential. -/
def recredentialed (r : ComputerRecord) (state : ProvisioningState) (intent : ProvisioningIntent)
    (credential : CredentialState) (reference : Option CredentialReference) : ComputerRecord :=
  { r with
    state := state
    intent := intent
    credentialPolicy := { r.credentialPolicy with state := credential }
    credentialReference := reference }

section Recredentialed

variable {state : ProvisioningState} {intent : ProvisioningIntent} {credential : CredentialState}
  {reference : Option CredentialReference}

theorem Valid.stamped_identity (h : Valid paths r) :
    (stamped savedAt r (recredentialed r state intent credential reference)).validateIdentity paths = .ok () := by
  have hidentity := h.identity
  simp only [ComputerRecord.validateIdentity, seq_eq_ok, ensure_eq_ok] at hidentity ⊢
  obtain ⟨hversion, hids, htexts⟩ := hidentity
  refine ⟨hversion, ?_, htexts⟩
  simp only [Bool.not_eq_true', Bool.or_eq_false_iff] at hids ⊢
  exact ⟨hids.1, decide_eq_false (Nat.succ_ne_zero r.revision)⟩

theorem Valid.stamped_timestamps (h : Valid paths r) :
    (stamped savedAt r (recredentialed r state intent credential reference)).validateTimestamps = .ok () := by
  have htimestamps := h.timestamps
  simp only [ComputerRecord.validateTimestamps, seq_eq_ok, ensure_eq_ok] at htimestamps ⊢
  exact ⟨decide_eq_true ((of_decide_eq_true htimestamps.1).trans (le_monotonicNow savedAt r.updatedAt)), htimestamps.2⟩

theorem reached_recredentialed (hstep : state.activeStep = r.step) (checkpoint : ProvisioningStep) :
    (stamped savedAt r (recredentialed r state intent credential reference)).reached checkpoint = r.reached checkpoint :=
  congrArg (ProvisioningStep.isAtLeast · checkpoint) hstep

theorem validateSmokeCheckpoint_recredentialed (hstep : state.activeStep = r.step) :
    (stamped savedAt r (recredentialed r state intent credential reference)).validateSmokeCheckpoint =
      r.validateSmokeCheckpoint := by
  have hstep' : (stamped savedAt r (recredentialed r state intent credential reference)).step = r.step := hstep
  unfold ComputerRecord.validateSmokeCheckpoint ComputerRecord.validateBoundSmoke
  rw [reached_recredentialed hstep, hstep']
  rfl

/-- Evidence aside, the checkpoint of a valid record asks two things of a new credential. -/
theorem Valid.checkpoints_iff (h : Valid paths r) (hstep : state.activeStep = r.step) :
    (stamped savedAt r (recredentialed r state intent credential reference)).validateCheckpoints = .ok () ↔
      (r.reached .credentialStored = true → credential ≠ .pending) ∧ (credential = .forgotten → state = .ready) := by
  have hcheckpoints := h.checkpoints
  simp only [ComputerRecord.validateCheckpoints, seq_eq_ok, ensure_eq_ok] at hcheckpoints ⊢
  obtain ⟨hkey, happroved, hdiscovery, -, hpairing, hpaired, hheartbeat, hsmoke, hcompleted⟩ := hcheckpoints
  simp only [reached_recredentialed hstep, validateSmokeCheckpoint_recredentialed hstep]
  have hnew : (stamped savedAt r (recredentialed r state intent credential reference)).validateDiscovery = .ok () ↔
      (r.reached .credentialStored = true → credential ≠ .pending) := by
    unfold ComputerRecord.validateDiscovery at hdiscovery ⊢
    rw [reached_recredentialed hstep]
    cases hreached : r.reached .credentialStored with
    | false => simp
    | true =>
      rw [hreached, if_pos rfl, seq_eq_ok, ensure_eq_ok] at hdiscovery
      rw [if_pos rfl, seq_eq_ok, ensure_eq_ok, ensure_eq_ok]
      constructor
      · rintro ⟨-, hcredential⟩ - rfl
        cases hcredential
      · intro hcredential
        refine ⟨hdiscovery.1, ?_⟩
        cases credential with
        | pending => exact absurd rfl (hcredential rfl)
        | stored | sessionOnly | forgotten => rfl
  rw [hnew]
  constructor
  · rintro ⟨-, -, hcredential, hforgotten, -⟩
    refine ⟨hcredential, fun heq => ?_⟩
    have hnot : (!(decide (credential = .forgotten) && decide (state ≠ .ready))) = true := hforgotten
    simpa [heq] using hnot
  · rintro ⟨hcredential, hforgotten⟩
    refine ⟨hkey, happroved, hcredential, ?_, hpairing, hpaired, hheartbeat, hsmoke, hcompleted⟩
    show (!(decide (credential = .forgotten) && decide (state ≠ .ready))) = true
    simpa [Classical.or_iff_not_imp_left] using hforgotten

/-- A credential with a reference is a stored one, and only password authentication stores it. -/
structure CredentialFits (r : ComputerRecord) (credential : CredentialState) (reference : Option CredentialReference) : Prop
    where
  stored : credential = .stored ↔ reference.isSome = true
  password : credential = .stored → r.sshAuthentication.method = .password

/-- A valid record with another state at its step, another intent and a fitting credential is valid
exactly when the credential suits the checkpoint. -/
theorem Valid.stamped_iff (h : Valid paths r) (hstep : state.activeStep = r.step) (hfits : CredentialFits r credential reference)
    (hteardown : r.teardownCompleted = true → intent = .rollback ∨ intent = .remove)
    (hintent : (stamped savedAt r (recredentialed r state intent credential reference)).validateIntent = .ok ()) :
    (stamped savedAt r (recredentialed r state intent credential reference)).validate paths = .ok () ↔
      (r.reached .credentialStored = true → credential ≠ .pending) ∧ (credential = .forgotten → state = .ready) := by
  have hiff : (stamped savedAt r (recredentialed r state intent credential reference)).validateCheckpoints = .ok () ↔ _ :=
    h.checkpoints_iff hstep
  rw [validate_eq_ok, ← hiff]
  refine ⟨Valid.checkpoints, fun hcheckpoints => ?_⟩
  refine ⟨h.stamped_identity, ?_, h.stamped_timestamps, h.hostKey, h.inventory, h.configuration, ?_, ?_, hcheckpoints, hintent⟩
  · have hauthentication := h.authentication
    simp only [ComputerRecord.validateAuthentication, ensure_eq_ok] at hauthentication ⊢
    show (!(decide (r.sshAuthentication.method ≠ .password) && (r.credentialPolicy.rememberRequested || reference.isSome ||
      decide (credential = .stored)))) = true
    by_cases hmethod : r.sshAuthentication.method = .password
    · simp [hmethod]
    · have hnot : credential ≠ .stored := fun heq => hmethod (hfits.password heq)
      have hnone : reference.isSome = false := eq_false_of_ne_true fun hsome => hnot (hfits.stored.2 hsome)
      simp only [ne_eq, hmethod, not_false_eq_true, decide_true, Bool.true_and] at hauthentication
      simp only [Bool.not_eq_true', Bool.or_eq_false_iff] at hauthentication
      simp [hauthentication.1.1, hnone, hnot]
  · simp only [ComputerRecord.validateTeardown, ensure_eq_ok]
    show (!(r.teardownCompleted && !(decide (intent = .rollback) || decide (intent = .remove)))) = true
    cases hcompleted : r.teardownCompleted with
    | false => rfl
    | true => rcases hteardown hcompleted with rfl | rfl <;> rfl
  · have hstored := hfits.stored
    show ComputerRecord.validateCredentialReference (recredentialed r state intent credential reference) = .ok ()
    unfold ComputerRecord.validateCredentialReference
    cases credential with
    | stored => exact ensure_eq_ok.2 (hstored.1 rfl)
    | pending | sessionOnly | forgotten =>
      refine ensure_eq_ok.2 (Option.isNone_iff_eq_none.2 ?_)
      show reference = none
      cases reference with
      | none => rfl
      | some _ => cases hstored.2 rfl

end Recredentialed

/-! ### The two saves -/

theorem Valid.credentialFits (h : Valid paths r) : CredentialFits r r.credentialPolicy.state r.credentialReference := by
  have hreference := h.credentialReference
  have hauthentication := h.authentication
  simp only [ComputerRecord.validateAuthentication, ensure_eq_ok] at hauthentication
  unfold ComputerRecord.validateCredentialReference at hreference
  refine ⟨?_, fun hstored => ?_⟩
  · cases hstate : r.credentialPolicy.state with
    | stored =>
      rw [hstate] at hreference
      exact ⟨fun _ => ensure_eq_ok.1 hreference, fun _ => rfl⟩
    | pending | sessionOnly | forgotten =>
      rw [hstate] at hreference
      rw [Option.isNone_iff_eq_none.1 (ensure_eq_ok.1 hreference)]
      constructor <;> rintro ⟨⟩
  · by_contra hmethod
    simp [hmethod, hstored] at hauthentication

theorem Valid.teardown_intent (h : Valid paths r) (hcompleted : r.teardownCompleted = true) :
    r.intent = .rollback ∨ r.intent = .remove := by
  have hteardown := h.teardown
  simp only [ComputerRecord.validateTeardown, ensure_eq_ok, hcompleted] at hteardown
  simpa using hteardown

theorem validateIntent_continuing (h : r.intent = .continuing) : r.validateIntent = .ok () := by
  unfold ComputerRecord.validateIntent
  rw [h]
  cases r.state with
  | failed _ _ retryable => cases retryable <;> rfl
  | _ => rfl

/-- The save that drops a missing credential is valid before the checkpoint that requires one. -/
theorem Valid.dropped_iff (h : Valid paths r) :
    (stamped savedAt r (credentialDropped r)).validate paths = .ok () ↔ r.reached .credentialStored = false := by
  have hfits : CredentialFits r .pending none := ⟨⟨nofun, nofun⟩, nofun⟩
  have hiff : (stamped savedAt r (credentialDropped r)).validate paths = .ok () ↔ _ :=
    h.stamped_iff (rfl : r.state.activeStep = r.step) hfits h.teardown_intent h.intent
  rw [hiff]
  simp

/-- So is the save of a refused credential; any other failure is saved unless the credential was forgotten. -/
theorem Valid.failed_iff (h : Valid paths r) (hteardown : r.teardownCompleted = false) (f : DriverFailure) :
    (stamped savedAt r (failedRecord r f)).validate paths = .ok () ↔
      if f.rejectsCredential then r.reached .credentialStored = false else r.credentialPolicy.state ≠ .forgotten := by
  have hopen {intent : ProvisioningIntent} (hcompleted : r.teardownCompleted = true) :
      intent = .rollback ∨ intent = .remove := by
    rw [hteardown] at hcompleted
    cases hcompleted
  unfold failedRecord
  cases f.rejectsCredential with
  | true =>
    have hfits : CredentialFits r .pending none := ⟨⟨nofun, nofun⟩, nofun⟩
    have hiff : (stamped savedAt r (recredentialed r (.failed r.step f.code f.retryable) .continuing .pending none)).validate
        paths = .ok () ↔ _ := h.stamped_iff rfl hfits hopen (validateIntent_continuing rfl)
    refine hiff.trans ?_
    simp
  | false =>
    have hiff : (stamped savedAt r (recredentialed r (.failed r.step f.code f.retryable) .continuing
        r.credentialPolicy.state r.credentialReference)).validate paths = .ok () ↔ _ :=
      h.stamped_iff rfl h.credentialFits hopen (validateIntent_continuing rfl)
    refine hiff.trans ?_
    have hsame : (stamped savedAt r (recredentialed r r.state r.intent r.credentialPolicy.state
        r.credentialReference)).validateCheckpoints = .ok () := h.checkpoints
    have hcredential := ((h.checkpoints_iff rfl).1 hsame).1
    simpa using fun _ => hcredential

/-! ### Drives that fail -/

/-- A save that reports a failure succeeds exactly when the stamped record is valid and has a revision. -/
theorem recorded_saveAs {outcome : ComputerRecord → DriveOutcome} {r' : ComputerRecord}
    (houtcome : outcome = .failed ∨ outcome = .awaitingCredential) (hget : j.get paths r.id = .ok r)
    (hsame : SameIdentity r r') :
    Recorded (saveAs paths j r.revision savedAt outcome r') ↔
      (stamped savedAt r r').validate paths = .ok () ∧ (r.revision : Int) < i64Max := by
  constructor
  · intro hrecorded
    obtain ⟨x, hx⟩ : ∃ x, saveAs paths j r.revision savedAt outcome r' = .ok x := by
      obtain ⟨j', r'', h | h⟩ := hrecorded
      · exact ⟨_, h⟩
      · exact ⟨_, h⟩
    obtain ⟨saved, hsave, -⟩ := saveAs_eq_ok hx
    obtain ⟨hvalid, hsmall, -⟩ := (saveCas_eq_ok hget hsame).1 (mapError_eq_ok.1 hsave)
    exact ⟨hvalid, hsmall⟩
  · rintro ⟨hvalid, hsmall⟩
    have hsave := (saveCas_eq_ok hget hsame).2 ⟨hvalid, hsmall, rfl, rfl⟩
    have hresult : saveAs paths j r.revision savedAt outcome r' =
        .ok (j.put (stamped savedAt r r') (stamped savedAt r r').revision r.revision, outcome (stamped savedAt r r')) := by
      unfold saveAs save
      rw [hsave]
      rfl
    rw [hresult]
    rcases houtcome with rfl | rfl
    · exact ⟨_, _, .inl rfl⟩
    · exact ⟨_, _, .inr rfl⟩

theorem recorded_persistFailure (hget : j.get paths r.id = .ok r) (hteardown : r.teardownCompleted = false)
    (f : DriverFailure) : Recorded (persistFailure paths j r.revision savedAt r f) ↔ recordable r f = true := by
  have hvalid := validate_eq_ok.1 (get_eq_ok.1 hget).2
  unfold persistFailure recordable
  cases f.isCredentialRequired with
  | true =>
    rw [if_pos rfl, if_pos rfl]
    unfold persistCredentialRequired
    by_cases hstored : r.credentialPolicy.state = .stored
    · have hsame : SameIdentity r (credentialDropped r) := ⟨rfl, rfl, rfl, rfl⟩
      rw [if_pos hstored, recorded_saveAs (.inr rfl) hget hsame, hvalid.dropped_iff]
      simp [hstored]
    · rw [if_neg hstored]
      refine ⟨fun _ => ?_, fun _ => ⟨j, r, .inr rfl⟩⟩
      simp [hstored]
  | false =>
    rw [if_neg Bool.false_ne_true, if_neg Bool.false_ne_true]
    unfold persistDriverFailure
    rw [recorded_saveAs (.inl rfl) hget (failedRecord_sameIdentity f), hvalid.failed_iff hteardown]
    cases f.rejectsCredential <;> simp

/-- A drive whose driver call fails goes on to record the failure on the record it loaded. -/
theorem driveOnce_of_failure {call : DriverCall} (hcall : (driveOnce paths j id revision savedAt driver).call = some call)
    (hfailure : call.failure = some f) :
    ∃ r, loadExpected paths j id revision = .ok r ∧ call.request.computer = r ∧ r.teardownCompleted = false ∧
      (driveOnce paths j id revision savedAt driver).result = persistFailure paths j revision savedAt r f := by
  obtain ⟨r, hload, hmade⟩ := made_of_driveOnce hcall
  obtain ⟨hget, -, -⟩ := get_of_loadExpected hload
  have hvalid := validate_eq_ok.1 (get_eq_ok.1 hget).2
  refine ⟨r, hload, hmade.computer, ?_, ?_⟩
  · cases hmade with
    | execute _ hintent _ _ _ =>
      refine eq_false_of_ne_true fun hcompleted => ?_
      rcases hvalid.teardown_intent hcompleted with h | h <;> cases hintent.symm.trans h
    | rollback _ _ hopen | remove _ _ hopen => exact hopen
    | forgetCredential _ => cases hfailure
  · unfold driveOnce at hcall ⊢
    rw [hload] at hcall ⊢
    dsimp only at hcall ⊢
    cases hmade with
    | @execute action answer hintent hfailed happroved haction =>
      rw [hintent] at hcall ⊢
      dsimp only [driveContinue] at hcall ⊢
      split at hcall
      · cases hcall
      · rename_i hstate
        rw [if_neg hstate]
        split at hcall
        · cases hcall
        · rename_i hready
          rw [if_neg hready]
          split at hcall
          · cases hcall
          · rename_i hpending
            rw [if_neg hpending]
            unfold driveAction at hcall ⊢
            rw [haction] at hcall ⊢
            have hanswer := (DriverCall.execute.inj (Option.some.inj hcall)).2
            dsimp only at hanswer ⊢
            rw [hanswer]
            cases answer with
            | ok _ => cases hfailure
            | error f' =>
              cases hfailure
              rfl
    | rollback answer hintent hopen =>
      rw [hintent] at hcall ⊢
      dsimp only [driveRollback] at hcall ⊢
      rw [hopen] at hcall ⊢
      have hanswer := (DriverCall.rollback.inj (Option.some.inj hcall)).2
      simp only [hanswer]
      cases answer with
      | ok _ => cases hfailure
      | error f' =>
        cases hfailure
        rfl
    | remove answer hintent hopen =>
      rw [hintent] at hcall ⊢
      dsimp only [driveRemove] at hcall ⊢
      rw [hopen] at hcall ⊢
      have hanswer := (DriverCall.remove.inj (Option.some.inj hcall)).2
      simp only [hanswer]
      cases answer with
      | ok _ => cases hfailure
      | error f' =>
        cases hfailure
        rfl
    | forgetCredential _ => cases hfailure

theorem driver_failure_recorded_iff (paths : PathRules) (j : Journal) (id : Uuid) (revision : Nat) (savedAt : DateTime)
    (driver : Driver) (call : DriverCall) (failure : DriverFailure)
    (hcall : (driveOnce paths j id revision savedAt driver).call = some call) (hfailure : call.failure = some failure) :
    Recorded (driveOnce paths j id revision savedAt driver).result ↔ recordable call.request.computer failure = true := by
  obtain ⟨r, hload, hcomputer, hopen, hresult⟩ := driveOnce_of_failure hcall hfailure
  obtain ⟨hget, hrevision, -⟩ := get_of_loadExpected hload
  subst hrevision
  rw [hresult, hcomputer]
  exact recorded_persistFailure hget hopen failure

/-! ### A computer -/

def desktopPaths : PathRules := ⟨fun _ => true, fun _ => false⟩

def laptop : NewComputer where
  displayName := "laptop"
  endpoint := ⟨"10.0.0.7", 22, "builder"⟩
  sshAuthentication := .password
  rememberCredential := false
  configuration := .initial

def laptopKey : PinnedHostKeyRecord :=
  ⟨"ssh-ed25519", "AQIDBA", "SHA256:n2SnR+G5fxMfq7a0Rylsm28CAeefs8U1bmx36JtqgGo"⟩

def laptopInventory : DiscoveredComputer :=
  ⟨"laptop", "linux", "x86_64", "cpu", 8, 17179869184, 107374182400, [], []⟩

def laptopBinding : SmokeRunBinding where
  plan := {
    apiVersion := placementPlanBindingApiVersion
    planId := ⟨4⟩
    jobId := ⟨164468698151164586213945221744905087493⟩
    jobDigest := "aaaaaaaaaaaaaaaaaaaaaaaaaaaaaaaaaaaaaaaaaaaaaaaaaaaaaaaaaaaaaaaa"
    createdAt := .ofTimestamp 1013
    expiresAt := .ofTimestamp 1073
    fleetRevision := 1
    nodeRevision := 1
    policyRevision := 1
    decision := ⟨⟨2⟩, 1, ⟨.manual, some ⟨2⟩, [⟨⟨2⟩, "laptop", true, some 1, [⟨"base", 1, "base"⟩], []⟩]⟩⟩ }
  runId := ⟨5⟩

/-- The connection is lost. -/
def lostConnection : DriverFailure := ⟨⟨"SSH_CONNECTION_LOST", by decide⟩, true, .failure⟩

/-- Every action succeeds, and every teardown loses its connection. -/
def laptopDriver : Driver where
  execute request := match request.action with
    | .beginSsh => .ok .sshStarted
    | .probeHostKey => .ok (.hostKeyObserved laptopKey)
    | .authenticate => .ok .authenticatedSessionOnly
    | .beginDiscovery => .ok .discoveryStarted
    | .discoverAndStoreCredential => .ok (.discoveryCompletedSessionOnly laptopInventory)
    | .stageKit => .ok .kitStaged
    | .installWorker => .ok .workerInstalled
    | .issueEnrollment => .ok (.enrollmentIssued ⟨3⟩)
    | .applyEnrollment => .ok (.paired ⟨2⟩)
    | .enableService => .ok .serviceEnabled
    | .awaitHeartbeat => .ok (.heartbeatObserved (.ofTimestamp 1012))
    | .beginSmokeCheck => .ok (.smokeCheckPrepared laptopBinding)
    | .runSmokeCheck => .ok (.smokeCheckPassed (.ofTimestamp 1014))
    | .cleanupStaging => .ok .stagingCleaned
    | _ => .ok .pending
  rollback _ := .error lostConnection
  remove _ := .error lostConnection
  forgetCredential _ := .ok ()

def laptopCall (seconds : Int) (op : EngineOp) : EngineCall :=
  ⟨op, laptopDriver, .ofTimestamp seconds, .ofTimestamp seconds, false⟩

/-- The laptop is added and driven to the checkpoint after its discovery. -/
def discoveredCalls : List EngineCall :=
  [laptopCall 1000 (.create laptop true ⟨1⟩ ⟨2⟩), laptopCall 1001 (.driveOnce ⟨1⟩ 1), laptopCall 1002 (.driveOnce ⟨1⟩ 2),
    laptopCall 1003 (.approveHostKey ⟨1⟩ 3 laptopKey.fingerprint), laptopCall 1004 (.driveOnce ⟨1⟩ 4),
    laptopCall 1005 (.driveOnce ⟨1⟩ 5), laptopCall 1006 (.driveOnce ⟨1⟩ 6)]

def refusedCredential : DriverFailure := ⟨⟨"SSH_AUTH_REJECTED", by decide⟩, true, .failure⟩

/-- The SSH server refuses the credential whatever it is used for. -/
def refusingDriver : Driver := { laptopDriver with execute := fun _ => .error refusedCredential }

/-- A refusal on the first connection is recorded. -/
theorem driver_failure_recorded_draft :
    Recorded (driveOnce desktopPaths (Desk.after desktopPaths .initial [laptopCall 1000 (.create laptop true ⟨1⟩ ⟨2⟩)]).journal
      ⟨1⟩ 1 (.ofTimestamp 1001) refusingDriver).result := by
  refine (driver_failure_recorded_iff _ _ _ _ _ _ _ refusedCredential (Option.some_get ?_).symm ?_).2 ?_
  · decide +kernel
  · decide +kernel
  · decide +kernel

/-- A refusal while the kit is staged cannot be recorded, and the drive fails. -/
theorem refused_staging_unrecorded :
    (driveOnce desktopPaths (Desk.after desktopPaths .initial discoveredCalls).journal ⟨1⟩ 7 (.ofTimestamp 1007)
        refusingDriver).call.bind DriverCall.failure = some refusedCredential ∧
      ¬ Recorded (driveOnce desktopPaths (Desk.after desktopPaths .initial discoveredCalls).journal ⟨1⟩ 7
        (.ofTimestamp 1007) refusingDriver).result := by
  have herror : (driveOnce desktopPaths (Desk.after desktopPaths .initial discoveredCalls).journal ⟨1⟩ 7
      (.ofTimestamp 1007) refusingDriver).result = .error (.store (.validation .invalidCredentialState)) := by
    decide +kernel
  refine ⟨by decide +kernel, ?_⟩
  rw [herror]
  rintro ⟨_, _, h | h⟩
  · cases h
  · cases h

end CYC.Provision
