import ClusterYourCodex.Proofs.Recording

/-! What a ready computer stands on. A record is ready on the evidence of a smoke run and of the cleanup
after it, both found since the last rollback or removal was asked for; this holds as long as no teardown
is driven on a record that already carries a passed smoke run. A teardown of a ready computer keeps the
record's checkpoint, and a retry after it failed publishes the old evidence again. -/

namespace CYC.Provision

open Checked Relational History

variable {paths : PathRules} {s s' : Desk} {r r' : ComputerRecord} {id : Uuid} {log : List Event}

namespace Event

/-- A rollback or a removal of the computer was asked for. -/
def tearsDown (id : Uuid) : Event → Bool
  | .called (.rollback request _) => request.computer.id = id
  | .called (.remove request _) => request.computer.id = id
  | _ => false

/-- The smoke run of the binding passed. -/
def passesSmoke (id : Uuid) (cycle : Nat) (binding : SmokeRunBinding) : Event → Bool
  | .called (.execute request (.ok (.smokeCheckPassed _))) =>
    request.action = .runSmokeCheck && request.computer.id = id && request.computer.cycle = cycle &&
      request.computer.smokeRunBinding = some binding
  | _ => false

def cleansStaging (id : Uuid) : Event → Bool
  | .called (.execute request (.ok .stagingCleaned)) => request.action = .cleanupStaging && request.computer.id = id
  | _ => false

end Event

/-- Since the last teardown was asked for, the smoke run bound to the record has passed and the staging
tree has been removed. -/
def VerifiedSinceTeardown (log : List Event) (r : ComputerRecord) : Prop :=
  ∃ binding, r.smokeRunBinding = some binding ∧
    Since (Event.passesSmoke r.id r.cycle binding) (Event.tearsDown r.id) log ∧
    Since (Event.cleansStaging r.id) (Event.tearsDown r.id) log

def ReadyVerified (s : Desk) : Prop :=
  ∀ id r, s.journal.record id = some r → r.formatVersion = computerRecordFormatVersion →
    r.state = .ready → VerifiedSinceTeardown s.log r

/-- The call does not drive a teardown of a record that carries a passed smoke run. -/
def sparesVerified (paths : PathRules) (s : Desk) (call : EngineCall) : Bool :=
  match call.op with
  | .driveOnce id revision => match loadExpected paths s.journal id revision with
    | .ok r => !((r.intent = .rollback || r.intent = .remove) && !r.teardownCompleted &&
        r.formatVersion = computerRecordFormatVersion && r.smokeCheckCompletedAt.isSome)
    | .error _ => true
  | _ => true

/-! ### Evidence on a record -/

/-- What the evidence on a record stands for. -/
structure Attested (log : List Event) (r : ComputerRecord) : Prop where
  passed : r.formatVersion = computerRecordFormatVersion → r.smokeCheckCompletedAt.isSome = true →
    ∃ binding, r.smokeRunBinding = some binding ∧
      Since (Event.passesSmoke r.id r.cycle binding) (Event.tearsDown r.id) log
  cleaned : r.formatVersion = computerRecordFormatVersion → r.step = .ready →
    r.smokeCheckCompletedAt.isSome = true ∧ Since (Event.cleansStaging r.id) (Event.tearsDown r.id) log

/-- The record has no evidence that could be stale. -/
structure Unproven (r : ComputerRecord) : Prop where
  completed : r.smokeCheckCompletedAt = none
  step : r.step ≠ .ready

theorem Unproven.attested (h : r.formatVersion = computerRecordFormatVersion → Unproven r) : Attested log r where
  passed hversion hcompleted := by
    rw [(h hversion).completed] at hcompleted
    cases hcompleted
  cleaned hversion hready := absurd hready (h hversion).step

/-- The evidence is the same, and the record has not become ready. -/
structure SameEvidence (r r' : ComputerRecord) : Prop where
  id : r'.id = r.id
  cycle : r'.cycle = r.cycle
  binding : r'.smokeRunBinding = r.smokeRunBinding
  completed : r'.smokeCheckCompletedAt = r.smokeCheckCompletedAt
  version : r'.formatVersion = r.formatVersion
  ready : r'.step = .ready → r.step = .ready

theorem Attested.kept (h : Attested log r) (hsame : SameEvidence r r') : Attested log r' where
  passed := by
    rw [hsame.version, hsame.completed, hsame.binding, hsame.id, hsame.cycle]
    exact h.passed
  cleaned := by
    rw [hsame.version, hsame.completed, hsame.id]
    exact fun hversion hready => h.cleaned hversion (hsame.ready hready)

theorem Attested.append {events : List Event} (h : Attested log r) (hevents : ∀ e ∈ events, e.tearsDown r.id = false) :
    Attested (events ++ log) r where
  passed hversion hcompleted := by
    obtain ⟨binding, hbinding, hsince⟩ := h.passed hversion hcompleted
    exact ⟨binding, hbinding, hsince.append hevents⟩
  cleaned hversion hready := (h.cleaned hversion hready).imp_right fun hsince => hsince.append hevents

/-! ### One change -/

/-- What a change does to the evidence. -/
inductive Evidence (r : ComputerRecord) (call : Option DriverCall) (r' : ComputerRecord) : Prop
  | same (h : SameEvidence r r')
  | dropped (h : Unproven r')
  | passed {operation completedAt binding}
      (hcall : call = some (.execute (driverRequest r .runSmokeCheck operation) (.ok (.smokeCheckPassed completedAt))))
      (hbinding : r.smokeRunBinding = some binding)
      (h : r' = { r with smokeCheckCompletedAt := some completedAt, state := .smokeCheck })
  | cleaned {operation}
      (hcall : call = some (.execute (driverRequest r .cleanupStaging operation) (.ok .stagingCleaned)))
      (hcompleted : r.smokeCheckCompletedAt.isSome = true) (h : r' = { r with state := .ready })

theorem applyCompletion_evidence {action : ProvisioningAction} {completion : StepCompletion} {operation : String}
    (h : applyCompletion r action completion = .ok r') :
    Evidence r (some (.execute (driverRequest r action operation) (.ok completion))) r' := by
  unfold applyCompletion at h
  split at h
  case h_10 =>
    cases h
    refine .same ⟨rfl, rfl, rfl, rfl, rfl, fun hready => ?_⟩
    cases hrepair : isInPlaceRepair r <;> simp [ComputerRecord.step, hrepair, ProvisioningState.activeStep] at hready
  case h_16 =>
    simp only [bind_eq_ok, pure_eq_ok] at h
    obtain ⟨_, -, rfl⟩ := h
    exact .dropped ⟨rfl, by rintro ⟨⟩⟩
  case h_17 completedAt =>
    simp only [bind_eq_ok, pure_eq_ok, required_eq_ok] at h
    obtain ⟨binding, hbinding, _, -, _, -, rfl⟩ := h
    exact .passed rfl hbinding rfl
  case h_18 =>
    simp only [bind_eq_ok, pure_eq_ok, ensure_eq_ok] at h
    obtain ⟨_, hcompleted, rfl⟩ := h
    exact .cleaned rfl hcompleted rfl
  all_goals first
    | cases h; exact .same ⟨rfl, rfl, rfl, rfl, rfl, by rintro ⟨⟩⟩
    | simp only [bind_eq_ok, pure_eq_ok] at h
      first
        | obtain ⟨_, -, rfl⟩ := h; exact .same ⟨rfl, rfl, rfl, rfl, rfl, by rintro ⟨⟩⟩
        | obtain ⟨_, -, _, -, rfl⟩ := h; exact .same ⟨rfl, rfl, rfl, rfl, rfl, by rintro ⟨⟩⟩
    | cases h

theorem failedRecord_evidence (failure : DriverFailure) : SameEvidence r (failedRecord r failure) := by
  unfold failedRecord
  cases failure.rejectsCredential <;> exact ⟨rfl, rfl, rfl, rfl, rfl, id⟩

variable {call : Option DriverCall} {event : Option Event}

theorem Change.evidence (h : Change r call event r') : Evidence r call r' := by
  cases h with
  | approved _ _ _ => exact .same ⟨rfl, rfl, rfl, rfl, rfl, fun h => h⟩
  | intended _ _ hstep => exact .same ⟨rfl, rfl, rfl, rfl, rfl, fun hready => hstep.symm.trans hready⟩
  | repaired hnext =>
    rw [nextCycle_eq_ok hnext]
    exact .dropped ⟨rfl, nofun⟩
  | rolledBack hnext =>
    rw [resetAfterRollback_eq_ok hnext]
    exact .dropped ⟨rfl, nofun⟩
  | tornDown | forgotten => exact .same ⟨rfl, rfl, rfl, rfl, rfl, fun h => h⟩
  | failed _ failure => exact .same (failedRecord_evidence failure)
  | dropped _ => exact .same ⟨rfl, rfl, rfl, rfl, rfl, fun h => h⟩
  | completed _ happly => exact applyCompletion_evidence happly

theorem Change.tearsDown_event (h : Change r call event r') : ∀ e ∈ event.toList, e.tearsDown id = false := by
  intro e he
  rcases h.event with rfl | ⟨key, -, rfl⟩
  · cases he
  · rw [List.mem_singleton.1 he]
    rfl

/-- A driver call tears down no computer but its own. -/
theorem tearsDown_called (h : ∀ c ∈ call, c.isTeardown = false ∨ c.request.computer.id ≠ id) :
    ∀ e ∈ (call.map Event.called).toList, e.tearsDown id = false := by
  intro e he
  obtain ⟨c, hc, rfl⟩ := Option.map_eq_some_iff.1 (Option.mem_toList.1 he)
  have hother := h c hc
  cases c with
  | execute | forgetCredential => rfl
  | rollback | remove =>
    rcases hother with h | h
    · cases h
    · exact decide_eq_false h

/-! ### Teardowns -/

/-- A teardown that the call drives is of a record without a passed smoke run. -/
theorem completed_of_teardown {call : EngineCall} {c : DriverCall} (hspares : sparesVerified paths s call = true)
    (hcall : (Desk.serve paths s.journal call).call = some c) (hteardown : c.isTeardown = true)
    (hversion : c.request.computer.formatVersion = computerRecordFormatVersion) :
    c.request.computer.smokeCheckCompletedAt = none := by
  unfold Desk.serve at hcall
  unfold sparesVerified at hspares
  cases hop : call.op with
  | create _ _ _ _ | createIdempotent _ _ _ _ | approveHostKey _ _ _ | requestIntent _ _ _ | beginRepair _ _ =>
    rw [hop] at hcall
    cases hcall
  | forgetCredential id revision =>
    rw [hop] at hcall
    dsimp only [Provision.forgetCredential] at hcall
    split at hcall
    · cases hcall
    · split at hcall
      · cases hcall
      · split at hcall
        · cases hcall
        · cases hcall
          cases hteardown
  | driveOnce id revision =>
    rw [hop] at hcall hspares
    obtain ⟨r, hload, hmade⟩ := made_of_driveOnce hcall
    have hcomputer := hmade.computer
    rw [hcomputer] at hversion ⊢
    dsimp only at hspares
    rw [hload] at hspares
    cases hcompleted : r.smokeCheckCompletedAt with
    | none => rfl
    | some completedAt =>
      exfalso
      cases hmade with
      | execute _ _ _ _ _ | forgetCredential _ => cases hteardown
      | rollback _ hintent hopen | remove _ hintent hopen =>
        simp [hintent, hopen, hversion, hcompleted] at hspares

/-! ### Runs -/

def AllAttested (s : Desk) : Prop :=
  ∀ id r, s.journal.record id = some r → Attested s.log r

/-- Driver calls leave a record attested that is not the one they are made on, and one that has no evidence to
lose. -/
theorem Attested.called {r₀ : ComputerRecord} (h : Attested log r₀) (hmade : ∀ c ∈ call, Made r c)
    (hteardown : ∀ c ∈ call, c.isTeardown = true → r₀.id = r.id →
      r₀.formatVersion = computerRecordFormatVersion → Unproven r₀) :
    Attested ((call.map Event.called).toList ++ log) r₀ := by
  cases call with
  | none => exact h
  | some c =>
    cases hc : c.isTeardown with
    | false => exact h.append (tearsDown_called fun d hd => .inl (Option.mem_some.1 hd ▸ hc))
    | true =>
      by_cases hid : r₀.id = r.id
      · exact Unproven.attested (hteardown c rfl hc hid)
      · refine h.append (tearsDown_called fun d hd => .inr ?_)
        rw [(hmade d hd).computer]
        exact Ne.symm hid

theorem allAttested_step {call : EngineCall} (h : AllAttested s) (hspares : sparesVerified paths s call = true) :
    AllAttested (Desk.step paths s call) := by
  have hstep : Stepped paths s _ (Desk.step paths s call) := stepped s call
  have hteardown {c : DriverCall} (hcall : (Desk.serve paths s.journal call).call = some c)
      {r : ComputerRecord} (hget : s.journal.get paths r.id = .ok r) (hmade : Made r c) (hc : c.isTeardown = true)
      (hversion : r.formatVersion = computerRecordFormatVersion) : Unproven r := by
    have hnone := completed_of_teardown hspares hcall hc (by rw [hmade.computer]; exact hversion)
    rw [hmade.computer] at hnone
    refine ⟨hnone, fun hready => ?_⟩
    have hcompleted := ((h r.id r (get_eq_ok.1 hget).1).cleaned hversion hready).1
    rw [hnone] at hcompleted
    cases hcompleted
  generalize (Desk.serve paths s.journal call).call = c at hstep hteardown
  generalize Desk.step paths s call = s' at hstep
  cases hstep with
  | idle hcall =>
    intro id r₀ hr
    cases c with
    | none => exact h id r₀ hr
    | some c =>
      obtain ⟨r, hget, hmade⟩ := hcall c rfl
      refine (h id r₀ hr).called (fun d hd => Option.mem_some.1 hd ▸ hmade) fun d hd hd' hid hversion => ?_
      cases hd
      have hlookup := (get_eq_ok.1 hget).1
      rw [← hid, id_of_record hr] at hlookup
      cases hlookup.symm.trans hr
      exact hteardown rfl hget hmade hd' hversion
  | created hnone hfresh hlookup =>
    intro id r₀ hr
    rcases update_eq_some (hlookup ▸ hr) with ⟨-, ⟨⟩⟩ | ⟨-, hr⟩
    · exact Unproven.attested fun _ => ⟨rfl, nofun⟩
    · exact h id r₀ hr
  | @saved r r' event savedAt j' hget hchange hlookup =>
    intro id r₀ hr
    have hloaded := (get_eq_ok.1 hget).1
    have hunproven : ∀ d ∈ c, d.isTeardown = true → r.formatVersion = computerRecordFormatVersion → Unproven r :=
      fun d hd => hteardown hd hget (hchange.made d hd)
    rcases update_eq_some (hlookup ▸ hr) with ⟨-, ⟨⟩⟩ | ⟨hid, hr⟩
    · have hold : Attested ((c.map Event.called).toList ++ s.log) r :=
        (h r.id r hloaded).called hchange.made fun d hd hd' _ => hunproven d hd hd'
      have hlater : ∀ r₁, Attested ((c.map Event.called).toList ++ s.log) r₁ →
          Attested (event.toList ++ ((c.map Event.called).toList ++ s.log)) r₁ :=
        fun r₁ h₁ => h₁.append hchange.tearsDown_event
      refine hlater _ ?_
      cases hchange.evidence with
      | same hsame => exact hold.kept ⟨hsame.id, hsame.cycle, hsame.binding, hsame.completed, hsame.version, hsame.ready⟩
      | dropped hdropped => exact Unproven.attested fun _ => ⟨hdropped.completed, hdropped.step⟩
      | @passed operation completedAt binding hcall hbinding hr' =>
        subst hcall hr'
        refine ⟨fun _ _ => ⟨binding, hbinding, .inl ?_⟩, fun _ => nofun⟩
        simp [Event.passesSmoke, driverRequest, stamped, hbinding]
      | @cleaned operation hcall hcompleted hr' =>
        subst hcall hr'
        refine ⟨hold.passed, fun _ _ => ⟨hcompleted, .inl ?_⟩⟩
        simp [Event.cleansStaging, driverRequest, stamped]
    · refine ((h id r₀ hr).called hchange.made fun d hd hd' hid₀ _ => ?_).append hchange.tearsDown_event
      exact absurd ((id_of_record hr).symm.trans hid₀) hid
  | @removed r request answer j' hget hcall hmade hlookup =>
    subst hcall
    intro id r₀ hr
    rcases update_eq_some (hlookup ▸ hr) with ⟨-, ⟨⟩⟩ | ⟨hid, hr⟩
    refine ((h id r₀ hr).called (fun d hd => Option.mem_some.1 hd ▸ hmade) fun d hd hd' _ _ => ?_).append fun e he => ?_
    · cases hd
      cases hd'
    · rw [List.mem_singleton.1 he]
      rfl

theorem AllAttested.readyVerified (h : AllAttested s) : ReadyVerified s := by
  intro id r hr hversion hready
  have hstep : r.step = .ready := congrArg ProvisioningState.activeStep hready
  obtain ⟨hcompleted, hcleaned⟩ := (h id r hr).cleaned hversion hstep
  obtain ⟨binding, hbinding, hpassed⟩ := (h id r hr).passed hversion hcompleted
  exact ⟨binding, hbinding, hpassed, hcleaned⟩

/-- A journal that was last written before smoke runs were bound has nothing that could be stale. -/
theorem allAttested_legacy {j : Journal}
    (h : ∀ row ∈ j.rows, ∀ r ∈ row.document, r.formatVersion = legacyComputerRecordFormatVersion) : AllAttested ⟨j, []⟩ := by
  intro id r hr
  refine Unproven.attested fun hversion => ?_
  rw [h r.row (Table.lookup_some (record_eq_some.1 hr)).1 r rfl] at hversion
  cases hversion

theorem ready_verified_since_teardown (paths : PathRules) (j : Journal) (calls : List EngineCall)
    (hlegacy : ∀ row ∈ j.rows, ∀ r ∈ row.document, r.formatVersion = legacyComputerRecordFormatVersion)
    (hspares : Along (Desk.step paths) (fun s call => sparesVerified paths s call = true) ⟨j, []⟩ calls) :
    ReadyVerified (Desk.after paths ⟨j, []⟩ calls) := by
  apply AllAttested.readyVerified
  have hstart := allAttested_legacy hlegacy
  generalize Desk.mk j [] = s at hspares hstart
  induction calls generalizing s with
  | nil => exact hstart
  | cons call calls ih => exact ih _ hspares.2 (allAttested_step hstart hspares.1)

/-! ### A removal that fails -/

/-- The laptop is driven on until it is ready. -/
def readyCalls : List EngineCall :=
  discoveredCalls ++
    [laptopCall 1007 (.driveOnce ⟨1⟩ 7), laptopCall 1008 (.driveOnce ⟨1⟩ 8), laptopCall 1009 (.driveOnce ⟨1⟩ 9),
      laptopCall 1010 (.driveOnce ⟨1⟩ 10), laptopCall 1011 (.driveOnce ⟨1⟩ 11), laptopCall 1012 (.driveOnce ⟨1⟩ 12),
      laptopCall 1013 (.driveOnce ⟨1⟩ 13), laptopCall 1014 (.driveOnce ⟨1⟩ 14), laptopCall 1015 (.driveOnce ⟨1⟩ 15)]

/-- The removal of the ready laptop fails, and the failure is retried. -/
def removalCalls : List EngineCall :=
  [laptopCall 1016 (.requestIntent ⟨1⟩ 16 .remove), laptopCall 1017 (.driveOnce ⟨1⟩ 17),
    laptopCall 1018 (.requestIntent ⟨1⟩ 18 .retry), laptopCall 1019 (.driveOnce ⟨1⟩ 19)]

/-- The computer is ready and was not cleaned up since its last teardown. -/
def staleReady (s : Desk) (id : Uuid) : Bool :=
  (s.journal.record id).any fun r => r.formatVersion = computerRecordFormatVersion && r.state = .ready &&
    !decide (Since (Event.cleansStaging r.id) (Event.tearsDown r.id) s.log)

theorem not_readyVerified_of_stale (h : staleReady s id = true) : ¬ ReadyVerified s := by
  intro hverified
  unfold staleReady at h
  cases hr : s.journal.record id with
  | none =>
    rw [hr] at h
    cases h
  | some r =>
    simp only [hr, Option.any_some, Bool.and_eq_true, decide_eq_true_eq, Bool.not_eq_true', decide_eq_false_iff_not] at h
    obtain ⟨⟨hversion, hready⟩, hstale⟩ := h
    obtain ⟨binding, -, -, hcleaned⟩ := hverified id r hr hversion hready
    exact hstale hcleaned

/-- After the failed removal the laptop is published again on what was found before it. -/
theorem failed_removal_republished :
    ¬ ReadyVerified (Desk.after desktopPaths .initial (readyCalls ++ removalCalls)) := by
  have hstale : staleReady (Desk.after desktopPaths .initial (readyCalls ++ removalCalls)) ⟨1⟩ = true := by decide +kernel
  exact not_readyVerified_of_stale hstale

/-- The laptop as a journal of the legacy format holds it, one heartbeat before its smoke run. -/
def legacyLaptop : ComputerRecord :=
  { ComputerRecord.newWithIdentity laptop (.ofTimestamp 1000) ⟨1⟩ ⟨2⟩ with
    formatVersion := legacyComputerRecordFormatVersion
    state := .heartbeatSeen
    revision := 13
    pairingId := some ⟨3⟩
    pairedNodeId := some ⟨2⟩
    hostKey := some laptopKey
    hostKeyApprovedAt := some (.ofTimestamp 1003)
    inventory := some laptopInventory
    credentialPolicy := ⟨false, .sessionOnly⟩
    heartbeatSeenAt := some (.ofTimestamp 1012)
    updatedAt := .ofTimestamp 1012 }

def legacyJournal : Journal := ⟨[legacyLaptop.row], List.pairwise_singleton _ _⟩

def smokeCalls : List EngineCall :=
  [laptopCall 1013 (.driveOnce ⟨1⟩ 13), laptopCall 1014 (.driveOnce ⟨1⟩ 14), laptopCall 1015 (.driveOnce ⟨1⟩ 15)]

theorem ready_verified_legacyLaptop : ((Desk.after desktopPaths ⟨legacyJournal, []⟩ smokeCalls).journal.record ⟨1⟩).map
        ComputerRecord.state = some .ready ∧
      ReadyVerified (Desk.after desktopPaths ⟨legacyJournal, []⟩ smokeCalls) := by
  refine ⟨by decide +kernel, ready_verified_since_teardown _ _ _ ?_ (by decide +kernel)⟩
  intro row hrow r hr
  rw [List.mem_singleton.1 hrow] at hr
  cases hr
  rfl

end CYC.Provision
