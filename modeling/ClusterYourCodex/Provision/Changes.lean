import ClusterYourCodex.Spec.Provisioning

/-! What one call of the engine can do. It makes at most one driver call, on the record it loaded
(`Made`), and at most one change of the journal: a record is created, removed, or saved after one of the
changes listed in `Change`. Every invariant of the journal is read off this list. -/

namespace CYC.Provision

open Checked Relational

variable {paths : PathRules} {j j' : Journal} {r r' saved : ComputerRecord} {id : Uuid} {revision : Nat}
  {now savedAt : DateTime} {driver : Driver}

/-! ### The journal -/

theorem clash_of_id (a b : ComputerRow) (h : a.id = b.id) : Schema.clash a b = true := decide_eq_true h

/-- The row of a record. -/
def ComputerRecord.row (r : ComputerRecord) : ComputerRow := ⟨r.id, r.revision, some r.createdAt, some r.updatedAt, some r⟩

/-- The record of a row whose columns agree with its document. -/
def ComputerRow.record (row : ComputerRow) : Option ComputerRecord := row.document.filter fun r => row = r.row

/-- The record that is stored under an id. -/
def Journal.record (j : Journal) (id : Uuid) : Option ComputerRecord := (j.lookup ComputerRow.id id).bind ComputerRow.record

@[simp] theorem record_row (r : ComputerRecord) : r.row.record = some r := by
  simp [ComputerRow.record, ComputerRecord.row]

theorem record_eq_some : j.record id = some r ↔ j.lookup ComputerRow.id id = some r.row := by
  simp only [Journal.record, Option.bind_eq_some_iff, ComputerRow.record, Option.filter_eq_some_iff, decide_eq_true_eq]
  constructor
  · rintro ⟨row, hrow, -, rfl⟩
    exact hrow
  · intro hrow
    exact ⟨r.row, hrow, rfl, rfl⟩

theorem id_of_record (h : j.record id = some r) : r.id = id := (Table.lookup_some (record_eq_some.1 h)).2

/-- What a statement makes of the rows, it makes of the records. -/
theorem record_update {row : Option ComputerRow}
    (h : j'.lookup ComputerRow.id = Function.update (j.lookup ComputerRow.id) id row) :
    j'.record = Function.update j.record id (row.bind ComputerRow.record) := by
  funext id'
  rw [Journal.record, h]
  by_cases hid : id' = id
  · rw [hid, Function.update_self, Function.update_self]
  · rw [Function.update_of_ne hid, Function.update_of_ne hid, Journal.record]

theorem revisionFromI64_eq_ok {i : Int} {n : Nat} : revisionFromI64 i = .ok n ↔ i = n := by
  unfold revisionFromI64
  split
  · simp only [Except.ok.injEq]
    omega
  · simp only [reduceCtorEq, false_iff]
    omega

/-- A row is read exactly when it is the row of a valid record. -/
theorem parseRecord_eq_ok {row : ComputerRow} (hid : row.id = id) :
    parseRecord paths id row = .ok r ↔ row = r.row ∧ r.validate paths = .ok () := by
  obtain ⟨id', revision, createdAt, updatedAt, document⟩ := row
  simp only [parseRecord, bind_eq_ok, required_eq_ok, revisionFromI64_eq_ok, ensure_eq_ok, mapError_eq_ok, pure_eq_ok,
    Bool.and_eq_true, decide_eq_true_eq, ComputerRecord.row, ComputerRow.mk.injEq]
  constructor
  · rintro ⟨_, hdocument, _, hrevision, _, hcreated, _, hupdated, _, ⟨⟨⟨h₁, h₂⟩, h₃⟩, h₄⟩, _, hvalid, rfl⟩
    exact ⟨⟨hid.trans h₁.symm, by rw [hrevision, h₂], by rw [hcreated, h₃], by rw [hupdated, h₄], hdocument⟩, hvalid⟩
  · rintro ⟨⟨h₁, h₂, h₃, h₄, h₅⟩, hvalid⟩
    exact ⟨r, h₅, _, h₂, _, h₃, _, h₄, (), ⟨⟨⟨h₁.symm.trans hid, rfl⟩, rfl⟩, rfl⟩, (), hvalid, rfl⟩

theorem get_eq_ok : j.get paths id = .ok r ↔ j.record id = some r ∧ r.validate paths = .ok () := by
  simp only [Journal.get, bind_eq_ok, required_eq_ok, record_eq_some]
  constructor
  · rintro ⟨row, hrow, hread⟩
    obtain ⟨rfl, hvalid⟩ := (parseRecord_eq_ok (Table.lookup_some hrow).2).1 hread
    exact ⟨hrow, hvalid⟩
  · rintro ⟨hrow, hvalid⟩
    exact ⟨r.row, hrow, (parseRecord_eq_ok (Table.lookup_some hrow).2).2 ⟨rfl, hvalid⟩⟩

theorem id_of_get (h : j.get paths id = .ok r) : r.id = id := id_of_record (get_eq_ok.1 h).1

theorem loadExpected_eq_ok :
    loadExpected paths j id revision = .ok r ↔ j.get paths id = .ok r ∧ r.revision = revision := by
  simp only [loadExpected, bind_eq_ok, ensure_eq_ok, mapError_eq_ok, pure_eq_ok, decide_eq_true_eq]
  constructor
  · rintro ⟨_, hr, _, hrevision, rfl⟩
    exact ⟨hr, hrevision⟩
  · rintro ⟨hr, hrevision⟩
    exact ⟨r, hr, (), hrevision, rfl⟩

/-- A record as the save stamps it, over the one it replaces. -/
def stamped (savedAt : DateTime) (r r' : ComputerRecord) : ComputerRecord :=
  { r' with revision := r.revision + 1, updatedAt := monotonicNow savedAt r.updatedAt }

/-- The fields that a save may not change. -/
structure SameIdentity (r r' : ComputerRecord) : Prop where
  id : r'.id = r.id
  intendedNodeId : r'.intendedNodeId = r.intendedNodeId
  createdAt : r'.createdAt = r.createdAt
  revision : r'.revision = r.revision

theorem revisionToI64_eq_ok {n : Nat} {i : Int} : revisionToI64 n = .ok i ↔ (n : Int) ≤ i64Max ∧ i = n := by
  unfold revisionToI64
  split
  · rename_i h
    exact ⟨fun he => ⟨h, (Except.ok.inj he).symm⟩, fun he => by rw [he.2]⟩
  · rename_i h
    exact ⟨nofun, fun he => absurd he.1 h⟩

/-- A save over the loaded record succeeds exactly when the stamped record is valid and its revision
fits its column. -/
theorem saveCas_eq_ok (hget : j.get paths r.id = .ok r) (hsame : SameIdentity r r') :
    j.saveCas paths r' r.revision savedAt = .ok (j', saved) ↔
      (stamped savedAt r r').validate paths = .ok () ∧ (r.revision : Int) < i64Max ∧
        saved = stamped savedAt r r' ∧ j' = j.put saved saved.revision r.revision := by
  have hget' : j.get paths r'.id = .ok r := by rw [hsame.id]; exact hget
  have hu64 : (r.revision : Int) < i64Max → r.revision < u64Max := by
    simp only [i64Max, u64Max]
    omega
  have hselected : j.any (Journal.selects r'.id r.revision) = true := by
    refine Table.any_eq_true.2 ⟨r.row, (Table.lookup_some (record_eq_some.1 (get_eq_ok.1 hget).1)).1, ?_⟩
    simp [Journal.selects, ComputerRecord.row, hsame.id]
  simp only [Journal.saveCas, bind_eq_ok, pair_eq_ok, hget', mapError_eq_ok, ensure_eq_ok,
    revisionToI64_eq_ok, decide_eq_true_eq, Bool.and_eq_true]
  constructor
  · rintro ⟨_, -, _, hr, _, -, _, -, _, -, _, hvalid, _, ⟨hsmall, rfl⟩, _, ⟨-, rfl⟩, _, -, hj, hs⟩
    cases hr
    subst hs
    exact ⟨hvalid, by push_cast at hsmall; omega, rfl, hj.symm⟩
  · rintro ⟨hvalid, hsmall, hs, hj⟩
    subst hs hj
    exact ⟨(), hsame.revision, r, rfl, (), rfl, (), ⟨⟨hsame.id.symm, hsame.intendedNodeId.symm⟩, hsame.createdAt.symm⟩,
      (), hu64 hsmall, (), hvalid, _, ⟨by push_cast; omega, rfl⟩, _, ⟨hsmall.le, rfl⟩, (), hselected, rfl, rfl⟩

/-- The columns that an UPDATE leaves alone agree with the new document if that keeps the identity. -/
theorem lookup_put (h : j.record r'.id = some r) (hcreated : r'.createdAt = r.createdAt) :
    (j.put r' r'.revision r.revision).lookup ComputerRow.id =
      Function.update (j.lookup ComputerRow.id) r'.id (some r'.row) := by
  have hid : r.id = r'.id := id_of_record h
  have hrow : ({ r.row with revision := (r'.revision : Int), updatedAt := some r'.updatedAt, document := some r' } :
      ComputerRow) = r'.row := by
    simp only [ComputerRecord.row, hid, hcreated]
  rw [← hrow]
  refine Table.lookup_modify (record_eq_some.1 h) ?_ ?_ fun _ => rfl
  · intro row _ hselected
    exact of_decide_eq_true (Bool.and_eq_true_iff.1 hselected).1
  · simp [Journal.selects, ComputerRecord.row, hid]

theorem record_delete : Journal.record (j.delete fun row => row.id = id) = Function.update j.record id none :=
  record_update Table.lookup_delete

/-! ### Driver calls -/

def DriverCall.request : DriverCall → DriverRequest
  | .execute request _ => request
  | .rollback request _ => request
  | .remove request _ => request
  | .forgetCredential request _ => request

/-- A rollback or a removal. -/
def DriverCall.isTeardown : DriverCall → Bool
  | .rollback _ _ => true
  | .remove _ _ => true
  | _ => false

/-- The driver calls that the engine makes on a record. -/
inductive Made (r : ComputerRecord) : DriverCall → Prop
  | execute {action} (answer : Except DriverFailure StepCompletion) (hintent : r.intent = .continuing)
      (hfailed : r.state.isFailed = false) (happroved : r.state = .hostKeyPending → r.hostKeyApprovedAt.isSome = true)
      (haction : actionForRecord r = some action) : Made r (.execute (driverRequest r action action.asStr) answer)
  | rollback (answer : Except DriverFailure Unit) (hintent : r.intent = .rollback) (hteardown : r.teardownCompleted = false) :
      Made r (.rollback (driverRequest r .rollback "rollback") answer)
  | remove (answer : Except DriverFailure Unit) (hintent : r.intent = .remove) (hteardown : r.teardownCompleted = false) :
      Made r (.remove (driverRequest r .remove "remove") answer)
  | forgetCredential (answer : Except DriverFailure Unit) :
      Made r (.forgetCredential (driverRequest r .forgetCredential "forget_credential") answer)

theorem Made.computer {call : DriverCall} (h : Made r call) : call.request.computer = r := by
  cases h <;> rfl

/-! ### Changes of a record -/

/-- What becomes of a loaded record before it is saved, with the driver call that led to it and the
event that it is. -/
inductive Change (r : ComputerRecord) : Option DriverCall → Option Event → ComputerRecord → Prop
  | approved {key} (now : DateTime) (hstate : r.state = .hostKeyPending) (hkey : r.hostKey = some key) :
      Change r none (some (.approved r.id key.fingerprint)) { r with hostKeyApprovedAt := some now }
  | intended {state} (teardownCompleted : Bool) (intent : ProvisioningIntent)
      (hstep : state.activeStep = r.state.activeStep) : Change r none none { r with state, teardownCompleted, intent }
  | repaired {next} (hnext : nextCycle r = .ok next) : Change r none none { next with state := .credentialStored }
  | rolledBack {next} (hnext : resetAfterRollback r = .ok next) : Change r none none next
  | tornDown {call} (hcall : Made r call) : Change r (some call) none { r with teardownCompleted := true }
  | forgotten {request answer} (hcall : Made r (.forgetCredential request answer)) :
      Change r (some (.forgetCredential request answer)) none
        { r with credentialReference := none, credentialPolicy := ⟨false, .forgotten⟩ }
  | failed {call} (hcall : Made r call) (failure : DriverFailure) :
      Change r (some call) none (failedRecord r failure)
  | dropped {call} (hcall : Made r call) : Change r (some call) none (credentialDropped r)
  | completed {action completion r'}
      (hcall : Made r (.execute (driverRequest r action action.asStr) (.ok completion)))
      (happly : applyCompletion r action completion = .ok r') :
      Change r (some (.execute (driverRequest r action action.asStr) (.ok completion))) none r'

/-- The record in its next cycle. -/
def ComputerRecord.cycled (r : ComputerRecord) : ComputerRecord :=
  { r with
    cycle := r.cycle + 1
    intent := .continuing
    teardownCompleted := false
    credentialPolicy := { r.credentialPolicy with
      state := if r.credentialPolicy.state = .forgotten then .sessionOnly else r.credentialPolicy.state }
    heartbeatSeenAt := none
    smokeRunBinding := none
    smokeCheckCompletedAt := none
    formatVersion := computerRecordFormatVersion }

theorem nextCycle_eq_ok (h : nextCycle r = .ok r') : r' = r.cycled := by
  simp only [nextCycle, seq_eq_ok, pure_eq_ok] at h
  exact h.2.symm

theorem resetAfterRollback_eq_ok (h : resetAfterRollback r = .ok r') :
    r' = { r.cycled with state := .draft, inventory := none, pairingId := none, pairedNodeId := none } := by
  simp only [resetAfterRollback, bind_eq_ok, pure_eq_ok] at h
  obtain ⟨next, hnext, rfl⟩ := h
  rw [nextCycle_eq_ok hnext]

/-- The fields that a completed action may write: the host key, the credential, the identities, the
evidence of the later checkpoints and the state. -/
theorem applyCompletion_sameIdentity {action : ProvisioningAction} {completion : StepCompletion}
    (h : applyCompletion r action completion = .ok r') : SameIdentity r r' := by
  unfold applyCompletion at h
  split at h
  all_goals first
    | cases h; exact ⟨rfl, rfl, rfl, rfl⟩
    | simp only [bind_eq_ok, pure_eq_ok] at h
      first
        | obtain ⟨_, -, rfl⟩ := h; exact ⟨rfl, rfl, rfl, rfl⟩
        | obtain ⟨_, -, _, -, rfl⟩ := h; exact ⟨rfl, rfl, rfl, rfl⟩
        | obtain ⟨_, -, _, -, _, -, rfl⟩ := h; exact ⟨rfl, rfl, rfl, rfl⟩
    | cases h

theorem failedRecord_sameIdentity (failure : DriverFailure) : SameIdentity r (failedRecord r failure) := by
  unfold failedRecord
  cases failure.rejectsCredential <;> exact ⟨rfl, rfl, rfl, rfl⟩

theorem Change.sameIdentity {call : Option DriverCall} {event : Option Event} (h : Change r call event r') :
    SameIdentity r r' := by
  cases h with
  | approved | intended => exact ⟨rfl, rfl, rfl, rfl⟩
  | repaired hnext => rw [nextCycle_eq_ok hnext]; exact ⟨rfl, rfl, rfl, rfl⟩
  | rolledBack hnext =>
    rw [resetAfterRollback_eq_ok hnext]
    exact ⟨rfl, rfl, rfl, rfl⟩
  | tornDown | forgotten => exact ⟨rfl, rfl, rfl, rfl⟩
  | failed _ failure => exact failedRecord_sameIdentity failure
  | dropped _ => exact ⟨rfl, rfl, rfl, rfl⟩
  | completed _ happly => exact applyCompletion_sameIdentity happly

theorem Change.made {call : Option DriverCall} {event : Option Event} (h : Change r call event r') :
    ∀ c ∈ call, Made r c := by
  cases h with
  | approved _ _ _ | intended _ _ _ | repaired _ | rolledBack _ => exact fun c hc => absurd hc (Option.not_mem_none c)
  | tornDown hcall | forgotten hcall | failed hcall _ | dropped hcall | completed hcall _ =>
    intro c hc
    rw [← Option.mem_some.1 hc]
    exact hcall

/-- The only event that a change is, is an approval. -/
theorem Change.event {call : Option DriverCall} {event : Option Event} (h : Change r call event r') :
    event = none ∨ ∃ key, r.hostKey = some key ∧ event = some (.approved r.id key.fingerprint) := by
  cases h with
  | approved _ _ hkey => exact .inr ⟨_, hkey, rfl⟩
  | intended _ _ _ | repaired _ | rolledBack _ | tornDown _ | forgotten _ | failed _ _ | dropped _ | completed _ _ =>
    exact .inl rfl

/-! ### One call of the engine -/

/-- What the engine did to the journal. -/
inductive Served (paths : PathRules) (j : Journal) : Turn (Journal × Option Event) → Prop
  | unchanged {call result} (hcall : ∀ c ∈ call, ∃ r, j.get paths r.id = .ok r ∧ Made r c)
      (hresult : ∀ j' event, result = .ok (j', event) → j' = j ∧ event = none) : Served paths j ⟨call, result⟩
  | created {input now id intendedNodeId j'}
      (hinsert : j.insert paths (ComputerRecord.newWithIdentity input now id intendedNodeId) = .ok j') :
      Served paths j ⟨none, .ok (j', none)⟩
  | saved {r r' saved call event savedAt j'} (hget : j.get paths r.id = .ok r) (hchange : Change r call event r')
      (hsave : j.saveCas paths r' r.revision savedAt = .ok (j', saved)) : Served paths j ⟨call, .ok (j', event)⟩
  | removed {r request answer j'} (hget : j.get paths r.id = .ok r) (hcall : Made r (.forgetCredential request answer))
      (hdelete : j.deleteCas r.id r.revision = .ok j') :
      Served paths j ⟨some (.forgetCredential request answer), .ok (j', some (.removed r.id))⟩

theorem Served.refused (error : ProvisioningError) : Served paths j ⟨none, .error error⟩ :=
  .unchanged (fun c hc => absurd hc (Option.not_mem_none c)) fun _ _ h => by cases h

theorem Served.kept : Served paths j ⟨none, .ok (j, none)⟩ :=
  .unchanged (fun c hc => absurd hc (Option.not_mem_none c)) fun _ _ h => by cases h; exact ⟨rfl, rfl⟩

/-- A call whose result is accounted for whenever there is one. -/
theorem Served.of_ok {call : Option DriverCall} {α : Type} {result : Except ProvisioningError α}
    {g : α → Journal × Option Event} (hcall : ∀ c ∈ call, ∃ r, j.get paths r.id = .ok r ∧ Made r c)
    (h : ∀ x, result = .ok x → Served paths j ⟨call, .ok (g x)⟩) : Served paths j ⟨call, result.map g⟩ := by
  cases result with
  | error e => exact .unchanged hcall fun _ _ h => by cases h
  | ok x => exact h x rfl

/-- The same without a driver call. -/
theorem Served.of_quiet {α : Type} {result : Except ProvisioningError α} {g : α → Journal × Option Event}
    (h : ∀ x, result = .ok x → Served paths j ⟨none, .ok (g x)⟩) : Served paths j ⟨none, result.map g⟩ :=
  .of_ok (fun c hc => absurd hc (Option.not_mem_none c)) h

/-- The same with a driver call on the loaded record. -/
theorem Served.of_call {call : DriverCall} {α : Type} {result : Except ProvisioningError α}
    {g : α → Journal × Option Event} (hget : j.get paths r.id = .ok r) (hcall : Made r call)
    (h : ∀ x, result = .ok x → Served paths j ⟨some call, .ok (g x)⟩) : Served paths j ⟨some call, result.map g⟩ :=
  .of_ok (fun _ hc => ⟨r, hget, Option.mem_some.1 hc ▸ hcall⟩) h

/-- A change that is saved as the last act of the call. -/
theorem Change.served {call : Option DriverCall} {event : Option Event} (hget : j.get paths r.id = .ok r)
    (hrevision : r.revision = revision) (h : Change r call event r')
    (hsave : save paths j revision savedAt r' = .ok (j', saved)) : Served paths j ⟨call, .ok (j', event)⟩ := by
  subst hrevision
  exact .saved hget h (mapError_eq_ok.1 hsave)

theorem saveAs_eq_ok {outcome : ComputerRecord → DriveOutcome} {o : DriveOutcome}
    (h : saveAs paths j revision savedAt outcome r' = .ok (j', o)) :
    ∃ saved, save paths j revision savedAt r' = .ok (j', saved) ∧ o = outcome saved := by
  simp only [saveAs, bind_eq_ok, pair_eq_ok] at h
  obtain ⟨⟨_, saved⟩, hsave, rfl, rfl⟩ := h
  exact ⟨saved, hsave, rfl⟩

/-- The same for a change that a drive reports. -/
theorem Change.served_as {call : Option DriverCall} {outcome : ComputerRecord → DriveOutcome} {o : DriveOutcome}
    (hget : j.get paths r.id = .ok r) (hrevision : r.revision = revision) (h : Change r call none r')
    (houtcome : ∀ saved, Desk.removal (outcome saved) = none)
    (hsave : saveAs paths j revision savedAt outcome r' = .ok (j', o)) :
    Served paths j ⟨call, .ok (j', Desk.removal o)⟩ := by
  obtain ⟨saved, hsaved, rfl⟩ := saveAs_eq_ok hsave
  rw [houtcome]
  exact h.served hget hrevision hsaved

/-- A load gives the record under its own identity. -/
theorem get_of_loadExpected (h : loadExpected paths j id revision = .ok r) :
    j.get paths r.id = .ok r ∧ r.revision = revision ∧ r.id = id := by
  obtain ⟨hget, hrevision⟩ := loadExpected_eq_ok.1 h
  have hid := id_of_get hget
  exact ⟨by rw [hid]; exact hget, hrevision, hid⟩

/-! ### Operations of the user -/

theorem create_served {input : NewComputer} {usable : Bool} {node : Uuid} :
    Served paths j ⟨none, (create paths j id now input usable node).map fun (j, _) => (j, none)⟩ := by
  refine .of_quiet fun x h => ?_
  simp only [create, bind_eq_ok, pure_eq_ok, mapError_eq_ok] at h
  obtain ⟨_, -, _, -, j', hinsert, rfl⟩ := h
  exact .created hinsert

theorem createIdempotent_served {input : NewComputer} {usable : Bool} {node : Uuid} :
    Served paths j ⟨none, (createIdempotent paths j id now input usable node).map fun (j, _) => (j, none)⟩ := by
  refine .of_quiet fun x h => ?_
  simp only [createIdempotent, bind_eq_ok] at h
  obtain ⟨_, -, _, -, _, -, h⟩ := h
  split at h
  · rename_i j' hinsert
    cases h
    exact .created hinsert
  · simp only [bind_eq_ok, pure_eq_ok] at h
    obtain ⟨_, -, _, -, rfl⟩ := h
    exact .kept
  · cases h

theorem approveHostKey_served {fingerprint : String} :
    Served paths j ⟨none, (approveHostKey paths j id revision now savedAt fingerprint).map fun (j, _) =>
      (j, some (.approved id fingerprint))⟩ := by
  refine .of_quiet fun x h => ?_
  simp only [approveHostKey, bind_eq_ok, ensure_eq_ok, required_eq_ok, decide_eq_true_eq] at h
  obtain ⟨r, hload, _, hstate, key, hkey, _, hfingerprint, hsave⟩ := h
  obtain ⟨hget, hrevision, rfl⟩ := get_of_loadExpected hload
  subst hfingerprint
  exact (Change.approved now hstate hkey).served hget hrevision hsave

theorem activeStep_recheckable : (recheckable r).activeStep = r.state.activeStep := by
  unfold recheckable
  split
  · rename_i hstate
    rw [hstate]
    rfl
  · rfl

theorem requestIntent_served {intent : ProvisioningIntent} :
    Served paths j ⟨none, (requestIntent paths j id revision savedAt intent).map fun (j, _) => (j, none)⟩ := by
  refine .of_quiet fun x h => ?_
  simp only [requestIntent, bind_eq_ok] at h
  obtain ⟨_, -, r, hload, _, -, _, -, hsave⟩ := h
  obtain ⟨hget, hrevision, rfl⟩ := get_of_loadExpected hload
  refine (Change.intended _ intent ?_).served hget hrevision hsave
  split
  · exact activeStep_recheckable
  · rfl

theorem beginRepair_served :
    Served paths j ⟨none, (beginRepair paths j id revision savedAt).map fun (j, _) => (j, none)⟩ := by
  refine .of_quiet fun x h => ?_
  simp only [beginRepair, bind_eq_ok] at h
  obtain ⟨r, hload, _, -, next, hnext, hsave⟩ := h
  obtain ⟨hget, hrevision, rfl⟩ := get_of_loadExpected hload
  exact (Change.repaired hnext).served hget hrevision hsave

theorem forgetCredential_served :
    Served paths j ⟨(forgetCredential paths j id revision savedAt driver).call,
      (forgetCredential paths j id revision savedAt driver).result.map fun (j, _) => (j, none)⟩ := by
  unfold forgetCredential
  cases hload : loadExpected paths j id revision with
  | error e => exact .refused e
  | ok r =>
    obtain ⟨hget, hrevision, rfl⟩ := get_of_loadExpected hload
    dsimp only
    split
    · exact .refused _
    · split
      · exact .refused _
      · refine .of_call hget (.forgetCredential _) fun x h => ?_
        dsimp only at h
        split at h
        · split at h <;> cases h
        · exact (Change.forgotten (.forgetCredential _)).served hget hrevision h

/-! ### Drives -/

theorem deleteCas_eq_ok (h : j.deleteCas id revision = .ok j') : j' = j.delete fun row => row.id = id := by
  simp only [Journal.deleteCas, bind_eq_ok] at h
  obtain ⟨_, -, h⟩ := h
  split at h
  · cases h
  · split at h
    · exact (Except.ok.inj h).symm
    · simp [bind_eq_ok] at h

theorem removal_readyOrCheckpoint (r : ComputerRecord) : Desk.removal (readyOrCheckpoint r) = none := by
  unfold readyOrCheckpoint
  split <;> rfl

theorem approved_of_not_awaiting (h : ¬(decide (r.state = .hostKeyPending) && r.hostKeyApprovedAt.isNone) = true)
    (hstate : r.state = .hostKeyPending) : r.hostKeyApprovedAt.isSome = true := by
  cases happroved : r.hostKeyApprovedAt with
  | some _ => rfl
  | none => simp [hstate, happroved] at h

section Drives

variable (hget : j.get paths r.id = .ok r) (hrevision : r.revision = revision)
include hget hrevision

theorem persistFailure_served {call : DriverCall} {failure : DriverFailure} {x : Journal × DriveOutcome}
    (hcall : Made r call) (h : persistFailure paths j revision savedAt r failure = .ok x) :
    Served paths j ⟨some call, .ok (x.1, Desk.removal x.2)⟩ := by
  unfold persistFailure persistCredentialRequired persistDriverFailure at h
  split at h
  · split at h
    · exact (Change.dropped hcall).served_as hget hrevision (fun _ => rfl) h
    · cases h
      exact .unchanged (fun c hc => ⟨r, hget, Option.mem_some.1 hc ▸ hcall⟩) fun _ _ h => by cases h; exact ⟨rfl, rfl⟩
  · exact (Change.failed hcall failure).served_as hget hrevision (fun _ => rfl) h

theorem afterTeardown_served {call : DriverCall} {answer : Except DriverFailure Unit} {x : Journal × DriveOutcome}
    (hcall : Made r call) (h : afterTeardown paths j revision savedAt r answer = .ok x) :
    Served paths j ⟨some call, .ok (x.1, Desk.removal x.2)⟩ := by
  cases answer with
  | error failure => exact persistFailure_served hget hrevision hcall h
  | ok _ => exact (Change.tornDown hcall).served_as hget hrevision (fun _ => rfl) h

theorem driveRemove_served (hintent : r.intent = .remove) :
    Served paths j ⟨(driveRemove paths j r.id revision savedAt driver r).call,
      (driveRemove paths j r.id revision savedAt driver r).result.map fun (j, outcome) => (j, Desk.removal outcome)⟩ := by
  unfold driveRemove
  split
  · refine .of_call hget (.forgetCredential _) fun x h => ?_
    simp only [bind_eq_ok, pure_eq_ok, mapError_eq_ok] at h
    obtain ⟨_, -, j', hdelete, rfl⟩ := h
    subst hrevision
    exact .removed hget (.forgetCredential _) hdelete
  · rename_i hteardown
    have hcall := Made.remove (driver.remove (driverRequest r .remove "remove")) hintent (eq_false_of_ne_true hteardown)
    exact .of_call hget hcall fun x h => afterTeardown_served hget hrevision hcall h

theorem driveRollback_served (hintent : r.intent = .rollback) :
    Served paths j ⟨(driveRollback paths j revision savedAt driver r).call,
      (driveRollback paths j revision savedAt driver r).result.map fun (j, outcome) => (j, Desk.removal outcome)⟩ := by
  unfold driveRollback
  split
  · refine .of_quiet fun x h => ?_
    simp only [bind_eq_ok] at h
    obtain ⟨next, hnext, hsave⟩ := h
    exact (Change.rolledBack hnext).served_as hget hrevision (fun _ => rfl) hsave
  · rename_i hteardown
    have hcall := Made.rollback (driver.rollback (driverRequest r .rollback "rollback")) hintent (eq_false_of_ne_true hteardown)
    exact .of_call hget hcall fun x h => afterTeardown_served hget hrevision hcall h

theorem driveRetry_served :
    Served paths j ⟨none,
      (driveRetry paths j revision savedAt r).map fun (j, outcome) => (j, Desk.removal outcome)⟩ := by
  refine .of_quiet fun x h => ?_
  unfold driveRetry at h
  split at h
  · rename_i hstate
    refine (Change.intended r.teardownCompleted .continuing ?_).served_as hget hrevision (fun _ => rfl) h
    rw [hstate, ProvisioningState.activeStep_fromStep]
    rfl
  · cases h

theorem afterAction_served {action : ProvisioningAction} {answer : Except DriverFailure StepCompletion}
    {x : Journal × DriveOutcome} (hcall : Made r (.execute (driverRequest r action action.asStr) answer))
    (h : afterAction paths j revision savedAt r action answer = .ok x) :
    Served paths j ⟨some (.execute (driverRequest r action action.asStr) answer), .ok (x.1, Desk.removal x.2)⟩ := by
  cases answer with
  | error failure => exact persistFailure_served hget hrevision hcall h
  | ok completion =>
    unfold afterAction at h
    dsimp only at h
    split at h
    · cases h
      exact .unchanged (fun c hc => ⟨r, hget, Option.mem_some.1 hc ▸ hcall⟩) fun _ _ h => by cases h; exact ⟨rfl, rfl⟩
    · split at h
      · simp only [bind_eq_ok] at h
        obtain ⟨failure, -, h⟩ := h
        exact (Change.failed hcall failure).served_as hget hrevision (fun _ => rfl) h
      · rename_i happly
        exact (Change.completed hcall happly).served_as hget hrevision removal_readyOrCheckpoint h

theorem driveContinue_served (hintent : r.intent = .continuing) :
    Served paths j ⟨(driveContinue paths j revision savedAt driver r).call,
      (driveContinue paths j revision savedAt driver r).result.map fun (j, outcome) => (j, Desk.removal outcome)⟩ := by
  unfold driveContinue
  split
  · exact .kept
  · rename_i hfailed
    split
    · exact .kept
    · split
      · exact .kept
      · rename_i hpending
        unfold driveAction
        cases haction : actionForRecord r with
        | none => exact .refused _
        | some action =>
          have hcall := Made.execute (driver.execute (driverRequest r action action.asStr)) hintent
            (eq_false_of_ne_true hfailed) (approved_of_not_awaiting hpending) haction
          exact .of_call hget hcall fun x h => afterAction_served hget hrevision hcall h

end Drives

theorem driveOnce_served :
    Served paths j ⟨(driveOnce paths j id revision savedAt driver).call,
      (driveOnce paths j id revision savedAt driver).result.map fun (j, outcome) => (j, Desk.removal outcome)⟩ := by
  unfold driveOnce
  cases hload : loadExpected paths j id revision with
  | error e => exact .refused e
  | ok r =>
    obtain ⟨hget, hrevision, rfl⟩ := get_of_loadExpected hload
    dsimp only
    cases hintent : r.intent with
    | resume =>
      exact .of_quiet fun x h =>
        (Change.intended r.teardownCompleted .continuing rfl).served_as hget hrevision (fun _ => rfl) h
    | retry => exact driveRetry_served hget hrevision
    | rollback => exact driveRollback_served hget hrevision hintent
    | remove => exact driveRemove_served hget hrevision hintent
    | continuing => exact driveContinue_served hget hrevision hintent

/-- A drive calls the driver on the record it loads. -/
theorem made_of_driveOnce {c : DriverCall} (h : (driveOnce paths j id revision savedAt driver).call = some c) :
    ∃ r, loadExpected paths j id revision = .ok r ∧ Made r c := by
  unfold driveOnce at h
  cases hload : loadExpected paths j id revision with
  | error e =>
    rw [hload] at h
    cases h
  | ok r =>
    rw [hload] at h
    refine ⟨r, rfl, ?_⟩
    dsimp only at h
    cases hintent : r.intent with
    | resume | retry =>
      rw [hintent] at h
      cases h
    | rollback =>
      rw [hintent] at h
      dsimp only [driveRollback] at h
      split at h
      · cases h
      · rename_i hteardown
        cases h
        exact .rollback _ hintent (eq_false_of_ne_true hteardown)
    | remove =>
      rw [hintent] at h
      dsimp only [driveRemove] at h
      split at h
      · cases h
        exact .forgetCredential _
      · rename_i hteardown
        cases h
        exact .remove _ hintent (eq_false_of_ne_true hteardown)
    | continuing =>
      rw [hintent] at h
      dsimp only [driveContinue, driveAction] at h
      split at h
      · cases h
      · rename_i hfailed
        split at h
        · cases h
        · split at h
          · cases h
          · rename_i hpending
            split at h
            · cases h
            · rename_i haction
              cases h
              exact .execute _ hintent (eq_false_of_ne_true hfailed) (approved_of_not_awaiting hpending) haction

/-- Every call of the engine is one of these. -/
theorem served (call : EngineCall) : Served paths j (Desk.serve paths j call) := by
  unfold Desk.serve
  cases call.op with
  | create _ _ _ _ => exact create_served
  | createIdempotent _ _ _ _ => exact createIdempotent_served
  | approveHostKey _ _ _ => exact approveHostKey_served
  | requestIntent _ _ _ => exact requestIntent_served
  | beginRepair _ _ => exact beginRepair_served
  | forgetCredential _ _ => exact forgetCredential_served
  | driveOnce _ _ => exact driveOnce_served

/-! ### One step of the desk -/

/-- The desk after a call that made the given driver call. -/
inductive Stepped (paths : PathRules) (s : Desk) (call : Option DriverCall) : Desk → Prop
  | idle (hcall : ∀ c ∈ call, ∃ r, s.journal.get paths r.id = .ok r ∧ Made r c) :
      Stepped paths s call ⟨s.journal, (call.map .called).toList ++ s.log⟩
  | created {input now id intendedNodeId j'} (hnone : call = none)
      (hfresh : s.journal.record id = none)
      (hlookup : j'.record = Function.update s.journal.record id
        (some (ComputerRecord.newWithIdentity input now id intendedNodeId))) : Stepped paths s call ⟨j', s.log⟩
  | saved {r r' event savedAt j'} (hget : s.journal.get paths r.id = .ok r) (hchange : Change r call event r')
      (hlookup : j'.record =
        Function.update s.journal.record r.id (some (stamped savedAt r r'))) :
      Stepped paths s call ⟨j', event.toList ++ ((call.map .called).toList ++ s.log)⟩
  | removed {r request answer j'} (hget : s.journal.get paths r.id = .ok r)
      (hcall : call = some (.forgetCredential request answer)) (hmade : Made r (.forgetCredential request answer))
      (hlookup : j'.record = Function.update s.journal.record r.id none) :
      Stepped paths s call ⟨j', (some (.removed r.id)).toList ++ ((call.map .called).toList ++ s.log)⟩

theorem insert_lookup (h : j.insert paths r = .ok j') :
    r.validate paths = .ok () ∧ j.lookup ComputerRow.id r.id = none ∧
      j'.lookup ComputerRow.id = Function.update (j.lookup ComputerRow.id) r.id (some r.row) := by
  simp only [Journal.insert, bind_eq_ok, required_eq_ok, revisionToI64_eq_ok, mapError_eq_ok] at h
  obtain ⟨_, hvalid, _, -, _, ⟨-, rfl⟩, hinsert⟩ := h
  exact ⟨hvalid, Table.lookup_insert clash_of_id hinsert⟩

theorem insert_record (h : j.insert paths r = .ok j') :
    j.record r.id = none ∧ j'.record = Function.update j.record r.id (some r) := by
  obtain ⟨-, hfresh, hlookup⟩ := insert_lookup h
  exact ⟨by rw [Journal.record, hfresh]; rfl, (record_update hlookup).trans (congrArg _ (record_row r))⟩

theorem saveCas_lookup (hget : j.get paths r.id = .ok r) (hsame : SameIdentity r r')
    (hsave : j.saveCas paths r' r.revision savedAt = .ok (j', saved)) :
    (stamped savedAt r r').validate paths = .ok () ∧
      j'.lookup ComputerRow.id = Function.update (j.lookup ComputerRow.id) r.id (some (stamped savedAt r r').row) := by
  obtain ⟨hvalid, -, rfl, rfl⟩ := (saveCas_eq_ok hget hsame).1 hsave
  have hid : (stamped savedAt r r').id = r.id := hsame.id
  have hr : j.record (stamped savedAt r r').id = some r := by rw [hid]; exact (get_eq_ok.1 hget).1
  exact ⟨hvalid, by rw [lookup_put hr hsame.createdAt, hid]⟩

theorem saveCas_record (hget : j.get paths r.id = .ok r) (hsame : SameIdentity r r')
    (hsave : j.saveCas paths r' r.revision savedAt = .ok (j', saved)) :
    j'.record = Function.update j.record r.id (some (stamped savedAt r r')) :=
  (record_update (saveCas_lookup hget hsame hsave).2).trans (congrArg _ (record_row _))

theorem stepped (s : Desk) (call : EngineCall) :
    Stepped paths s (Desk.serve paths s.journal call).call (Desk.step paths s call) := by
  have h : Served paths s.journal (Desk.serve paths s.journal call) := served call
  unfold Desk.step
  generalize Desk.serve paths s.journal call = turn at h
  have idle {c : Option DriverCall} (hcall : ∀ d ∈ c, ∃ r, s.journal.get paths r.id = .ok r ∧ Made r d) :
      Stepped paths s c ⟨s.journal, (c.map .called).toList ++ s.log⟩ := .idle hcall
  cases call.interrupted with
  | true =>
    cases h with
    | unchanged hcall _ => exact idle hcall
    | created _ => exact idle fun c hc => absurd hc (Option.not_mem_none c)
    | saved hget hchange _ => exact idle fun c hc => ⟨_, hget, hchange.made c hc⟩
    | removed hget hmade _ => exact idle fun c hc => ⟨_, hget, Option.mem_some.1 hc ▸ hmade⟩
  | false =>
    cases h with
    | @unchanged c result hcall hresult =>
      cases result with
      | error _ => exact idle hcall
      | ok x =>
        obtain ⟨j', event⟩ := x
        obtain ⟨rfl, rfl⟩ := hresult j' event rfl
        exact idle hcall
    | created hinsert =>
      obtain ⟨hfresh, hrecord⟩ := insert_record hinsert
      exact .created rfl hfresh hrecord
    | saved hget hchange hsave =>
      exact .saved hget hchange (saveCas_record hget hchange.sameIdentity hsave)
    | removed hget hmade hdelete =>
      rw [deleteCas_eq_ok hdelete]
      exact .removed hget rfl hmade record_delete

/-- The record that is found after one row was written. -/
theorem update_eq_some {f : Uuid → Option ComputerRecord} {id id' : Uuid} {v : Option ComputerRecord}
    (h : Function.update f id v id' = some r) : (id' = id ∧ v = some r) ∨ (id' ≠ id ∧ f id' = some r) := by
  by_cases hid : id' = id
  · subst hid
    rw [Function.update_self] at h
    exact .inl ⟨rfl, h⟩
  · rw [Function.update_of_ne hid] at h
    exact .inr ⟨hid, h⟩

end CYC.Provision
