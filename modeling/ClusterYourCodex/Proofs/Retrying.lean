import ClusterYourCodex.Proofs.Readiness

/-! Adding a computer is retried under the identities of the first attempt. The request itself is not kept: a repetition is
compared with the record that it made, and the record is saved again and again. Every save keeps what the record has of the
request, but forgetting the credential also takes back the choice to remember it. -/

namespace CYC.Provision

open Checked Relational

variable {paths : PathRules} {j j' : Journal} {r r' saved : ComputerRecord} {id node : Uuid} {input : NewComputer} {usable : Bool}
  {now savedAt : DateTime} {revision : Nat} {driver : Driver} {s : Desk}

/-! ### The request in the record -/

/-- The request and the node that was named with it, as the record has them. -/
def ComputerRecord.request (r : ComputerRecord) : NewComputer × Uuid :=
  (⟨r.displayName, r.endpoint, r.sshAuthentication, r.credentialPolicy.rememberRequested, r.configuration⟩, r.intendedNodeId)

/-- The request with the choice to remember the credential taken back. -/
def unremembered (request : NewComputer × Uuid) : NewComputer × Uuid :=
  ({ request.1 with rememberCredential := false }, request.2)

theorem unremembered_of_not {request : NewComputer × Uuid} (h : request.1.rememberCredential = false) :
    unremembered request = request := by
  obtain ⟨⟨_, _, _, _, _⟩, _⟩ := request
  cases h
  rfl

theorem applyCompletion_request {action : ProvisioningAction} {completion : StepCompletion}
    (h : applyCompletion r action completion = .ok r') : r'.request = r.request := by
  unfold applyCompletion at h
  split at h
  all_goals first
    | cases h; rfl
    | simp only [bind_eq_ok, pure_eq_ok] at h
      first
        | obtain ⟨_, -, rfl⟩ := h; rfl
        | obtain ⟨_, -, _, -, rfl⟩ := h; rfl
        | obtain ⟨_, -, _, -, _, -, rfl⟩ := h; rfl
    | cases h

/-- A change keeps the request, unless it answers a call that forgets the credential. -/
theorem Change.request {call : Option DriverCall} {event : Option Event} (h : Change r call event r') :
    r'.request = r.request ∨ ∃ request answer, call = some (.forgetCredential request answer) := by
  cases h with
  | approved _ _ _ | intended _ _ _ | tornDown _ | dropped _ => exact .inl rfl
  | repaired hnext =>
    rw [nextCycle_eq_ok hnext]
    exact .inl rfl
  | rolledBack hnext =>
    rw [resetAfterRollback_eq_ok hnext]
    exact .inl rfl
  | forgotten _ => exact .inr ⟨_, _, rfl⟩
  | failed _ failure =>
    unfold failedRecord
    cases failure.rejectsCredential <;> exact .inl rfl
  | completed _ happly => exact .inl (applyCompletion_request happly)

/-! ### Calls that forget -/

theorem forgetCredential_eq_ok (h : (forgetCredential paths j id revision savedAt driver).result = .ok (j', saved)) :
    ∃ r, j.record id = some r ∧ j'.record = Function.update j.record id
      (some (stamped savedAt r { r with credentialReference := none, credentialPolicy := ⟨false, .forgotten⟩ })) := by
  unfold forgetCredential at h
  cases hload : loadExpected paths j id revision with
  | error e =>
    rw [hload] at h
    cases h
  | ok r =>
    rw [hload] at h
    obtain ⟨hget, rfl, rfl⟩ := get_of_loadExpected hload
    dsimp only at h
    split at h
    · cases h
    · split at h
      · cases h
      · dsimp only at h
        split at h
        · split at h <;> cases h
        · have hsave := mapError_eq_ok.1 h
          exact ⟨r, (get_eq_ok.1 hget).1, saveCas_record hget ⟨rfl, rfl, rfl, rfl⟩ hsave⟩

/-- A drive that calls for the credential to be forgotten is the last one: it removes the record. -/
theorem driveOnce_forgets {request : DriverRequest} {answer : Except DriverFailure Unit} {outcome : DriveOutcome}
    (hcall : (driveOnce paths j id revision savedAt driver).call = some (.forgetCredential request answer))
    (h : (driveOnce paths j id revision savedAt driver).result = .ok (j', outcome)) :
    j'.record = Function.update j.record id none := by
  unfold driveOnce at hcall h
  cases hload : loadExpected paths j id revision with
  | error e =>
    rw [hload] at h
    cases h
  | ok r =>
    rw [hload] at hcall h
    dsimp only at hcall h
    cases hintent : r.intent with
    | resume | retry =>
      rw [hintent] at hcall
      cases hcall
    | rollback =>
      rw [hintent] at hcall
      dsimp only [driveRollback] at hcall
      split at hcall <;> cases hcall
    | continuing =>
      rw [hintent] at hcall
      dsimp only [driveContinue, driveAction] at hcall
      repeat' split at hcall
      all_goals cases hcall
    | remove =>
      rw [hintent] at hcall h
      dsimp only [driveRemove] at hcall h
      split at hcall
      · rename_i hteardown
        rw [if_pos hteardown] at h
        simp only [bind_eq_ok, mapError_eq_ok, pair_eq_ok] at h
        obtain ⟨_, -, _, hdelete, rfl, -⟩ := h
        rw [deleteCas_eq_ok hdelete, record_delete]
      · cases hcall

/-- The call succeeds in forgetting the credential of the record. -/
def forgets (paths : PathRules) (id : Uuid) (s : Desk) (call : EngineCall) : Bool :=
  !call.interrupted && match call.op with
    | .forgetCredential id' revision =>
      id' = id && (forgetCredential paths s.journal id' revision call.savedAt call.driver).result.isOk
    | _ => false

theorem forgets_eq_true {call : EngineCall} (h : forgets paths id s call = true) : call.interrupted = false ∧
    ∃ revision j' saved, call.op = .forgetCredential id revision ∧
      (forgetCredential paths s.journal id revision call.savedAt call.driver).result = .ok (j', saved) := by
  obtain ⟨hrun, hop⟩ := Bool.and_eq_true_iff.1 h
  refine ⟨by simpa using hrun, ?_⟩
  split at hop
  · rename_i id' revision hcall
    obtain ⟨hid, hok⟩ := Bool.and_eq_true_iff.1 hop
    cases of_decide_eq_true hid
    obtain ⟨⟨j', saved⟩, hresult⟩ := exists_ok_of_isOk hok
    exact ⟨revision, j', saved, hcall, hresult⟩
  · cases hop

/-- A call that did not get to its save leaves the journal as it was. -/
theorem journal_step (paths : PathRules) (s : Desk) (call : EngineCall) :
    (call.interrupted = false ∧ ∃ event, (Desk.serve paths s.journal call).result =
      .ok ((Desk.step paths s call).journal, event)) ∨ (Desk.step paths s call).journal = s.journal := by
  cases hrun : call.interrupted with
  | true =>
    refine .inr ?_
    simp only [Desk.step, hrun, if_true]
  | false =>
    cases hresult : (Desk.serve paths s.journal call).result with
    | error e =>
      refine .inr ?_
      simp only [Desk.step, hrun, hresult]
      rfl
    | ok x =>
      refine .inl ⟨rfl, x.2, ?_⟩
      simp only [Desk.step, hrun, hresult]
      rfl

/-! ### The request along a run -/

theorem request_forget {call : EngineCall} (hforgets : forgets paths id s call = true)
    (hr : s.journal.record id = some r)
    (hr' : (Desk.step paths s call).journal.record id = some r') : r'.request = unremembered r.request := by
  obtain ⟨hrun, revision, j', saved, hop, hresult⟩ := forgets_eq_true hforgets
  obtain ⟨r₀, hr₀, hlookup⟩ := forgetCredential_eq_ok hresult
  have hstep : (Desk.step paths s call).journal = j' := by
    simp only [Desk.step, Desk.serve, hop, hrun, hresult]
    rfl
  rw [hstep, hlookup, Function.update_self] at hr'
  cases hr.symm.trans hr₀
  cases hr'
  rfl

/-- A driver call that forgets the credential of another record leaves this one alone. -/
theorem lookup_of_forgets {call : EngineCall} {request : DriverRequest} {answer : Except DriverFailure Unit}
    {event : Option Event} (hforgets : forgets paths id s call = false) (hrun : call.interrupted = false)
    (hcall : (Desk.serve paths s.journal call).call = some (.forgetCredential request answer))
    (hresult : (Desk.serve paths s.journal call).result = .ok (j', event)) (hr' : j'.record id = some r') :
    s.journal.record id = some r' := by
  cases hop : call.op with
  | create | createIdempotent | approveHostKey | requestIntent | beginRepair =>
    simp only [Desk.serve, hop] at hcall
    cases hcall
  | forgetCredential id' revision =>
    simp only [Desk.serve, hop] at hresult
    cases hforgot : (forgetCredential paths s.journal id' revision call.savedAt call.driver).result with
    | error e =>
      rw [hforgot] at hresult
      cases hresult
    | ok x =>
      rw [hforgot] at hresult
      cases hresult
      obtain ⟨r₀, -, hlookup⟩ := forgetCredential_eq_ok hforgot
      have hne : id ≠ id' := by
        rintro rfl
        simp [forgets, hrun, hop, hforgot, Except.isOk, Except.toBool] at hforgets
      rwa [hlookup, Function.update_of_ne hne] at hr'
  | driveOnce id' revision =>
    simp only [Desk.serve, hop] at hcall hresult
    cases hdrive : (driveOnce paths s.journal id' revision call.savedAt call.driver).result with
    | error e =>
      rw [hdrive] at hresult
      cases hresult
    | ok x =>
      rw [hdrive] at hresult
      cases hresult
      rw [driveOnce_forgets hcall hdrive] at hr'
      obtain ⟨-, hnone⟩ | ⟨-, hr'⟩ := update_eq_some hr'
      · cases hnone
      · exact hr'

theorem request_keep {call : EngineCall} (hforgets : forgets paths id s call = false)
    (hr : s.journal.record id = some r)
    (hr' : (Desk.step paths s call).journal.record id = some r') : r'.request = r.request := by
  have same {r₁ : ComputerRecord} (hr₁ : s.journal.record id = some r₁) : r₁.request = r.request := by
    cases hr.symm.trans hr₁
    rfl
  rcases journal_step paths s call with ⟨hrun, event, hresult⟩ | hsame
  · by_cases hcall : ∃ request answer, (Desk.serve paths s.journal call).call = some (.forgetCredential request answer)
    · obtain ⟨request, answer, hcall⟩ := hcall
      exact same (lookup_of_forgets hforgets hrun hcall hresult hr')
    · have hstepped : Stepped paths s (Desk.serve paths s.journal call).call (Desk.step paths s call) := stepped s call
      generalize Desk.step paths s call = s', (Desk.serve paths s.journal call).call = c at hstepped hr' hcall
      cases hstepped with
      | idle _ => exact same hr'
      | created _ hfresh hlookup =>
        rw [hlookup] at hr'
        obtain ⟨rfl, -⟩ | ⟨-, hr'⟩ := update_eq_some hr'
        · cases hr.symm.trans hfresh
        · exact same hr'
      | saved hget hchange hlookup =>
        rw [hlookup] at hr'
        obtain ⟨rfl, hsaved⟩ | ⟨-, hr'⟩ := update_eq_some hr'
        · cases hsaved
          rcases hchange.request with hrequest | hforget
          · exact hrequest.trans (same (get_eq_ok.1 hget).1)
          · exact absurd hforget hcall
        · exact same hr'
      | removed hget _ _ hlookup =>
        rw [hlookup] at hr'
        obtain ⟨-, hnone⟩ | ⟨-, hr'⟩ := update_eq_some hr'
        · cases hnone
        · exact same hr'
  · rw [hsame] at hr'
    exact same hr'

/-- The record is there after every call. -/
def Lasts (paths : PathRules) (id : Uuid) : Desk → List EngineCall → Prop :=
  History.Along (Desk.step paths) fun s call => ((Desk.step paths s call).journal.record id).isSome = true

/-- No call forgets the credential of the record. -/
def Remembers (paths : PathRules) (id : Uuid) : Desk → List EngineCall → Prop :=
  History.Along (Desk.step paths) fun s call => forgets paths id s call = false

instance (paths : PathRules) (id : Uuid) (s : Desk) (calls : List EngineCall) : Decidable (Lasts paths id s calls) :=
  inferInstanceAs (Decidable (History.Along ..))

instance (paths : PathRules) (id : Uuid) (s : Desk) (calls : List EngineCall) : Decidable (Remembers paths id s calls) :=
  inferInstanceAs (Decidable (History.Along ..))

theorem request_after {calls : List EngineCall} (hlasts : Lasts paths id s calls)
    (hr : s.journal.record id = some r) :
    ∃ r', (Desk.after paths s calls).journal.record id = some r' ∧
      r'.request = if Remembers paths id s calls then r.request else unremembered r.request := by
  induction calls generalizing s r with
  | nil => exact ⟨r, hr, (if_pos trivial).symm⟩
  | cons call calls ih =>
    obtain ⟨r₁, hr₁⟩ := Option.isSome_iff_exists.1 hlasts.1
    obtain ⟨r', hr', hrequest⟩ := ih hlasts.2 hr₁
    refine ⟨r', hr', hrequest.trans ?_⟩
    cases hforgets : forgets paths id s call with
    | false =>
      have hiff : Remembers paths id s (call :: calls) ↔ Remembers paths id (Desk.step paths s call) calls :=
        and_iff_right hforgets
      rw [request_keep hforgets hr hr₁]
      simp only [hiff]
    | true =>
      have hnot : ¬ Remembers paths id s (call :: calls) := fun h => by
        cases hforgets.symm.trans h.1
      rw [if_neg hnot, request_forget hforgets hr hr₁]
      split <;> rfl

/-! ### Stored records can be read -/

/-- Every row is the row of a valid record. -/
def Readable (paths : PathRules) (j : Journal) : Prop :=
  ∀ id row, j.lookup ComputerRow.id id = some row → ∃ r : ComputerRecord, row = r.row ∧ r.validate paths = .ok ()

theorem Readable.get (h : Readable paths j) (hr : j.record id = some r) : j.get paths id = .ok r := by
  obtain ⟨r₁, hrow, hvalid⟩ := h id r.row (record_eq_some.1 hr)
  obtain rfl : r = r₁ := Option.some.inj (congrArg ComputerRow.document hrow)
  exact get_eq_ok.2 ⟨hr, hvalid⟩

theorem Readable.write (h : Readable paths j) (hr : r.validate paths = .ok ())
    (hlookup : j'.lookup ComputerRow.id = Function.update (j.lookup ComputerRow.id) id (some r.row)) : Readable paths j' := by
  intro id' row hrow
  rw [hlookup] at hrow
  by_cases hid : id' = id
  · rw [hid, Function.update_self] at hrow
    exact ⟨r, (Option.some.inj hrow).symm, hr⟩
  · rw [Function.update_of_ne hid] at hrow
    exact h id' row hrow

theorem Readable.delete (h : Readable paths j) : Readable paths (j.delete fun row => row.id = id) := by
  intro id' row hrow
  rw [Table.lookup_delete] at hrow
  by_cases hid : id' = id
  · rw [hid, Function.update_self] at hrow
    cases hrow
  · rw [Function.update_of_ne hid] at hrow
    exact h id' row hrow

theorem Readable.step (h : Readable paths s.journal) (call : EngineCall) : Readable paths (Desk.step paths s call).journal := by
  rcases journal_step paths s call with ⟨-, event, hresult⟩ | hsame
  · have hserved : Served paths s.journal (Desk.serve paths s.journal call) := served call
    generalize Desk.serve paths s.journal call = turn at hserved hresult
    cases hserved with
    | unchanged _ hkept =>
      rw [(hkept _ _ hresult).1]
      exact h
    | created hinsert =>
      cases hresult
      obtain ⟨hvalid, -, hlookup⟩ := insert_lookup hinsert
      exact h.write hvalid hlookup
    | saved hget hchange hsave =>
      cases hresult
      obtain ⟨hvalid, hlookup⟩ := saveCas_lookup hget hchange.sameIdentity hsave
      exact h.write hvalid hlookup
    | removed _ _ hdelete =>
      cases hresult
      rw [deleteCas_eq_ok hdelete]
      exact h.delete
  · rw [hsame]
    exact h

theorem readable_after (calls : List EngineCall) : Readable paths (Desk.after paths .initial calls).journal := by
  have hrun : ∀ s : Desk, Readable paths s.journal → Readable paths (Desk.after paths s calls).journal := by
    induction calls with
    | nil => exact fun s h => h
    | cons call calls ih => exact fun s h => ih _ (h.step call)
  exact hrun _ fun _ _ hrow => by cases hrow

/-- The record of a valid request is valid. -/
theorem validate_newWithIdentity (now : DateTime) (hvalid : input.validate paths usable = .ok ()) (hid : id.isNil = false)
    (hnode : node.isNil = false) : (ComputerRecord.newWithIdentity input now id node).validate paths = .ok () := by
  simp only [NewComputer.validate, SshAuthenticationPolicy.validateForNew, seq_eq_ok] at hvalid
  obtain ⟨hname, hendpoint, ⟨hdurable, -⟩, hremember, hconfiguration⟩ := hvalid
  refine validate_eq_ok.2 ⟨?_, ?_, ?_, rfl, rfl, hconfiguration, rfl, rfl, rfl, rfl⟩
  · simp only [ComputerRecord.validateIdentity, seq_eq_ok]
    refine ⟨rfl, ?_, hname, hendpoint, hdurable⟩
    simp [ComputerRecord.newWithIdentity, hid, hnode]
  · rw [ensure_eq_ok] at hremember
    simp only [ComputerRecord.validateAuthentication, ComputerRecord.newWithIdentity, ensure_eq_ok]
    rcases (Bool.or_eq_true _ _).mp hremember with hpassword | hnot
    · simp [of_decide_eq_true hpassword]
    · simp [(Bool.not_eq_true' _).mp hnot]
  · simp [ComputerRecord.validateTimestamps, ComputerRecord.newWithIdentity]

theorem insert_existing (hvalid : r.validate paths = .ok ()) (hrevision : r.revision = 1)
    (hexists : j.record r.id = some r') : j.insert paths r = .error (.alreadyExists r.id) := by
  have hinsert : Table.insert j ⟨r.id, 1, some r.createdAt, some r.updatedAt, some r⟩ = none :=
    Table.insert_eq_none (Table.lookup_some (record_eq_some.1 hexists)).1 (decide_eq_true (id_of_record hexists))
  have hcolumn : revisionToI64 1 = .ok 1 := by decide
  simp only [Journal.insert, hvalid, Except.mapError, hrevision, hcolumn, decide_true, ensure_true, ok_bind, hinsert, required]

/-- The comparison is one with the request in the record. -/
theorem compares_eq : (decide (r.intendedNodeId = node) && decide (r.displayName = input.displayName) &&
    decide (r.endpoint = input.endpoint) && decide (r.sshAuthentication = input.sshAuthentication) &&
    decide (r.configuration = input.configuration) &&
    decide (r.credentialPolicy.rememberRequested = input.rememberCredential)) = decide (r.request = (input, node)) := by
  obtain ⟨_, _, _, _, _⟩ := input
  rw [Bool.eq_iff_iff]
  simp only [Bool.and_eq_true, decide_eq_true_eq, ComputerRecord.request, Prod.mk.injEq, NewComputer.mk.injEq]
  tauto

/-- A valid request under an identity that is taken is compared with the record. -/
theorem createIdempotent_existing (hget : j.get paths id = .ok r) :
    createIdempotent paths j id now input usable node = (do
      (input.validate paths usable).mapError .validation
      ensure (!(id.isNil || node.isNil)) .invalidIdentity
      if r.request = (input, node) then .ok (j, r) else .error .idempotencyConflict) := by
  unfold createIdempotent
  cases hvalid : input.validate paths usable with
  | error e => rfl
  | ok _ =>
    simp only [Except.mapError, ok_bind]
    cases hnil : (id.isNil || node.isNil) with
    | true => rfl
    | false =>
      obtain ⟨hid, hnode⟩ := Bool.or_eq_false_iff.1 hnil
      have hnew := validate_newWithIdentity now hvalid hid hnode
      have hinsert := insert_existing hnew rfl (get_eq_ok.1 hget).1
      simp only [Bool.not_false, ensure_true, ok_bind, hnew, hinsert, hget, compares_eq]
      split
      · rename_i hsame
        rw [decide_eq_true hsame]
        rfl
      · rename_i hdiffers
        rw [decide_eq_false hdiffers]
        rfl

/-- A request that is answered has its record. -/
theorem createIdempotent_eq_ok (h : createIdempotent paths j id now input usable node = .ok (j', r)) :
    (id.isNil = false ∧ node.isNil = false) ∧ j'.record id = some r ∧ r.request = (input, node) := by
  simp only [createIdempotent, bind_eq_ok, mapError_eq_ok, ensure_eq_ok] at h
  obtain ⟨_, -, _, hnil, _, -, h⟩ := h
  refine ⟨Bool.or_eq_false_iff.1 ((Bool.not_eq_true' _).mp hnil), ?_⟩
  split at h
  · rename_i hinsert
    cases h
    refine ⟨?_, rfl⟩
    rw [(insert_record hinsert).2]
    exact Function.update_self ..
  · simp only [bind_eq_ok, mapError_eq_ok, ensure_eq_ok, compares_eq, pair_eq_ok, decide_eq_true_eq] at h
    obtain ⟨_, hget, _, hsame, rfl, rfl⟩ := h
    exact ⟨(get_eq_ok.1 hget).1, hsame⟩
  · cases h

theorem createIdempotent_repeats_iff (now : DateTime) (hget : j.get paths id = .ok r) (hid : id.isNil = false)
    (hnode : node.isNil = false) :
    createIdempotent paths j id now input usable node = .ok (j, r) ↔
      input.validate paths usable = .ok () ∧ r.request = (input, node) := by
  simp only [createIdempotent_existing hget, bind_eq_ok, mapError_eq_ok, ensure_eq_ok, hid, hnode]
  constructor
  · rintro ⟨_, hvalid, _, -, h⟩
    split at h
    · rename_i hsame
      exact ⟨hvalid, hsame⟩
    · cases h
  · rintro ⟨hvalid, hsame⟩
    exact ⟨(), hvalid, (), rfl, if_pos hsame⟩

theorem createIdempotent_conflicts_iff (hget : j.get paths id = .ok r) (hid : id.isNil = false) :
    createIdempotent paths j id now input usable node = .error .idempotencyConflict ↔
      input.validate paths usable = .ok () ∧ node.isNil = false ∧ r.request ≠ (input, node) := by
  simp only [createIdempotent_existing hget, bind_eq_error, mapError_eq_ok, mapError_eq_error, ensure_eq_ok, ensure_eq_error,
    hid, Bool.false_or]
  constructor
  · rintro (⟨_, -, h⟩ | ⟨_, hvalid, ⟨-, h⟩ | ⟨_, hnil, h⟩⟩)
    · cases h
    · cases h
    · split at h
      · cases h
      · rename_i hdiffers
        exact ⟨hvalid, (Bool.not_eq_true' _).mp hnil, hdiffers⟩
  · rintro ⟨hvalid, hnode, hdiffers⟩
    exact .inr ⟨(), hvalid, .inr ⟨(), by rw [hnode]; rfl, if_neg hdiffers⟩⟩

/-- Adding a computer again. In every run, once a request under an identity was answered and as long as its record is there:
the same request is answered with the record as it is and changes nothing, exactly if it passes its check and no call forgot
a credential that it asked to remember; and a request that differs is refused as a conflict, exactly if it passes its check
and is not the one that the record looks like since then. -/
theorem computer_requests_idempotent_iff (paths : PathRules) (before later : List EngineCall) (first : EngineCall)
    (input : NewComputer) (usable : Bool) (id node : Uuid) (j₁ : Journal) (r₁ : ComputerRecord)
    (hop : first.op = .createIdempotent input usable id node) (hrun : first.interrupted = false)
    (hok : createIdempotent paths (Desk.after paths .initial before).journal id first.now input usable node = .ok (j₁, r₁))
    (hlasts : Lasts paths id (Desk.after paths .initial (before ++ [first])) later) :
    (∀ now usable', (∃ r, (Desk.after paths .initial (before ++ [first] ++ later)).journal.record id = some r ∧
        createIdempotent paths (Desk.after paths .initial (before ++ [first] ++ later)).journal id now input usable' node =
          .ok ((Desk.after paths .initial (before ++ [first] ++ later)).journal, r)) ↔
      input.validate paths usable' = .ok () ∧ (input.rememberCredential = false ∨
        Remembers paths id (Desk.after paths .initial (before ++ [first])) later)) ∧
    ∀ now input' usable' node', (input', node') ≠ (input, node) →
      (createIdempotent paths (Desk.after paths .initial (before ++ [first] ++ later)).journal id now input' usable' node' =
          .error .idempotencyConflict ↔
        input'.validate paths usable' = .ok () ∧ node'.isNil = false ∧
          (Remembers paths id (Desk.after paths .initial (before ++ [first])) later ∨
            (input', node') ≠ unremembered (input, node))) := by
  obtain ⟨⟨hid, hnode⟩, hlookup, hrequest⟩ := createIdempotent_eq_ok hok
  have hfirst : (Desk.after paths .initial (before ++ [first])).journal = j₁ := by
    rw [Desk.after, History.after_append]
    show (Desk.step paths (Desk.after paths .initial before) first).journal = j₁
    simp only [Desk.step, Desk.serve, hop, hrun, hok]
    rfl
  have hafter : Desk.after paths (Desk.after paths .initial (before ++ [first])) later =
      Desk.after paths .initial (before ++ [first] ++ later) := (History.after_append ..).symm
  have hreadable : Readable paths (Desk.after paths .initial (before ++ [first] ++ later)).journal := readable_after _
  obtain ⟨r, hr, hr'⟩ := request_after hlasts (hfirst ▸ hlookup)
  rw [hafter] at hr
  rw [hrequest] at hr'
  generalize Desk.after paths .initial (before ++ [first]) = s₁ at hr'
  have hget := hreadable.get hr
  constructor
  · intro now usable'
    have hsame : r.request = (input, node) ↔ input.rememberCredential = false ∨ Remembers paths id s₁ later := by
      rw [hr']
      split
      · rename_i hremembers
        simp [hremembers]
      · rename_i hforgot
        simp only [hforgot, or_false]
        exact ⟨fun h => by rw [← congrArg (fun x => x.1.rememberCredential) h]; rfl, fun h => unremembered_of_not h⟩
    rw [← hsame, ← createIdempotent_repeats_iff now hget hid hnode]
    constructor
    · rintro ⟨r₂, hr₂, h⟩
      cases hr.symm.trans hr₂
      exact h
    · intro h
      exact ⟨r, hr, h⟩
  · intro now input' usable' node' hdiffers
    rw [createIdempotent_conflicts_iff hget hid, hr']
    refine and_congr_right fun _ => and_congr_right fun _ => ?_
    split
    · rename_i hremembers
      simp only [hremembers, true_or, iff_true]
      exact hdiffers.symm
    · rename_i hforgot
      simp only [hforgot, false_or]
      exact ne_comm

/-! ### A credential that is forgotten -/

/-- The laptop, with its credential to be remembered. -/
def remembered : NewComputer := { laptop with rememberCredential := true }

def addRemembered : EngineCall := laptopCall 1000 (.createIdempotent remembered true ⟨1⟩ ⟨2⟩)

/-- The laptop is driven until it is ready, and its credential is forgotten. -/
def forgettingCalls : List EngineCall := readyCalls.tail ++ [laptopCall 1016 (.forgetCredential ⟨1⟩ 16)]

/-- Before anything else happens the request is answered again, and refused under another name. -/
theorem computer_requests_idempotent_iff_added :
    (∃ r, (Desk.after desktopPaths .initial [addRemembered]).journal.record ⟨1⟩ = some r ∧
      createIdempotent desktopPaths (Desk.after desktopPaths .initial [addRemembered]).journal ⟨1⟩ (.ofTimestamp 1001)
        remembered true ⟨2⟩ = .ok ((Desk.after desktopPaths .initial [addRemembered]).journal, r)) ∧
      createIdempotent desktopPaths (Desk.after desktopPaths .initial [addRemembered]).journal ⟨1⟩ (.ofTimestamp 1001)
        laptop true ⟨2⟩ = .error .idempotencyConflict := by
  have hok : (createIdempotent desktopPaths Desk.initial.journal ⟨1⟩ (.ofTimestamp 1000) remembered true ⟨2⟩).isOk = true := by
    decide +kernel
  obtain ⟨⟨j₁, r₁⟩, hfirst⟩ := exists_ok_of_isOk hok
  obtain ⟨hrepeated, hdiffering⟩ := computer_requests_idempotent_iff desktopPaths [] [] addRemembered remembered true ⟨1⟩ ⟨2⟩
    j₁ r₁ rfl rfl hfirst trivial
  exact ⟨(hrepeated (.ofTimestamp 1001) true).2 ⟨by decide +kernel, .inr trivial⟩,
    (hdiffering (.ofTimestamp 1001) laptop true ⟨2⟩ (by decide)).2 ⟨by decide +kernel, rfl, .inl trivial⟩⟩

/-- Once the credential was forgotten, the request that made the record is refused. -/
theorem forgotten_request_refused :
    (createIdempotent desktopPaths Desk.initial.journal ⟨1⟩ (.ofTimestamp 1000) remembered true ⟨2⟩).isOk = true ∧
    Lasts desktopPaths ⟨1⟩ (Desk.after desktopPaths .initial [addRemembered]) forgettingCalls ∧
      createIdempotent desktopPaths (Desk.after desktopPaths .initial ([addRemembered] ++ forgettingCalls)).journal ⟨1⟩
        (.ofTimestamp 1017) remembered true ⟨2⟩ = .error .idempotencyConflict := by
  decide +kernel

end CYC.Provision
