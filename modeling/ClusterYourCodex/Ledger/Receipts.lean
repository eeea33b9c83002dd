import ClusterYourCodex.Ledger.Verification

/-! The two receipts that end a run as moves: the completion, which ties the lease to an obligation, and
the cleanup receipt, which settles it. -/

namespace CYC

open Checked Relational

variable {env : Env} {db db' : Db} {r : Uuid} {T now : Int}
variable {workerCredential runCredential : String}

/-! ### Completion -/

section Completion

variable {c : RunCompletion} {stored stored' : StoredJob} {j : JobRow} {l : LeaseRow} {claim : WorkerClaimRow} {run : Run}

/-- The instant until which a lease waits for cleanup. -/
def cleanupDeadline (env : Env) : Int := satI64 (env.now.timestamp + cleanupReservationTtlSeconds)

def LeaseRow.await (env : Env) (l : LeaseRow) : LeaseRow :=
  { l with phase := .cleanupPending, expiresAt := cleanupDeadline env }

def RunCompletion.row (env : Env) (c : RunCompletion) : RunCompletionRow where
  runId := c.runId
  document := c
  documentSha256 := completionSha256 c
  createdAt := env.now.timestamp

/-- The obligation that comes with the acknowledgement of a completion. -/
def RunCompletion.obligation (env : Env) (j : JobRow) (c : RunCompletion) : CleanupObligationRow where
  runId := c.runId
  jobId := j.job.id
  leaseId := c.leaseId
  stateVersion := j.version
  finalState := j.run.state
  completionSha256 := completionSha256 c
  terminalAcknowledgedAt := env.now.timestamp
  cleanupDeadlineAt := cleanupDeadline env
  reservationReleasedAt := none
  releaseReason := none
  cleanupFailureCode := none
  failureObservedAt := none

theorem onCalendar_cleanupDeadline (env : Env) : OnCalendar (cleanupDeadline env) := by
  have := env.now_onClock
  simp only [DateTime.OnClock, OnCalendar, DateTime.Representable, DateTime.ofTimestamp, DateTime.addSeconds,
    DateTime.timestamp, cleanupDeadline, cleanupReservationTtlSeconds, satI64, i64Min, i64Max] at this ⊢
  omega

theorem commitCompletion_eq_ok (ha : Authorized db T now c.runId c.leaseId j l claim) (hid : run.id = c.runId)
    (h : commitCompletion env db { j.stored with run } c = .ok (db', stored')) :
    db'.ledger = db.ledger.set c.runId
      { job := some (casRow env { j.stored with run } j), lease := some (l.await env),
        claim := some (claim.revoke env.now.timestamp), completion := some (c.row env),
        obligation := some (c.obligation env (casRow env { j.stored with run } j)),
        chunks := db.chunksOf c.runId, artifacts := db.artifactsOf c.runId } := by
  simp only [commitCompletion, bind_eq_ok, pair_eq_ok, Prod.exists, inserted_eq_ok] at h
  obtain ⟨db₁, stored₁, hcas, completions, hcompletion, obligations, hobligation, -, -, rfl, rfl⟩ := h
  obtain ⟨-, -, rfl, hledger₁⟩ := updateJobCas_eq_ok (by rw [ha.rows]) hid hcas
  rw [ha.rows] at hledger₁
  -- the completion
  generalize hdb₂ : ({ db₁ with runCompletions := completions } : Db) = db₂ at hobligation ⊢
  have hledger₂ := ledger_runCompletions (Table.lookup_insert RunCompletionRow.clash_of_runId hcompletion).2
  rw [hdb₂, rowsOf_of_ledger hledger₁, hledger₁, Ledger.set_set] at hledger₂
  -- the claim
  generalize hdb₃ : revokeClaims db₂ c.runId env.now.timestamp = db₃ at hobligation ⊢
  have hledger₃ := ledger_revokeClaims db₂ c.runId env.now.timestamp
  rw [hdb₃, rowsOf_of_ledger hledger₂, hledger₂, Ledger.set_set] at hledger₃
  -- the lease and the obligation
  have hlease : (db₃.rowsOf c.runId).lease = some l := by rw [rowsOf_of_ledger hledger₃]
  have hselected : awaitsCleanup c j.job.id l = true := by
    simp [awaitsCleanup, ha.lease, ha.leaseRun, ha.leaseJob, ha.job, ha.held, ha.phase]
  refine (ledger_leases_runCleanupObligations (r := c.runId) (Table.lookup_modify hlease (fun a _ h => ?_) hselected fun _ => ?_)
    (Table.lookup_insert CleanupObligationRow.clash_of_runId hobligation).2).trans ?_
  · simp only [awaitsCleanup, Bool.and_eq_true, decide_eq_true_eq] at h
    exact h.1.1.1.2
  · rfl
  · rw [rowsOf_of_ledger hledger₃, hledger₃, Ledger.set_set]
    rfl

/-- An executing run that its receipt moves to a terminal state is a completed one. -/
theorem Executing.complete (he : Executing T c.runId j l claim) (hlease : l.id = c.leaseId) (hterminal : c.finalState.isTerminal = true)
    {t : DateTime} (hmoved : j.run.Moved run c.finalState t) :
    Completed T c.runId (casRow env { j.stored with run } j) (l.await env) (claim.revoke now) (c.row env)
      (c.obligation env (casRow env { j.stored with run } j)) none :=
  { he.toLeased.cas env { j.stored with run } hmoved.id hmoved.jobId he.bound hmoved.createdAt
      (he.started_of_moved hmoved (by rintro h; rw [h] at hterminal; cases hterminal)) with
    sized := { he.sized with }
    node := hmoved.nodeId.trans he.node
    boundNode := he.boundNode
    claimRun := he.claimRun
    claimLease := he.claimLease
    claimNode := he.claimNode
    completionRun := rfl
    finalState := hmoved.state.symm
    obligationRun := rfl
    obligationJob := he.job
    obligationLease := hlease.symm
    stateVersion := rfl
    obligationState := rfl
    completionSha256 := rfl
    acknowledgedAt := rfl
    acknowledged := env.onCalendar
    deadline := onCalendar_cleanupDeadline env
    receipt := nofun
    pending := fun _ => ⟨rfl, nofun⟩
    freed := nofun
    failure := rfl
    observed := nofun
    terminal := by simp only [casRow, hmoved.state]; exact hterminal
    phase := rfl
    revoked := by simp
    released := he.held.symm }

theorem moved_of_finishRun {t : DateTime} (h : finishRun j.run c t = .ok run) : j.run.Moved run c.finalState t := by
  simp only [finishRun, bind_eq_ok, pure_eq_ok] at h
  obtain ⟨run₁, htransition, rfl⟩ := h
  exact { moved_of_transition htransition with }

theorem completeRun_moves (hc : db.ledger.Coherent T) (hvalid : c.validate = .ok ())
    (hget : getJobByRunId db c.runId = .ok stored)
    (h : completeRun env db workerCredential runCredential stored c = .ok (db', stored')) :
    db.ledger.OnRun T c.runId db'.ledger := by
  simp only [completeRun, bind_eq_ok, mapError_eq_ok, Prod.exists] at h
  obtain ⟨db₁, _, hauth, -, -, -, -, _, hmanaged, run, hfinish, -, -, hcommit⟩ := h
  obtain ⟨hledger, j, l, claim, ha, -⟩ := authorizeRunTx_eq_ok hc hauth
  obtain ⟨j', hj', hdecode⟩ := getJobByRunId_eq_ok.1 hget
  rw [← db.rows_ledger, ← hledger, db₁.rows_ledger, ha.rows] at hj'
  cases hj'
  obtain ⟨-, -, rfl⟩ := decodeJobRow_eq_ok.1 hdecode
  have hmoved : j.run.Moved run c.finalState _ := moved_of_finishRun hfinish
  have hterminal : c.finalState.isTerminal = true := by
    simp only [RunCompletion.validate, seq_eq_ok, ensure_eq_ok] at hvalid
    exact hvalid.1
  have hcommit := commitCompletion_eq_ok ha (hmoved.id.trans ha.run) hcommit
  rw [hcommit, ← hledger, ← db₁.ledger.store_objects]
  refine .single (.complete ha.rows ha.held (ha.toExecuting.complete ha.lease hterminal hmoved) rfl fun hsucceeded => ?_)
  exact { evidenced_of_validate hvalid (hmoved.state.symm.trans hsucceeded) hmanaged with }

theorem authorizeCompletionReceiptTx_eq_ok {leaseId nodeId : Uuid}
    (h : authorizeCompletionReceiptTx db workerCredential runCredential r leaseId now = .ok (db', nodeId)) :
    db'.ledger = db.ledger ∧ ∃ c, Entitled db workerCredential runCredential r leaseId c := by
  simp only [authorizeCompletionReceiptTx, bind_eq_ok, pair_eq_ok, Prod.exists, required_eq_ok, ensure_eq_ok,
    decide_eq_true_eq] at h
  obtain ⟨db₁, _, hauth, c, hclaim, -, hnode, rfl, -⟩ := h
  have hledger := Db.ledger_of_jobTables (jobTables_authenticateWorkerTx hauth)
  obtain ⟨hclaim, hlease, hsecret⟩ := claimOf_eq_some.1 hclaim
  rw [← db₁.rows_ledger, hledger] at hclaim
  exact ⟨hledger, c, hclaim, hlease, hsecret, now, db₁, by rw [hauth, hnode]⟩

theorem jobTables_authorizeCompletionReceiptTx {leaseId nodeId : Uuid}
    (h : authorizeCompletionReceiptTx db workerCredential runCredential r leaseId now = .ok (db', nodeId)) :
    db'.jobTables = db.jobTables := by
  simp only [authorizeCompletionReceiptTx, bind_eq_ok, pair_eq_ok, Prod.exists] at h
  obtain ⟨db₁, _, hauth, _, -, -, -, rfl, -⟩ := h
  exact jobTables_authenticateWorkerTx hauth

theorem workerCompleteManaged_served (hc : db.ledger.Coherent T)
    (h : workerCompleteManaged env db workerCredential runCredential c = .ok (db', stored')) :
    ∃ db₁, Served env T db db' workerCredential runCredential c.runId c.leaseId db₁ := by
  simp only [workerCompleteManaged, bind_eq_ok, mapError_eq_ok, Prod.exists] at h
  obtain ⟨_, hvalid, db₁, n, hexpire, db₂, nodeId, hauth, stored, hget, -, -, h⟩ := h
  obtain ⟨hsteps, -⟩ := expireLeases_steps hc env.onCalendar hexpire
  obtain ⟨hledger, hentitled⟩ := authorizeCompletionReceiptTx_eq_ok hauth
  refine ⟨db₁, ⟨n, hexpire⟩, hentitled, hledger ▸ ?_⟩
  split at h
  · simp only [bind_eq_ok, pair_eq_ok] at h
    obtain ⟨-, -, rfl, -⟩ := h
    exact .refl
  · exact completeRun_moves (hledger ▸ Ledger.coherent_steps hc hsteps) hvalid hget h

end Completion

/-! ### Cleanup -/

section Cleanup

variable {receipt : CleanupReceipt} {j : JobRow} {l : LeaseRow} {c : WorkerClaimRow} {d : RunCompletionRow}
  {o : CleanupObligationRow} {rows : RunRows}

/-- The obligation after a receipt: a removal frees a reservation that is still held. -/
def CleanupObligationRow.settle (receipt : CleanupReceipt) (now : Int) (o : CleanupObligationRow) : CleanupObligationRow :=
  if receipt.outcome = .removed ∧ o.reservationReleasedAt = none then
    { o with reservationReleasedAt := some now, releaseReason := some .removedReceipt }
  else o

def LeaseRow.settle (receipt : CleanupReceipt) (now : Int) (l : LeaseRow) : LeaseRow :=
  if receipt.outcome = .removed then l.release now else l

theorem LeaseRow.settle_nodeId (receipt : CleanupReceipt) (now : Int) (l : LeaseRow) :
    (l.settle receipt now).nodeId = l.nodeId := by
  unfold settle
  split <;> rfl

theorem LeaseRow.held_of_settle (h : (l.settle receipt now).releasedAt = none) : l.releasedAt = none := by
  unfold settle at h
  split at h
  · exact absurd h (l.release_ne_none now)
  · exact h

theorem CleanupObligationRow.settle_of_freed (h : o.reservationReleasedAt ≠ none) : o.settle receipt now = o :=
  if_neg fun hsettle => h hsettle.2

theorem releaseObligation_eq_ok {leaseId : Uuid} (ho : (db.rowsOf r).obligation = some o) (hlease : o.leaseId = leaseId)
    (h : releaseObligation db o.stored r leaseId now = .ok db') (hremoved : receipt.outcome = .removed) :
    db' = { db with runCleanupObligations := db'.runCleanupObligations } ∧
      db'.ledger = db.ledger.set r { db.rowsOf r with obligation := some (o.settle receipt now) } := by
  have hrun := (mem_of_obligation ho).2
  unfold releaseObligation at h
  split at h
  · rename_i hreleased
    cases h
    have hheld : o.reservationReleasedAt ≠ none := by
      simpa [CleanupObligationRow.stored, Option.isSome_iff_ne_none] using hreleased
    refine ⟨rfl, ?_⟩
    rw [CleanupObligationRow.settle_of_freed hheld, ← ho]
    exact (db.ledger.set_rows r).symm
  · rename_i hreleased
    have hheld : o.reservationReleasedAt = none := by
      simpa [CleanupObligationRow.stored] using hreleased
    simp only [seq_eq_ok, pure_eq_ok] at h
    obtain ⟨-, rfl⟩ := h
    refine ⟨rfl, ?_⟩
    rw [CleanupObligationRow.settle, if_pos ⟨hremoved, hheld⟩]
    refine ledger_runCleanupObligations (Table.lookup_modify ho (fun a _ ha => ?_) ?_ fun _ => rfl)
    · simp only [heldObligation, Bool.and_eq_true, decide_eq_true_eq] at ha
      exact ha.1.1
    · simp [heldObligation, hrun, hlease, hheld]

/-- What a matched receipt does to the lease and the obligation of its run. -/
theorem settleReservation_eq_ok (hl : (db.rowsOf receipt.runId).lease = some l)
    (ho : (db.rowsOf receipt.runId).obligation = some o) (hlease : o.leaseId = l.id) (hreceipt : receipt.leaseId = l.id)
    (h : settleReservation db receipt now = .ok db') :
    db'.ledger = db.ledger.set receipt.runId
      { db.rowsOf receipt.runId with lease := some (l.settle receipt now), obligation := some (o.settle receipt now) } := by
  unfold settleReservation at h
  split at h
  · rename_i hremoved
    simp only [releaseCleanupReservationTx, bind_eq_ok, required_eq_ok, pure_eq_ok, Prod.exists] at h
    obtain ⟨_, hget, current, rfl, -, -, db₁, hobligation, db₂, _, hrelease, rfl⟩ := h
    obtain ⟨o', ho', rfl⟩ := getCleanupObligationTx_eq_some hget
    cases ho.symm.trans ho'
    obtain ⟨-, hledger₁⟩ := releaseObligation_eq_ok ho (hlease.trans hreceipt.symm) hobligation hremoved
    rw [hreceipt] at hrelease
    obtain ⟨-, hledger⟩ := releaseLease_eq_ok (by rw [rowsOf_of_ledger hledger₁]; exact hl) hrelease
    rw [hledger, rowsOf_of_ledger hledger₁, hledger₁, Ledger.set_set, LeaseRow.settle, if_pos hremoved]
  · rename_i hkept
    cases h
    rw [LeaseRow.settle, if_neg hkept, CleanupObligationRow.settle, if_neg (fun h => hkept h.1), ← hl, ← ho]
    exact (db.ledger.set_rows _).symm

/-- The first receipt of a completed run. -/
theorem Completed.answer {x : RunCleanupRow} (h : Completed T r j l c d o none) (hx : Answers x o) (hnow : OnCalendar now) :
    Completed T r j (l.settle x.document now) c d (o.settle x.document now) (some x) := by
  have only : ∀ y, some x = some y → Answers y o := fun y hy => Option.some.inj hy ▸ hx
  by_cases hsettle : x.document.outcome = .removed ∧ o.reservationReleasedAt = none
  · rw [LeaseRow.settle, if_pos hsettle.1, CleanupObligationRow.settle, if_pos hsettle]
    exact { h with
      sized := h.sized.release
      receipt := fun y hy => { only y hy with }
      pending := nofun
      freed := fun t ht => by
        cases ht
        exact ⟨hnow, .inl ⟨rfl, x, rfl, hsettle.1⟩⟩
      released := by simp [LeaseRow.release, ← h.released, hsettle.2] }
  · have hlease : l.settle x.document now = l := by
      unfold LeaseRow.settle
      split
      · rename_i hremoved
        exact LeaseRow.release_of_released (h.released ▸ fun hheld => hsettle ⟨hremoved, hheld⟩)
      · rfl
    rw [hlease, CleanupObligationRow.settle, if_neg hsettle]
    exact { h with
      receipt := only
      pending := fun hheld => ⟨(h.pending hheld).1, fun y hy hremoved => hsettle ⟨Option.some.inj hy ▸ hremoved, hheld⟩⟩
      freed := fun t ht => by
        obtain ⟨ht, ⟨-, y, hy, -⟩ | hdeadline⟩ := h.freed t ht
        · cases hy
        · exact ⟨ht, .inr hdeadline⟩ }

/-- A receipt that is sent again changes nothing. -/
theorem Completed.settle_replay {x : RunCleanupRow} (h : Completed T r j l c d o (some x)) (now : Int) :
    l.settle x.document now = l ∧ o.settle x.document now = o := by
  by_cases hremoved : x.document.outcome = .removed
  · have hfreed : o.reservationReleasedAt ≠ none := fun hheld => (h.pending hheld).2 x rfl hremoved
    rw [LeaseRow.settle, if_pos hremoved]
    exact ⟨LeaseRow.release_of_released (h.released ▸ hfreed), CleanupObligationRow.settle_of_freed hfreed⟩
  · rw [LeaseRow.settle, if_neg hremoved, CleanupObligationRow.settle, if_neg (fun h => hremoved h.1)]
    exact ⟨rfl, rfl⟩

/-- A receipt that matches the obligation of its run settles it, or has done so before. -/
theorem storeReceipt_moves {receivedAt : DateTime} {stored : StoredCleanup}
    (hrows : db.rowsOf receipt.runId = { rows with job := some j, lease := some l, claim := some c, completion := some d,
                                                   obligation := some o })
    (hcompleted : Completed T receipt.runId j l c d o rows.cleanup)
    (hmatch : matchesObligation receipt j.stored o.stored = true) (hnow : OnCalendar receivedAt.timestamp)
    (h : storeReceipt db receipt receivedAt = .ok (db', stored)) : db.ledger.OnRun T receipt.runId db'.ledger := by
  simp only [matchesObligation, Bool.and_eq_true, decide_eq_true_eq] at hmatch
  obtain ⟨⟨⟨⟨⟨⟨-, hrun⟩, hlease⟩, hversion⟩, hstate⟩, hsha⟩, hack⟩ := hmatch
  have hreceipt : receipt.leaseId = l.id := hlease.symm.trans hcompleted.obligationLease
  have hcleanup : rows.cleanup = (db.rowsOf receipt.runId).cleanup := by rw [hrows]
  unfold storeReceipt at h
  split at h
  · rename_i x hfind
    simp only [bind_eq_ok, pair_eq_ok, ensure_eq_ok, Bool.and_eq_true, decide_eq_true_eq] at h
    obtain ⟨-, ⟨-, hsame⟩, db₁, hsettle, _, -, rfl, -⟩ := h
    have hledger := settleReservation_eq_ok (by rw [hrows]) (by rw [hrows]) hcompleted.obligationLease hreceipt hsettle
    rw [hcleanup, show (db.rowsOf receipt.runId).cleanup = some x from hfind] at hcompleted
    obtain ⟨hl, ho⟩ := hcompleted.settle_replay receivedAt.timestamp
    rw [hsame] at hl ho
    rw [hl, ho] at hledger
    have hrest : { db.rowsOf receipt.runId with lease := some l, obligation := some o } = db.rowsOf receipt.runId := by
      rw [hrows]
    rw [hledger, hrest]
    exact (db.ledger.set_rows receipt.runId).symm ▸ .refl
  · rename_i hfind
    simp only [bind_eq_ok, pair_eq_ok, inserted_eq_ok] at h
    obtain ⟨cleanups, hinsert, db₁, hsettle, rfl, -⟩ := h
    rw [hcleanup, show (db.rowsOf receipt.runId).cleanup = none from hfind] at hcompleted
    generalize hx : RunCleanupRow.mk _ _ _ _ = x at hinsert
    have hanswers : Answers x o := by
      rw [← hx]
      exact ⟨hrun.symm, hrun.symm, hlease.symm, hversion.symm, hstate.symm, hsha.symm, hack.symm⟩
    have hxrun : x.runId = receipt.runId := by rw [← hx]
    have hxdoc : x.document = receipt := by rw [← hx]
    generalize hdb₀ : ({ db with runCleanups := cleanups } : Db) = db₀ at hsettle
    have hledger₀ := ledger_runCleanups (Table.lookup_insert RunCleanupRow.clash_of_runId hinsert).2
    rw [hdb₀, hxrun, hrows] at hledger₀
    have hrows₀ := rowsOf_of_ledger hledger₀
    have hledger := settleReservation_eq_ok (by rw [hrows₀]) (by rw [hrows₀]) hcompleted.obligationLease hreceipt hsettle
    rw [hrows₀, hledger₀, Ledger.set_set] at hledger
    have hanswered := hcompleted.answer hanswers hnow
    rw [hxdoc] at hanswered
    rw [hledger, ← db.ledger.store_objects]
    exact .single (.settle hrows hanswered (l.settle_nodeId ..) LeaseRow.held_of_settle
      (fun hfreed => CleanupObligationRow.settle_of_freed hfreed) fun y hy => by rw [hcleanup] at hy; cases hfind.symm.trans hy)

theorem recordCleanup_served {stored : StoredCleanup} (hc : db.ledger.Coherent T)
    (h : recordCleanup env db workerCredential runCredential receipt = .ok (db', stored)) :
    ∃ db₁, Served env T db db' workerCredential runCredential receipt.runId receipt.leaseId db₁ := by
  simp only [recordCleanup, Env.second, bind_eq_ok, timestamp_eq_ok, required_eq_ok, ensure_eq_ok, Prod.exists] at h
  obtain ⟨-, -, receivedAt, ⟨-, rfl⟩, db₁, n, hexpire, db₂, nodeId, hauth, stored₀, hget, -, -, _, hobligation,
    obligation, rfl, -, hmatch, _, -, -, -, _, -, -, -, h⟩ := h
  have hnow : OnCalendar (DateTime.ofTimestamp env.now.timestamp).timestamp := by
    rw [DateTime.timestamp_ofTimestamp]
    exact env.onCalendar
  obtain ⟨hsteps, -⟩ := expireLeases_steps hc hnow hexpire
  obtain ⟨hledger, hentitled⟩ := authorizeCompletionReceiptTx_eq_ok hauth
  rw [DateTime.timestamp_ofTimestamp] at hexpire
  refine ⟨db₁, ⟨n, hexpire⟩, hentitled, hledger ▸ ?_⟩
  have hc₂ : db₂.ledger.Coherent T := hledger ▸ Ledger.coherent_steps hc hsteps
  obtain ⟨o, ho, rfl⟩ := getCleanupObligationTx_eq_some hobligation
  obtain ⟨j, l, c, d, hcompleted, hrows⟩ := completed_of_obligation (hc₂ receipt.runId) ho
  obtain ⟨j', hj', hdecode⟩ := getJobByRunId_eq_ok.1 hget
  obtain ⟨-, -, rfl⟩ := decodeJobRow_eq_ok.1 hdecode
  rw [db₂.rows_ledger] at hrows
  rw [hrows] at hj'
  cases hj'
  exact storeReceipt_moves hrows hcompleted hmatch hnow h

end Cleanup

end CYC
