import ClusterYourCodex.Ledger.Statements

/-! Lease maintenance as moves of runs: the release of reservations past their cleanup deadline, the
expiry of leases, and the redispatch of the runs that wait. Each loop is a sequence of moves, and after
the loop over expired leases every lease that is still held is a live one. -/

namespace CYC

open Checked Relational

variable {t : DateTime} {o : CleanupObligationRow} {l : LeaseRow} {j : JobRow} {c : WorkerClaimRow}
  {d : RunCompletionRow}

/-! ### Decoding -/

theorem timestamp_eq_ok {v : Int} : timestamp v = .ok t ↔ OnCalendar v ∧ .ofTimestamp v = t := by
  unfold timestamp OnCalendar
  split
  · rename_i h
    simp [h]
  · rename_i h
    simp [h]

theorem optionalTimestamp_eq_ok {v : Option Int} {t : Option DateTime} :
    optionalTimestamp v = .ok t ↔ (∀ s, v = some s → OnCalendar s) ∧ v.map DateTime.ofTimestamp = t := by
  cases v with
  | none => simp [optionalTimestamp]
  | some s =>
    simp only [optionalTimestamp, bind_eq_ok, timestamp_eq_ok, pure_eq_ok, Option.some.injEq, forall_eq', Option.map_some]
    constructor
    · rintro ⟨_, ⟨hs, rfl⟩, rfl⟩
      exact ⟨hs, rfl⟩
    · rintro ⟨hs, rfl⟩
      exact ⟨_, ⟨hs, rfl⟩, rfl⟩

/-- The second of an instant on the clock. -/
theorem onCalendar_timestamp (h : t.OnClock) : OnCalendar t.timestamp := by
  simp only [DateTime.OnClock, DateTime.addSeconds] at h
  simp only [OnCalendar, DateTime.Representable, DateTime.ofTimestamp, DateTime.timestamp]
  omega

theorem Env.onCalendar (env : Env) : OnCalendar env.now.timestamp := onCalendar_timestamp env.now_onClock

/-- The obligation of a row, as it is decoded. -/
def CleanupObligationRow.stored (o : CleanupObligationRow) : StoredCleanupObligation where
  jobId := o.jobId
  runId := o.runId
  leaseId := o.leaseId
  stateVersion := asU64 o.stateVersion
  finalState := o.finalState
  completionSha256 := o.completionSha256
  terminalAcknowledgedAt := .ofTimestamp o.terminalAcknowledgedAt
  cleanupDeadlineAt := .ofTimestamp o.cleanupDeadlineAt
  reservationReleasedAt := o.reservationReleasedAt.map .ofTimestamp
  releaseReason := o.releaseReason
  cleanupFailure := o.cleanupFailureCode.bind fun code =>
    o.failureObservedAt.map fun t => { code, observedAt := .ofTimestamp t }

theorem cleanupFailure_eq_ok {code : Option CleanupFailureCode} {observedAt : Option DateTime}
    {failure : Option CleanupFailure} : cleanupFailure code observedAt = .ok failure ↔
      code.isSome = observedAt.isSome ∧ (code.bind fun code => observedAt.map fun t => { code, observedAt := t }) = failure := by
  cases code <;> cases observedAt <;> simp [cleanupFailure]

variable {stored : StoredCleanupObligation} {L : Ledger} {rows : RunRows} {cleanup : Option RunCleanupRow}
  {n n' : Nat} {run run' : Run} {next : JobState} {env : Env}

theorem decodeObligation_eq_ok (h : decodeObligation o = .ok stored) : o.stored = stored := by
  simp only [decodeObligation, bind_eq_ok, optionalTimestamp_eq_ok, cleanupFailure_eq_ok, timestamp_eq_ok, pure_eq_ok] at h
  obtain ⟨_, ⟨-, rfl⟩, _, ⟨-, rfl⟩, _, ⟨-, rfl⟩, _, ⟨-, rfl⟩, _, ⟨-, rfl⟩, rfl⟩ := h
  simp only [CleanupObligationRow.stored, Option.map_map, Function.comp_def]

variable {db db' : Db} {r : Uuid} {T now : Int}

theorem getCleanupObligationTx_eq_some (h : getCleanupObligationTx db r = .ok (some stored)) :
    ∃ o, (db.rowsOf r).obligation = some o ∧ o.stored = stored := by
  unfold getCleanupObligationTx at h
  split at h
  · cases h
  · rename_i o ho
    simp only [bind_eq_ok, pure_eq_ok, Option.some.injEq] at h
    obtain ⟨_, hdecode, rfl⟩ := h
    exact ⟨o, ho, decodeObligation_eq_ok hdecode⟩

theorem getCompletionTx_eq_some {stored : StoredCompletion} (h : getCompletionTx db r = .ok (some stored)) :
    ∃ d, (db.rowsOf r).completion = some d ∧
      stored = { completion := d.document, sha256 := d.documentSha256, createdAt := .ofTimestamp d.createdAt } := by
  unfold getCompletionTx at h
  split at h
  · cases h
  · rename_i d hd
    simp only [bind_eq_ok, timestamp_eq_ok, pure_eq_ok, Option.some.injEq] at h
    obtain ⟨_, ⟨-, rfl⟩, rfl⟩ := h
    exact ⟨d, hd, rfl⟩

/-! ### Upkeep -/

/-- The lease holds its node for a worker that may still claim the run. -/
def LeaseRow.offeredAt (now : Int) (l : LeaseRow) : Bool :=
  l.phase = .dispatch && l.releasedAt.isNone && now < l.expiresAt

/-- The lease holds its node, and its run has not ended. -/
def LeaseRow.liveAt (now : Int) (l : LeaseRow) : Bool :=
  l.releasedAt.isNone && now < l.expiresAt && l.phase ≠ .cleanupPending

theorem LeaseRow.liveAt_of_offeredAt {now : Int} (h : l.offeredAt now = true) : l.liveAt now = true := by
  simp only [offeredAt, Bool.and_eq_true, decide_eq_true_eq] at h
  simp [liveAt, h.1.1, h.1.2, h.2]

/-- A run that is queued afterwards was so before. -/
def RunRows.Queues (rows rows' : RunRows) : Prop :=
  ∀ j', rows'.job = some j' → j'.run.state = .queued → ∃ j, rows.job = some j ∧ j.jobId = j'.jobId ∧ j.run.state = .queued

theorem RunRows.Queues.refl (rows : RunRows) : rows.Queues rows := fun j hj hqueued => ⟨j, hj, rfl, hqueued⟩

theorem RunRows.Queues.trans {rows₁ rows₂ rows₃ : RunRows} (h : rows₁.Queues rows₂) (h' : rows₂.Queues rows₃) :
    rows₁.Queues rows₃ := by
  intro j₃ hj₃ hqueued₃
  obtain ⟨j₂, hj₂, hid₂, hqueued₂⟩ := h' j₃ hj₃ hqueued₃
  obtain ⟨j₁, hj₁, hid₁, hqueued₁⟩ := h j₂ hj₂ hqueued₂
  exact ⟨j₁, hj₁, hid₁.trans hid₂, hqueued₁⟩

/-- Moves of the store's own: they queue and withdraw no run, and leave one alone whose lease is live. -/
structure Ledger.Upkeep (T now : Int) (L L' : Ledger) : Prop where
  steps : Ledger.Steps T False L L'
  queues : ∀ r, (L.rows r).Queues (L'.rows r)
  live : ∀ r l, (L.rows r).lease = some l → l.liveAt now = true → L'.rows r = L.rows r

theorem Ledger.Upkeep.refl : L.Upkeep T now L := ⟨.refl, fun _ => .refl _, fun _ _ _ _ => rfl⟩

theorem Ledger.Upkeep.trans {L₁ L₂ L₃ : Ledger} (h : L₁.Upkeep T now L₂) (h' : L₂.Upkeep T now L₃) : L₁.Upkeep T now L₃ where
  steps := h.steps.trans h'.steps
  queues r := (h.queues r).trans (h'.queues r)
  live r l hl hlive := by
    have hsame := h.live r l hl hlive
    exact (h'.live r l (hsame ▸ hl) hlive).trans hsame

theorem Ledger.Upkeep.single (h : Ledger.Step T False L (L.set r rows))
    (hqueues : (L.rows r).Queues rows) (hr : ∀ l, (L.rows r).lease = some l → l.liveAt now = false) : L.Upkeep T now (L.set r rows) where
  steps := .single h
  queues r' := by
    by_cases hr' : r' = r
    · subst hr'
      rw [Ledger.rows_set]
      exact hqueues
    · rw [Ledger.rows_set_of_ne hr']
      exact .refl _
  live r' l hl hlive := by
    refine Ledger.rows_set_of_ne ?_
    rintro rfl
    rw [hr l hl] at hlive
    cases hlive

/-! ### Cleanup deadlines -/

/-- A run with an obligation is a completed one. -/
theorem completed_of_obligation (h : Coherent T r rows) (ho : rows.obligation = some o) :
    ∃ j l c d, Completed T r j l c d o rows.cleanup ∧
      rows = { job := some j, lease := some l, claim := some c, completion := some d, cleanup := rows.cleanup,
               obligation := some o, chunks := rows.chunks, artifacts := rows.artifacts } := by
  cases h with
  | @completed j l c d _ _ _ _ h =>
    cases ho
    exact ⟨j, l, c, d, h, rfl⟩
  | _ => cases ho

/-- The evidence of a completed run is what the reaper asks for. -/
theorem provenTerminal_of_completed (h : Completed T r j l c d o cleanup) : provenTerminal o.stored j.stored
      { completion := d.document, sha256 := d.documentSha256, createdAt := .ofTimestamp d.createdAt } (some l) = true := by
  simp [provenTerminal, CleanupObligationRow.stored, JobRow.stored, h.terminal, h.job, h.obligationJob, h.run,
    h.obligationRun, h.leaseId, h.obligationLease, h.stateVersion, h.obligationState, h.completionSha256,
    h.acknowledgedAt, h.leaseRun, h.leaseJob, h.phase]

/-- An obligation that has been released is not marked. -/
theorem recordDeadlineFailure_of_released (ho : (db.rowsOf r).obligation = some o)
    (hreleased : o.reservationReleasedAt ≠ none) : recordDeadlineFailure db r now = db := by
  have : ∀ x ∈ db.runCleanupObligations.rows, (decide (x.runId = r) && x.reservationReleasedAt.isNone) = false := by
    intro x hx
    by_cases hrun : x.runId = r
    · cases Table.eq_of_clash hx (mem_of_obligation ho).1
        (CleanupObligationRow.clash_of_runId _ _ (hrun.trans (mem_of_obligation ho).2.symm))
      rw [Option.isNone_eq_false_iff.2 (Option.isSome_iff_ne_none.2 hreleased), Bool.and_false]
    · simp [hrun]
  simp only [recordDeadlineFailure, Table.modify_eq_self this]

/-- The columns that deadline recovery writes. -/
def CleanupObligationRow.recover (now : Int) (o : CleanupObligationRow) : CleanupObligationRow :=
  { o with
    reservationReleasedAt := some now, releaseReason := some .deadlineRecovery,
    cleanupFailureCode := some .removedReceiptDeadlineExceeded, failureObservedAt := some now }

theorem Completed.recover (h : Completed T r j l c d o cleanup)
    (hheld : o.reservationReleasedAt = none) (hdue : o.cleanupDeadlineAt ≤ now) (hnow : OnCalendar now) :
    Completed T r j (l.release now) c d (o.recover now) cleanup :=
  { h with
    sized := { h.sized with }
    receipt := fun x hx => { h.receipt x hx with }
    pending := nofun
    freed := fun t ht => by
      cases ht
      exact ⟨hnow, .inr ⟨rfl, hdue, nofun⟩⟩
    failure := rfl
    observed := fun t ht => by cases ht; exact hnow
    released := by simp [LeaseRow.release, ← h.released, hheld, CleanupObligationRow.recover] }

theorem recoverDeadline_upkeep (hnow : OnCalendar now)
    (hrows : db.rowsOf r = { rows with job := some j, lease := some l, claim := some c, completion := some d,
                                       obligation := some o }) (hcompleted : Completed T r j l c d o rows.cleanup)
    (h : recoverDeadline db o.stored now = .ok (db', n)) : db.ledger.Upkeep T now db'.ledger := by
  have ho : (db.rowsOf r).obligation = some o := by rw [hrows]
  unfold recoverDeadline at h
  split at h
  · cases h; exact .refl
  rename_i hcount
  -- the row that is due is the run's own obligation
  obtain ⟨x, hx, hdue⟩ := List.countP_pos_iff.1 (by omega :
    0 < db.runCleanupObligations.rows.countP (deadlineReached o.stored now))
  have hrun : ∀ x, deadlineReached o.stored now x = true → x.runId = r := by
    intro x hx
    simp only [deadlineReached, Bool.and_eq_true, decide_eq_true_eq] at hx
    exact hx.1.1.1.trans hcompleted.obligationRun
  cases Table.eq_of_clash hx (mem_of_obligation ho).1
    (CleanupObligationRow.clash_of_runId _ _ ((hrun x hdue).trans hcompleted.obligationRun.symm))
  have hheld : o.reservationReleasedAt = none ∧ o.cleanupDeadlineAt ≤ now := by
    simp only [deadlineReached, Bool.and_eq_true, decide_eq_true_eq, Option.isNone_iff_eq_none] at hdue
    exact ⟨hdue.1.2, hdue.2⟩
  simp only [bind_eq_ok, pair_eq_ok, Prod.exists] at h
  obtain ⟨db₁, _, hrelease, rfl, -⟩ := h
  generalize hdb₀ : ({ db with runCleanupObligations := _ } : Db) = db₀ at hrelease
  have hledger : db₀.ledger = db.ledger.set r { db.rowsOf r with obligation := some (o.recover now) } := by
    rw [← hdb₀]
    exact ledger_runCleanupObligations
      (Table.lookup_modify (f := CleanupObligationRow.recover now) ho (fun a _ => hrun a) hdue fun _ => rfl)
  have hlease : (db₀.rowsOf r).lease = some l := by rw [rowsOf_of_ledger hledger, hrows]
  rw [show o.stored.leaseId = l.id from hcompleted.obligationLease] at hrelease
  obtain ⟨-, hledger₁⟩ := releaseLease_eq_ok hlease hrelease
  rw [hledger₁, rowsOf_of_ledger hledger, hledger, Ledger.set_set, hrows]
  refine .single (.settle hrows (hcompleted.recover hheld.1 hheld.2 hnow) rfl (fun h => absurd h (by simp))
    (fun h => absurd hheld.1 h) fun x hx => hx) ?_ fun x hx => ?_
  · rw [db.rows_ledger, hrows]
    exact fun j' hj' hqueued => ⟨j', hj', rfl, hqueued⟩
  · rw [db.rows_ledger, hrows] at hx
    cases hx
    simp [LeaseRow.liveAt, hcompleted.phase]

theorem reapReservation_upkeep (hc : db.ledger.Coherent T) (hnow : OnCalendar now)
    (h : reapReservation now (db, n) r = .ok (db', n')) : db.ledger.Upkeep T now db'.ledger := by
  simp only [reapReservation, bind_eq_ok, required_eq_ok] at h
  obtain ⟨_, hobligation, obligation, rfl, stored, hstored, _, hcompletion, completion, rfl, h⟩ := h
  obtain ⟨o, ho, rfl⟩ := getCleanupObligationTx_eq_some hobligation
  obtain ⟨j, l, c, d, hcompleted, hrows⟩ := completed_of_obligation (hc r) ho
  obtain ⟨j', hj', hdecode⟩ := getJobByRunId_eq_ok.1 hstored
  obtain ⟨-, -, rfl⟩ := decodeJobRow_eq_ok.1 hdecode
  obtain ⟨d', hd', rfl⟩ := getCompletionTx_eq_some hcompletion
  rw [db.rows_ledger] at hrows
  have hl : (db.rowsOf r).lease = some l := by rw [hrows]
  rw [hrows] at hj' hd'
  cases hj'; cases hd'
  split at h
  · -- unproven: the lease has been released, and so has the obligation
    rename_i hunproven
    simp only [pair_eq_ok] at h
    obtain ⟨rfl, -⟩ := h
    rw [recordDeadlineFailure_of_released ho]
    · exact .refl
    intro hheld
    have hlease : (db.leases.find fun x => decide (x.id = o.stored.leaseId) && x.releasedAt.isNone) = some l := by
      refine Table.find_of_mem (fun a b ha hb => ?_) (mem_of_lease hl).1 ?_
      · simp only [Bool.and_eq_true, decide_eq_true_eq] at ha hb
        exact LeaseRow.clash_of_id _ _ (ha.1.trans hb.1.symm)
      · simp [CleanupObligationRow.stored, hcompleted.obligationLease, ← hcompleted.released, hheld]
    rw [hlease, provenTerminal_of_completed hcompleted] at hunproven
    cases hunproven
  · simp only [bind_eq_ok, pair_eq_ok, Prod.exists] at h
    obtain ⟨db₁, _, hrecover, rfl, -⟩ := h
    exact recoverDeadline_upkeep hnow hrows hcompleted hrecover

theorem reapExpiredCleanupReservationsTx_upkeep (hc : db.ledger.Coherent T) (hnow : OnCalendar now)
    (h : reapExpiredCleanupReservationsTx db now = .ok (db', n)) : db.ledger.Upkeep T now db'.ledger := by
  refine foldlM_induction (P := fun s : Db × Nat => db.ledger.Upkeep T now s.1.ledger) h .refl ?_
  intro r _ s s' hs hstep
  exact hs.trans (reapReservation_upkeep (Ledger.coherent_steps hc hs.steps) hnow hstep)

/-! ### Expired leases -/

theorem transition_eq_ok : run.transition next t = .ok run' ↔ run.state.canTransitionTo next = true ∧
      { run with
        startedAt := if next = .running && run.startedAt.isNone then some t else run.startedAt
        finishedAt := if next.isTerminal then some t else run.finishedAt
        state := next } = run' := by
  unfold Run.transition
  cases run.state.canTransitionTo next <;> simp

/-- What a transition keeps of a run. -/
structure Run.Moved (run run' : Run) (next : JobState) (t : DateTime) : Prop where
  id : run'.id = run.id
  jobId : run'.jobId = run.jobId
  nodeId : run'.nodeId = run.nodeId
  createdAt : run'.createdAt = run.createdAt
  state : run'.state = next
  startedAt : run'.startedAt = run.startedAt ∨ next = .running ∧ run'.startedAt = some t

theorem moved_of_transition (h : run.transition next t = .ok run') : run.Moved run' next t := by
  obtain ⟨-, rfl⟩ := transition_eq_ok.1 h
  refine ⟨rfl, rfl, rfl, rfl, rfl, ?_⟩
  simp only [Bool.and_eq_true, decide_eq_true_eq]
  split
  · rename_i hrunning
    exact .inr ⟨hrunning.1, rfl⟩
  · exact .inl rfl

theorem LeaseRow.Sized.release (h : l.Sized) : (l.release now).Sized := { h with }

theorem Claimed.release (h : Claimed r l c) : Claimed r (l.release now) (c.revoke now) :=
  { h with }

/-- A transition to a state other than running keeps the start of the run. -/
theorem Leased.started_of_moved (h : Leased T r j l) (hmoved : j.run.Moved run next t)
    (hnext : next ≠ .running) : ∀ s, run.startedAt = some s → j.run.createdAt.nanos ≤ s.nanos ∧ s.nanos ≤ T := by
  intro s hs
  rcases hmoved.startedAt with hsame | ⟨hrunning, -⟩
  · exact h.started s (hsame ▸ hs)
  · exact absurd hrunning hnext

/-- A job row written under its version stays the row of its run. -/
theorem Leased.cas (env : Env) (stored : StoredJob) (h : Leased T r j l) (hrun : stored.run.id = j.run.id)
    (hjob : stored.run.jobId = j.run.jobId)
    (hbound : ∃ b, stored.planBinding = some b ∧ b.validate (some j.job) none = .ok ())
    (hcreated : stored.run.createdAt = j.run.createdAt)
    (hstarted : ∀ s, stored.run.startedAt = some s → j.run.createdAt.nanos ≤ s.nanos ∧ s.nanos ≤ T) :
    Leased T r (casRow env stored j) l :=
  { h with
    run := hrun.trans h.run
    runJob := hjob.trans h.runJob
    bound := hbound
    version := asI64_range _
    created := by simp only [casRow, hcreated]; exact h.created
    started := by simp only [casRow, hcreated]; exact hstarted }

theorem Leased.release (h : Leased T r j l) : Leased T r j (l.release now) :=
  { h with sized := h.sized.release }

theorem Dispatched.requeue (h : Dispatched T r j l) :
    Waiting T r (casRow env (requeueRun j.stored) j) (l.release now) :=
  { h.toLeased.cas env (requeueRun j.stored) rfl rfl h.bound rfl h.started |>.release with
    node := rfl
    state := h.state
    cancel := h.cancel
    phase := h.phase
    released := by simp }

theorem Executing.lose {stored : StoredJob} (h : Executing T r j l c) (now : Int)
    (hfail : failRun env j.stored = .ok stored) : Lost T r (casRow env stored j) (l.release now) (c.revoke now) := by
  simp only [failRun, bind_eq_ok, mapError_eq_ok, transition_eq_ok, pure_eq_ok] at hfail
  obtain ⟨_, ⟨-, rfl⟩, -, -, rfl⟩ := hfail
  exact
    { h.toLeased.cas env _ rfl rfl h.bound rfl h.started |>.release, h.toClaimed.release with
      node := h.node
      boundNode := h.boundNode
      state := rfl
      released := by simp
      revoked := by simp }

/-- What the expiry of a lease does to the job row of its run. -/
theorem expireRun_eq_ok (hj : (db.rowsOf l.runId).job = some j) (h : expireRun env db l = .ok db') :
    (l.phase = .dispatch ∧ j.run.state = .queued ∧ ∃ stored,
      updateJobCas env db (requeueRun j.stored) = .ok (db', stored)) ∨
    (¬(l.phase = .dispatch ∧ j.run.state = .queued) ∧ j.run.state.isTerminal = false ∧ ∃ stored stored',
      failRun env j.stored = .ok stored ∧ updateJobCas env db stored = .ok (db', stored')) ∨
    (j.run.state.isTerminal = true ∧ db' = db) := by
  unfold expireRun at h
  split at h
  · rename_i hget
    simp only [getJobByRunId, bind_eq_error, required_eq_error, required_eq_ok] at hget
    rcases hget with ⟨hnone, -⟩ | ⟨_, -, hdecode⟩
    · cases hnone.symm.trans hj
    · cases decodeJobRow_eq_error hdecode
  · cases h
  · rename_i hget
    obtain ⟨j', hj', hdecode⟩ := getJobByRunId_eq_ok.1 hget
    cases hj.symm.trans hj'
    obtain ⟨-, -, rfl⟩ := decodeJobRow_eq_ok.1 hdecode
    split at h
    · rename_i hdispatch
      simp only [bind_eq_ok, pure_eq_ok, Prod.exists] at h
      obtain ⟨_, stored, hcas, rfl⟩ := h
      exact .inl ⟨hdispatch.1, hdispatch.2, stored, hcas⟩
    · rename_i hdispatch
      split at h
      · rename_i hactive
        simp only [bind_eq_ok, pure_eq_ok, Prod.exists] at h
        obtain ⟨stored, hfail, _, stored', hcas, rfl⟩ := h
        exact .inr (.inl ⟨hdispatch, by simpa using hactive, stored, stored', hfail, hcas⟩)
      · rename_i hterminal
        cases h
        exact .inr (.inr ⟨by simpa using hterminal, rfl⟩)

/-- The expiry of a held lease moves its run, and the lease is released. -/
theorem expireLease_step (hc : db.ledger.Coherent T)
    (hl : (db.rowsOf l.runId).lease = some l) (hexpired : l.expiredAt now = true)
    (h : expireLease env now (db, n) l = .ok (db', n')) :
    ∃ rows, db'.ledger = db.ledger.set l.runId rows ∧ rows.lease = some (l.release now) ∧
      Ledger.Step T False db.ledger (db.ledger.set l.runId rows) ∧ (db.rowsOf l.runId).Queues rows := by
  simp only [LeaseRow.expiredAt, Bool.and_eq_true, Option.isNone_iff_eq_none, decide_eq_true_eq] at hexpired
  obtain ⟨⟨hheld, -⟩, hphase⟩ := hexpired
  simp only [expireLease, bind_eq_ok, pair_eq_ok, Prod.exists] at h
  obtain ⟨db₁, hrun, db₂, _, hrelease, rfl, -⟩ := h
  -- the claim and the lease, after the job row has been written
  have after : ∀ rows, db₁.ledger = db.ledger.set l.runId rows → rows.lease = some l →
      db₂.ledger = db.ledger.set l.runId
        { rows with lease := some (l.release now), claim := rows.claim.map (WorkerClaimRow.revoke now) } := by
    intro rows hrows hlease
    have hrev := ledger_revokeClaims db₁ l.runId now
    rw [rowsOf_of_ledger hrows, hrows, Ledger.set_set] at hrev
    obtain ⟨-, hrel⟩ := releaseLease_eq_ok (by rw [rowsOf_of_ledger hrev]; exact hlease) hrelease
    rw [hrel, rowsOf_of_ledger hrev, hrev, Ledger.set_set]
  have hcoherent := hc l.runId
  rw [db.rows_ledger] at hcoherent
  generalize hrows : db.rowsOf l.runId = rows at hcoherent hl
  cases hcoherent with
  | absent => cases hl
  | waiting hw | withdrawn hw | lost hw => cases hl; exact absurd hheld hw.released
  | completed hw => cases hl; exact absurd hw.phase hphase
  | @dispatched j _ hd =>
    cases hl
    rcases expireRun_eq_ok (by rw [hrows]) hrun with ⟨-, -, stored, hcas⟩ | ⟨hnot, -⟩ | ⟨hterminal, -⟩
    · obtain ⟨-, -, -, hledger⟩ := updateJobCas_eq_ok (by rw [hrows]) hd.run hcas
      rw [hrows] at hledger
      refine ⟨_, after _ hledger rfl, rfl, .requeue hrows hd.requeue, ?_⟩
      rintro _ ⟨⟩ -
      exact ⟨j, rfl, rfl, hd.state⟩
    · exact absurd ⟨hd.phase, hd.state⟩ hnot
    · rw [hd.state] at hterminal; cases hterminal
  | @executing j _ c chunks artifacts he =>
    cases hl
    rcases expireRun_eq_ok (by rw [hrows]) hrun with ⟨hdispatch, -⟩ | ⟨-, -, stored, _, hfail, hcas⟩ | ⟨hterminal, -⟩
    · rw [he.phase] at hdispatch; cases hdispatch
    · have hlost := he.lose now hfail
      obtain ⟨-, -, -, hledger⟩ := updateJobCas_eq_ok (by rw [hrows]) hlost.run hcas
      rw [hrows] at hledger
      refine ⟨_, after _ hledger rfl, rfl, .lose hrows hlost rfl, ?_⟩
      rintro _ ⟨⟩ hqueued
      cases hqueued.symm.trans hlost.state
    · rw [JobState.isTerminal_of_isActive he.state] at hterminal; cases hterminal

/-! ### The loop over expired leases -/

/-- No lease is held past its deadline, except to wait for cleanup. -/
def Ledger.Live (L : Ledger) (now : Int) : Prop := ∀ r l, (L.rows r).lease = some l → l.expiredAt now = false

theorem perm_orderedBy {α β γ : Type} [LinearOrder β] [LinearOrder γ] (major : α → β) (minor : α → γ) (rows : List α) :
    (orderedBy major minor rows).Perm rows := List.perm_insertionSort _ _

theorem runId_pairwise_leases (db : Db) : db.leases.rows.Pairwise fun a b => a.runId ≠ b.runId := by
  refine db.leases.apart.imp fun {a b} h hrun => ?_
  rw [LeaseRow.clash_of_runId a b hrun] at h
  cases h

/-- The induction is on the leases that are left; each is still the lease of its run. -/
theorem expireLease_loop {leases : List LeaseRow} (hc : db.ledger.Coherent T)
    (hdistinct : leases.Pairwise fun a b => a.runId ≠ b.runId)
    (hstored : ∀ l ∈ leases, (db.rowsOf l.runId).lease = some l ∧ l.expiredAt now = true)
    (hrest : ∀ r l, (db.rowsOf r).lease = some l → l.expiredAt now = true → l ∈ leases)
    (h : leases.foldlM (expireLease env now) (db, n) = .ok (db', n')) :
    db.ledger.Upkeep T now db'.ledger ∧ db'.ledger.Live now := by
  induction leases generalizing db n with
  | nil =>
    cases h
    exact ⟨.refl, fun r l hl => by simpa using hrest r l hl⟩
  | cons l leases ih =>
    rw [List.foldlM_cons, bind_eq_ok] at h
    obtain ⟨⟨db₁, n₁⟩, hstep, h⟩ := h
    rw [List.pairwise_cons] at hdistinct
    obtain ⟨hl, hexpired⟩ := hstored l List.mem_cons_self
    obtain ⟨rows, hledger, hlease, hmove, hqueues⟩ := expireLease_step hc hl hexpired hstep
    have hother : ∀ r, r ≠ l.runId → db₁.rowsOf r = db.rowsOf r := by
      intro r hr
      rw [← db₁.rows_ledger, hledger, Ledger.rows_set_of_ne hr, db.rows_ledger]
    have hupkeep : db.ledger.Upkeep T now db₁.ledger := by
      rw [hledger]
      refine .single hmove hqueues fun x hx => ?_
      cases hl.symm.trans hx
      simp only [LeaseRow.expiredAt, Bool.and_eq_true, decide_eq_true_eq] at hexpired
      simp [LeaseRow.liveAt, hexpired.1.2]
    have hstored₁ : ∀ x ∈ leases, (db₁.rowsOf x.runId).lease = some x ∧ x.expiredAt now = true := by
      intro x hx
      rw [hother x.runId (hdistinct.1 x hx).symm]
      exact hstored x (List.mem_cons_of_mem l hx)
    have hrest₁ : ∀ r x, (db₁.rowsOf r).lease = some x → x.expiredAt now = true → x ∈ leases := by
      intro r x hx hxexpired
      by_cases hr : r = l.runId
      · subst hr
        rw [rowsOf_of_ledger hledger, hlease] at hx
        cases hx
        simp [LeaseRow.expiredAt] at hxexpired
      · rw [hother r hr] at hx
        rcases List.mem_cons.1 (hrest r x hx hxexpired) with rfl | hmem
        · exact absurd (mem_of_lease hx).2.symm hr
        · exact hmem
    obtain ⟨hrest, hlive⟩ := ih (Ledger.coherent_steps hc hupkeep.steps) hdistinct.2 hstored₁ hrest₁ h
    exact ⟨hupkeep.trans hrest, hlive⟩

end CYC
