import ClusterYourCodex.Ledger.Receipts
import ClusterYourCodex.Ledger.Transactions

/-! The remaining operations as moves: submission, cancellation, reads and the calls about nodes and
pairings. Together with the worker's side they show that every call of a route is a sequence of moves. -/

namespace CYC

open Checked Relational

variable {env : Env} {db db' : Db} {r : Uuid} {T now : Int}
variable {stored : StoredJob} {planId : Option Uuid}

/-! ### Reads -/

/-- The rows that a job identifier or a run identifier names. -/
def JobRow.named (id : Uuid) (j : JobRow) : Bool := j.jobId = id || j.runId = id

theorem getJobPreferJobId_eq_ok {id : Uuid} (h : getJobPreferJobId db id = .ok stored) :
    ∃ j, (db.rowsOf j.runId).job = some j ∧ j.named id = true ∧ decodeJobRow j = .ok stored := by
  unfold getJobPreferJobId at h
  split at h
  · obtain ⟨j, hj, hdecode⟩ := getJobByRunId_eq_ok.1 h
    obtain ⟨hmem, hrun⟩ := mem_of_job hj
    exact ⟨j, job_of_mem hmem, by simp [JobRow.named, hrun], hdecode⟩
  · simp only [getJobByJobId, bind_eq_ok, required_eq_ok] at h
    obtain ⟨j, hj, hdecode⟩ := h
    obtain ⟨hmem, hid⟩ := Table.find_some hj
    exact ⟨j, job_of_mem hmem, by simp [JobRow.named, of_decide_eq_true hid], hdecode⟩

/-! ### Cancellation -/

section Cancel

variable {id : Uuid} {j : JobRow} {l : LeaseRow} {run : Run} {t : DateTime}

/-- Every queued run that the identifier names has its lease on offer. -/
def Offered (db : Db) (now : Int) (id : Uuid) : Prop :=
  ∀ j ∈ db.jobs.rows, j.named id = true → j.run.state = .queued →
    ∃ l ∈ db.leases.rows, l.runId = j.runId ∧ l.offeredAt now = true

instance (db : Db) (now : Int) (id : Uuid) : Decidable (Offered db now id) :=
  inferInstanceAs (Decidable (∀ j ∈ db.jobs.rows, j.named id = true → j.run.state = .queued → _))

/-- A run whose lease was on offer before maintenance is not waiting after it. -/
theorem Offered.not_waiting (h : Offered db now id) (hup : db.ledger.Upkeep T now db'.ledger)
    (hj : (db'.rowsOf j.runId).job = some j) (hid : j.named id = true) (hl : (db'.rowsOf j.runId).lease = some l) :
    ¬Waiting T j.runId j l := by
  intro hw
  obtain ⟨j₀, hj₀, hjob, hqueued⟩ := hup.queues j.runId j hj hw.state
  obtain ⟨hmem, hrun⟩ := mem_of_job hj₀
  have hid₀ : j₀.named id = true := by simpa [JobRow.named, hjob, hrun] using hid
  obtain ⟨l₀, hmem₀, hlrun, hoffered⟩ := h j₀ hmem hid₀ hqueued
  have hl₀ : (db.rowsOf j.runId).lease = some l₀ := hlrun.trans hrun ▸ lease_of_mem hmem₀
  have hsame := hup.live j.runId l₀ hl₀ (LeaseRow.liveAt_of_offeredAt hoffered)
  rw [db'.rows_ledger, db.rows_ledger] at hsame
  rw [hsame, hl₀] at hl
  cases hl
  simp only [LeaseRow.offeredAt, Bool.and_eq_true, Option.isNone_iff_eq_none] at hoffered
  exact hw.released hoffered.1.2

theorem Leased.withdraw (h : Leased T r j l) (hmoved : j.run.Moved run .cancelled t)
    (hnode : j.run.nodeId = none ∨ j.run.nodeId = j.boundNode) :
    Withdrawn T r (casRow env { j.stored with run } j) (l.release now) :=
  { h.cas env { j.stored with run } hmoved.id hmoved.jobId h.bound hmoved.createdAt (h.started_of_moved hmoved nofun)
      |>.release with
    node := by
      simp only [casRow, hmoved.nodeId]
      exact hnode
    state := hmoved.state
    released := by simp }

/-- The cancellation of a queued run. -/
theorem withdraw_step {waiting : Prop} {db₁ : Db} {b : Bool}
    (hrows : db.rowsOf r = { job := some j, lease := some l }) (hqueued : Dispatched T r j l ∨ Waiting T r j l)
    (hwaiting : Waiting T r j l → waiting) (hmoved : j.run.Moved run .cancelled t)
    (hcas : updateJobCas env db { j.stored with run } = .ok (db₁, stored))
    (hrelease : releaseLease db₁ (some l.id) now = .ok (db', b)) : Ledger.Step T waiting db.ledger db'.ledger := by
  have hleased : Leased T r j l := hqueued.elim (fun h => h.toLeased) fun h => h.toLeased
  obtain ⟨-, -, -, hledger₁⟩ := updateJobCas_eq_ok (by rw [hrows]) (hmoved.id.trans hleased.run) hcas
  rw [hrows] at hledger₁
  obtain ⟨-, hledger⟩ := releaseLease_eq_ok (by rw [rowsOf_of_ledger hledger₁]) hrelease
  rw [rowsOf_of_ledger hledger₁, hledger₁, Ledger.set_set] at hledger
  rw [hledger]
  rcases hqueued with hd | hw
  · refine .withdraw hrows (hleased.withdraw hmoved (.inr (hd.node.trans hd.boundNode.symm))) (.inr ?_)
    simp [casRow, hmoved.nodeId, hd.node]
  · exact .withdraw hrows (hleased.withdraw hmoved (.inl hw.node)) (.inl (hwaiting hw))

theorem cancelStored_eq_some {stored' : StoredJob} (h : cancelStored env stored = .ok (some stored')) :
    (stored.run.state = .queued ∧ ∃ run, stored.run.Moved run .cancelled (env.reading (.transition stored.run.id)) ∧
      stored' = { stored with run }) ∨
    (stored.run.state.isActive = true ∧ stored' = { stored with cancelRequested := true }) := by
  unfold cancelStored at h
  split at h
  · rename_i hqueued
    simp only [bind_eq_ok, mapError_eq_ok, pure_eq_ok, Option.some.injEq] at h
    obtain ⟨run, htransition, rfl⟩ := h
    exact .inl ⟨hqueued, run, moved_of_transition htransition, rfl⟩
  all_goals
    rename_i hstate
    first
      | cases h
      | split at h
        · cases h
        · cases h
          exact .inr ⟨by rw [hstate]; rfl, rfl⟩

theorem cancelJob_steps {waiting : Prop} {expectedVersion : Option Nat} (hc : db.ledger.Coherent T)
    (hwaiting : waiting ∨ Offered db env.now.timestamp id)
    (h : cancelJob env db id expectedVersion = .ok (db', stored)) : Ledger.Steps T waiting db.ledger db'.ledger := by
  simp only [cancelJob, bind_eq_ok, Prod.exists] at h
  obtain ⟨db₁, _, hexpire, stored₀, hget, -, -, cancelled, hcancel, h⟩ := h
  obtain ⟨hup, -⟩ := expireLeases_upkeep hc env.onCalendar hexpire
  have hc₁ := Ledger.coherent_steps hc hup.steps
  refine (hup.steps.mono le_rfl False.elim).trans ?_
  cases cancelled with
  | none => cases h; exact .refl
  | some stored₁ =>
    simp only [bind_eq_ok, pair_eq_ok, Prod.exists] at h
    obtain ⟨-, -, db₂, stored₂, hcas, db₃, hrelease, rfl, -⟩ := h
    obtain ⟨j, hj, hid, hdecode⟩ := getJobPreferJobId_eq_ok hget
    obtain ⟨-, -, rfl⟩ := decodeJobRow_eq_ok.1 hdecode
    rcases cancelStored_eq_some hcancel with ⟨hqueued, run, hmoved, rfl⟩ | ⟨hactive, rfl⟩
    · obtain ⟨l, hrows, hphase⟩ := (hc₁ j.runId).queued hj hqueued
      rw [db₁.rows_ledger] at hrows
      have hleased : Leased T j.runId j l := hphase.elim (fun h => h.toLeased) fun h => h.toLeased
      obtain ⟨-, -, rfl, -⟩ := updateJobCas_eq_ok hj (hmoved.id.trans hleased.run) hcas
      simp only [releaseCancelled, if_pos hmoved.state, bind_eq_ok, pure_eq_ok, Prod.exists, JobRow.stored_leaseId,
        hleased.leaseId] at hrelease
      obtain ⟨_, _, hrelease, rfl⟩ := hrelease
      refine .single (withdraw_step hrows hphase (fun hw => ?_) hmoved hcas hrelease)
      exact hwaiting.resolve_right fun hoffered => hoffered.not_waiting hup hj hid (by rw [hrows]) hw
    · obtain ⟨l, c, hrows, he⟩ := (hc₁ j.runId).active hj hactive
      rw [db₁.rows_ledger] at hrows
      obtain ⟨-, -, rfl, hledger⟩ := updateJobCas_eq_ok hj he.run hcas
      have hstate : j.run.state ≠ .cancelled := by
        intro hcancelled
        rw [JobRow.stored_run, hcancelled] at hactive
        cases hactive
      simp only [releaseCancelled, JobRow.stored_run, if_neg hstate, Except.ok.injEq] at hrelease
      rw [← hrelease, hledger, hrows]
      refine .single ?_
      rw [← db₁.ledger.store_objects]
      refine .work hrows he.held ?_ rfl fun _ _ hb => hb
      exact { he.toLeased.cas env _ rfl rfl he.bound rfl he.started, he.toClaimed with
        node := he.node
        boundNode := he.boundNode
        state := he.state
        phase := he.phase
        held := he.held
        unrevoked := he.unrevoked
        claimExpires := he.claimExpires }

end Cancel

/-! ### Plans and submission -/

section Submit

variable {job : JobSpec} {scheduler : Scheduler} {nodes : List SchedulingNodeRecord} {t : DateTime} {digest : String}
  {decision : PlacementPlanDecision} {b : PlacementPlanBinding}

theorem scheduleContexts_eq_ok (h : scheduler.scheduleContexts env job nodes = .ok decision) :
    scheduler.scheduleContextsAt job (nodes.map SchedulingNodeRecord.scheduling) (env.reading .schedule) = .ok decision := by
  simpa only [Scheduler.scheduleContexts, mapError_eq_ok] using h

theorem createPlan_steps {plan : StoredPlan} (hc : db.ledger.Coherent T)
    (h : createPlan env db job scheduler = .ok (db', plan)) : Ledger.Steps T False db.ledger db'.ledger := by
  simp only [createPlan, Env.second, bind_eq_ok, timestamp_eq_ok, pair_eq_ok, Prod.exists] at h
  obtain ⟨-, -, _, ⟨hnow, rfl⟩, db₁, _, hexpire, _, -, _, -, _, -, _, -, db₂, hplan, rfl, -⟩ := h
  rw [DateTime.timestamp_ofTimestamp] at hexpire
  have hledger : db₂.ledger = db₁.ledger := by rw [insertPlanTx_eq_ok hplan]; rfl
  rw [hledger]
  exact (expireLeases_steps hc hnow hexpire).1

/-- A placed submission: the scheduler chose the node, and the binding is one of the job to it. -/
theorem placeSubmission_eq_ok
    (h : placeSubmission env db job digest t planId nodes scheduler = .ok (db', decision, b)) :
    db' = { db with plans := db'.plans } ∧
      scheduler.scheduleContextsAt job (nodes.map SchedulingNodeRecord.scheduling) (env.reading .schedule) = .ok decision ∧
      b.decision.nodeId = decision.nodeId ∧ b.validate (some job) none = .ok () := by
  unfold placeSubmission at h
  split at h
  · simp only [planSubmission, bind_eq_ok, pair_eq_ok] at h
    obtain ⟨_, hdecision, _, -, _, hbinding, _, hplan, rfl, rfl, rfl⟩ := h
    obtain ⟨rfl, hvalid⟩ := newPlanBinding_eq_ok.1 hbinding
    exact ⟨insertPlanTx_eq_ok hplan, scheduleContexts_eq_ok hdecision, rfl, PlacementPlanBinding.validate_timeless hvalid⟩
  · simp only [acceptPlan, bind_eq_ok, pair_eq_ok, ensure_eq_ok, mapError_eq_ok, Prod.exists,
      decide_eq_true_eq] at h
    obtain ⟨_, _, ⟨plan, -, -, -, -, -, -, -, _, hvalid, -, -, _, -, -, -, _, hdecision, -, hnode, rfl, rfl⟩, rfl, rfl, rfl⟩ := h
    exact ⟨rfl, scheduleContexts_eq_ok hdecision, hnode.symm, PlacementPlanBinding.validate_timeless hvalid⟩

theorem uniqueQueuedRun_eq_ok {jobId : Uuid} {run : Run} (h : uniqueQueuedRun env db jobId = .ok run) :
    db.occupied run.id = false ∧ ∃ reading, run = Run.queued run.id jobId (env.reading reading) := by
  simp only [uniqueQueuedRun, required_eq_ok] at h
  obtain ⟨attempt, -, h⟩ := List.exists_of_findSome?_eq_some h
  split at h
  · cases h
  · rename_i hfree
    cases h
    simp only [Bool.or_eq_true, decide_eq_true_eq, not_or, Bool.not_eq_true] at hfree
    exact ⟨hfree.2, _, rfl⟩

theorem insertJob_eq_ok {row : JobRow} (h : insertJob db row = .ok db') : db' = { db with jobs := db'.jobs } ∧
      db'.ledger = db.ledger.set row.runId { db.rowsOf row.runId with job := some row } := by
  simp only [insertJob, bind_eq_ok, pure_eq_ok, inserted_eq_ok] at h
  obtain ⟨-, -, jobs, hjobs, rfl⟩ := h
  exact ⟨rfl, ledger_jobs (Table.lookup_insert JobRow.clash_of_runId hjobs).2⟩

/-- The rows of a new run. -/
theorem insertRun_eq_ok {lease : LeaseRow} {row : JobRow} {gpu : Option (String × GpuResourceRequest)}
    (hrows : db.rowsOf row.runId = {}) (hlease : lease.runId = row.runId) (h : insertRun db lease gpu row b = .ok db') :
    db'.ledger = db.ledger.set row.runId { job := some row, lease := some lease } ∧
      db.jobPlacementAttempts.insert (nextAttempt db row.runId b .initialDispatch) = some db'.jobPlacementAttempts := by
  simp only [insertRun, bind_eq_ok, inserted_eq_ok] at h
  obtain ⟨leases, hleases, gpus, -, db₁, hjob, hattempt⟩ := h
  generalize hdb₀ : ({ db with leases := leases, leaseGpuReservations := gpus } : Db) = db₀ at hjob
  have hledger₀ : db₀.ledger = db.ledger.set row.runId { lease := some lease } := by
    rw [← hdb₀, ← hlease]
    refine (ledger_leases (Table.lookup_insert LeaseRow.clash_of_runId hleases).2).trans ?_
    rw [hlease, hrows]
  obtain ⟨hdb₁, hledger₁⟩ := insertJob_eq_ok hjob
  rw [rowsOf_of_ledger hledger₀, hledger₀, Ledger.set_set] at hledger₁
  obtain ⟨hdb', hinsert⟩ := insertPlacementAttemptTx_eq_ok hattempt
  have hledger : db'.ledger = db₁.ledger := by rw [hdb']; rfl
  refine ⟨hledger.trans hledger₁, ?_⟩
  rw [hdb₁, ← hdb₀] at hinsert
  exact hinsert

theorem markPlanUsed_eq_ok (h : markPlanUsed db planId now = .ok db') : db' = { db with plans := db'.plans } := by
  unfold markPlanUsed at h
  split at h
  · cases h; rfl
  · simp only [bind_eq_ok, pure_eq_ok] at h
    obtain ⟨-, -, rfl⟩ := h
    rfl

theorem rowsOf_of_not_occupied (hc : db.ledger.Coherent T) (h : db.occupied r = false) : db.rowsOf r = {} := by
  refine (hc r).eq_empty (Table.find_none.2 fun j hj => ?_)
  have := Table.any_eq_false.1 h j hj
  simp only [Bool.or_eq_false_iff] at this
  exact this.2

theorem submitJob_steps (hc : db.ledger.Coherent T) (hT : env.finish.nanos ≤ T)
    (h : submitJob env db job planId scheduler = .ok (db', stored)) : Ledger.Steps T False db.ledger db'.ledger := by
  simp only [submitJob, Env.second, bind_eq_ok, timestamp_eq_ok, pair_eq_ok, Prod.exists] at h
  obtain ⟨-, -, _, ⟨hnow, rfl⟩, -, -, db₁, _, hexpire, nodes, hnodes, db₂, decision, binding, hplace, run, hrun, _, -,
    db₃, hinsert, db₄, hmark, db₅, hinc, rfl, -⟩ := h
  obtain ⟨hsteps, hlive⟩ := expireLeases_steps hc (DateTime.timestamp_ofTimestamp _ ▸ hnow) hexpire
  have hc₁ := Ledger.coherent_steps hc hsteps
  obtain ⟨hdb₂, hdecision, hnode, hbinding⟩ := placeSubmission_eq_ok hplace
  have hledger₂ : db₂.ledger = db₁.ledger := by rw [hdb₂]; rfl
  obtain ⟨hfresh, reading, hqueued⟩ := uniqueQueuedRun_eq_ok hrun
  have hrows : db₂.rowsOf run.id = {} := rowsOf_of_not_occupied (hledger₂ ▸ hc₁) hfresh
  obtain ⟨hledger₃, -⟩ := insertRun_eq_ok hrows rfl hinsert
  have hledger : db₅.ledger = db₃.ledger := by
    rw [(incrementFleetRevision_eq_ok.1 hinc).2, markPlanUsed_eq_ok hmark]
    rfl
  refine hsteps.tail ?_
  rw [hledger, hledger₃, hledger₂]
  have hvalid := (scheduleContextsAt_eq_ok hdecision).1
  refine .submit ?_ ?_ ?_
  · rw [← hledger₂]
    exact hrows
  · exact {
      runId := rfl
      run := rfl
      runJob := by rw [hqueued]; rfl
      job := rfl
      valid := hvalid
      bound := ⟨binding, rfl, hbinding⟩
      version := (by decide : (0 : Int) ≤ 0 ∧ (0 : Int) ≤ i64Max)
      leaseId := rfl
      leaseRun := rfl
      leaseJob := rfl
      sized := sized_of_request hvalid rfl rfl rfl rfl rfl
      created := by
        rw [hqueued]
        exact (env.le_finish reading).trans hT
      started := by
        rw [hqueued]
        rintro _ ⟨⟩
      node := rfl
      boundNode := congrArg some hnode
      state := by rw [hqueued]; rfl
      cancel := rfl
      phase := rfl
      held := rfl }
  · exact free_of_scheduled hc₁ hlive hnodes hdecision

end Submit

/-! ### Nodes and pairings -/

section Fleet

variable {report : NodeReportRequest} {outcome : NodeReportOutcome} {op : Op}

theorem jobTables_acceptReport {t : DateTime} {d : NodeDocuments}
    (h : acceptReport t db d report = .ok (db', outcome)) : db'.jobTables = db.jobTables := by
  simp only [acceptReport, bind_eq_ok, pair_eq_ok] at h
  obtain ⟨-, -, -, -, -, -, _, -, _, -, db₁, hinc, rfl, -⟩ := h
  rw [incrementWhen_eq_ok hinc]
  rfl

theorem recordNodeReport_steps {credential : String}
    (hc : db.ledger.Coherent T) (h : recordNodeReport env db credential report = .ok (db', outcome)) :
    Ledger.Steps T False db.ledger db'.ledger := by
  simp only [recordNodeReport, bind_eq_ok, Prod.exists] at h
  obtain ⟨-, -, db₁, _, hexpire, db₂, nodeId, hauth, _, -, d, -, h⟩ := h
  obtain ⟨hsteps, hlive⟩ := expireLeases_steps hc env.onCalendar hexpire
  have hledger₂ := Db.ledger_of_jobTables (jobTables_authenticateWorkerTx hauth)
  refine hsteps.trans ?_
  split at h
  · cases h
    exact hledger₂ ▸ .refl
  · simp only [bind_eq_ok, pair_eq_ok, Prod.exists] at h
    obtain ⟨db₃, _, haccept, db₄, hredispatch, rfl, -⟩ := h
    have hledger₃ : db₃.ledger = db₁.ledger := (Db.ledger_of_jobTables (jobTables_acceptReport haccept)).trans hledger₂
    rw [← hledger₃] at hlive ⊢
    exact (redispatchQueuedJobs_upkeep (hledger₃ ▸ Ledger.coherent_steps hc hsteps) hlive env.onCalendar hredispatch).1.steps

/-- What an accepted configuration writes. -/
theorem updateNodeConfig_eq_ok {nodeId : Uuid} {expected : Int} {config : NodeConfig} {stored : StoredNodeConfig}
    (h : updateNodeConfig env db nodeId expected config = .ok (db', stored)) : ∃ now next document revision,
    db' = { db with
      fleetRevision := db.fleetRevision + 1
      nodeConfigs := db.nodeConfigs.modify (fun r => r.nodeId = nodeId && r.revision = expected)
        (fun r => { r with document := config, updatedAt := now, revision := next }) (fun _ _ => rfl)
      nodes := db.nodes.modify (fun r => r.id = nodeId)
        (fun r => { r with document, updatedAt := now, revision }) (fun _ _ => rfl) } := by
  simp only [updateNodeConfig, bind_eq_ok, pair_eq_ok, incrementFleetRevision_eq_ok] at h
  obtain ⟨-, -, -, -, _, -, -, -, _, -, _, -, -, -, _, -, _, -, _, ⟨-, rfl⟩, rfl, -⟩ := h
  exact ⟨_, _, _, _, rfl⟩

/-- The statements of a call that is not about jobs. -/
theorem Statement.jobTables (h : Statement env op db db') (hop : op.fleetOnly = true) : db'.jobTables = db.jobTables := by
  cases h with
  | authenticate h => exact jobTables_authenticateWorkerTx h
  | probe _ h _ => exact jobTables_upsertNodeTx h
  | accept _ _ _ h => exact jobTables_acceptReport h
  | configure _ h => obtain ⟨_, _, _, _, rfl⟩ := updateNodeConfig_eq_ok h; rfl
  | enroll _ _ h => rw [h]; rfl
  | upload hup => cases op <;> first | exact absurd rfl hup | cases hop
  | maintain hjobs | extend _ hjobs | plan hjobs | reserve hjobs => cases hjobs.symm.trans hop

theorem exec_jobTables {answer : Answer} (h : exec env db op = .ok (db', answer)) (hop : op.fleetOnly = true) :
    db'.jobTables = db.jobTables := by
  have hs := exec_statements h
  clear h
  induction hs with
  | refl => rfl
  | tail _ hs ih => exact (hs.jobTables hop).trans ih

end Fleet

/-! ### Every call -/

/-- The run that a call cancels has its lease on offer. -/
def Op.Offered (now : Int) (db : Db) : Op → Prop
  | .cancelJob id _ => CYC.Offered db now id
  | _ => True

instance (now : Int) (db : Db) : ∀ op : Op, Decidable (op.Offered now db)
  | .cancelJob id _ => inferInstanceAs (Decidable (CYC.Offered db now id))
  | .createPlan .. | .submitJob .. | .claimJob .. | .workerHeartbeat .. | .workerTransition .. | .putLogChunk ..
  | .putArtifact .. | .workerCompleteManaged .. | .recordCleanup .. | .getJob .. | .listJobs .. | .getCleanupSnapshot ..
  | .maintain | .recordNodeReport .. | .updateNodeConfig .. | .authenticateWorker .. | .createPairingFor ..
  | .createPairingIdempotent .. | .consumePairing .. | .acknowledgePairing .. | .failPairing .. | .revokePairing .. =>
    isTrue trivial

/-- A call that commits is a sequence of moves; it withdraws a waiting run only if it cancels one. -/
theorem exec_steps {waiting : Prop} {op : Op} {answer : Answer} (hc : db.ledger.Coherent T) (hT : env.finish.nanos ≤ T)
    (hwaiting : waiting ∨ op.Offered env.now.timestamp db) (h : exec env db op = .ok (db', answer)) :
    Ledger.Steps T waiting db.ledger db'.ledger := by
  have weaken : Ledger.Steps T False db.ledger db'.ledger → Ledger.Steps T waiting db.ledger db'.ledger :=
    fun h => h.mono le_rfl False.elim
  have maintained {n : Nat} (h : expireLeases env db env.now.timestamp = .ok (db', n)) : Ledger.Steps T False db.ledger db'.ledger :=
    (expireLeases_steps hc env.onCalendar h).1
  cases hfleet : op.fleetOnly with
  | true => rw [Db.ledger_of_jobTables (exec_jobTables h hfleet)]; exact .refl
  | false =>
    cases op <;> simp only [exec, answering_eq_ok] at h
    case createPlan => obtain ⟨_, h, -⟩ := h; exact weaken (createPlan_steps hc h)
    case submitJob => obtain ⟨_, h, -⟩ := h; exact weaken (submitJob_steps hc hT h)
    case claimJob => obtain ⟨_, h, -⟩ := h; exact weaken (claimJob_steps hc h)
    case workerHeartbeat => obtain ⟨_, h, -⟩ := h; obtain ⟨_, hserved⟩ := workerHeartbeat_served hc h; exact weaken (hserved.steps hc)
    case workerTransition => obtain ⟨_, h, -⟩ := h; obtain ⟨_, hserved⟩ := workerTransition_served hc hT h; exact weaken (hserved.steps hc)
    case putLogChunk => obtain ⟨_, h, -⟩ := h; obtain ⟨_, hserved⟩ := putLogChunk_served hc h; exact weaken (hserved.steps hc)
    case putArtifact => obtain ⟨_, h, -⟩ := h; obtain ⟨_, hserved⟩ := putArtifact_served hc h; exact weaken (hserved.steps hc)
    case workerCompleteManaged => obtain ⟨_, h, -⟩ := h; obtain ⟨_, hserved⟩ := workerCompleteManaged_served hc h; exact weaken (hserved.steps hc)
    case recordCleanup => obtain ⟨_, h, -⟩ := h; obtain ⟨_, hserved⟩ := recordCleanup_served hc h; exact weaken (hserved.steps hc)
    case cancelJob => obtain ⟨_, h, -⟩ := h; exact cancelJob_steps hc hwaiting h
    case getJob => obtain ⟨_, h, -⟩ := h; obtain ⟨_, h⟩ := expires_getJob h; exact weaken (maintained h)
    case listJobs => obtain ⟨_, h, -⟩ := h; obtain ⟨_, h⟩ := expires_listJobs h; exact weaken (maintained h)
    case getCleanupSnapshot => obtain ⟨_, h, -⟩ := h; obtain ⟨_, h⟩ := expires_getCleanupSnapshot h; exact weaken (maintained h)
    case maintain => obtain ⟨_, h, -⟩ := h; exact weaken (maintained h)
    case recordNodeReport => obtain ⟨_, h, -⟩ := h; exact weaken (recordNodeReport_steps hc h)
    all_goals cases hfleet

end CYC
