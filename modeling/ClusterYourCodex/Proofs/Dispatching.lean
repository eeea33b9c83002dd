import ClusterYourCodex.Proofs.Admission
import ClusterYourCodex.Proofs.Runs

/-! Dispatches. A run is given a node when it is submitted, or in one of the passes that a call makes over the queued
runs. Each dispatch is described with the database that the scheduler read, which in a pass already has the
reservations of the turns before it. -/

namespace CYC

open Checked Relational

/-- Where a pass of the call starts: after the expired leases were taken back, or after a report was stored. -/
inductive PassStart (env : Env) (op : Op) (db : Db) : Nat → Db → Prop
  | maintenance {db₁ db₂ : Db} {n₁ n₂ : Nat} (reaped : reapExpiredCleanupReservationsTx db env.now.timestamp = .ok (db₁, n₁))
      (expired : (orderedBy LeaseRow.expiresAt (fun l => l.id.value.toNat)
        (db₁.leases.rows.filter (LeaseRow.expiredAt env.now.timestamp))).foldlM (expireLease env env.now.timestamp)
        (db₁, n₁) = .ok (db₂, n₂)) :
      PassStart env op db 0 db₂
  | report {credential : String} {report : NodeReportRequest} {db₁ db₂ db₃ : Db} {n : Nat} {nodeId : Uuid} {d : NodeDocuments}
      {outcome : NodeReportOutcome} (asked : op = .recordNodeReport credential report)
      (maintained : expireLeases env db env.now.timestamp = .ok (db₁, n))
      (authenticated : authenticateWorkerTx db₁ credential env.now.timestamp = .ok (db₂, nodeId))
      (accepted : acceptReport env.now db₂ d report = .ok (db₃, outcome)) :
      PassStart env op db 1 db₃

/-- The call gives a run of the job a lease on the node: the database that the scheduler read, the time it read it at,
the job and the node. -/
inductive Dispatch (env : Env) (op : Op) (db : Db) : Db → DateTime → JobSpec → Uuid → Prop
  | redispatched {pass : Nat} {start db₀ db₁ : Db} {done todo : List JobRow} {j : JobRow} {b b' : Bool} {l : LeaseRow}
      (starts : PassStart env op db pass start)
      (order : JobRow.inOrder (start.jobs.rows.filter (start.unleased env.now.timestamp)) = done ++ j :: todo)
      (before : done.foldlM (redispatchJob env pass env.now.timestamp .default) (start, false) = .ok (db₀, b))
      (turn : redispatchJob env pass env.now.timestamp .default (db₀, b) j = .ok (db₁, b'))
      (given : l ∈ db₁.leases.rows) (own : l.runId = j.runId) (phase : l.phase = .dispatch) (held : l.releasedAt = none) :
      Dispatch env op db db₀ (.ofTimestamp env.now.timestamp) j.job l.nodeId
  | submitted {job : JobSpec} {planId : Option Uuid} {stored : StoredJob} {db₀ db' : Db} {n : Nat} {l : LeaseRow}
      (asked : op = .submitJob job planId) (accepted : submitJob env db job planId .default = .ok (db', stored))
      (maintained : expireLeases env db env.now.timestamp = .ok (db₀, n))
      (given : l ∈ db'.leases.rows) (own : l.runId = stored.run.id) :
      Dispatch env op db db₀ (.ofTimestamp env.now.timestamp) stored.job l.nodeId

variable {env : Env} {db db' : Db} {T now : Int}

variable {node : Uuid} {pass : Nat} {scheduler : Scheduler} {j : JobRow} {b b' : Bool} {l : LeaseRow} {op : Op}
  {job : JobSpec} {db₀ : Db}

theorem freeOf_of_free (h : db.ledger.Free node) : db.FreeOf node := by
  intro l hl hnode hheld
  refine h l.runId l ?_ hheld hnode
  rw [db.rows_ledger]
  exact lease_of_mem hl

/-- The lease that a turn leaves its run with, if it holds a node, is a lease on the node of a decision. -/
theorem redispatchJob_placed (hc : db.ledger.Coherent T) (hlive : db.ledger.Live now) (hj : Unheld db now j)
    (h : redispatchJob env pass now scheduler (db, b) j = .ok (db', b')) (hl : (db'.rowsOf j.runId).lease = some l)
    (hphase : l.phase = .dispatch) (hheld : l.releasedAt = none) :
    ∃ nodes decision, freshAvailableNodes db (.ofTimestamp now) = .ok nodes ∧
      scheduler.scheduleContextsAt j.job (nodes.map SchedulingNodeRecord.scheduling) (.ofTimestamp now) = .ok decision ∧
      l.nodeId = decision.nodeId := by
  cases redispatchJob_turned h with
  | skipped hskip =>
    -- the lease of a run that is not queued is live, which the row was not selected with
    have hexpired := hlive j.runId l (by rw [db.rows_ledger]; exact hl)
    have hdue := (hj.free l hl).resolve_left (not_not.2 hheld)
    simp [LeaseRow.expiredAt, hheld, hphase, hdue] at hexpired
  | unplaced hqueued hrecord =>
    -- the lease stays the released one
    obtain ⟨l₀, hrows, hw⟩ := hj.waiting hc hlive hqueued
    obtain ⟨j', -, hledger, -⟩ := recordNoEligibleNodes_steps hrows hw hrecord
    rw [rowsOf_of_ledger hledger] at hl
    cases hl
    exact absurd hheld hw.released
  | @placed _ nodes _ decision hqueued hlease hnodes hdecision hrun =>
    obtain ⟨l₀, hrows, hw⟩ := hj.waiting hc hlive hqueued
    cases hw.leaseId.symm.trans hlease
    obtain ⟨binding, -, -, hledger, -⟩ := redispatchRun_eq_ok hrows hw hrun
    rw [rowsOf_of_ledger hledger] at hl
    cases hl
    exact ⟨nodes, decision, hnodes, hdecision, rfl⟩

/-- What a turn finds: the turns before it keep the ledger live and leave its own row alone. The induction is on the
rows before it. -/
theorem redispatchJob_reached {done todo : List JobRow}
    (hc : db.ledger.Coherent T) (hlive : db.ledger.Live now) (hnow : OnCalendar now)
    (hdistinct : (done ++ j :: todo).Pairwise fun a b => a.runId ≠ b.runId)
    (hrows : ∀ x ∈ done ++ j :: todo, Unheld db now x)
    (h : done.foldlM (redispatchJob env pass now scheduler) (db, b) = .ok (db', b')) :
    db'.ledger.Coherent T ∧ db'.ledger.Live now ∧ Unheld db' now j := by
  induction done generalizing db b with
  | nil =>
    cases h
    exact ⟨hc, hlive, hrows j List.mem_cons_self⟩
  | cons x done ih =>
    rw [List.foldlM_cons, bind_eq_ok] at h
    obtain ⟨⟨db₁, b₁⟩, hstep, h⟩ := h
    rw [List.cons_append, List.pairwise_cons] at hdistinct
    obtain ⟨hupkeep, hlive₁, hother⟩ := redispatchJob_turn hc hlive hnow (hrows x List.mem_cons_self) hstep
    refine ih (Ledger.coherent_steps hc hupkeep.steps) hlive₁ hdistinct.2 ?_ h
    intro y hy
    exact hother y (hdistinct.1 y hy).symm (hrows y (List.mem_cons_of_mem x hy))

/-- A pass starts from a ledger in which no lease is held past its deadline. -/
theorem PassStart.live {start : Db} (hc : db.ledger.Coherent T) (h : PassStart env op db pass start) :
    start.ledger.Coherent T ∧ start.ledger.Live env.now.timestamp := by
  cases h with
  | maintenance reaped expired =>
    obtain ⟨hupkeep₁, hupkeep₂, hlive⟩ := expireLease_live hc env.onCalendar reaped expired
    exact ⟨Ledger.coherent_steps hc (hupkeep₁.trans hupkeep₂).steps, hlive⟩
  | report asked maintained authenticated accepted =>
    obtain ⟨hsteps, hlive⟩ := expireLeases_steps hc env.onCalendar maintained
    have hledger := (Db.ledger_of_jobTables (jobTables_acceptReport accepted)).trans
      (Db.ledger_of_jobTables (jobTables_authenticateWorkerTx authenticated))
    rw [hledger]
    exact ⟨Ledger.coherent_steps hc hsteps, hlive⟩

/-- The node of a decision on the nodes that are free of leases in a live ledger. -/
theorem admits_of_decision {t' : DateTime} {nodes : List SchedulingNodeRecord}
    {decision : PlacementPlanDecision} (hc : db.ledger.Coherent T) (hlive : db.ledger.Live now)
    (hnodes : freshAvailableNodes db (.ofTimestamp now) = .ok nodes)
    (hdecision : scheduler.scheduleContextsAt job (nodes.map SchedulingNodeRecord.scheduling) t' = .ok decision) :
    Admits db (.ofTimestamp now) job decision.nodeId := by
  have hfree : db.ledger.Free decision.nodeId :=
    free_of_scheduled hc (by rw [DateTime.timestamp_ofTimestamp]; exact hlive) hnodes hdecision
  exact admits_of_scheduled hnodes hdecision (freeOf_of_free hfree)

/-- A submission: the lease of the new run is on the node of the decision. -/
theorem submitJob_placed {planId : Option Uuid} {stored : StoredJob} {n : Nat} (hc : db.ledger.Coherent T)
    (h : submitJob env db job planId scheduler = .ok (db', stored))
    (hexpire : expireLeases env db env.now.timestamp = .ok (db₀, n)) (hl : (db'.rowsOf stored.run.id).lease = some l) :
    ∃ nodes decision, freshAvailableNodes db₀ (.ofTimestamp env.now.timestamp) = .ok nodes ∧
      scheduler.scheduleContextsAt stored.job (nodes.map SchedulingNodeRecord.scheduling) (env.reading .schedule) = .ok decision ∧
      l.nodeId = decision.nodeId := by
  simp only [submitJob, Env.second, bind_eq_ok, timestamp_eq_ok, pair_eq_ok, Prod.exists] at h
  obtain ⟨-, -, _, ⟨hnow, rfl⟩, -, -, db₁, _, hexpire₁, nodes, hnodes, db₂, decision, binding, hplace, run, hrun, _, -,
    db₃, hinsert, db₄, hmark, db₅, hinc, rfl, rfl⟩ := h
  rw [DateTime.timestamp_ofTimestamp, hexpire] at hexpire₁
  cases hexpire₁
  have hsteps := (expireLeases_steps hc env.onCalendar hexpire).1
  obtain ⟨hdb₂, hdecision, -⟩ := placeSubmission_eq_ok hplace
  have hledger₂ : db₂.ledger = db₀.ledger := by rw [hdb₂]; rfl
  have hrows : db₂.rowsOf run.id = {} :=
    rowsOf_of_not_occupied (hledger₂ ▸ Ledger.coherent_steps hc hsteps) (uniqueQueuedRun_eq_ok hrun).1
  obtain ⟨hledger₃, -⟩ := insertRun_eq_ok hrows rfl hinsert
  have hledger : db₅.ledger = db₃.ledger := by
    rw [(incrementFleetRevision_eq_ok.1 hinc).2, markPlanUsed_eq_ok hmark]
    rfl
  rw [rowsOf_of_ledger (hledger.trans hledger₃)] at hl
  cases hl
  exact ⟨nodes, decision, hnodes, hdecision, rfl⟩

/-- A dispatch of a call that finds the ledger coherent. -/
theorem Dispatch.admits {t : DateTime} (hc : db.ledger.Coherent T)
    (h : Dispatch env op db db₀ t job node) : Admits db₀ t job node := by
  cases h with
  | redispatched starts order before turn given own phase held =>
    rename_i l
    obtain ⟨hc₁, hlive₁⟩ := starts.live hc
    have hselected := unheld_selected env.now.timestamp hc₁
    rw [order] at hselected
    obtain ⟨hc₂, hlive₂, hj⟩ := redispatchJob_reached hc₁ hlive₁ env.onCalendar hselected.1 hselected.2 before
    obtain ⟨nodes, decision, hnodes, hdecision, hnode⟩ :=
      redispatchJob_placed hc₂ hlive₂ hj turn (own ▸ lease_of_mem given) phase held
    rw [hnode]
    exact admits_of_decision hc₂ hlive₂ hnodes hdecision
  | submitted asked accepted maintained given own =>
    obtain ⟨hsteps, hlive⟩ := expireLeases_steps hc env.onCalendar maintained
    obtain ⟨nodes, decision, hnodes, hdecision, hnode⟩ :=
      submitJob_placed hc accepted maintained (own ▸ lease_of_mem given)
    rw [hnode]
    exact admits_of_decision (Ledger.coherent_steps hc hsteps) hlive hnodes hdecision

/-- Every dispatch of a call that follows a history respects the operator's policy. -/
theorem dispatch_respects_policy {calls : List Call} {op : Op} {db₀ : Db} {t : DateTime} {job : JobSpec} {node : Uuid}
    (seed : String) (h : Dispatch env op (storeAfter seed calls) db₀ t job node) :
    Admits db₀ t job node := by
  obtain ⟨T, hsound⟩ := sound_after seed calls
  exact h.admits hsound.coherent

/-- The worker of node 1 is enrolled and has reported. -/
def reportedCalls : List Call :=
  enrollCalls 1000 10 ⟨1⟩ "a" ++ [⟨envAt 1000 20, .recordNodeReport "a" (sampleReport 1 1 ⟨77⟩)⟩]

/-- The submission of the sample job to that database, with the node of the lease it ends with. -/
def submissionNode (db : Db) : Option Uuid :=
  match expireLeases (envAt 1000 21) db 1000, submitJob (envAt 1000 21) db (sampleJob ⟨7⟩ .empty none) none .default with
  | .ok _, .ok (db', stored) => (db'.leases.find fun l => l.runId = stored.run.id).map LeaseRow.nodeId
  | _, _ => none

/-- A submission that places its job gives a dispatch. -/
theorem dispatch_of_submissionNode (h : submissionNode db = some node) :
    ∃ db₀ job, Dispatch (envAt 1000 21) (.submitJob (sampleJob ⟨7⟩ .empty none) none) db db₀ (.ofTimestamp 1000) job node := by
  unfold submissionNode at h
  split at h
  · rename_i maintained submitted hmaintained hsubmitted
    obtain ⟨l, hl, rfl⟩ := Option.map_eq_some_iff.1 h
    obtain ⟨hmem, hown⟩ := Table.find_some hl
    exact ⟨_, _, .submitted rfl hsubmitted hmaintained hmem (of_decide_eq_true hown)⟩
  · cases h

theorem dispatch_respects_policy_sample :
    ∃ db₀ job, Dispatch (envAt 1000 21) (.submitJob (sampleJob ⟨7⟩ .empty none) none) (storeAfter "s" reportedCalls) db₀
      (.ofTimestamp 1000) job ⟨1⟩ ∧ Admits db₀ (.ofTimestamp 1000) job ⟨1⟩ := by
  have hnode : submissionNode (storeAfter "s" reportedCalls) = some ⟨1⟩ := by decide +kernel
  obtain ⟨db₀, job, hdispatch⟩ := dispatch_of_submissionNode hnode
  exact ⟨db₀, job, hdispatch, dispatch_respects_policy "s" hdispatch⟩

end CYC
