import ClusterYourCodex.Proofs.Binding
import ClusterYourCodex.Ledger.Maintenance
import ClusterYourCodex.Ledger.Reservations

/-! The redispatch of waiting runs, and lease maintenance as a whole: every pass is a sequence of
moves, and it leaves no lease that is held past its deadline. -/

namespace CYC

open Checked Relational

variable {env : Env} {db db' : Db} {r : Uuid} {T now : Int}
variable {scheduler : Scheduler}

theorem sized_of_request {job : JobSpec} (h : job.validate = .ok ()) {l : LeaseRow} {gpu : Bool}
    (hcpu : l.cpuCores = job.effectiveResourceRequest.cpuCores.toNat)
    (hmemory : l.memoryMib = asI64 job.effectiveResourceRequest.memoryMib.toNat)
    (hdisk : l.diskMib = asI64 job.effectiveResourceRequest.diskMib.toNat)
    (hgpu : l.gpuReserved = if gpu then 1 else 0)
    (hslots : l.slots = job.effectiveResourceRequest.slots.toNat) : l.Sized where
  slots := by
    have := JobSpec.one_le_slots h
    have := job.effectiveResourceRequest.slots.toNat_lt
    rw [hslots, i64Max]
    omega
  cpuCores := by
    have := job.effectiveResourceRequest.cpuCores.toNat_lt
    rw [hcpu, i64Max]
    omega
  memoryMib := hmemory ▸ asI64_range _
  diskMib := hdisk ▸ asI64_range _
  gpuReserved := by
    rw [hgpu]
    cases gpu <;> decide

/-- The lease of a dispatch is not past its deadline. -/
theorem lt_dispatchExpiry (hnow : OnCalendar now) : now < satI64 (now + dispatchTtlSeconds) := by
  simp only [OnCalendar, DateTime.Representable, DateTime.ofTimestamp] at hnow
  simp only [satI64, i64Min, i64Max, dispatchTtlSeconds]
  omega

theorem expiredAt_dispatch {l : LeaseRow} (hnow : OnCalendar now) (h : l.expiresAt = satI64 (now + dispatchTtlSeconds)) :
    l.expiredAt now = false := by
  have hlt : now < l.expiresAt := h ▸ lt_dispatchExpiry hnow
  simp [LeaseRow.expiredAt, hlt]

/-! ### One run -/

section Run

variable {j : JobRow} {l : LeaseRow} {pass : Nat} {t : DateTime} {nodes : List SchedulingNodeRecord}
  {decision : PlacementPlanDecision}

theorem inserted_eq_ok {ρ : Type} [Schema ρ] {t t' : Table ρ} {x : ρ} :
    inserted t x = .ok t' ↔ t.insert x = some t' := required_eq_ok

theorem insertPlanTx_eq_ok {b : PlacementPlanBinding} {usedAt : Option DateTime} (h : insertPlanTx db b usedAt = .ok db') :
    db' = { db with plans := db'.plans } := by
  simp only [insertPlanTx, bind_eq_ok, pure_eq_ok] at h
  obtain ⟨-, -, _, -, rfl⟩ := h
  rfl

/-- The next attempt of a run, as it is recorded. -/
def nextAttempt (db : Db) (r : Uuid) (b : PlacementPlanBinding) (reason : PlacementAttemptReason) : PlacementAttemptRow where
  runId := r
  attempt := asI64 (asU64 (db.latestAttempt r + 1))
  planId := b.planId
  nodeId := b.decision.nodeId
  planBinding := b
  reason := reason
  createdAt := b.createdAt.timestamp

theorem insertPlacementAttemptTx_eq_ok {b : PlacementPlanBinding} {reason : PlacementAttemptReason}
    (h : insertPlacementAttemptTx db r b reason = .ok db') :
    db' = { db with jobPlacementAttempts := db'.jobPlacementAttempts } ∧
      db.jobPlacementAttempts.insert (nextAttempt db r b reason) = some db'.jobPlacementAttempts := by
  simp only [insertPlacementAttemptTx, bind_eq_ok, pure_eq_ok, inserted_eq_ok] at h
  obtain ⟨-, -, -, -, -, -, -, -, _, hinsert, rfl⟩ := h
  exact ⟨rfl, hinsert⟩

/-- The job row of a run that has been given a node. -/
def placedJob (env : Env) (j : JobRow) (decision : PlacementPlanDecision) (b : PlacementPlanBinding) : JobRow :=
  casRow env { j.stored with
    run := { j.run with nodeId := some decision.nodeId, placement := some decision.explanation }
    planBinding := some b } j

/-- The lease of a run that has been given a node. -/
def placedLease (j : JobRow) (decision : PlacementPlanDecision) (now : Int) (l : LeaseRow) : LeaseRow :=
  rearmLease decision j.job.effectiveResourceRequest (effectiveGpuRequest j.job).isSome now l

theorem Waiting.place {b : PlacementPlanBinding} (h : Waiting T r j l) (hdecision : b.decision = decision)
    (hb : b.validate (some j.job) none = .ok ()) :
    Dispatched T r (placedJob env j decision b) (placedLease j decision now l) :=
  { h.toLeased.cas env { j.stored with
        run := { j.run with nodeId := some decision.nodeId, placement := some decision.explanation }
        planBinding := some b } rfl rfl ⟨b, rfl, hb⟩ rfl h.started with
    sized := sized_of_request h.valid rfl rfl rfl rfl rfl
    node := rfl
    boundNode := by rw [← hdecision]; rfl
    state := h.state
    cancel := h.cancel
    phase := rfl
    held := rfl }

theorem redispatchRun_eq_ok (hrows : db.rowsOf r = { job := some j, lease := some l }) (hw : Waiting T r j l)
    (h : redispatchRun env pass now t db j.stored l.id nodes decision = .ok db') :
    ∃ b, b.decision = decision ∧ b.validate (some j.job) none = .ok () ∧
      db'.ledger = db.ledger.set r
        { job := some (placedJob env j decision b), lease := some (placedLease j decision now l) } ∧
      db.jobPlacementAttempts.insert (nextAttempt db r b .dispatchLeaseExpired) = some db'.jobPlacementAttempts := by
  simp only [redispatchRun, bind_eq_ok, pure_eq_ok, Prod.exists] at h
  obtain ⟨record, -, b, hbinding, db₁, hplan, db₂, hattempt, _, -, -, -, gpus, -, db₃, _, hcas, rfl⟩ := h
  obtain ⟨rfl, hvalid⟩ := newPlanBinding_eq_ok.1 hbinding
  obtain ⟨hdb₂, hinsert⟩ := insertPlacementAttemptTx_eq_ok hattempt
  have hledger₁ : db₁.ledger = db.ledger := by rw [insertPlanTx_eq_ok hplan]; rfl
  have hledger₂ : db₂.ledger = db.ledger := by rw [hdb₂]; exact hledger₁
  have hrows₂ : db₂.rowsOf r = { job := some j, lease := some l } := by
    rw [← db₂.rows_ledger, hledger₂, db.rows_ledger, hrows]
  have hlease : (db₂.rowsOf r).lease = some l := by rw [hrows₂]
  generalize hdb₀ : ({ db₂ with leases := _, leaseGpuReservations := gpus } : Db) = db₀ at hcas
  have hledger₀ : db₀.ledger = db.ledger.set r { job := some j, lease := some (placedLease j decision now l) } := by
    rw [← hdb₀, ← hledger₂]
    refine (ledger_leases (x := some (placedLease j decision now l)) (Table.lookup_modify hlease ?_ ?_ fun _ => rfl)).trans ?_
    · intro a _ ha
      simp only [rearmable, Bool.and_eq_true, decide_eq_true_eq] at ha
      exact ha.1.2.trans hw.run
    · simp [rearmable, hw.run, hw.leaseRun, Option.isSome_iff_ne_none, hw.released]
    · rw [hrows₂]
  obtain ⟨-, hdb₃, -, hledger⟩ := updateJobCas_eq_ok (by rw [rowsOf_of_ledger hledger₀]) hw.run hcas
  refine ⟨_, rfl, PlacementPlanBinding.validate_timeless hvalid, ?_, ?_⟩
  · rw [hledger, rowsOf_of_ledger hledger₀, hledger₀, Ledger.set_set]
    rfl
  · rw [insertPlanTx_eq_ok hplan] at hinsert
    rw [hdb₃, ← hdb₀, ← hinsert, JobRow.stored_run, hw.run]
    rfl

/-- The explanation of a run that found no node. -/
theorem recordNoEligibleNodes_steps {explanation : PlacementExplain}
    (hrows : db.rowsOf r = { job := some j, lease := some l }) (hw : Waiting T r j l)
    (h : recordNoEligibleNodes env db j.stored explanation = .ok db') :
    ∃ j', Waiting T r j' l ∧ db'.ledger = db.ledger.set r { job := some j', lease := some l } ∧ j'.jobId = j.jobId := by
  unfold recordNoEligibleNodes at h
  split at h
  · simp only [bind_eq_ok, pure_eq_ok, Prod.exists] at h
    obtain ⟨db₁, _, hcas, rfl⟩ := h
    obtain ⟨-, -, -, hledger⟩ := updateJobCas_eq_ok (by rw [hrows]) hw.run hcas
    rw [hrows] at hledger
    refine ⟨_, ?_, hledger, rfl⟩
    exact { hw.toLeased.cas env _ rfl rfl hw.bound rfl hw.started with
      node := rfl
      state := hw.state
      cancel := hw.cancel
      phase := hw.phase
      released := hw.released }
  · cases h
    exact ⟨j, hw, by rw [← hrows]; exact (db.ledger.set_rows r).symm, rfl⟩

/-- The row is stored, and no live lease holds its run. -/
structure Unheld (db : Db) (now : Int) (j : JobRow) : Prop where
  stored : (db.rowsOf j.runId).job = some j
  free : ∀ l, (db.rowsOf j.runId).lease = some l → l.releasedAt ≠ none ∨ l.expiresAt ≤ now

/-- After the loop over expired leases, a queued run that no live lease holds is a waiting one. -/
theorem Unheld.waiting (h : Unheld db now j) (hc : db.ledger.Coherent T) (hlive : db.ledger.Live now)
    (hqueued : j.run.state = .queued) :
    ∃ l, db.rowsOf j.runId = { job := some j, lease := some l } ∧ Waiting T j.runId j l := by
  obtain ⟨l, hrows, hd | hw⟩ := (hc j.runId).queued h.stored hqueued
  · -- held and past its deadline: such a lease the loop has released
    have hl : (db.rowsOf j.runId).lease = some l := by rw [← db.rows_ledger, hrows]
    have hexpired := hlive j.runId l hl
    have hdue := (h.free l hl).resolve_left (by simp [hd.held])
    simp [LeaseRow.expiredAt, hd.held, hd.phase, hdue] at hexpired
  · exact ⟨l, hrows, hw⟩

/-- What a turn of the pass does for a row: nothing, or it explains why no node is eligible, or it binds the run to a
node. -/
inductive Turned (env : Env) (pass : Nat) (now : Int) (scheduler : Scheduler) (db : Db) (b : Bool) (j : JobRow) :
    Db → Bool → Prop
  | skipped (hskip : j.run.state = .queued → j.leaseId = none) : Turned env pass now scheduler db b j db b
  | unplaced {db' explanation} (hqueued : j.run.state = .queued)
      (hrecord : recordNoEligibleNodes env db j.stored explanation = .ok db') : Turned env pass now scheduler db b j db' b
  | placed {db' nodes leaseId decision} (hqueued : j.run.state = .queued) (hlease : j.leaseId = some leaseId)
      (hnodes : freshAvailableNodes db (.ofTimestamp now) = .ok nodes)
      (hdecision : scheduler.scheduleContextsAt j.job (nodes.map SchedulingNodeRecord.scheduling) (.ofTimestamp now) =
        .ok decision)
      (hrun : redispatchRun env pass now (.ofTimestamp now) db j.stored leaseId nodes decision = .ok db') :
      Turned env pass now scheduler db b j db' true

theorem redispatchJob_turned {b b' : Bool} (h : redispatchJob env pass now scheduler (db, b) j = .ok (db', b')) :
    Turned env pass now scheduler db b j db' b' := by
  simp only [redispatchJob, bind_eq_ok] at h
  obtain ⟨stored, hdecode, h⟩ := h
  obtain ⟨-, -, rfl⟩ := decodeJobRow_eq_ok.1 hdecode
  split at h
  · rename_i hstate
    cases h
    exact .skipped fun hqueued => absurd hqueued hstate
  · rename_i hqueued
    split at h
    · rename_i hnone
      cases h
      exact .skipped fun _ => hnone
    · rename_i leaseId hlease
      simp only [bind_eq_ok, timestamp_eq_ok] at h
      obtain ⟨_, ⟨-, rfl⟩, nodes, hnodes, h⟩ := h
      split at h
      · simp only [bind_eq_ok, pair_eq_ok] at h
        obtain ⟨_, hrecord, rfl, rfl⟩ := h
        exact .unplaced (not_not.1 hqueued) hrecord
      · cases h
      · rename_i decision hdecision
        simp only [bind_eq_ok, pair_eq_ok] at h
        obtain ⟨_, hrun, rfl, rfl⟩ := h
        exact .placed (not_not.1 hqueued) hlease hnodes hdecision hrun

theorem redispatchJob_step {b b' : Bool} (hc : db.ledger.Coherent T) (hlive : db.ledger.Live now)
    (hnow : OnCalendar now) (hj : Unheld db now j)
    (h : redispatchJob env pass now scheduler (db, b) j = .ok (db', b')) :
    db'.ledger = db.ledger ∨ ∃ rows, db'.ledger = db.ledger.set j.runId rows ∧
      Ledger.Step T False db.ledger (db.ledger.set j.runId rows) ∧
      (∀ l, rows.lease = some l → l.expiredAt now = false) ∧ (db.rowsOf j.runId).Queues rows := by
  have hqueues : j.run.state = .queued → ∀ j' l', j'.jobId = j.jobId →
      (db.rowsOf j.runId).Queues { job := some j', lease := some l' } := by
    rintro hqueued j' l' hid _ ⟨⟩ -
    exact ⟨j, hj.stored, hid.symm, hqueued⟩
  cases redispatchJob_turned h with
  | skipped => exact .inl rfl
  | unplaced hqueued hrecord =>
    obtain ⟨l, hrows, hw⟩ := hj.waiting hc hlive hqueued
    obtain ⟨j', hw', hledger, hid⟩ := recordNoEligibleNodes_steps hrows hw hrecord
    refine .inr ⟨_, hledger, .requeue hrows hw', fun l' hl' => hlive j.runId l' ?_, hqueues hqueued _ _ hid⟩
    rw [db.rows_ledger, hrows]
    exact hl'
  | @placed _ _ _ decision hqueued hlease hnodes hdecision hrun =>
    obtain ⟨l, hrows, hw⟩ := hj.waiting hc hlive hqueued
    cases hw.leaseId.symm.trans hlease
    obtain ⟨binding, hbinding, hvalid, hledger, -⟩ := redispatchRun_eq_ok hrows hw hrun
    have hfree : db.ledger.Free decision.nodeId :=
      free_of_scheduled hc (by rw [DateTime.timestamp_ofTimestamp]; exact hlive) hnodes hdecision
    refine .inr ⟨_, hledger, .redispatch hrows (hw.place hbinding hvalid) hfree, fun l' hl' => ?_, hqueues hqueued _ _ rfl⟩
    cases hl'
    exact expiredAt_dispatch hnow rfl

end Run

/-! ### The pass -/

theorem runId_pairwise_jobs (db : Db) : db.jobs.rows.Pairwise fun a b => a.runId ≠ b.runId := by
  refine db.jobs.apart.imp fun {a b} h hrun => ?_
  rw [JobRow.clash_of_runId a b hrun] at h
  cases h

variable {n pass : Nat} {j : JobRow} {b b' : Bool} {P : Db → Prop}

/-- What one turn does for the turns after it: it keeps the ledger live, and the other rows as they were. -/
theorem redispatchJob_turn (hc : db.ledger.Coherent T)
    (hlive : db.ledger.Live now) (hnow : OnCalendar now) (hj : Unheld db now j)
    (h : redispatchJob env pass now scheduler (db, b) j = .ok (db', b')) :
    db.ledger.Upkeep T now db'.ledger ∧ db'.ledger.Live now ∧
      ∀ x : JobRow, x.runId ≠ j.runId → Unheld db now x → Unheld db' now x := by
  rcases redispatchJob_step hc hlive hnow hj h with hledger | ⟨rows, hledger, hmove, hlive', hqueues⟩
  · have hsame : db'.rowsOf = db.rowsOf := by rw [← db'.rows_ledger, hledger, db.rows_ledger]
    rw [hledger]
    exact ⟨.refl, hlive, fun x _ hx => ⟨hsame ▸ hx.stored, hsame ▸ hx.free⟩⟩
  · have hother : ∀ r, r ≠ j.runId → db'.rowsOf r = db.rowsOf r := by
      intro r hr
      rw [← db'.rows_ledger, hledger, Ledger.rows_set_of_ne hr, db.rows_ledger]
    refine ⟨?_, ?_, fun x hne hx => ⟨hother x.runId hne ▸ hx.stored, hother x.runId hne ▸ hx.free⟩⟩
    · rw [hledger]
      refine .single hmove hqueues fun l hl => ?_
      rcases hj.free l hl with hreleased | hdue
      · simp [LeaseRow.liveAt, hreleased]
      · simp [LeaseRow.liveAt, hdue]
    · intro r l hl
      by_cases hr : r = j.runId
      · subst hr
        rw [hledger, Ledger.rows_set] at hl
        exact hlive' l hl
      · rw [db'.rows_ledger, hother r hr] at hl
        exact hlive r l hl

/-- The induction is on the rows that are left; each is still stored and held by no live lease. Whatever
every turn keeps, the loop keeps. -/
theorem redispatchJob_loop {rows : List JobRow} (hc : db.ledger.Coherent T)
    (hlive : db.ledger.Live now) (hnow : OnCalendar now) (hdistinct : rows.Pairwise fun a b => a.runId ≠ b.runId)
    (hrows : ∀ j ∈ rows, Unheld db now j) (hP : P db)
    (hturn : ∀ db₁ db₂ j b₁ b₂, db₁.ledger.Coherent T → db₁.ledger.Live now → Unheld db₁ now j →
      redispatchJob env pass now scheduler (db₁, b₁) j = .ok (db₂, b₂) → P db₁ → P db₂)
    (h : rows.foldlM (redispatchJob env pass now scheduler) (db, b) = .ok (db', b')) :
    db.ledger.Upkeep T now db'.ledger ∧ db'.ledger.Live now ∧ P db' := by
  induction rows generalizing db b with
  | nil => cases h; exact ⟨.refl, hlive, hP⟩
  | cons j rows ih =>
    rw [List.foldlM_cons, bind_eq_ok] at h
    obtain ⟨⟨db₁, b₁⟩, hstep, h⟩ := h
    rw [List.pairwise_cons] at hdistinct
    have hj : Unheld db now j := hrows j List.mem_cons_self
    have hP₁ : P db₁ := hturn db db₁ j b b₁ hc hlive hj hstep hP
    obtain ⟨hupkeep, hlive₁, hother⟩ := redispatchJob_turn hc hlive hnow hj hstep
    have hrest : ∀ x ∈ rows, Unheld db₁ now x := fun x hx =>
      hother x (hdistinct.1 x hx).symm (hrows x (List.mem_cons_of_mem j hx))
    obtain ⟨hupkeep', hend⟩ := ih (Ledger.coherent_steps hc hupkeep.steps) hlive₁ hdistinct.2 hrest hP₁ h
    exact ⟨hupkeep.trans hupkeep', hend⟩

/-- The rows that the pass selects. -/
theorem unheld_of_unleased (hc : db.ledger.Coherent T) (hj : j ∈ db.jobs.rows)
    (h : db.unleased now j = true) : Unheld db now j := by
  refine ⟨job_of_mem hj, fun l hl => ?_⟩
  obtain ⟨l', hl', hleased⟩ := (hc j.runId).leased_of_job (job_of_mem hj)
  cases hl'.symm.trans hl
  have hfind : (db.leases.find fun x => some x.id = j.leaseId) = some l := by
    refine Table.find_of_mem (fun a b ha hb => ?_) (mem_of_lease hl).1 (by simp [hleased.leaseId])
    simp only [decide_eq_true_eq] at ha hb
    exact LeaseRow.clash_of_id a b (Option.some.inj (ha.trans hb.symm))
  simp only [Db.unleased, hfind, Bool.and_eq_true, Bool.or_eq_true, decide_eq_true_eq] at h
  exact h.2.imp Option.isSome_iff_ne_none.1 id

/-- The rows of a pass: one for each run, none held by a live lease. -/
theorem unheld_selected (now : Int) (hc : db.ledger.Coherent T) :
    (JobRow.inOrder (db.jobs.rows.filter (db.unleased now))).Pairwise (fun a b => a.runId ≠ b.runId) ∧
    ∀ j ∈ JobRow.inOrder (db.jobs.rows.filter (db.unleased now)), Unheld db now j := by
  have hperm := perm_orderedBy (fun j : JobRow => j.createdAt.toRfc3339) (fun j => j.runId.value.toNat)
    (db.jobs.rows.filter (db.unleased now))
  refine ⟨(hperm.pairwise_iff fun {a b} hab => hab.symm).2 ((runId_pairwise_jobs db).filter _), fun j hj => ?_⟩
  obtain ⟨hmem, hunleased⟩ := List.mem_filter.1 (hperm.mem_iff.1 hj)
  exact unheld_of_unleased hc hmem hunleased

theorem incrementWhen_eq_ok {changed : Bool} (h : incrementWhen changed db = .ok db') :
    db' = { db with fleetRevision := db'.fleetRevision } := by
  unfold incrementWhen at h
  split at h
  · rw [(incrementFleetRevision_eq_ok.1 h).2]
  · cases h; rfl

/-- The rule of the pass: what every turn keeps and the fleet revision does not matter to, the pass keeps. -/
theorem redispatchQueuedJobs_rule (hc : db.ledger.Coherent T) (hlive : db.ledger.Live now) (hnow : OnCalendar now)
    (h : redispatchQueuedJobs env pass db now scheduler = .ok db') (hP : P db)
    (hturn : ∀ db₁ db₂ j b₁ b₂, db₁.ledger.Coherent T → db₁.ledger.Live now → Unheld db₁ now j →
      redispatchJob env pass now scheduler (db₁, b₁) j = .ok (db₂, b₂) → P db₁ → P db₂)
    (hrevision : ∀ db revision, P db → P { db with fleetRevision := revision }) :
    db.ledger.Upkeep T now db'.ledger ∧ db'.ledger.Live now ∧ P db' := by
  simp only [redispatchQueuedJobs, bind_eq_ok, Prod.exists] at h
  obtain ⟨db₁, b, hloop, h⟩ := h
  obtain ⟨hdistinct, hrows⟩ := unheld_selected now hc
  obtain ⟨hupkeep, hlive₁, hP₁⟩ := redispatchJob_loop hc hlive hnow hdistinct hrows hP hturn hloop
  rw [incrementWhen_eq_ok h]
  exact ⟨hupkeep, hlive₁, hrevision _ _ hP₁⟩

theorem redispatchQueuedJobs_upkeep (hc : db.ledger.Coherent T) (hlive : db.ledger.Live now)
    (hnow : OnCalendar now) (h : redispatchQueuedJobs env pass db now scheduler = .ok db') :
    db.ledger.Upkeep T now db'.ledger ∧ db'.ledger.Live now := by
  obtain ⟨hupkeep, hlive', -⟩ := redispatchQueuedJobs_rule hc hlive hnow h (P := fun _ => True) trivial
    (fun _ _ _ _ _ _ _ _ _ _ => trivial) (fun _ _ _ => trivial)
  exact ⟨hupkeep, hlive'⟩

/-- The first two passes of maintenance leave no lease that is held past its deadline. -/
theorem expireLease_live {db₁ db₂ : Db} {n₁ n₂ : Nat} (hc : db.ledger.Coherent T) (hnow : OnCalendar now)
    (hreap : reapExpiredCleanupReservationsTx db now = .ok (db₁, n₁))
    (hexpire : (orderedBy LeaseRow.expiresAt (fun l => l.id.value.toNat)
      (db₁.leases.rows.filter (LeaseRow.expiredAt now))).foldlM (expireLease env now) (db₁, n₁) = .ok (db₂, n₂)) :
    db.ledger.Upkeep T now db₁.ledger ∧ db₁.ledger.Upkeep T now db₂.ledger ∧ db₂.ledger.Live now := by
  have hupkeep₁ := reapExpiredCleanupReservationsTx_upkeep hc hnow hreap
  have hperm := perm_orderedBy LeaseRow.expiresAt (fun l => l.id.value.toNat)
    (db₁.leases.rows.filter (LeaseRow.expiredAt now))
  refine ⟨hupkeep₁, expireLease_loop (Ledger.coherent_steps hc hupkeep₁.steps)
    ((hperm.pairwise_iff fun {a b} hab => hab.symm).2 ((runId_pairwise_leases db₁).filter _)) ?_ ?_ hexpire⟩
  · intro l hl
    obtain ⟨hmem, hexpired⟩ := List.mem_filter.1 (hperm.mem_iff.1 hl)
    exact ⟨lease_of_mem hmem, hexpired⟩
  · intro r l hl hexpired
    exact hperm.mem_iff.2 (List.mem_filter.2 ⟨(mem_of_lease hl).1, hexpired⟩)

/-- The three passes of maintenance, and what holds between them. -/
theorem expireLeases_stages (hc : db.ledger.Coherent T) (hnow : OnCalendar now)
    (h : expireLeases env db now = .ok (db', n)) :
    ∃ db₁ n₁ db₂ n₂, reapExpiredCleanupReservationsTx db now = .ok (db₁, n₁) ∧
      (orderedBy LeaseRow.expiresAt (fun l => l.id.value.toNat) (db₁.leases.rows.filter (LeaseRow.expiredAt now))).foldlM
        (expireLease env now) (db₁, n₁) = .ok (db₂, n₂) ∧
      redispatchQueuedJobs env 0 db₂ now .default = .ok db' ∧
      db.ledger.Upkeep T now db₁.ledger ∧ db₁.ledger.Upkeep T now db₂.ledger ∧ db₂.ledger.Live now := by
  simp only [expireLeases, bind_eq_ok, pair_eq_ok, Prod.exists] at h
  obtain ⟨db₁, n₁, hreap, db₂, n₂, hexpire, db₃, hredispatch, rfl, -⟩ := h
  exact ⟨db₁, n₁, db₂, n₂, hreap, hexpire, hredispatch, expireLease_live hc hnow hreap hexpire⟩

/-- Maintenance is a sequence of moves, and it leaves no lease that is held past its deadline. -/
theorem expireLeases_upkeep (hc : db.ledger.Coherent T) (hnow : OnCalendar now)
    (h : expireLeases env db now = .ok (db', n)) :
    db.ledger.Upkeep T now db'.ledger ∧ db'.ledger.Live now := by
  obtain ⟨db₁, _, db₂, _, -, -, hredispatch, hupkeep₁, hupkeep₂, hlive₂⟩ := expireLeases_stages hc hnow h
  have hupkeep := hupkeep₁.trans hupkeep₂
  obtain ⟨hupkeep₃, hlive₃⟩ :=
    redispatchQueuedJobs_upkeep (Ledger.coherent_steps hc hupkeep.steps) hlive₂ hnow hredispatch
  exact ⟨hupkeep.trans hupkeep₃, hlive₃⟩

theorem expireLeases_steps (hc : db.ledger.Coherent T) (hnow : OnCalendar now)
    (h : expireLeases env db now = .ok (db', n)) :
    Ledger.Steps T False db.ledger db'.ledger ∧ db'.ledger.Live now :=
  (expireLeases_upkeep hc hnow h).imp_left Ledger.Upkeep.steps

end CYC
