import ClusterYourCodex.Ledger.Invariants

/-! The ledger of a database, and what each statement that operations share does to it: the update of
a job under its version, the release of a lease and the revocation of a claim. A statement about one
run writes the rows of that run and of no other. -/

namespace CYC

open Checked Relational

namespace Db

def rowsOf (db : Db) (r : Uuid) : RunRows where
  job := db.jobs.lookup JobRow.runId r
  lease := db.leases.lookup LeaseRow.runId r
  claim := db.workerClaims.lookup WorkerClaimRow.runId r
  completion := db.runCompletions.lookup RunCompletionRow.runId r
  cleanup := db.runCleanups.lookup RunCleanupRow.runId r
  obligation := db.runCleanupObligations.lookup CleanupObligationRow.runId r
  chunks := db.chunksOf r
  artifacts := db.artifactsOf r

def ledger (db : Db) : Ledger where
  rows := db.rowsOf
  objects path := (db.objects.lookup ObjectRow.path path).map ObjectRow.bytes

@[simp] theorem rows_ledger (db : Db) : db.ledger.rows = db.rowsOf := rfl

/-- The tables of jobs, apart from those of the fleet. -/
structure JobTables where
  plans : Table PlanRow
  jobs : Table JobRow
  jobPlacementAttempts : Table PlacementAttemptRow
  leases : Table LeaseRow
  leaseGpuReservations : Table LeaseGpuRow
  workerClaims : Table WorkerClaimRow
  logChunks : Table LogChunkRow
  artifacts : Table ArtifactRow
  objects : Table ObjectRow
  runCompletions : Table RunCompletionRow
  runCleanups : Table RunCleanupRow
  runCleanupObligations : Table CleanupObligationRow

@[simps] def jobTables (db : Db) : JobTables where
  plans := db.plans
  jobs := db.jobs
  jobPlacementAttempts := db.jobPlacementAttempts
  leases := db.leases
  leaseGpuReservations := db.leaseGpuReservations
  workerClaims := db.workerClaims
  logChunks := db.logChunks
  artifacts := db.artifacts
  objects := db.objects
  runCompletions := db.runCompletions
  runCleanups := db.runCleanups
  runCleanupObligations := db.runCleanupObligations

theorem ledger_of_jobTables {db db' : Db} (h : db'.jobTables = db.jobTables) : db'.ledger = db.ledger := by
  simp only [jobTables, JobTables.mk.injEq] at h
  obtain ⟨-, hjobs, -, hleases, -, hclaims, hchunks, hartifacts, hobjects, hcompletions, hcleanups, hobligations⟩ := h
  unfold ledger rowsOf chunksOf artifactsOf
  rw [hjobs, hleases, hclaims, hchunks, hartifacts, hobjects, hcompletions, hcleanups, hobligations]

end Db

/-! ### Keys -/

section Keys

theorem JobRow.clash_of_runId (a b : JobRow) (h : a.runId = b.runId) : Schema.clash a b = true := by
  simp [Schema.clash, h]

theorem LeaseRow.clash_of_runId (a b : LeaseRow) (h : a.runId = b.runId) : Schema.clash a b = true := by
  simp [Schema.clash, h]

theorem LeaseRow.clash_of_id (a b : LeaseRow) (h : a.id = b.id) : Schema.clash a b = true := by
  simp [Schema.clash, h]

theorem WorkerClaimRow.clash_of_runId (a b : WorkerClaimRow) (h : a.runId = b.runId) : Schema.clash a b = true := by
  simp [Schema.clash, h]

theorem RunCompletionRow.clash_of_runId (a b : RunCompletionRow) (h : a.runId = b.runId) : Schema.clash a b = true := by
  simp [Schema.clash, h]

theorem RunCleanupRow.clash_of_runId (a b : RunCleanupRow) (h : a.runId = b.runId) : Schema.clash a b = true := by
  simp [Schema.clash, h]

theorem CleanupObligationRow.clash_of_runId (a b : CleanupObligationRow) (h : a.runId = b.runId) :
    Schema.clash a b = true := by
  simp [Schema.clash, h]

end Keys

variable {db : Db} {r : Uuid}

theorem mem_of_job {j : JobRow} (h : (db.rowsOf r).job = some j) : j ∈ db.jobs.rows ∧ j.runId = r := Table.lookup_some h

theorem job_of_mem {j : JobRow} (h : j ∈ db.jobs.rows) : (db.rowsOf j.runId).job = some j :=
  Table.lookup_of_mem JobRow.clash_of_runId h

theorem mem_of_lease {l : LeaseRow} (h : (db.rowsOf r).lease = some l) : l ∈ db.leases.rows ∧ l.runId = r :=
  Table.lookup_some h

theorem lease_of_mem {l : LeaseRow} (h : l ∈ db.leases.rows) : (db.rowsOf l.runId).lease = some l :=
  Table.lookup_of_mem LeaseRow.clash_of_runId h

theorem mem_of_obligation {o : CleanupObligationRow} (h : (db.rowsOf r).obligation = some o) :
    o ∈ db.runCleanupObligations.rows ∧ o.runId = r := Table.lookup_some h

theorem obligation_of_mem {o : CleanupObligationRow} (h : o ∈ db.runCleanupObligations.rows) :
    (db.rowsOf o.runId).obligation = some o := Table.lookup_of_mem CleanupObligationRow.clash_of_runId h

theorem mem_of_claim {c : WorkerClaimRow} (h : (db.rowsOf r).claim = some c) : c ∈ db.workerClaims.rows ∧ c.runId = r :=
  Table.lookup_some h

theorem claim_of_mem {c : WorkerClaimRow} (h : c ∈ db.workerClaims.rows) : (db.rowsOf c.runId).claim = some c :=
  Table.lookup_of_mem WorkerClaimRow.clash_of_runId h

theorem completion_of_mem {d : RunCompletionRow} (h : d ∈ db.runCompletions.rows) :
    (db.rowsOf d.runId).completion = some d := Table.lookup_of_mem RunCompletionRow.clash_of_runId h

theorem mem_of_cleanup {x : RunCleanupRow} (h : (db.rowsOf r).cleanup = some x) : x ∈ db.runCleanups.rows ∧ x.runId = r :=
  Table.lookup_some h

theorem cleanup_of_mem {x : RunCleanupRow} (h : x ∈ db.runCleanups.rows) : (db.rowsOf x.runId).cleanup = some x :=
  Table.lookup_of_mem RunCleanupRow.clash_of_runId h

/-! ### Writing one table -/

section Write

/-- A database that differs from another in the rows of one run. -/
theorem ledger_eq_set {db' : Db} {rows : RunRows} (self : db'.rowsOf r = rows)
    (others : ∀ r', r' ≠ r → db'.rowsOf r' = db.rowsOf r') (objects : db'.objects = db.objects) :
    db'.ledger = db.ledger.set r rows := by
  simp only [Db.ledger, Ledger.set, objects, Ledger.mk.injEq, and_true]
  funext r'
  by_cases he : r' = r
  · subst he; rw [Function.update_self, self]
  · rw [Function.update_of_ne he, others r' he]

attribute [local simp] Db.rowsOf Db.chunksOf Db.artifactsOf

theorem ledger_jobs {t : Table JobRow} {x : Option JobRow}
    (h : t.lookup JobRow.runId = Function.update (db.jobs.lookup JobRow.runId) r x) :
    ({ db with jobs := t } : Db).ledger = db.ledger.set r { db.rowsOf r with job := x } :=
  ledger_eq_set (by simp [h]) (fun _ hne => by simp [h, hne]) rfl

theorem ledger_leases {t : Table LeaseRow} {x : Option LeaseRow}
    (h : t.lookup LeaseRow.runId = Function.update (db.leases.lookup LeaseRow.runId) r x) :
    ({ db with leases := t } : Db).ledger = db.ledger.set r { db.rowsOf r with lease := x } :=
  ledger_eq_set (by simp [h]) (fun _ hne => by simp [h, hne]) rfl

theorem ledger_workerClaims {t : Table WorkerClaimRow} {x : Option WorkerClaimRow}
    (h : t.lookup WorkerClaimRow.runId = Function.update (db.workerClaims.lookup WorkerClaimRow.runId) r x) :
    ({ db with workerClaims := t } : Db).ledger = db.ledger.set r { db.rowsOf r with claim := x } :=
  ledger_eq_set (by simp [h]) (fun _ hne => by simp [h, hne]) rfl

theorem ledger_runCompletions {t : Table RunCompletionRow} {x : Option RunCompletionRow}
    (h : t.lookup RunCompletionRow.runId = Function.update (db.runCompletions.lookup RunCompletionRow.runId) r x) :
    ({ db with runCompletions := t } : Db).ledger = db.ledger.set r { db.rowsOf r with completion := x } :=
  ledger_eq_set (by simp [h]) (fun _ hne => by simp [h, hne]) rfl

theorem ledger_runCleanups {t : Table RunCleanupRow} {x : Option RunCleanupRow}
    (h : t.lookup RunCleanupRow.runId = Function.update (db.runCleanups.lookup RunCleanupRow.runId) r x) :
    ({ db with runCleanups := t } : Db).ledger = db.ledger.set r { db.rowsOf r with cleanup := x } :=
  ledger_eq_set (by simp [h]) (fun _ hne => by simp [h, hne]) rfl

theorem ledger_runCleanupObligations {t : Table CleanupObligationRow} {x : Option CleanupObligationRow}
    (h : t.lookup CleanupObligationRow.runId =
      Function.update (db.runCleanupObligations.lookup CleanupObligationRow.runId) r x) :
    ({ db with runCleanupObligations := t } : Db).ledger = db.ledger.set r { db.rowsOf r with obligation := x } :=
  ledger_eq_set (by simp [h]) (fun _ hne => by simp [h, hne]) rfl

theorem ledger_leases_workerClaims {t : Table LeaseRow} {t' : Table WorkerClaimRow} {x : Option LeaseRow}
    {x' : Option WorkerClaimRow} (h : t.lookup LeaseRow.runId = Function.update (db.leases.lookup LeaseRow.runId) r x)
    (h' : t'.lookup WorkerClaimRow.runId = Function.update (db.workerClaims.lookup WorkerClaimRow.runId) r x') :
    ({ db with leases := t, workerClaims := t' } : Db).ledger =
      db.ledger.set r { db.rowsOf r with lease := x, claim := x' } :=
  ledger_eq_set (by simp [h, h']) (fun _ hne => by simp [h, h', hne]) rfl

theorem ledger_leases_runCleanupObligations {t : Table LeaseRow} {t' : Table CleanupObligationRow} {x : Option LeaseRow}
    {x' : Option CleanupObligationRow} (h : t.lookup LeaseRow.runId = Function.update (db.leases.lookup LeaseRow.runId) r x)
    (h' : t'.lookup CleanupObligationRow.runId =
      Function.update (db.runCleanupObligations.lookup CleanupObligationRow.runId) r x') :
    ({ db with leases := t, runCleanupObligations := t' } : Db).ledger =
      db.ledger.set r { db.rowsOf r with lease := x, obligation := x' } :=
  ledger_eq_set (by simp [h, h']) (fun _ hne => by simp [h, h', hne]) rfl

end Write

theorem rowsOf_of_ledger {db' : Db} {L : Ledger} {rows : RunRows} (h : db'.ledger = L.set r rows) : db'.rowsOf r = rows := by
  rw [← db'.rows_ledger, h, Ledger.rows_set]

/-! ### Job rows -/

/-- The job of a row, as it is decoded. -/
@[simps]
def JobRow.stored (row : JobRow) : StoredJob where
  job := row.job
  run := row.run
  planBinding := row.planBinding
  version := asU64 row.version
  cancelRequested := row.cancelRequested
  leaseId := row.leaseId

theorem decodeJobRow_eq_ok {row : JobRow} {stored : StoredJob} :
    decodeJobRow row = .ok stored ↔
      row.run.jobId = row.job.id ∧ checkSome row.planBinding (decodeBinding row.job row.run) = .ok () ∧
        row.stored = stored := by
  simp only [decodeJobRow, seq_eq_ok, ensure_eq_ok, decide_eq_true_eq, pure_eq_ok]
  rfl

/-- Reading a row fails only with the one error. -/
theorem decodeJobRow_eq_error {row : JobRow} {e : StoreError} (h : decodeJobRow row = .error e) :
    e = .invalidPlanBinding := by
  simp only [decodeJobRow, bind_eq_error, ensure_eq_error] at h
  rcases h with ⟨-, rfl⟩ | ⟨-, -, h | ⟨_, -, h⟩⟩
  · rfl
  · cases hb : row.planBinding with
    | none => rw [hb] at h; cases h
    | some b =>
      rw [hb, checkSome_some] at h
      simp only [decodeBinding, bind_eq_error, ensure_eq_error, mapError_eq_error] at h
      rcases h with ⟨-, -, rfl⟩ | ⟨-, -, ⟨-, rfl⟩ | ⟨-, -, -, rfl⟩⟩ <;> rfl
  · cases h

theorem getJobByRunId_eq_ok {stored : StoredJob} :
    getJobByRunId db r = .ok stored ↔ ∃ j, (db.rowsOf r).job = some j ∧ decodeJobRow j = .ok stored := by
  simp only [getJobByRunId, bind_eq_ok, required_eq_ok]
  rfl

theorem asI64_range (n : Nat) : 0 ≤ asI64 n ∧ asI64 n ≤ i64Max := by
  unfold asI64 i64Max
  omega

/-- The UPDATE of a job under its version. -/
theorem updateJobCas_eq_ok {env : Env} {db' : Db} {stored stored' : StoredJob} {j : JobRow}
    (hj : (db.rowsOf r).job = some j) (hid : stored.run.id = r) (h : updateJobCas env db stored = .ok (db', stored')) :
    j.version = asI64 stored.version ∧ db' = { db with jobs := db'.jobs } ∧
      stored' = { stored with version := satU64 (stored.version + 1) } ∧
      db'.ledger = db.ledger.set r { db.rowsOf r with job := some (casRow env stored j) } := by
  subst hid
  unfold updateJobCas at h
  split at h
  · split at h <;> cases h
  · rename_i row hfind
    simp only [seq_eq_ok, pair_eq_ok] at h
    obtain ⟨-, rfl, rfl⟩ := h
    obtain ⟨hmem, hkey⟩ := Table.find_some hfind
    simp only [Bool.and_eq_true, decide_eq_true_eq] at hkey
    have hrow : (db.rowsOf stored.run.id).job = some row := hkey.1 ▸ job_of_mem hmem
    cases hj.symm.trans hrow
    exact ⟨hkey.2, rfl, rfl,
      ledger_jobs (Table.lookup_modify hrow (by simp +contextual) (by simp [hkey]) fun _ => rfl)⟩

/-! ### Leases and claims -/

/-- A lease given back at `now`, unless it had been before. -/
def LeaseRow.release (now : Int) (l : LeaseRow) : LeaseRow := { l with releasedAt := l.releasedAt.or (some now) }

def WorkerClaimRow.revoke (now : Int) (c : WorkerClaimRow) : WorkerClaimRow :=
  { c with revokedAt := c.revokedAt.or (some now) }

theorem LeaseRow.release_of_released {now : Int} {l : LeaseRow} (h : l.releasedAt ≠ none) : l.release now = l := by
  obtain ⟨t, ht⟩ := Option.ne_none_iff_exists'.1 h
  unfold release
  rw [ht, Option.some_or, ← ht]

@[simp] theorem LeaseRow.release_ne_none (now : Int) (l : LeaseRow) : (l.release now).releasedAt ≠ none := by
  cases h : l.releasedAt <;> simp [release, h]

@[simp] theorem WorkerClaimRow.revoke_ne_none (now : Int) (c : WorkerClaimRow) : (c.revoke now).revokedAt ≠ none := by
  cases h : c.revokedAt <;> simp [revoke, h]

theorem incrementFleetRevision_eq_ok {db' : Db} :
    db.incrementFleetRevision = .ok db' ↔
      db.fleetRevision < maxSafeJsonInteger ∧ db' = { db with fleetRevision := db.fleetRevision + 1 } := by
  unfold Db.incrementFleetRevision
  split
  · rename_i hlt
    rw [Except.ok.injEq, eq_comm]
    simp only [hlt, true_and]
  · rename_i hge
    simp [hge]

theorem releaseLease_eq_ok {db' : Db} {l : LeaseRow} {now : Int} {b : Bool} (hl : (db.rowsOf r).lease = some l)
    (h : releaseLease db (some l.id) now = .ok (db', b)) :
    db' = { db with leases := db'.leases, fleetRevision := db'.fleetRevision } ∧
      db'.ledger = db.ledger.set r { db.rowsOf r with lease := some (l.release now) } := by
  obtain ⟨hmem, hrun⟩ := mem_of_lease hl
  -- no other row has the lease's id
  have only : ∀ x ∈ db.leases.rows, x.id = l.id → x = l := fun x hx hid =>
    Table.eq_of_clash hx hmem (LeaseRow.clash_of_id _ _ hid)
  unfold releaseLease at h
  simp only at h
  split at h
  · rename_i hany
    simp only [bind_eq_ok, incrementFleetRevision_eq_ok, pair_eq_ok] at h
    obtain ⟨_, ⟨-, rfl⟩, rfl, -⟩ := h
    obtain ⟨x, hx, hsel⟩ := Table.any_eq_true.1 hany
    simp only [Bool.and_eq_true, decide_eq_true_eq, Option.isNone_iff_eq_none] at hsel
    cases only x hx hsel.1
    refine ⟨rfl, (ledger_leases (r := r) (x := some (l.release now)) ?_ :)⟩
    have hrel : l.release now = { l with releasedAt := some now } := by simp [LeaseRow.release, hsel.2]
    rw [hrel]
    refine Table.lookup_modify hl ?_ (by simp [hsel.2]) fun _ => rfl
    intro a ha hp
    simp only [Bool.and_eq_true, decide_eq_true_eq] at hp
    rw [only a ha hp.1, hrun]
  · rename_i hany
    simp only [Except.ok.injEq, Prod.mk.injEq] at h
    obtain ⟨rfl, -⟩ := h
    refine ⟨rfl, ?_⟩
    have hreleased : l.releasedAt ≠ none := by
      intro hnone
      exact hany (Table.any_eq_true.2 ⟨l, hmem, by simp [hnone]⟩)
    rw [LeaseRow.release_of_released hreleased, ← hl]
    exact (db.ledger.set_rows r).symm

theorem ledger_revokeClaims (db : Db) (r : Uuid) (now : Int) : (revokeClaims db r now).ledger =
    db.ledger.set r { db.rowsOf r with claim := (db.rowsOf r).claim.map (WorkerClaimRow.revoke now) } := by
  refine ledger_workerClaims ?_
  refine (Table.lookup_rewrite (k := r) (by simp +contextual) (by simp) (Table.rows_modify ..)).trans ?_
  congr 1
  refine Option.map_congr fun c hc => ?_
  have hrun := (Table.lookup_some hc).2
  cases hrev : c.revokedAt with
  | none => rw [rewrite_of_pos (by simp [hrun, hrev])]; simp [WorkerClaimRow.revoke, hrev]
  | some t => rw [rewrite_of_neg (by simp [hrev]), WorkerClaimRow.revoke, hrev, Option.some_or, ← hrev]

end CYC
