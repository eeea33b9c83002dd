import ClusterYourCodex.Ledger.Operations

/-! What the operations on jobs leave alone: the tables of the fleet and those of uploads. Maintenance and
everything that moves a run reads nodes and credentials but does not write them, a worker that
authenticates only leaves the time of it on its credential, and only an upload stores log chunks,
artifacts and objects. -/

namespace CYC

open Checked Relational

variable {env : Env} {db db' : Db} {now : Int}

/-! ### Maintenance -/

variable {n pass : Nat} {scheduler : Scheduler} {db₁ db₂ : Db} {lease : LeaseRow}
  {gpu : Option (String × GpuResourceRequest)} {row : JobRow} {b : PlacementPlanBinding} {op : Op}

theorem apart_redispatchRun {t : DateTime} {stored : StoredJob} {leaseId : Uuid}
    {nodes : List SchedulingNodeRecord} {decision : PlacementPlanDecision}
    (h : redispatchRun env pass now t db stored leaseId nodes decision = .ok db') : db'.apart = db.apart := by
  simp only [redispatchRun, bind_eq_ok, pure_eq_ok, Prod.exists] at h
  obtain ⟨_, -, _, -, db₁, hplan, db₂, hattempt, _, -, -, -, _, -, _, _, hcas, rfl⟩ := h
  calc _ = db₂.apart := (updateJobCas_elsewhere hcas).2
    _ = db₁.apart := by rw [(insertPlacementAttemptTx_eq_ok hattempt).1]; rfl
    _ = db.apart := by rw [insertPlanTx_eq_ok hplan]; rfl

theorem apart_redispatchQueuedJobs
    (h : redispatchQueuedJobs env pass db now scheduler = .ok db') : db'.apart = db.apart := by
  simp only [redispatchQueuedJobs, bind_eq_ok, Prod.exists] at h
  obtain ⟨db₁, b, hloop, hinc⟩ := h
  rw [incrementWhen_eq_ok hinc]
  refine foldlM_induction (P := fun s : Db × Bool => s.1.apart = db.apart) hloop rfl fun j _ (db₁, b₁) (db₂, b₂) hs h => ?_
  cases redispatchJob_turned h with
  | skipped => exact hs
  | unplaced _ hrecord => exact (recordNoEligibleNodes_elsewhere hrecord).2.trans hs
  | placed _ _ _ _ hrun => exact (apart_redispatchRun hrun).trans hs

theorem Maintenance.apart_eq (h : Maintenance env now db db') : db'.apart = db.apart := by
  cases h with
  | elsewhere _ hapart => exact hapart
  | release hrelease => rcases releaseLease_cases hrelease with rfl | ⟨q, rfl⟩ <;> rfl
  | redispatch hpass => exact apart_redispatchQueuedJobs hpass

/-- Maintenance reads the fleet and does not write it, and never looks at uploads. -/
theorem apart_expireLeases (h : expireLeases env db now = .ok (db', n)) : db'.apart = db.apart := by
  have hm := maintains_expireLeases h
  clear h
  induction hm with
  | refl => rfl
  | tail _ hs ih => exact hs.apart_eq.trans ih

theorem fleet_incrementWhen {changed : Bool} (h : incrementWhen changed db = .ok db') : db'.fleet = db.fleet := by
  rw [incrementWhen_eq_ok h]
  rfl

theorem fleet_redispatchQueuedJobs
    (h : redispatchQueuedJobs env pass db now scheduler = .ok db') : db'.fleet = db.fleet :=
  congrArg Prod.fst (apart_redispatchQueuedJobs h)

theorem fleet_expireLeases (h : expireLeases env db now = .ok (db', n)) : db'.fleet = db.fleet :=
  congrArg Prod.fst (apart_expireLeases h)

/-! ### Authentication -/

/-- The credential, last used at `t`. -/
def WorkerCredentialRow.used (t : Option Int) (c : WorkerCredentialRow) : WorkerCredentialRow := { c with lastUsedAt := t }

/-- The fleet is the same, but for the times at which credentials were last used. -/
structure Touched (db db' : Db) : Prop where
  rest : db'.fleet = { db.fleet with workerCredentials := db'.workerCredentials }
  credentials : ∃ time : WorkerCredentialRow → Option Int,
    db'.workerCredentials.rows = db.workerCredentials.rows.map fun c => c.used (time c)

theorem Touched.of_fleet (h : db'.fleet = db.fleet) : Touched db db' := by
  have hcredentials : db'.workerCredentials = db.workerCredentials := congrArg Fleet.workerCredentials h
  exact ⟨by rw [h, hcredentials]; rfl, WorkerCredentialRow.lastUsedAt, by rw [hcredentials]; exact (List.map_id _).symm⟩

theorem Touched.trans {db₃ : Db} (h : Touched db₁ db₂) (h' : Touched db₂ db₃) : Touched db₁ db₃ := by
  obtain ⟨hrest, time, hrows⟩ := h
  obtain ⟨hrest', time', hrows'⟩ := h'
  refine ⟨by rw [hrest', hrest], fun c => time' (c.used (time c)), ?_⟩
  rw [hrows', hrows, List.map_map]
  rfl

theorem touched_authenticateWorkerTx {credential : String} {nodeId : Uuid}
    (h : authenticateWorkerTx db credential now = .ok (db', nodeId)) : Touched db db' := by
  simp only [authenticateWorkerTx, bind_eq_ok, pair_eq_ok] at h
  obtain ⟨_, -, rfl, -⟩ := h
  refine ⟨rfl, fun c => if c.credentialHash = secretHash credential then some now else c.lastUsedAt, ?_⟩
  refine List.map_congr_left fun c _ => ?_
  simp only [rewrite, decide_eq_true_eq, WorkerCredentialRow.used]
  split <;> rfl

/-! ### Every call -/

theorem apart_insertRun (h : insertRun db lease gpu row b = .ok db') : db'.apart = db.apart := by
  simp only [insertRun, insertJob, bind_eq_ok, pure_eq_ok] at h
  obtain ⟨_, -, _, -, _, ⟨-, -, _, -, rfl⟩, hattempt⟩ := h
  rw [(insertPlacementAttemptTx_eq_ok hattempt).1]
  rfl

theorem apart_reserve {planId : Option Uuid} (hinsert : insertRun db lease gpu row b = .ok db₁)
    (hmark : markPlanUsed db₁ planId now = .ok db₂) (hraise : db₂.incrementFleetRevision = .ok db') : db'.apart = db.apart := by
  rw [← apart_insertRun hinsert, (incrementFleetRevision_eq_ok.1 hraise).2, markPlanUsed_eq_ok hmark]
  rfl

/-- A poll writes the probe of the node that it authenticates, and nothing else of the fleet. -/
theorem claimJob_fleet {workerCredential : String} {node : Node} {claim : Option WorkerClaim}
    (h : claimJob env db workerCredential node = .ok (db', claim)) :
    ∃ db₁ db₂, Touched db db₁ ∧ upsertLegacyProbeTx env db₁ node = .ok db₂ ∧ db'.fleet = db₂.fleet := by
  simp only [claimJob, bind_eq_ok, Prod.exists] at h
  obtain ⟨db₁, _, hexpire, db₂, nodeId, hauth, -, -, db₃, hprobe, jobs, -, h⟩ := h
  refine ⟨db₂, db₃, (Touched.of_fleet (fleet_expireLeases hexpire)).trans (touched_authenticateWorkerTx hauth), hprobe, ?_⟩
  split at h
  · cases h; rfl
  · simp only [claimRun, bind_eq_ok, pair_eq_ok, Prod.exists] at h
    obtain ⟨_, _, ⟨-, -, -, -, _, -, _, -, db₄, _, hcas, _, -, -, -, rfl, -⟩, rfl, -⟩ := h
    exact (congrArg Prod.fst (updateJobCas_elsewhere hcas).2 :)

/-! ### Uploads -/

/-- What is stored of the uploads of a run, and the objects they lie in. -/
def Db.uploadsOf (db : Db) (r : Uuid) : List LogChunkRow × List ArtifactRow × (String → Option (List UInt8)) :=
  (db.chunksOf r, db.artifactsOf r, db.ledger.objects)

variable {r : Uuid}

theorem uploadsOf_of_uploaded (h : db'.uploaded = db.uploaded) : db'.uploadsOf r = db.uploadsOf r :=
  congrArg (fun u : Uploaded => (u.logChunks.rows.filter fun c : LogChunkRow => c.runId = r,
    u.artifacts.rows.filter fun a : ArtifactRow => a.runId = r,
    fun path => (u.objects.lookup ObjectRow.path path).map ObjectRow.bytes)) h

theorem uploaded_of_jobTables (h : db'.jobTables = db.jobTables) : db'.uploaded = db.uploaded :=
  congrArg (fun t : Db.JobTables => (⟨t.logChunks, t.artifacts, t.objects⟩ : Uploaded)) h

theorem Statement.uploaded (h : Statement env op db db') (hup : op.uploadsFor = none) : db'.uploaded = db.uploaded := by
  cases h with
  | maintain _ hm => exact congrArg Prod.snd hm.apart_eq
  | authenticate hauth => exact uploaded_of_jobTables (jobTables_authenticateWorkerTx hauth)
  | extend _ _ _ _ _ hapart => exact congrArg Prod.snd hapart
  | plan _ _ hplan => rw [insertPlanTx_eq_ok hplan]; rfl
  | reserve _ _ hinsert hmark hraise => exact congrArg Prod.snd (apart_reserve hinsert hmark hraise)
  | upload hup' => exact absurd hup hup'
  | probe _ hprobe => exact uploaded_of_jobTables (jobTables_upsertNodeTx hprobe)
  | accept _ _ _ haccept => exact uploaded_of_jobTables (jobTables_acceptReport haccept)
  | configure _ hupdate =>
    obtain ⟨_, _, _, _, rfl⟩ := updateNodeConfig_eq_ok hupdate
    exact uploaded_of_jobTables rfl
  | enroll _ _ honly => rw [honly]; rfl

/-- Only an upload changes what is stored of uploads. -/
theorem exec_uploadsOf {answer : Answer} (h : exec env db op = .ok (db', answer)) (hup : op.uploadsFor = none) :
    db'.uploadsOf r = db.uploadsOf r := by
  have hs := exec_statements h
  clear h
  induction hs with
  | refl => rfl
  | tail _ hs ih => exact (uploadsOf_of_uploaded (hs.uploaded hup)).trans ih

end CYC
