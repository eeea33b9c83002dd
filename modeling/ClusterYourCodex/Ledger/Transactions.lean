import ClusterYourCodex.Ledger.Maintenance

/-! The transactions of the store, statement by statement. Every call is a sequence of a dozen kinds of statement, and
which kinds it can be made of depends on the call: few write nodes, and only an upload stores objects. What a statement
does to a part of the database is proved once for its kind; what a call does to that part follows by induction on the
sequence. -/

namespace CYC

open Checked Relational
open Relation (ReflTransGen)

variable {stored stored' : StoredJob} {leaseId r nodeId pairingId : Uuid} {workerCredential runCredential : String}

/-! ### Parts of the database -/

/-- The tables of nodes and of enrollment, and the seed of the pairing codes. -/
structure Fleet where
  nodes : Table NodeRow
  nodeConfigs : Table NodeConfigRow
  nodeInventories : Table NodeInventoryRow
  nodeTelemetry : Table NodeTelemetryRow
  nodeTelemetryBoots : Table NodeTelemetryBootRow
  pairings : Table PairingRow
  pairingOperations : Table PairingOperationRow
  workerCredentials : Table WorkerCredentialRow
  pairingSeed : String

def Db.fleet (db : Db) : Fleet where
  nodes := db.nodes
  nodeConfigs := db.nodeConfigs
  nodeInventories := db.nodeInventories
  nodeTelemetry := db.nodeTelemetry
  nodeTelemetryBoots := db.nodeTelemetryBoots
  pairings := db.pairings
  pairingOperations := db.pairingOperations
  workerCredentials := db.workerCredentials
  pairingSeed := db.pairingSeed

/-- The tables of what workers upload. -/
structure Uploaded where
  logChunks : Table LogChunkRow
  artifacts : Table ArtifactRow
  objects : Table ObjectRow

def Db.uploaded (db : Db) : Uploaded where
  logChunks := db.logChunks
  artifacts := db.artifacts
  objects := db.objects

/-- The tables that the statements on runs, leases and plans stay away from. -/
def Db.apart (db : Db) : Fleet × Uploaded := (db.fleet, db.uploaded)

/-- What a plan is made for and what it reserves, with the revisions that it is stamped with. -/
structure Planning where
  fleetRevision : Int
  policyRevision : Int
  nodeConfigs : Table NodeConfigRow
  nodeInventories : Table NodeInventoryRow
  leases : Table LeaseRow
  leaseGpuReservations : Table LeaseGpuRow
  plans : Table PlanRow

def Db.planning (db : Db) : Planning where
  fleetRevision := db.fleetRevision
  policyRevision := db.policyRevision
  nodeConfigs := db.nodeConfigs
  nodeInventories := db.nodeInventories
  leases := db.leases
  leaseGpuReservations := db.leaseGpuReservations
  plans := db.plans

/-- Only the tables of enrollment are written. -/
def EnrollmentOnly (db db' : Db) : Prop :=
  db' = { db with pairings := db'.pairings, pairingOperations := db'.pairingOperations, workerCredentials := db'.workerCredentials }

/-! ### Kinds of calls -/

/-- The calls that write nodes or enrollments. -/
def Op.writesFleet : Op → Bool
  | .claimJob .. | .recordNodeReport .. | .updateNodeConfig .. | .createPairingFor .. | .createPairingIdempotent ..
  | .consumePairing .. | .acknowledgePairing .. | .failPairing .. | .revokePairing .. => true
  | _ => false

/-- The calls that write enrollments. -/
def Op.enrolls : Op → Bool
  | .createPairingFor .. | .createPairingIdempotent .. | .consumePairing .. | .acknowledgePairing .. | .failPairing ..
  | .revokePairing .. => true
  | _ => false

/-- The calls that write only tables of the fleet. -/
def Op.fleetOnly : Op → Bool
  | .updateNodeConfig .. | .authenticateWorker .. | .createPairingFor .. | .createPairingIdempotent ..
  | .consumePairing .. | .acknowledgePairing .. | .failPairing .. | .revokePairing .. => true
  | _ => false

/-- The run that a call uploads for. -/
def Op.uploadsFor : Op → Option Uuid
  | .putLogChunk _ _ runId .. | .putArtifact _ _ runId .. => some runId
  | _ => none

/-- The deadlines that a call can give to a lease. -/
def Env.LeaseDeadline (env : Env) (t : Int) : Prop :=
  t = satI64 (env.now.timestamp + dispatchTtlSeconds) ∨ t = (env.now.addSeconds claimTtlSeconds).timestamp ∨
    t = satI64 (env.now.timestamp + cleanupReservationTtlSeconds)

/-! ### Statements -/

/-- The statements of maintenance. -/
inductive Maintenance (env : Env) (now : Int) (db db' : Db) : Prop
  | elsewhere (planning : db'.planning = db.planning) (apart : db'.apart = db.apart)
  | release {leaseId now b} (released : releaseLease db leaseId now = .ok (db', b))
  | redispatch {pass scheduler} (passed : redispatchQueuedJobs env pass db now scheduler = .ok db')

/-- The statements of calls. -/
inductive Statement (env : Env) (op : Op) : Db → Db → Prop
  | maintain {db db'} (hop : op.fleetOnly = false) (h : Maintenance env env.now.timestamp db db') : Statement env op db db'
  | authenticate {db db' credential now nodeId} (h : authenticateWorkerTx db credential now = .ok (db', nodeId)) :
      Statement env op db db'
  | extend {db db' deadline q} (phase : LeaseRow → LeasePhase) (hop : op.fleetOnly = false) (h : env.LeaseDeadline deadline)
      (rows : db'.leases.rows =
        db.leases.rows.map (rewrite q fun l => { l with expiresAt := deadline, phase := phase l }))
      (planning : db'.planning = { db.planning with leases := db'.leases }) (apart : db'.apart = db.apart) :
      Statement env op db db'
  | plan {db db' planId job digest decision node policy b usedAt} (hop : op.fleetOnly = false)
      (hbinding : newPlanBinding planId job digest decision (.ofTimestamp env.now.timestamp) db.fleetRevision node policy =
        .ok b)
      (h : insertPlanTx db b usedAt = .ok db') : Statement env op db db'
  | reserve {db db₁ db₂ db' lease gpu row b planId now} (hop : op.fleetOnly = false)
      (hlease : env.LeaseDeadline lease.expiresAt) (hinsert : insertRun db lease gpu row b = .ok db₁)
      (hmark : markPlanUsed db₁ planId now = .ok db₂) (hraise : db₂.incrementFleetRevision = .ok db') : Statement env op db db'
  | upload {db db'} (hop : op.uploadsFor ≠ none) (planning : db'.planning = db.planning) (fleet : db'.fleet = db.fleet) :
      Statement env op db db'
  | probe {db db' node authority} (hop : op.writesFleet = true) (h : upsertNodeTx env db node authority = .ok db')
      (hauthority : authority ≠ .controller) : Statement env op db db'
  | accept {db db' t n d report outcome} (hop : op.writesFleet = true) (hn : n ∈ db.nodes.rows) (hd : db.documents n = some d)
      (h : acceptReport t db d report = .ok (db', outcome)) : Statement env op db db'
  | configure {db db' id revision config stored} (hop : op.writesFleet = true)
      (h : updateNodeConfig env db id revision config = .ok (db', stored)) : Statement env op db db'
  | enroll {db db'} (hop : op.writesFleet = true) (henrolls : op.enrolls = true) (h : EnrollmentOnly db db') :
      Statement env op db db'

variable {env : Env} {db db' : Db} {op : Op} {now : Int}

/-! ### Maintenance -/

theorem updateJobCas_elsewhere (h : updateJobCas env db stored = .ok (db', stored')) :
    db'.planning = db.planning ∧ db'.apart = db.apart := by
  unfold updateJobCas at h
  split at h
  · split at h <;> cases h
  · simp only [bind_eq_ok, pair_eq_ok] at h
    obtain ⟨-, -, rfl, -⟩ := h
    exact ⟨rfl, rfl⟩

theorem recordNoEligibleNodes_elsewhere {explanation : PlacementExplain}
    (h : recordNoEligibleNodes env db stored explanation = .ok db') :
    db'.planning = db.planning ∧ db'.apart = db.apart := by
  unfold recordNoEligibleNodes at h
  split at h
  · simp only [bind_eq_ok, pure_eq_ok, Prod.exists] at h
    obtain ⟨_, _, hcas, rfl⟩ := h
    exact updateJobCas_elsewhere hcas
  · cases h; exact ⟨rfl, rfl⟩

theorem releaseLease_cases {leaseId : Option Uuid} {b : Bool} (h : releaseLease db leaseId now = .ok (db', b)) :
    db' = db ∨ ∃ q, db' = { db with
      leases := db.leases.modify q (fun l => { l with releasedAt := some now }) (fun _ _ => rfl)
      fleetRevision := db.fleetRevision + 1 } := by
  unfold releaseLease at h
  split at h
  · cases h; exact .inl rfl
  · split at h
    · simp only [bind_eq_ok, incrementFleetRevision_eq_ok, pair_eq_ok] at h
      obtain ⟨_, ⟨-, rfl⟩, rfl, -⟩ := h
      exact .inr ⟨_, rfl⟩
    · cases h; exact .inl rfl

theorem maintenance_updateJobCas (h : updateJobCas env db stored = .ok (db', stored')) :
    Maintenance env now db db' := by
  obtain ⟨hplanning, hapart⟩ := updateJobCas_elsewhere h
  exact .elsewhere hplanning hapart

theorem maintenance_expireRun {l : LeaseRow} (h : expireRun env db l = .ok db') : Maintenance env now db db' := by
  unfold expireRun at h
  split at h
  · cases h; exact .elsewhere rfl rfl
  · cases h
  · split at h
    · simp only [bind_eq_ok, pure_eq_ok, Prod.exists] at h
      obtain ⟨_, _, hcas, rfl⟩ := h
      exact maintenance_updateJobCas hcas
    · split at h
      · simp only [bind_eq_ok, pure_eq_ok, Prod.exists] at h
        obtain ⟨_, -, _, _, hcas, rfl⟩ := h
        exact maintenance_updateJobCas hcas
      · cases h; exact .elsewhere rfl rfl

theorem maintains_reapReservation {n n' : Nat} (h : reapReservation now (db, n) r = .ok (db', n')) :
    ReflTransGen (Maintenance env now) db db' := by
  simp only [reapReservation, bind_eq_ok] at h
  obtain ⟨_, -, _, -, _, -, _, -, _, -, h⟩ := h
  split at h
  · cases h; exact .single (.elsewhere rfl rfl)
  · simp only [bind_eq_ok, pair_eq_ok, Prod.exists] at h
    obtain ⟨db₁, _, hrecover, rfl, -⟩ := h
    unfold recoverDeadline at hrecover
    split at hrecover
    · cases hrecover; exact .refl
    · simp only [bind_eq_ok, pair_eq_ok, Prod.exists] at hrecover
      obtain ⟨db₁, _, hrelease, rfl, -⟩ := hrecover
      refine .head ?_ (.single (.release hrelease))
      exact .elsewhere rfl rfl

theorem maintains_expireLease {l : LeaseRow} {n n' : Nat} (h : expireLease env now (db, n) l = .ok (db', n')) :
    ReflTransGen (Maintenance env now) db db' := by
  simp only [expireLease, bind_eq_ok, pair_eq_ok, Prod.exists] at h
  obtain ⟨db₁, hrun, _, _, hrelease, rfl, -⟩ := h
  have hrevoke : Maintenance env now db₁ (revokeClaims db₁ l.runId now) := .elsewhere rfl rfl
  exact ((ReflTransGen.single (maintenance_expireRun hrun)).tail hrevoke).tail (.release hrelease)

theorem maintains_expireLeases {n : Nat} (h : expireLeases env db now = .ok (db', n)) :
    ReflTransGen (Maintenance env now) db db' := by
  simp only [expireLeases, bind_eq_ok, pair_eq_ok, Prod.exists] at h
  obtain ⟨db₁, n₁, hreap, db₂, n₂, hexpire, db₃, hredispatch, rfl, -⟩ := h
  have h₁ : ReflTransGen (Maintenance env now) db db₁ :=
    foldlM_induction (P := fun s => ReflTransGen (Maintenance env now) db s.1) hreap .refl
      (by rintro _ _ ⟨_, _⟩ ⟨_, _⟩ hs h; exact hs.trans (maintains_reapReservation h))
  have h₂ : ReflTransGen (Maintenance env now) db db₂ :=
    foldlM_induction (P := fun s => ReflTransGen (Maintenance env now) db s.1) hexpire h₁
      (by rintro _ _ ⟨_, _⟩ ⟨_, _⟩ hs h; exact hs.trans (maintains_expireLease h))
  exact h₂.tail (.redispatch hredispatch)

theorem writeImmutableObject_elsewhere {path sha256 : String} {bytes : List UInt8}
    (h : writeImmutableObject db path bytes sha256 = .ok db') : db'.planning = db.planning ∧ db'.fleet = db.fleet := by
  unfold writeImmutableObject at h
  split at h
  · split at h
    · cases h; exact ⟨rfl, rfl⟩
    · cases h
  · simp only [bind_eq_ok, pure_eq_ok] at h
    obtain ⟨_, -, rfl⟩ := h
    exact ⟨rfl, rfl⟩

/-! ### Calls of workers and clients -/

section Jobs

variable (hop : op.fleetOnly = false)

include hop

variable {expectedVersion n : Nat} {db₁ : Db} {job : JobSpec} {scheduler : Scheduler} {receipt : CleanupReceipt}
  {sha256 : String} {data : List UInt8}

theorem statements_expireLeases (h : expireLeases env db env.now.timestamp = .ok (db', n)) :
    ReflTransGen (Statement env op) db db' :=
  (maintains_expireLeases h).lift id fun _ _ => .maintain hop

theorem Statement.cas (h : updateJobCas env db stored = .ok (db', stored')) : Statement env op db db' := .maintain hop (maintenance_updateJobCas h)

theorem statements_authorizeRunTx (hexpire : expireLeases env db env.now.timestamp = .ok (db₁, n))
    (h : authorizeRunTx db₁ workerCredential runCredential r leaseId now = .ok (db', nodeId)) :
    ReflTransGen (Statement env op) db db' := by
  simp only [authorizeRunTx, bind_eq_ok, pair_eq_ok, Prod.exists] at h
  obtain ⟨_, _, hauth, _, -, -, -, rfl, -⟩ := h
  exact (statements_expireLeases hop hexpire).tail (.authenticate hauth)

theorem statements_authorizeCompletionReceiptTx (hexpire : expireLeases env db env.now.timestamp = .ok (db₁, n))
    (h : authorizeCompletionReceiptTx db₁ workerCredential runCredential r leaseId now = .ok (db', nodeId)) :
    ReflTransGen (Statement env op) db db' := by
  simp only [authorizeCompletionReceiptTx, bind_eq_ok, pair_eq_ok, Prod.exists] at h
  obtain ⟨_, _, hauth, _, -, -, -, rfl, -⟩ := h
  exact (statements_expireLeases hop hexpire).tail (.authenticate hauth)

theorem statements_createPlan {plan : StoredPlan}
    (h : createPlan env db job scheduler = .ok (db', plan)) : ReflTransGen (Statement env op) db db' := by
  simp only [createPlan, bind_eq_ok, pair_eq_ok, Prod.exists, Env.second, timestamp_eq_ok] at h
  obtain ⟨-, -, _, ⟨-, rfl⟩, db₁, _, hexpire, _, -, _, -, _, -, b, hbinding, db₂, hplan, rfl, -⟩ := h
  rw [DateTime.timestamp_ofTimestamp] at hexpire
  exact (statements_expireLeases hop hexpire).tail (.plan hop hbinding hplan)

/-- A submission places its run, and then reserves for it. -/
theorem statements_submitJob {planId : Option Uuid}
    (h : submitJob env db job planId scheduler = .ok (db', stored)) : ReflTransGen (Statement env op) db db' := by
  simp only [submitJob, bind_eq_ok, pair_eq_ok, Prod.exists, Env.second, timestamp_eq_ok] at h
  obtain ⟨-, -, _, ⟨-, rfl⟩, -, -, db₁, n, hexpire, _, -, db₂, _, _, hplace, _, -, _, -, db₃, hinsert, db₄, hmark, db₅, hraise,
    rfl, -⟩ := h
  rw [DateTime.timestamp_ofTimestamp] at hexpire
  have hplaced : ReflTransGen (Statement env op) db₁ db₂ := by
    unfold placeSubmission at hplace
    split at hplace
    · simp only [planSubmission, bind_eq_ok, pair_eq_ok] at hplace
      obtain ⟨_, -, _, -, _, hbinding, _, hplan, rfl, -⟩ := hplace
      exact .single (.plan hop hbinding hplan)
    · simp only [bind_eq_ok, pair_eq_ok, Prod.exists] at hplace
      obtain ⟨_, _, -, rfl, -⟩ := hplace
      exact .refl
  refine ((statements_expireLeases hop hexpire).trans hplaced).tail (.reserve hop (.inl ?_) hinsert hmark hraise)
  rw [newLease, DateTime.timestamp_ofTimestamp]

theorem statements_claimRun {claim : WorkerClaim} (h : claimRun env db nodeId stored = .ok (db', claim)) :
    ReflTransGen (Statement env op) db db' := by
  simp only [claimRun, bind_eq_ok, pair_eq_ok, Prod.exists] at h
  obtain ⟨-, -, -, -, _, -, _, -, db₁, _, hcas, _, -, -, -, rfl, -⟩ := h
  exact (ReflTransGen.single (.cas hop hcas)).tail (.extend (fun _ => .execution) hop (.inr (.inl rfl)) rfl rfl rfl)

theorem statements_workerHeartbeat {expectedState : JobState} {heartbeat : WorkerHeartbeat}
    (h : workerHeartbeat env db workerCredential runCredential r leaseId expectedVersion expectedState =
      .ok (db', heartbeat)) : ReflTransGen (Statement env op) db db' := by
  simp only [workerHeartbeat, bind_eq_ok, pair_eq_ok, Prod.exists] at h
  obtain ⟨db₁, _, hexpire, db₂, _, hauth, _, -, -, -, -, -, -, -, -, -, rfl, -⟩ := h
  exact (statements_authorizeRunTx hop hexpire hauth).tail (.extend LeaseRow.phase hop (.inr (.inl rfl)) rfl rfl rfl)

theorem statements_workerTransition {next : JobState}
    (h : workerTransition env db workerCredential runCredential r leaseId expectedVersion next = .ok (db', stored)) :
    ReflTransGen (Statement env op) db db' := by
  simp only [workerTransition, bind_eq_ok, Prod.exists] at h
  obtain ⟨-, -, db₁, _, hexpire, db₂, _, hauth, _, -, -, -, -, -, _, -, -, -, hcas⟩ := h
  exact (statements_authorizeRunTx hop hexpire hauth).tail (.cas hop hcas)

theorem statements_workerCompleteManaged {c : RunCompletion}
    (h : workerCompleteManaged env db workerCredential runCredential c = .ok (db', stored)) :
    ReflTransGen (Statement env op) db db' := by
  simp only [workerCompleteManaged, bind_eq_ok, Prod.exists] at h
  obtain ⟨-, -, db₁, _, hexpire, db₂, _, hauth, _, -, -, -, h⟩ := h
  have hauthorized := statements_authorizeCompletionReceiptTx hop hexpire hauth
  split at h
  · simp only [bind_eq_ok, pair_eq_ok] at h
    obtain ⟨-, -, rfl, -⟩ := h
    exact hauthorized
  · simp only [completeRun, authorizeRunTx, commitCompletion, bind_eq_ok, pair_eq_ok, Prod.exists] at h
    obtain ⟨db₃, _, ⟨_, _, hauth', _, -, -, -, rfl, -⟩, -, -, -, -, -, -, _, -, -, -, db₄, _, hcas, _, -, _, -, -, -, rfl, -⟩ := h
    refine ((hauthorized.tail (.authenticate hauth')).tail (.cas hop hcas)).tail ?_
    exact .extend (fun _ => .cleanupPending) hop (.inr (.inr rfl)) rfl rfl rfl

theorem statements_settleReservation (h : settleReservation db receipt now = .ok db') :
    ReflTransGen (Statement env op) db db' := by
  unfold settleReservation at h
  split at h
  · simp only [releaseCleanupReservationTx, bind_eq_ok, pure_eq_ok, Prod.exists] at h
    obtain ⟨_, -, current, -, -, -, db₁, hobligation, db₂, _, hrelease, rfl⟩ := h
    have hreleased : Maintenance env env.now.timestamp db db₁ := by
      unfold releaseObligation at hobligation
      split at hobligation
      · cases hobligation; exact .elsewhere rfl rfl
      · simp only [bind_eq_ok, pure_eq_ok] at hobligation
        obtain ⟨-, -, rfl⟩ := hobligation
        exact .elsewhere rfl rfl
    exact ReflTransGen.tail (.single (.maintain hop hreleased)) (.maintain hop (.release hrelease))
  · cases h; exact .refl

theorem statements_recordCleanup {stored : StoredCleanup}
    (h : recordCleanup env db workerCredential runCredential receipt = .ok (db', stored)) :
    ReflTransGen (Statement env op) db db' := by
  simp only [recordCleanup, bind_eq_ok, Prod.exists, Env.second, timestamp_eq_ok] at h
  obtain ⟨-, -, _, ⟨-, rfl⟩, db₁, _, hexpire, db₂, _, hauth, _, -, -, -, _, -, _, -, -, -, _, -, -, -, _, -, -, -, h⟩ := h
  rw [DateTime.timestamp_ofTimestamp] at hexpire
  have hauthorized := statements_authorizeCompletionReceiptTx hop hexpire hauth
  unfold storeReceipt at h
  split at h
  · simp only [bind_eq_ok, pair_eq_ok] at h
    obtain ⟨-, -, db₃, hsettle, _, -, rfl, -⟩ := h
    exact hauthorized.trans (statements_settleReservation hop hsettle)
  · simp only [bind_eq_ok, pair_eq_ok] at h
    obtain ⟨_, -, db₃, hsettle, rfl, -⟩ := h
    refine hauthorized.trans (.head ?_ (statements_settleReservation hop hsettle))
    exact .maintain hop (.elsewhere rfl rfl)

theorem statements_cancelJob {id : Uuid} {expectedVersion : Option Nat}
    (h : cancelJob env db id expectedVersion = .ok (db', stored)) : ReflTransGen (Statement env op) db db' := by
  simp only [cancelJob, bind_eq_ok, Prod.exists] at h
  obtain ⟨db₁, _, hexpire, _, -, -, -, cancelled, -, h⟩ := h
  have hexpired := statements_expireLeases hop hexpire
  cases cancelled with
  | none => cases h; exact hexpired
  | some stored₁ =>
    simp only [bind_eq_ok, pair_eq_ok, Prod.exists] at h
    obtain ⟨-, -, db₂, _, hcas, db₃, hrelease, rfl, -⟩ := h
    have hcancelled := hexpired.tail (.cas hop hcas)
    unfold releaseCancelled at hrelease
    split at hrelease
    · simp only [bind_eq_ok, pure_eq_ok, Prod.exists] at hrelease
      obtain ⟨_, _, hrelease, rfl⟩ := hrelease
      exact hcancelled.tail (.maintain hop (.release hrelease))
    · cases hrelease; exact hcancelled

/-! ### Uploads -/

theorem statements_putLogChunk {stream : String} {offset : Nat} {chunk : LogChunk} (hup : op.uploadsFor ≠ none)
    (h : putLogChunk env db workerCredential runCredential r leaseId stream offset sha256 data = .ok (db', chunk)) :
    ReflTransGen (Statement env op) db db' := by
  simp only [putLogChunk, bind_eq_ok, Prod.exists] at h
  obtain ⟨-, -, -, -, db₁, _, hexpire, db₂, _, hauth, existing, -, h⟩ := h
  have hauthorized := statements_authorizeRunTx hop hexpire hauth
  split at h
  · split at h
    · cases h; exact hauthorized
    · cases h
  · simp only [appendLogChunk, bind_eq_ok, pair_eq_ok] at h
    obtain ⟨_, -, -, -, _, -, -, -, _, -, db₃, hwrite, _, -, rfl, -⟩ := h
    obtain ⟨hplanning, hfleet⟩ := writeImmutableObject_elsewhere hwrite
    exact hauthorized.tail (.upload hup hplanning hfleet)

theorem statements_putArtifact {name : String} {artifactId : Uuid}
    {artifact : StoredArtifact} (hup : op.uploadsFor ≠ none)
    (h : putArtifact env db workerCredential runCredential r leaseId artifactId name sha256 data = .ok (db', artifact)) :
    ReflTransGen (Statement env op) db db' := by
  simp only [putArtifact, bind_eq_ok, Prod.exists] at h
  obtain ⟨-, -, -, -, db₁, _, hexpire, db₂, _, hauth, existing, -, h⟩ := h
  have hauthorized := statements_authorizeRunTx hop hexpire hauth
  split at h
  · split at h
    · cases h; exact hauthorized
    · cases h
  · simp only [addArtifact, bind_eq_ok, pair_eq_ok] at h
    obtain ⟨_, -, -, -, _, -, db₃, hwrite, _, -, rfl, -⟩ := h
    obtain ⟨hplanning, hfleet⟩ := writeImmutableObject_elsewhere hwrite
    exact hauthorized.tail (.upload hup hplanning hfleet)

/-! ### Calls on nodes -/

theorem statements_claimJob {node : Node} {claim : Option WorkerClaim} (hfleet : op.writesFleet = true)
    (h : claimJob env db workerCredential node = .ok (db', claim)) : ReflTransGen (Statement env op) db db' := by
  simp only [claimJob, bind_eq_ok, Prod.exists] at h
  obtain ⟨db₁, _, hexpire, db₂, nodeId, hauth, -, -, db₃, hprobe, jobs, -, h⟩ := h
  have hprobed : ReflTransGen (Statement env op) db db₃ := by
    refine ((statements_expireLeases hop hexpire).tail (.authenticate hauth)).trans ?_
    unfold upsertLegacyProbeTx at hprobe
    split at hprobe
    · cases hprobe; exact .refl
    · exact .single (.probe hfleet hprobe (by rintro ⟨⟩))
  split at h
  · cases h; exact hprobed
  · simp only [bind_eq_ok, pair_eq_ok, Prod.exists] at h
    obtain ⟨_, _, hclaim, rfl, -⟩ := h
    exact hprobed.trans (statements_claimRun hop hclaim)

theorem statements_recordNodeReport {credential : String} {report : NodeReportRequest} {outcome : NodeReportOutcome}
    (hfleet : op.writesFleet = true) (h : recordNodeReport env db credential report = .ok (db', outcome)) :
    ReflTransGen (Statement env op) db db' := by
  simp only [recordNodeReport, bind_eq_ok, required_eq_ok, Prod.exists] at h
  obtain ⟨-, -, db₁, _, hexpire, db₂, nodeId, hauth, n, hn, d, hd, h⟩ := h
  have hauthorized := (statements_expireLeases hop hexpire).tail (.authenticate hauth)
  split at h
  · cases h; exact hauthorized
  · simp only [bind_eq_ok, pair_eq_ok, Prod.exists] at h
    obtain ⟨db₃, _, haccept, db₄, hredispatch, rfl, -⟩ := h
    exact (hauthorized.tail (.accept hfleet (Table.find_some hn).1 hd haccept)).tail (.maintain hop (.redispatch hredispatch))

end Jobs

variable {certificatePem hash operationKey workerUrl : String} {pairing : IdempotentPairing}
  {requestedNodeId : Option Uuid} {id : Uuid}

theorem statements_consumePairing {code : String} {node : Node} {paired : PairedWorker}
    (hfleet : op.writesFleet = true) (henrolls : op.enrolls = true)
    (h : consumePairing env db code pairingId nodeId hash node = .ok (db', paired)) :
    ReflTransGen (Statement env op) db db' := by
  simp only [consumePairing, bind_eq_ok] at h
  obtain ⟨-, -, -, -, p, -, -, -, h⟩ := h
  split at h
  · simp only [bind_eq_ok, pair_eq_ok] at h
    obtain ⟨_, -, rfl, -⟩ := h
    exact .refl
  · simp only [consumeFresh, bind_eq_ok, pair_eq_ok] at h
    obtain ⟨-, -, -, -, -, -, db₁, hnode, credentials, -, _, -, rfl, -⟩ := h
    refine .head ?_ (.head (.probe hfleet hnode (by rintro ⟨⟩)) (.single ?_))
    · exact .enroll hfleet henrolls rfl
    · exact .enroll hfleet henrolls rfl

/-! ### Enrollment -/

theorem createPairingFor_only {intendedNodeId : Option Uuid} {pairing : PairingSecret}
    (h : createPairingFor env db intendedNodeId = .ok (db', pairing)) : EnrollmentOnly db db' := by
  simp only [createPairingFor, bind_eq_ok, pair_eq_ok] at h
  obtain ⟨_, -, _, -, rfl, -⟩ := h
  rfl

/-- A pairing is issued for the request, or it is answered from its operation. -/
theorem createPairingIdempotent_cases
    (h : createPairingIdempotent env db operationKey requestedNodeId workerUrl certificatePem = .ok (db', pairing)) :
    issuePairing env db operationKey requestedNodeId workerUrl certificatePem = .ok (db', pairing) ∨
      db' = db ∧ ∃ o p, (db.pairingOperations.find fun o => o.operationKey = operationKey) = some o ∧
        (db.pairings.find fun p => p.id = o.pairingId) = some p ∧
        replayPairing env db o p requestedNodeId = .ok pairing := by
  simp only [createPairingIdempotent, bind_eq_ok] at h
  obtain ⟨-, -, -, -, h⟩ := h
  split at h
  · exact .inl h
  · rename_i o ho
    split at h
    · exact .inl h
    · rename_i p hp
      simp only [bind_eq_ok, pair_eq_ok] at h
      obtain ⟨_, hreplay, rfl, rfl⟩ := h
      exact .inr ⟨rfl, o, p, ho, hp, hreplay⟩

theorem createPairingIdempotent_only
    (h : createPairingIdempotent env db operationKey requestedNodeId workerUrl certificatePem = .ok (db', pairing)) :
    EnrollmentOnly db db' := by
  rcases createPairingIdempotent_cases h with h | ⟨rfl, -⟩
  · simp only [issuePairing, bind_eq_ok, pair_eq_ok] at h
    obtain ⟨_, -, _, -, _, -, rfl, -⟩ := h
    rfl
  · rfl

theorem acknowledgePairing_only {credential : String} {acknowledgement : PairingAcknowledgement}
    (h : acknowledgePairing env db credential pairingId nodeId hash = .ok (db', acknowledgement)) : EnrollmentOnly db db' := by
  simp only [acknowledgePairing, bind_eq_ok] at h
  obtain ⟨-, -, p, -, h⟩ := h
  split at h
  · simp only [bind_eq_ok, pair_eq_ok] at h
    obtain ⟨_, -, rfl, -⟩ := h
    rfl
  · simp only [activatePairing, bind_eq_ok, pure_eq_ok] at h
    obtain ⟨_, ⟨_, -, -, -, _, -, -, -, rfl⟩, _, -, rfl, -⟩ := h
    rfl

theorem failPairing_only {failureCode : PairingFailureCode} (h : failPairing env db pairingId failureCode = .ok db') :
    EnrollmentOnly db db' := by
  simp only [failPairing, bind_eq_ok, Prod.exists] at h
  obtain ⟨_, -, _, -, phase, _, -, h⟩ := h
  split at h
  · simp only [bind_eq_ok, pure_eq_ok] at h
    obtain ⟨-, -, rfl⟩ := h
    rfl
  · simp only [bind_eq_ok, pure_eq_ok] at h
    obtain ⟨-, -, rfl⟩ := h
    rfl
  · cases h

theorem revokePairing_only (h : revokePairing env db pairingId = .ok db') : EnrollmentOnly db db' := by
  simp only [revokePairing, bind_eq_ok, pure_eq_ok] at h
  obtain ⟨-, -, _, -, rfl⟩ := h
  rfl

/-! ### Every call -/

theorem expires_getJob (h : getJob env db id = .ok (db', stored)) :
    ∃ n, expireLeases env db env.now.timestamp = .ok (db', n) := by
  simp only [getJob, bind_eq_ok, pair_eq_ok, Prod.exists] at h
  obtain ⟨_, n, hexpire, _, -, rfl, -⟩ := h
  exact ⟨n, hexpire⟩

theorem expires_listJobs {limit : Nat} {stored : List StoredJob} (h : listJobs env db limit = .ok (db', stored)) :
    ∃ n, expireLeases env db env.now.timestamp = .ok (db', n) := by
  simp only [listJobs, bind_eq_ok, pair_eq_ok, Prod.exists] at h
  obtain ⟨_, n, hexpire, _, -, rfl, -⟩ := h
  exact ⟨n, hexpire⟩

theorem expires_getCleanupSnapshot {snapshot : CleanupSnapshot}
    (h : getCleanupSnapshot env db id = .ok (db', snapshot)) : ∃ n, expireLeases env db env.now.timestamp = .ok (db', n) := by
  simp only [getCleanupSnapshot, bind_eq_ok, pair_eq_ok, Prod.exists] at h
  obtain ⟨_, n, hexpire, _, -, _, -, _, -, _, -, rfl, -⟩ := h
  exact ⟨n, hexpire⟩

/-- A call that commits is a sequence of statements. -/
theorem exec_statements {answer : Answer} (h : exec env db op = .ok (db', answer)) : ReflTransGen (Statement env op) db db' := by
  cases op <;> simp only [exec, answering_eq_ok, silently_eq_ok] at h
  case createPlan => obtain ⟨_, h, -⟩ := h; exact statements_createPlan rfl h
  case submitJob => obtain ⟨_, h, -⟩ := h; exact statements_submitJob rfl h
  case claimJob => obtain ⟨_, h, -⟩ := h; exact statements_claimJob rfl rfl h
  case workerHeartbeat => obtain ⟨_, h, -⟩ := h; exact statements_workerHeartbeat rfl h
  case workerTransition => obtain ⟨_, h, -⟩ := h; exact statements_workerTransition rfl h
  case putLogChunk => obtain ⟨_, h, -⟩ := h; exact statements_putLogChunk rfl (Option.some_ne_none _) h
  case putArtifact => obtain ⟨_, h, -⟩ := h; exact statements_putArtifact rfl (Option.some_ne_none _) h
  case workerCompleteManaged => obtain ⟨_, h, -⟩ := h; exact statements_workerCompleteManaged rfl h
  case recordCleanup => obtain ⟨_, h, -⟩ := h; exact statements_recordCleanup rfl h
  case cancelJob => obtain ⟨_, h, -⟩ := h; exact statements_cancelJob rfl h
  case getJob => obtain ⟨_, h, -⟩ := h; obtain ⟨_, h⟩ := expires_getJob h; exact statements_expireLeases rfl h
  case listJobs => obtain ⟨_, h, -⟩ := h; obtain ⟨_, h⟩ := expires_listJobs h; exact statements_expireLeases rfl h
  case getCleanupSnapshot =>
    obtain ⟨_, h, -⟩ := h
    obtain ⟨_, h⟩ := expires_getCleanupSnapshot h
    exact statements_expireLeases rfl h
  case maintain => obtain ⟨_, h, -⟩ := h; exact statements_expireLeases rfl h
  case recordNodeReport => obtain ⟨_, h, -⟩ := h; exact statements_recordNodeReport rfl rfl h
  case updateNodeConfig => obtain ⟨_, h, -⟩ := h; exact .single (.configure rfl h)
  case authenticateWorker => obtain ⟨_, h, -⟩ := h; exact .single (.authenticate h)
  case createPairingFor => obtain ⟨_, h, -⟩ := h; exact .single (.enroll rfl rfl (createPairingFor_only h))
  case createPairingIdempotent => obtain ⟨_, h, -⟩ := h; exact .single (.enroll rfl rfl (createPairingIdempotent_only h))
  case consumePairing => obtain ⟨_, h, -⟩ := h; exact statements_consumePairing rfl rfl h
  case acknowledgePairing => obtain ⟨_, h, -⟩ := h; exact .single (.enroll rfl rfl (acknowledgePairing_only h))
  case failPairing => exact .single (.enroll rfl rfl (failPairing_only h.1))
  case revokePairing => exact .single (.enroll rfl rfl (revokePairing_only h.1))

end CYC
