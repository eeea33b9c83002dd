import ClusterYourCodex.Ledger.Redispatch

/-! The worker's side of a run as moves: claim, heartbeat, transition and uploads. A worker that is
authorized for a run finds the rows of an executing one. -/

namespace CYC

open Checked Relational

variable {env : Env} {db db' : Db} {r : Uuid} {T now : Int}
variable {credential workerCredential runCredential sha256 : String} {nodeId leaseId : Uuid} {c : WorkerClaimRow}
  {j : JobRow} {l : LeaseRow} {data : List UInt8}

/-! ### Authorization -/

/-- `authenticate_worker` accepts the credential, for the node. -/
def Db.Accepts (db : Db) (credential : String) (node : Uuid) : Prop :=
  ∃ now db', authenticateWorkerTx db credential now = .ok (db', node)

theorem authenticateWorkerTx_eq_ok (h : authenticateWorkerTx db credential now = .ok (db', nodeId)) :
    db' = { db with workerCredentials := db'.workerCredentials } := by
  simp only [authenticateWorkerTx, bind_eq_ok, pair_eq_ok] at h
  obtain ⟨_, -, rfl, -⟩ := h
  rfl

theorem jobTables_authenticateWorkerTx (h : authenticateWorkerTx db credential now = .ok (db', nodeId)) :
    db'.jobTables = db.jobTables := by
  rw [authenticateWorkerTx_eq_ok h]
  rfl

theorem jobTables_authorizeRunTx
    (h : authorizeRunTx db workerCredential runCredential r leaseId now = .ok (db', nodeId)) :
    db'.jobTables = db.jobTables := by
  simp only [authorizeRunTx, bind_eq_ok, pair_eq_ok, Prod.exists] at h
  obtain ⟨db₁, _, hauth, _, -, -, -, rfl, -⟩ := h
  exact jobTables_authenticateWorkerTx hauth

theorem claimOf_eq_some : db.claimOf r leaseId credential = some c ↔
      (db.rowsOf r).claim = some c ∧ c.leaseId = leaseId ∧ c.credentialHash = secretHash credential := by
  constructor
  · intro h
    obtain ⟨hmem, hkey⟩ := Table.find_some h
    simp only [Bool.and_eq_true, decide_eq_true_eq] at hkey
    obtain ⟨⟨rfl, hlease⟩, hsecret⟩ := hkey
    exact ⟨Table.lookup_of_mem WorkerClaimRow.clash_of_runId hmem, hlease, hsecret⟩
  · rintro ⟨hclaim, hlease, hsecret⟩
    obtain ⟨hmem, hrun⟩ := mem_of_claim hclaim
    refine Table.find_of_mem (fun a b ha hb => ?_) hmem (by simp [hrun, hlease, hsecret])
    simp only [Bool.and_eq_true, decide_eq_true_eq] at ha hb
    exact WorkerClaimRow.clash_of_runId a b (ha.1.1.trans hb.1.1.symm)

/-- The run has a claim on the lease, and the credentials of the call are those of its node and its own. -/
structure Entitled (db : Db) (workerCredential runCredential : String) (r leaseId : Uuid) (c : WorkerClaimRow) : Prop where
  claim : (db.rowsOf r).claim = some c
  lease : c.leaseId = leaseId
  secret : c.credentialHash = secretHash runCredential
  worker : db.Accepts workerCredential c.nodeId

variable {rows : RunRows} {L : Ledger} {db₁ : Db} {expectedVersion offset : Nat} {next : JobState} {node : Node}
  {claim : Option WorkerClaim} {name stream : String} {chunk : LogChunk} {artifactId : Uuid}
  {artifact : StoredArtifact}

/-- A claim that has not been revoked is the one of an executing run. -/
theorem executing_of_claim (h : Coherent T r rows) (hclaim : rows.claim = some c)
    (hrevoked : c.revokedAt = none) : ∃ j l, Executing T r j l c ∧
      rows = { job := some j, lease := some l, claim := some c, chunks := rows.chunks, artifacts := rows.artifacts } := by
  cases h with
  | executing he => cases hclaim; exact ⟨_, _, he, rfl⟩
  | lost hl => cases hclaim; exact absurd hrevoked hl.revoked
  | completed hd => cases hclaim; exact absurd hrevoked hd.revoked
  | _ => cases hclaim

/-- What the authorization of a worker for a run shows. -/
structure Authorized (db : Db) (T now : Int) (r id : Uuid) (j : JobRow) (l : LeaseRow) (c : WorkerClaimRow) :
    Prop extends Executing T r j l c where
  rows : db.rowsOf r = { job := some j, lease := some l, claim := some c, chunks := db.chunksOf r,
                         artifacts := db.artifactsOf r }
  lease : l.id = id
  live : l.executingAt now = true
  unexpired : now < c.expiresAt

theorem authorizeRunTx_eq_ok (hc : db.ledger.Coherent T)
    (h : authorizeRunTx db workerCredential runCredential r leaseId now = .ok (db', nodeId)) :
    db'.ledger = db.ledger ∧ ∃ j l c, Authorized db' T now r leaseId j l c ∧
      Entitled db workerCredential runCredential r leaseId c := by
  simp only [authorizeRunTx, bind_eq_ok, pair_eq_ok, Prod.exists, required_eq_ok,
    Option.filter_eq_some_iff, ensure_eq_ok, decide_eq_true_eq] at h
  obtain ⟨db₁, _, hauth, c, ⟨hclaim, hlive⟩, -, hnode, rfl, -⟩ := h
  have hledger := Db.ledger_of_jobTables (jobTables_authenticateWorkerTx hauth)
  refine ⟨hledger, ?_⟩
  simp only [Bool.and_eq_true, Option.isNone_iff_eq_none, decide_eq_true_eq, Table.any_eq_true] at hlive
  obtain ⟨⟨hrevoked, hunexpired⟩, l', hmem, ⟨hid, hrun⟩, hexecuting⟩ := hlive
  obtain ⟨hclaim, hleaseId, hsecret⟩ := claimOf_eq_some.1 hclaim
  have hcoherent := hc r
  rw [← hledger] at hcoherent
  obtain ⟨j, l, hex, hrows⟩ := executing_of_claim hcoherent hclaim hrevoked
  have hl : (db₁.rowsOf r).lease = some l := by rw [← db₁.rows_ledger, hrows]
  subst hrun
  cases (lease_of_mem hmem).symm.trans hl
  refine ⟨j, l', c, { hex with rows := hrows, lease := hid, live := hexecuting, unexpired := hunexpired }, ?_⟩
  rw [← db₁.rows_ledger, hledger] at hclaim
  exact ⟨hclaim, hleaseId, hsecret, now, db₁, by rw [hauth, hnode]⟩

/-! ### Work on a run -/

/-- Moves of one run. -/
structure Ledger.OnRun (T : Int) (r : Uuid) (L L' : Ledger) : Prop where
  steps : Ledger.Steps T False L L'
  others : ∀ r', r' ≠ r → L'.rows r' = L.rows r'

theorem Ledger.OnRun.refl : L.OnRun T r L := ⟨.refl, fun _ _ => rfl⟩

theorem Ledger.OnRun.single {objects : String → Option (List UInt8)}
    (h : Ledger.Step T False L ((L.store objects).set r rows)) : L.OnRun T r ((L.store objects).set r rows) :=
  ⟨.single h, fun _ hr' => Ledger.rows_set_of_ne hr'⟩

/-- What a call on a run does: maintenance, and then moves of this run, for the holder of its claim. -/
structure Served (env : Env) (T : Int) (db db' : Db) (workerCredential runCredential : String) (r leaseId : Uuid)
    (db₁ : Db) : Prop where
  maintained : ∃ n, expireLeases env db env.now.timestamp = .ok (db₁, n)
  entitled : ∃ c, Entitled db₁ workerCredential runCredential r leaseId c
  moves : db₁.ledger.OnRun T r db'.ledger

theorem Served.steps (hc : db.ledger.Coherent T)
    (h : Served env T db db' workerCredential runCredential r leaseId db₁) : Ledger.Steps T False db.ledger db'.ledger := by
  obtain ⟨n, hexpire⟩ := h.maintained
  exact (expireLeases_steps hc env.onCalendar hexpire).1.trans h.moves.steps

/-- Maintenance and the authorization come before what the worker does. -/
theorem served_of_authorized {nodeId : Uuid} {n : Nat} (hc : db.ledger.Coherent T)
    (hexpire : expireLeases env db env.now.timestamp = .ok (db₁, n))
    (hauth : authorizeRunTx db₁ workerCredential runCredential r leaseId env.now.timestamp = .ok (db₂, nodeId))
    (hmoves : ∀ j l c, Authorized db₂ T env.now.timestamp r leaseId j l c → db₂.ledger.OnRun T r db'.ledger) :
    ∃ db₁, Served env T db db' workerCredential runCredential r leaseId db₁ := by
  obtain ⟨hsteps, -⟩ := expireLeases_steps hc env.onCalendar hexpire
  obtain ⟨hledger, j, l, c, ha, hentitled⟩ := authorizeRunTx_eq_ok (Ledger.coherent_steps hc hsteps) hauth
  exact ⟨db₁, ⟨n, hexpire⟩, ⟨c, hentitled⟩, hledger ▸ hmoves j l c ha⟩

/-- An authorized worker moves the run; what it stored stays. -/
theorem Authorized.work {j' : JobRow} {l' : LeaseRow} {c' : WorkerClaimRow} (h : Authorized db T now r leaseId j l c)
    (hledger : db'.ledger = db.ledger.set r { job := some j', lease := some l', claim := some c',
                                              chunks := db.chunksOf r, artifacts := db.artifactsOf r })
    (new : Executing T r j' l' c') (node : l'.nodeId = l.nodeId) : db.ledger.OnRun T r db'.ledger := by
  have step : Ledger.Step T False db.ledger ((db.ledger.store db.ledger.objects).set r
      { job := some j', lease := some l', claim := some c', chunks := db.chunksOf r, artifacts := db.artifactsOf r }) :=
    .work h.rows h.held new node fun _ _ hb => hb
  exact hledger ▸ .single step

theorem workerHeartbeat_served {expectedState : JobState} {heartbeat : WorkerHeartbeat} (hc : db.ledger.Coherent T)
    (h : workerHeartbeat env db workerCredential runCredential r leaseId expectedVersion expectedState =
      .ok (db', heartbeat)) : ∃ db₁, Served env T db db' workerCredential runCredential r leaseId db₁ := by
  simp only [workerHeartbeat, bind_eq_ok, pair_eq_ok, Prod.exists] at h
  obtain ⟨db₁, n, hexpire, db₂, _, hauth, stored, -, -, -, -, -, -, -, -, -, rfl, -⟩ := h
  refine served_of_authorized hc hexpire hauth fun j l c ha => ?_
  have hlease : (db₂.rowsOf r).lease = some l := by rw [ha.rows]
  have hclaim : (db₂.rowsOf r).claim = some c := by rw [ha.rows]
  have hrenewsLease : renewsLease r leaseId env.now.timestamp l = true := by
    simp [renewsLease, ha.lease, ha.leaseRun, ha.live]
  have hrenewsClaim : renewsClaim r leaseId env.now.timestamp c = true := by
    simp [renewsClaim, ha.claimRun, ha.claimLease, ha.lease, ha.unrevoked, ha.unexpired]
  have honlyLease : ∀ x ∈ db₂.leases.rows, renewsLease r leaseId env.now.timestamp x = true → x.runId = r := by
    simp +contextual [renewsLease]
  have honlyClaim : ∀ x ∈ db₂.workerClaims.rows, renewsClaim r leaseId env.now.timestamp x = true → x.runId = r := by
    simp +contextual [renewsClaim]
  refine ha.work ((ledger_leases_workerClaims (Table.lookup_modify hlease honlyLease hrenewsLease fun _ => ?_)
    (Table.lookup_modify hclaim honlyClaim hrenewsClaim fun _ => ?_)).trans (by rw [ha.rows])) ?_ ?_
  · rfl
  · rfl
  · exact { ha.toExecuting with sized := { ha.sized with }, claimExpires := rfl }
  · rfl

/-- A validated transition starts the run after its creation and not after the call. -/
theorem started_of_transition {reading : Reading} (hT : env.finish.nanos ≤ T) (h : Leased T r j l)
    (hvalid : ({ j.run with
      startedAt := if next = .running && j.run.startedAt.isNone then some (env.reading reading) else j.run.startedAt
      finishedAt := if next.isTerminal then some (env.reading reading) else j.run.finishedAt
      state := next } : Run).validate = .ok ()) :
    ∀ s, (if next = .running && j.run.startedAt.isNone then some (env.reading reading) else j.run.startedAt) = some s →
      j.run.createdAt.nanos ≤ s.nanos ∧ s.nanos ≤ T := by
  intro s hs
  simp only [Run.validate, seq_eq_ok, Run.validateTimes, ensure_eq_ok, hs, Option.all_some, decide_eq_true_eq] at hvalid
  refine ⟨hvalid.1.1, ?_⟩
  split at hs
  · cases hs
    exact (env.le_finish reading).trans hT
  · exact (h.started s hs).2

theorem workerTransition_served {stored : StoredJob} (hc : db.ledger.Coherent T) (hT : env.finish.nanos ≤ T)
    (h : workerTransition env db workerCredential runCredential r leaseId expectedVersion next = .ok (db', stored)) :
    ∃ db₁, Served env T db db' workerCredential runCredential r leaseId db₁ := by
  simp only [workerTransition, bind_eq_ok, ensure_eq_ok, mapError_eq_ok, transition_eq_ok, Prod.exists] at h
  obtain ⟨-, hactive, db₁, n, hexpire, db₂, _, hauth, stored₀, hget, -, -, -, -, run, ⟨-, rfl⟩, _, hvalid, hcas⟩ := h
  refine served_of_authorized hc hexpire hauth fun j l c ha => ?_
  have hj : (db₂.rowsOf r).job = some j := by rw [ha.rows]
  obtain ⟨j', hj', hdecode⟩ := getJobByRunId_eq_ok.1 hget
  cases hj.symm.trans hj'
  obtain ⟨-, -, rfl⟩ := decodeJobRow_eq_ok.1 hdecode
  obtain ⟨-, -, -, hledger'⟩ := updateJobCas_eq_ok hj ha.run hcas
  refine ha.work (hledger'.trans (by rw [ha.rows])) ?_ rfl
  exact { ha.toLeased.cas env _ rfl rfl ha.bound rfl (started_of_transition hT ha.toLeased hvalid), ha.toClaimed with
    node := ha.node
    boundNode := ha.boundNode
    state := by
      simp only [Bool.and_eq_true, Bool.not_eq_true', decide_eq_true_eq] at hactive
      exact JobState.isActive_of_progress hactive.1 hactive.2
    phase := ha.phase
    held := ha.held
    unrevoked := ha.unrevoked
    claimExpires := ha.claimExpires }

/-! ### The claim -/

theorem jobTables_upsertNodeTx {authority : NodeWriteAuthority}
    (h : upsertNodeTx env db node authority = .ok db') : db'.jobTables = db.jobTables := by
  simp only [upsertNodeTx, bind_eq_ok] at h
  obtain ⟨-, -, -, -, -, -, _, -, _, -, hinc⟩ := h
  rw [incrementWhen_eq_ok hinc]
  rfl

theorem jobTables_upsertLegacyProbeTx (h : upsertLegacyProbeTx env db node = .ok db') :
    db'.jobTables = db.jobTables := by
  unfold upsertLegacyProbeTx at h
  split at h
  · cases h; rfl
  · exact jobTables_upsertNodeTx h

/-- A queued run whose lease is held is a dispatched one. -/
theorem dispatched_of_held (h : Coherent T r rows) (hj : rows.job = some j)
    (hl : rows.lease = some l) (hqueued : j.run.state = .queued) (hheld : l.releasedAt = none) :
    rows = { job := some j, lease := some l } ∧ Dispatched T r j l := by
  obtain ⟨l', rfl, hd | hw⟩ := h.queued hj hqueued
  · cases hl
    exact ⟨rfl, hd⟩
  · cases hl
    exact absurd hheld hw.released

/-- The run is executed by the worker of the node, which holds its claim. -/
structure Assigned (db : Db) (T : Int) (r nodeId : Uuid) (j : JobRow) (l : LeaseRow) (c : WorkerClaimRow) : Prop
    extends Executing T r j l c where
  rows : db.rowsOf r = { job := some j, lease := some l, claim := some c }
  owner : l.nodeId = nodeId

/-- The claim of a dispatched run is one move. -/
theorem claimRun_step {claim : WorkerClaim} (hrows : db.rowsOf r = { job := some j, lease := some l })
    (hd : Dispatched T r j l) (hnode : l.nodeId = nodeId) (h : claimRun env db nodeId j.stored = .ok (db', claim)) :
    Ledger.Step T False db.ledger db'.ledger ∧ claim.stored.run.id = r ∧
      ∃ j' l' c, Assigned db' T r nodeId j' l' c := by
  simp only [claimRun, bind_eq_ok, pair_eq_ok, Prod.exists, required_eq_ok, mapError_eq_ok,
    inserted_eq_ok] at h
  obtain ⟨-, -, -, -, leaseId, hleaseId, run, htransition, db₁, stored, hcas, claims, hinsert, -, -, rfl, rfl⟩ := h
  cases hleaseId.symm.trans hd.leaseId
  have hmoved := moved_of_transition htransition
  have hid : run.id = r := hmoved.id.trans hd.run
  obtain ⟨-, -, hstored, hledger₁⟩ := updateJobCas_eq_ok (by rw [hrows]) hid hcas
  have hstored : stored.run.id = r := by rw [hstored]; exact hid
  rw [hrows] at hledger₁
  have hrows₁ := rowsOf_of_ledger hledger₁
  have hlease : (db₁.rowsOf r).lease = some l := by rw [hrows₁]
  generalize hclaim : WorkerClaimRow.mk _ _ _ _ _ _ _ = c at hinsert
  have hrun : c.runId = r := by rw [← hclaim]; exact hstored
  have hclaims := (Table.lookup_insert WorkerClaimRow.clash_of_runId hinsert).2
  rw [hrun] at hclaims
  have hexecuting : Executing T r (casRow env { j.stored with run } j)
      { l with expiresAt := (env.now.addSeconds claimTtlSeconds).timestamp, phase := .execution } c :=
    { hd.toLeased.cas env { j.stored with run } hmoved.id hmoved.jobId hd.bound hmoved.createdAt
        (hd.started_of_moved hmoved (by rintro ⟨⟩)) with
      sized := { hd.sized with }
      node := hmoved.nodeId.trans hd.node
      boundNode := hd.boundNode
      claimRun := hrun
      claimLease := by rw [← hclaim]
      claimNode := by rw [← hclaim]; exact hnode.symm
      state := by simp only [casRow, hmoved.state]; rfl
      phase := rfl
      held := hd.held
      unrevoked := by rw [← hclaim]
      claimExpires := by rw [← hclaim] }
  generalize hdb' : ({ db₁ with workerClaims := claims, leases := _ } : Db) = db'
  have hledger : db'.ledger = db.ledger.set r
      { job := some (casRow env { j.stored with run } j)
        lease := some { l with expiresAt := (env.now.addSeconds claimTtlSeconds).timestamp, phase := .execution }
        claim := some c } := by
    rw [← hdb']
    refine (ledger_leases_workerClaims (Table.lookup_modify hlease (fun x _ hx => ?_) ?_ fun _ => ?_) hclaims).trans ?_
    · simp only [hstored, Bool.and_eq_true, decide_eq_true_eq] at hx
      exact hx.1.1.2
    · simp [hstored, hd.leaseRun, hd.held, hd.phase]
    · rfl
    · rw [hledger₁, hrows₁, Ledger.set_set]
  exact ⟨hledger ▸ .claim hrows hd.held hexecuting rfl, hstored, _, _, c, hexecuting, rowsOf_of_ledger hledger, hnode⟩

/-- A poll of a worker: maintenance, and then nothing or the claim of a run dispatched to its node. -/
theorem claimJob_eq_ok (hc : db.ledger.Coherent T) (h : claimJob env db workerCredential node = .ok (db', claim)) :
    ∃ db₁ : Db, Ledger.Steps T False db.ledger db₁.ledger ∧
      ((claim = none ∧ db'.ledger = db₁.ledger) ∨ ∃ w j l, claim = some w ∧ Dispatched T w.stored.run.id j l ∧
        db₁.rowsOf w.stored.run.id = { job := some j, lease := some l } ∧
        Ledger.Step T False db₁.ledger db'.ledger ∧ ∃ j' l' c, Assigned db' T w.stored.run.id node.id j' l' c) := by
  simp only [claimJob, bind_eq_ok, Prod.exists, ensure_eq_ok, decide_eq_true_eq] at h
  obtain ⟨db₁, _, hexpire, db₂, nodeId, hauth, -, rfl, db₃, hprobe, jobs, hjobs, h⟩ := h
  obtain ⟨hsteps, -⟩ := expireLeases_steps hc env.onCalendar hexpire
  have hledger₃ : db₃.ledger = db₁.ledger :=
    (Db.ledger_of_jobTables (jobTables_upsertLegacyProbeTx hprobe)).trans (Db.ledger_of_jobTables (jobTables_authenticateWorkerTx hauth))
  refine ⟨db₃, hledger₃ ▸ hsteps, ?_⟩
  split at h
  · cases h; exact .inl ⟨rfl, rfl⟩
  rename_i stored hfind
  simp only [bind_eq_ok, pair_eq_ok, Prod.exists] at h
  obtain ⟨_, w, hclaim, rfl, rfl⟩ := h
  obtain ⟨j, hj, hdecode⟩ := exists_of_mem_collect hjobs (List.mem_of_find?_eq_some hfind)
  obtain ⟨-, -, rfl⟩ := decodeJobRow_eq_ok.1 hdecode
  -- the row was selected for a held lease of the worker's node
  obtain ⟨hmem, hselected⟩ := List.mem_filter.1 ((perm_orderedBy _ _ _).mem_iff.1 hj)
  obtain ⟨l, hl, hleased⟩ := Table.any_eq_true.1 hselected
  simp only [Bool.and_eq_true, decide_eq_true_eq, Option.isNone_iff_eq_none] at hleased
  obtain ⟨⟨⟨hrun, hnode⟩, hheld⟩, -⟩ := hleased
  have hcoherent := Ledger.coherent_steps hc hsteps
  rw [← hledger₃] at hcoherent
  obtain ⟨hrows, hd⟩ := dispatched_of_held (hcoherent j.runId) (job_of_mem hmem) (hrun ▸ lease_of_mem hl)
    (by simpa using List.find?_some hfind) hheld
  obtain ⟨hstep, hid, hassigned⟩ := claimRun_step hrows hd hnode hclaim
  rw [← hid] at hrows hd hassigned
  exact .inr ⟨w, j, l, rfl, hd, hrows, hstep, hassigned⟩

theorem claimJob_steps (hc : db.ledger.Coherent T)
    (h : claimJob env db workerCredential node = .ok (db', claim)) : Ledger.Steps T False db.ledger db'.ledger := by
  obtain ⟨db₁, hsteps, ⟨-, hledger⟩ | ⟨_, _, _, -, -, -, hstep, -⟩⟩ := claimJob_eq_ok hc h
  · exact hledger ▸ hsteps
  · exact hsteps.tail hstep

/-! ### Uploads -/

/-- Objects are written once and never change. -/
theorem writeImmutableObject_eq_ok {path : String} {bytes : List UInt8}
    (h : writeImmutableObject db path bytes sha256 = .ok db') : db'.ledger = db.ledger.store db'.ledger.objects ∧
      (∀ p b, db.ledger.objects p = some b → db'.ledger.objects p = some b) := by
  unfold writeImmutableObject at h
  split at h
  · split at h
    · cases h; exact ⟨rfl, fun _ _ hb => hb⟩
    · cases h
  · simp only [bind_eq_ok, pure_eq_ok, inserted_eq_ok] at h
    obtain ⟨objects, hinsert, rfl⟩ := h
    refine ⟨rfl, fun p b hb => ?_⟩
    have hclash : ∀ a b : ObjectRow, a.path = b.path → Schema.clash a b = true := fun a b hab => by simp [Schema.clash, hab]
    obtain ⟨hnone, hlookup⟩ := Table.lookup_insert hclash hinsert
    have hne : p ≠ path := by
      rintro rfl
      simp only [Db.ledger, hnone] at hb
      cases hb
    simp only [Db.ledger, hlookup, Function.update_of_ne hne]
    exact hb

theorem ledger_logChunks {t : Table LogChunkRow} {row : LogChunkRow} (h : db.logChunks.insert row = some t) :
    ({ db with logChunks := t } : Db).ledger =
      db.ledger.set row.runId { db.rowsOf row.runId with chunks := db.chunksOf row.runId ++ [row] } := by
  have hrows := (Table.insert_eq_some h).1
  refine ledger_eq_set ?_ (fun r' hne => ?_) rfl
  · simp [Db.rowsOf, Db.chunksOf, Db.artifactsOf, hrows]
  · simp [Db.rowsOf, Db.chunksOf, Db.artifactsOf, hrows, Ne.symm hne]

theorem ledger_artifacts {t : Table ArtifactRow} {row : ArtifactRow} (h : db.artifacts.insert row = some t) :
    ({ db with artifacts := t } : Db).ledger =
      db.ledger.set row.runId { db.rowsOf row.runId with artifacts := db.artifactsOf row.runId ++ [row] } := by
  have hrows := (Table.insert_eq_some h).1
  refine ledger_eq_set ?_ (fun r' hne => ?_) rfl
  · simp [Db.rowsOf, Db.chunksOf, Db.artifactsOf, hrows]
  · simp [Db.rowsOf, Db.chunksOf, Db.artifactsOf, hrows, Ne.symm hne]

/-- An authorized worker adds to what is stored of the run. -/
theorem Authorized.upload {chunks : List LogChunkRow} {artifacts : List ArtifactRow}
    (h : Authorized db T now r leaseId j l c) (hwritten : db₁.ledger = db.ledger.store db₁.ledger.objects)
    (hgrows : ∀ p b, db.ledger.objects p = some b → db₁.ledger.objects p = some b)
    (hledger : db'.ledger = db₁.ledger.set r { job := some j, lease := some l, claim := some c, chunks, artifacts }) :
    db.ledger.OnRun T r db'.ledger := by
  have step : Ledger.Step T False db.ledger ((db.ledger.store db₁.ledger.objects).set r
      { job := some j, lease := some l, claim := some c, chunks, artifacts }) :=
    .work h.rows h.held h.toExecuting rfl hgrows
  have hmoves := Ledger.OnRun.single step
  rw [← hwritten, ← hledger] at hmoves
  exact hmoves

theorem appendLogChunk_moves (ha : Authorized db T now r leaseId j l c)
    (h : appendLogChunk env db r stream offset sha256 data = .ok (db', chunk)) : db.ledger.OnRun T r db'.ledger := by
  simp only [appendLogChunk, bind_eq_ok, pair_eq_ok, inserted_eq_ok] at h
  obtain ⟨_, -, -, -, _, -, -, -, _, -, db₁, hwrite, chunks, hinsert, rfl, -⟩ := h
  obtain ⟨hwritten, hgrows⟩ := writeImmutableObject_eq_ok hwrite
  have hrows : db₁.rowsOf r = _ := (congrFun (congrArg Ledger.rows hwritten) r).trans ha.rows
  have hledger := ledger_logChunks hinsert
  simp only [hrows] at hledger
  exact ha.upload hwritten hgrows hledger

theorem putLogChunk_served (hc : db.ledger.Coherent T)
    (h : putLogChunk env db workerCredential runCredential r leaseId stream offset sha256 data = .ok (db', chunk)) :
    ∃ db₁, Served env T db db' workerCredential runCredential r leaseId db₁ := by
  simp only [putLogChunk, bind_eq_ok, Prod.exists] at h
  obtain ⟨-, -, -, -, db₁, n, hexpire, db₂, _, hauth, existing, -, h⟩ := h
  refine served_of_authorized hc hexpire hauth fun j l c ha => ?_
  cases existing with
  | none => exact appendLogChunk_moves ha h
  | some existing =>
    simp only at h
    split at h
    · cases h; exact .refl
    · cases h

theorem addArtifact_moves (ha : Authorized db T now r leaseId j l c)
    (h : addArtifact env db r artifactId name sha256 data = .ok (db', artifact)) : db.ledger.OnRun T r db'.ledger := by
  simp only [addArtifact, bind_eq_ok, pair_eq_ok, inserted_eq_ok] at h
  obtain ⟨_, -, -, -, _, -, db₁, hwrite, artifacts, hinsert, rfl, -⟩ := h
  obtain ⟨hwritten, hgrows⟩ := writeImmutableObject_eq_ok hwrite
  have hrows : db₁.rowsOf r = _ := (congrFun (congrArg Ledger.rows hwritten) r).trans ha.rows
  have hledger := ledger_artifacts hinsert
  simp only [hrows] at hledger
  exact ha.upload hwritten hgrows hledger

theorem putArtifact_served (hc : db.ledger.Coherent T)
    (h : putArtifact env db workerCredential runCredential r leaseId artifactId name sha256 data = .ok (db', artifact)) :
    ∃ db₁, Served env T db db' workerCredential runCredential r leaseId db₁ := by
  simp only [putArtifact, bind_eq_ok, Prod.exists] at h
  obtain ⟨-, -, -, -, db₁, n, hexpire, db₂, _, hauth, existing, -, h⟩ := h
  refine served_of_authorized hc hexpire hauth fun j l c ha => ?_
  cases existing with
  | none => exact addArtifact_moves ha h
  | some existing =>
    simp only at h
    split at h
    · cases h; exact .refl
    · cases h

end CYC
