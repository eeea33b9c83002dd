import ClusterYourCodex.Ledger.Operations

/-! The job store over whole histories of calls. A call moves runs, so the invariants of the ledger hold
of every database that a history of calls leads to. From them: a node is held once, the tables of a run
agree on its phase, a success is borne out by what is stored, and a cleanup reservation is given back
for a reason that is on record. -/

namespace CYC

open Relational

variable {env : Env} {db db' : Db} {r : Uuid} {seed : String} {calls later : List Call}
variable {t : Int} {d : RunCompletionRow}

/-! ### The invariants of every history -/

/-- What holds of the database of a history that has seen no instant after `t`. -/
structure Sound (t : Int) (db : Db) : Prop where
  coherent : db.ledger.Coherent t
  exclusive : db.ledger.Exclusive
  proven : db.ledger.Proven

theorem rowsOf_empty (seed : String) (r : Uuid) : (Db.empty seed).rowsOf r = {} := rfl

theorem sound_empty (t : Int) (seed : String) : Sound t (.empty seed) where
  coherent _ := .absent
  exclusive r _ _ _ h := by rw [Db.rows_ledger, rowsOf_empty] at h; cases h
  proven r _ _ h := by rw [Db.rows_ledger, rowsOf_empty] at h; cases h

/-- One call: a sequence of moves, whatever it answers. -/
theorem step_steps (waiting : Prop) (call : Call) (hc : db.ledger.Coherent t)
    (hwaiting : waiting ∨ call.op.Offered call.env.now.timestamp db) :
    Ledger.Steps (max t call.env.finish.nanos) waiting db.ledger (step db call).ledger := by
  obtain ⟨db', a, hexec, hstep⟩ | hstep := step_cases db call
  · rw [hstep]
    exact exec_steps (hc.mono (le_max_left ..)) (le_max_right ..) hwaiting hexec
  · rw [hstep]
    exact .refl

theorem sound_step {call : Call} (h : Sound t db) : Sound (max t call.env.finish.nanos) (step db call) := by
  have hsteps := step_steps True call h.coherent (.inl trivial)
  exact ⟨Ledger.coherent_steps (h.coherent.mono (le_max_left ..)) hsteps,
    Ledger.exclusive_steps h.exclusive hsteps, Ledger.proven_steps h.proven hsteps⟩

theorem sound_after (seed : String) (calls : List Call) : ∃ t, Sound t (storeAfter seed calls) :=
  History.invariant (P := fun db => ∃ t, Sound t db) calls ⟨0, sound_empty 0 seed⟩ fun _ _ ⟨_, hs⟩ => ⟨_, sound_step hs⟩

/-- What every move keeps relates a history to every longer one. -/
theorem related_after {R : Ledger → Ledger → Prop} (seed : String) (calls later : List Call) (hrefl : ∀ L, R L L)
    (hstep : ∀ {t L L' L''}, R L L' → Ledger.Steps t True L' L'' → R L L'') :
    R (storeAfter seed calls).ledger (storeAfter seed (calls ++ later)).ledger := by
  obtain ⟨t, hs⟩ := sound_after seed calls
  rw [storeAfter_append]
  refine (History.invariant (P := fun db => (∃ t, Sound t db) ∧ R (storeAfter seed calls).ledger db.ledger) later
    ⟨⟨t, hs⟩, hrefl _⟩ ?_).2
  rintro db call ⟨⟨t, hs⟩, hR⟩
  exact ⟨⟨_, sound_step hs⟩, hstep hR (step_steps True call hs.coherent (.inl trivial))⟩

/-! ### A history

One worker is enrolled and reports, and a job is submitted, claimed, run and cleaned up. -/

theorem onClock_1000 : (DateTime.ofTimestamp 1000).OnClock := by decide

theorem onClock_1001 : (DateTime.ofTimestamp 1001).OnClock := by decide

/-- A call that takes no time; `salt` keeps the identifiers of different calls apart. -/
def envAt (s : Int) (salt : Nat)
    (h : (DateTime.ofTimestamp s).OnClock := by first | exact onClock_1000 | exact onClock_1001 | decide) : Env where
  now := .ofTimestamp s
  reading _ := .ofTimestamp s
  finish := .ofTimestamp s
  newV4
    | .run attempt => ⟨BitVec.ofNat 128 (salt * 1000 + 100 + attempt)⟩
    | .lease => ⟨BitVec.ofNat 128 (salt * 1000 + 2)⟩
    | .plan => ⟨BitVec.ofNat 128 (salt * 1000 + 3)⟩
    | .replan pass _ => ⟨BitVec.ofNat 128 (salt * 1000 + 4 + pass)⟩
    | .pairing => ⟨BitVec.ofNat 128 (salt * 1000 + 6)⟩
    | .pairingNode => ⟨BitVec.ofNat 128 (salt * 1000 + 7)⟩
    | .credential => ⟨BitVec.ofNat 128 (salt * 1000 + 8)⟩
    | .secret second => ⟨BitVec.ofNat 128 (salt * 1000 + if second then 10 else 9)⟩
  now_le _ := le_rfl
  le_finish _ := le_rfl
  now_onClock := h
  finish_onClock := h

def sampleProbe : ProbeReport where
  observedAt := epoch
  hostname := "w"
  os := .linux
  arch := .x8664
  capabilities := .empty
  resources := { logicalCpuCores := 8, availableCpuCores := 8, memoryMib := 16384, availableMemoryMib := 8192,
                 diskMib := 102400, availableDiskMib := 51200, gpus := [] }
  load := { cpuPercent := 5, queueDepth := 0, runningJobs := 0 }

/-- Telemetry of a worker process, without an inventory. -/
def sampleReport (bootGeneration sequence : UInt64) (bootId : Uuid) : NodeReportRequest where
  apiVersion := workerApiVersion
  inventory := none
  telemetry := { NodeTelemetry.fromNode (nodeFromProbe ⟨1⟩ none sampleProbe "https://c" true) epoch with
    bootGeneration, bootId, sequence }

theorem validRequest_none : (CreatePairingRequest.mk none).validate = .ok () := rfl

theorem validRequest_one : (CreatePairingRequest.mk (some ⟨1⟩)).validate = .ok () := rfl

/-- A pairing for the node is issued and consumed with the credential, at second `s`. -/
def pairCalls (s : Int) (salt : Nat) (node : Uuid) (credential : String)
    (h : (DateTime.ofTimestamp s).OnClock := by first | exact onClock_1000 | exact onClock_1001 | decide)
    (valid : (CreatePairingRequest.mk (some node)).validate = .ok () := by exact validRequest_one) : List Call :=
  [⟨envAt s salt h, .createPairingFor ⟨some node⟩ valid⟩,
   ⟨envAt s (salt + 1) h, .consumePairing (envAt s salt h).randomSecret ((envAt s salt h).newV4 .pairing) node
      (secretHash credential) none sampleProbe "https://c"⟩]

/-- The pairing is acknowledged as well. -/
def enrollCalls (s : Int) (salt : Nat) (node : Uuid) (credential : String)
    (h : (DateTime.ofTimestamp s).OnClock := by first | exact onClock_1000 | exact onClock_1001 | decide)
    (valid : (CreatePairingRequest.mk (some node)).validate = .ok () := by exact validRequest_one) : List Call :=
  pairCalls s salt node credential h valid ++
    [⟨envAt s (salt + 2) h, .acknowledgePairing credential ((envAt s salt h).newV4 .pairing) node (secretHash credential)⟩]

/-- The worker of node 1 is enrolled with credential `a` and reports, and a job is dispatched to it. -/
def dispatchCalls (job : JobSpec) : List Call :=
  enrollCalls 1000 10 ⟨1⟩ "a" ++
    [⟨envAt 1000 20, .recordNodeReport "a" (sampleReport 1 1 ⟨77⟩)⟩, ⟨envAt 1000 21, .submitJob job none⟩]

def sampleRun : Uuid := (envAt 1000 21).newV4 (.run 0)

def sampleLease : Uuid := (envAt 1000 21).newV4 .lease

def sampleCompletion : RunCompletion where
  runId := sampleRun
  leaseId := sampleLease
  expectedVersion := 2
  finalState := .succeeded
  evidence := { startedAt := some (.ofTimestamp 1000), finishedAt := some (.ofTimestamp 1000), exitCode := some 0,
                error := none, artifactIds := [] }
  execution :=
    { source := ⟨"git", "https://example.invalid/r.git", "0123456789abcdef0123456789abcdef01234567",
        "0123456789abcdef0123456789abcdef01234567", "0123456789abcdef0123456789abcdef01234567", "git version 2"⟩
      steps := [⟨0, "b", .bash, .ofTimestamp 1000, .ofTimestamp 1000, some 0, .exited⟩]
      streams := ⟨⟨0, emptySha256, false, 0⟩, ⟨0, emptySha256, false, 0⟩⟩
      termination := ⟨.exited, true, false, some 0, none, .ofTimestamp 1000⟩ }
  artifacts := []

/-- The claim of the run, its execution and its completion. -/
def executionCalls : List Call :=
  [⟨envAt 1000 22, .claimJob "a" ⟨1⟩ sampleProbe "https://c"⟩,
   ⟨envAt 1000 23, .workerTransition "a" (envAt 1000 22).randomSecret sampleRun sampleLease 1 .running⟩,
   ⟨envAt 1000 24, .workerCompleteManaged "a" (envAt 1000 22).randomSecret sampleCompletion⟩]

def sampleCalls : List Call := dispatchCalls (sampleJob ⟨7⟩ .empty none) ++ executionCalls

/-! ### One holder for each node -/

/-- The run holds the node: its lease on it has not been given back. -/
def Db.Holds (db : Db) (r node : Uuid) : Prop := ∃ l ∈ db.leases.rows, l.runId = r ∧ l.nodeId = node ∧ l.releasedAt = none

theorem Sound.lease_unique (h : Sound t db) {l l' : LeaseRow} (hl : l ∈ db.leases.rows) (hl' : l' ∈ db.leases.rows)
    (hheld : l.releasedAt = none) (hheld' : l'.releasedAt = none) (hnode : l.nodeId = l'.nodeId) : l = l' :=
  lease_unique_of_exclusive h.exclusive hl hl' hheld hheld' hnode

/-- A claim in force comes with the lease that holds its node. -/
theorem Sound.holds_of_claim (h : Sound t db) {c : WorkerClaimRow} (hc : c ∈ db.workerClaims.rows)
    (hforce : c.revokedAt = none) : db.Holds c.runId c.nodeId := by
  obtain ⟨j, l, he, hrows⟩ := executing_of_claim (h.coherent c.runId) (claim_of_mem hc) hforce
  have hl : (db.rowsOf c.runId).lease = some l := by rw [← db.rows_ledger, hrows]
  exact ⟨l, (mem_of_lease hl).1, he.leaseRun, he.claimNode.symm, he.held⟩

/-- A run that has not ended holds the node it is placed on. -/
theorem Sound.holds_of_placed (h : Sound t db) {j : JobRow} {node : Uuid} (hj : j ∈ db.jobs.rows)
    (hopen : j.run.state.isTerminal = false) (hnode : j.run.nodeId = some node) : db.Holds j.runId node := by
  by_cases hqueued : j.run.state = .queued
  · obtain ⟨l, hrows, hd | hw⟩ := (h.coherent j.runId).queued (job_of_mem hj) hqueued
    · have hl : (db.rowsOf j.runId).lease = some l := by rw [← db.rows_ledger, hrows]
      exact ⟨l, (mem_of_lease hl).1, hd.leaseRun, Option.some.inj (hd.node.symm.trans hnode), hd.held⟩
    · cases hw.node.symm.trans hnode
  · obtain ⟨l, c, hrows, he⟩ :=
      (h.coherent j.runId).active (job_of_mem hj) (JobState.isActive_of_progress hopen hqueued)
    have hl : (db.rowsOf j.runId).lease = some l := by rw [← db.rows_ledger, hrows]
    exact ⟨l, (mem_of_lease hl).1, he.leaseRun, Option.some.inj (he.node.symm.trans hnode), he.held⟩

theorem Sound.holds_unique (h : Sound t db) {r r' node : Uuid} (hr : db.Holds r node) (hr' : db.Holds r' node) :
    r = r' := by
  obtain ⟨l, hl, rfl, rfl, hheld⟩ := hr
  obtain ⟨l', hl', rfl, hnode, hheld'⟩ := hr'
  rw [h.lease_unique hl hl' hheld hheld' hnode.symm]

/-- A node is held by at most one lease, hence by at most one run: no two runs that have not ended are
placed on it, and no two claims on it are in force. -/
structure HeldOnce (db : Db) : Prop where
  leases : ∀ l ∈ db.leases.rows, ∀ l' ∈ db.leases.rows, l.releasedAt = none → l'.releasedAt = none →
    l.nodeId = l'.nodeId → l = l'
  runs : ∀ r r' node, db.Holds r node → db.Holds r' node → r = r'
  placed : ∀ j ∈ db.jobs.rows, ∀ j' ∈ db.jobs.rows, ∀ node, j.run.state.isTerminal = false →
    j'.run.state.isTerminal = false → j.run.nodeId = some node → j'.run.nodeId = some node → j = j'
  claims : ∀ c ∈ db.workerClaims.rows, ∀ c' ∈ db.workerClaims.rows, c.revokedAt = none → c'.revokedAt = none →
    c.nodeId = c'.nodeId → c = c'

theorem node_held_once (seed : String) (calls : List Call) : HeldOnce (storeAfter seed calls) := by
  obtain ⟨t, hs⟩ := sound_after seed calls
  refine ⟨fun l hl l' hl' => hs.lease_unique hl hl', fun r r' node => hs.holds_unique, ?_, ?_⟩
  · intro j hj j' hj' node hopen hopen' hnode hnode'
    have hrun := hs.holds_unique (hs.holds_of_placed hj hopen hnode) (hs.holds_of_placed hj' hopen' hnode')
    exact Table.eq_of_clash hj hj' (JobRow.clash_of_runId j j' hrun)
  · intro c hc c' hc' hforce hforce' hnode
    have hrun := hs.holds_unique (hs.holds_of_claim hc hforce) (hnode ▸ hs.holds_of_claim hc' hforce')
    exact Table.eq_of_clash hc hc' (WorkerClaimRow.clash_of_runId c c' hrun)

/-! ### The phase of a run -/

/-- What the five tables of a run say of its phase. -/
structure PhasesAgree (db : Db) (j : JobRow) (l : LeaseRow) : Prop where
  active : j.run.state.isActive = true → l.releasedAt = none ∧ l.phase = .execution ∧
    ∃ c, db.workerClaims.rows.filter (fun c => c.runId = j.runId) = [c] ∧ c.revokedAt = none ∧ c.nodeId = l.nodeId ∧
      c.leaseId = l.id
  dispatched : l.releasedAt = none → l.phase = .dispatch → j.run.state = .queued ∧ j.run.nodeId = some l.nodeId ∧
    (∃ b, j.planBinding = some b ∧ b.decision.nodeId = l.nodeId) ∧ ∀ c ∈ db.workerClaims.rows, c.runId ≠ j.runId
  awaiting : l.releasedAt = none → l.phase = .cleanupPending → j.run.state.isTerminal = true ∧
    (∃ d ∈ db.runCompletions.rows, d.runId = j.runId) ∧
    ∃ o ∈ db.runCleanupObligations.rows, o.runId = j.runId ∧ o.leaseId = l.id ∧ o.reservationReleasedAt = none
  ended : j.run.state.isTerminal = true → (∀ d ∈ db.runCompletions.rows, d.runId ≠ j.runId) →
    l.releasedAt ≠ none ∧ ∀ c ∈ db.workerClaims.rows, c.runId = j.runId → c.revokedAt ≠ none

theorem no_claim (h : (db.rowsOf r).claim = none) : ∀ c ∈ db.workerClaims.rows, c.runId ≠ r := by
  rintro c hc rfl
  cases h.symm.trans (claim_of_mem hc)

theorem sole_claim {c : WorkerClaimRow} (h : (db.rowsOf r).claim = some c) :
    ∀ c' ∈ db.workerClaims.rows, c'.runId = r → c' = c := by
  rintro c' hc' rfl
  exact Option.some.inj ((claim_of_mem hc').symm.trans h)

section Phases

variable {T : Int} {j : JobRow} {l : LeaseRow} {c : WorkerClaimRow}

/-- Contradictory states of one run. -/
theorem not_active_of_eq {s : JobState} (h : j.run.state = s) (hs : s.isActive = false) : j.run.state.isActive ≠ true := by
  rw [h, hs]
  exact nofun

theorem Dispatched.agree (h : Dispatched T r j l) (hclaim : (db.rowsOf r).claim = none) : PhasesAgree db j l where
  active ha := absurd ha (not_active_of_eq h.state rfl)
  dispatched _ _ := by
    refine ⟨h.state, h.node, ?_, h.runId ▸ no_claim hclaim⟩
    obtain ⟨b, hb, -⟩ := h.bound
    have hnode := h.boundNode
    rw [JobRow.boundNode, hb] at hnode
    exact ⟨b, hb, Option.some.inj hnode⟩
  awaiting _ hphase := by cases hphase.symm.trans h.phase
  ended hterminal _ := by rw [h.state] at hterminal; cases hterminal

/-- A run whose lease has been given back without a receipt. -/
theorem agree_of_released (hactive : j.run.state.isActive = false) (hreleased : l.releasedAt ≠ none)
    (hclaim : ∀ c ∈ db.workerClaims.rows, c.runId = j.runId → c.revokedAt ≠ none) : PhasesAgree db j l where
  active ha := by rw [hactive] at ha; cases ha
  dispatched hheld _ := absurd hheld hreleased
  awaiting hheld _ := absurd hheld hreleased
  ended _ _ := ⟨hreleased, hclaim⟩

theorem Executing.agree (h : Executing T r j l c) (hclaim : (db.rowsOf r).claim = some c) : PhasesAgree db j l where
  active _ := ⟨h.held, h.phase, c, h.runId ▸ Table.filter_of_lookup WorkerClaimRow.clash_of_runId hclaim, h.unrevoked,
    h.claimNode, h.claimLease⟩
  dispatched _ hphase := by cases hphase.symm.trans h.phase
  awaiting _ hphase := by cases hphase.symm.trans h.phase
  ended hterminal _ := by rw [JobState.isTerminal_of_isActive h.state] at hterminal; cases hterminal

theorem Completed.agree {o : CleanupObligationRow} {cleanup : Option RunCleanupRow}
    (h : Completed T r j l c d o cleanup) (hcompletion : (db.rowsOf r).completion = some d)
    (hobligation : (db.rowsOf r).obligation = some o) : PhasesAgree db j l := by
  obtain ⟨hd, hdrun⟩ := Table.lookup_some hcompletion
  obtain ⟨ho, horun⟩ := mem_of_obligation hobligation
  exact {
    active := fun ha => by
      have := h.terminal
      rw [JobState.isTerminal_of_isActive ha] at this
      cases this
    dispatched := fun _ hphase => by cases hphase.symm.trans h.phase
    awaiting := fun hheld _ => ⟨h.terminal, ⟨d, hd, hdrun.trans h.runId.symm⟩, o, ho, horun.trans h.runId.symm,
      h.obligationLease, h.released.trans hheld⟩
    ended := fun _ hnone => absurd (hdrun.trans h.runId.symm) (hnone d hd) }

theorem Coherent.agree (h : Coherent T r (db.rowsOf r)) (hj : (db.rowsOf r).job = some j) (hl : (db.rowsOf r).lease = some l) :
    PhasesAgree db j l := by
  generalize hrows : db.rowsOf r = rows at h hj hl
  cases h with
  | absent => cases hj
  | dispatched hd => cases hj; cases hl; exact hd.agree (by rw [hrows])
  | waiting hw | withdrawn hw =>
    cases hj; cases hl
    refine agree_of_released (by rw [hw.state]; rfl) hw.released fun c hc hrun => ?_
    exact absurd (hrun.trans hw.runId) (no_claim (by rw [hrows]) c hc)
  | @executing _ _ c _ _ he => cases hj; cases hl; exact he.agree (by rw [hrows])
  | @lost _ _ c _ _ hlost =>
    cases hj; cases hl
    refine agree_of_released (by rw [hlost.state]; rfl) hlost.released fun c' hc' hrun => ?_
    rw [sole_claim (c := c) (by rw [hrows]) c' hc' (hrun.trans hlost.runId)]
    exact hlost.revoked
  | completed hd => cases hj; cases hl; exact hd.agree (by rw [hrows]) (by rw [hrows])

end Phases

/-- Every run has its lease and every lease its run, and the tables agree on the phase they are in. -/
structure PhasesCoherent (db : Db) : Prop where
  leased : ∀ j ∈ db.jobs.rows, ∃ l ∈ db.leases.rows, j.leaseId = some l.id ∧ l.runId = j.runId
  owned : ∀ l ∈ db.leases.rows, ∃ j ∈ db.jobs.rows, j.leaseId = some l.id ∧ l.runId = j.runId
  agree : ∀ j ∈ db.jobs.rows, ∀ l ∈ db.leases.rows, j.leaseId = some l.id → PhasesAgree db j l

theorem phases_coherent (seed : String) (calls : List Call) : PhasesCoherent (storeAfter seed calls) := by
  obtain ⟨t, hs⟩ := sound_after seed calls
  generalize storeAfter seed calls = db at hs ⊢
  refine ⟨fun j hj => ?_, fun l hl => ?_, fun j hj l hl hid => ?_⟩
  · obtain ⟨l, hl, hleased⟩ := (hs.coherent j.runId).leased_of_job (job_of_mem hj)
    exact ⟨l, (mem_of_lease hl).1, hleased.leaseId, hleased.leaseRun⟩
  · obtain ⟨j, hj, hleased⟩ := (hs.coherent l.runId).leased (lease_of_mem hl)
    exact ⟨j, (mem_of_job hj).1, hleased.leaseId, hleased.runId.symm⟩
  · obtain ⟨l', hl', hleased⟩ := (hs.coherent j.runId).leased_of_job (job_of_mem hj)
    cases Table.eq_of_clash hl (mem_of_lease hl').1
      (LeaseRow.clash_of_id l l' (Option.some.inj (hid.symm.trans hleased.leaseId)))
    exact (hs.coherent j.runId).agree (job_of_mem hj) hl'

/-! ### Success -/

/-- A run that succeeded has its receipt. -/
theorem Coherent.succeeded {T : Int} {rows : RunRows} {j : JobRow} (h : Coherent T r rows) (hj : rows.job = some j)
    (hsucceeded : j.run.state = .succeeded) :
    ∃ d, rows.completion = some d ∧ d.document.finalState = .succeeded := by
  cases h with
  | absent => cases hj
  | dispatched hd => cases hj; cases hsucceeded.symm.trans hd.state
  | waiting hw | withdrawn hw => cases hj; cases hsucceeded.symm.trans hw.state
  | executing he =>
    cases hj
    have := he.state
    rw [hsucceeded] at this
    cases this
  | lost hl => cases hj; cases hsucceeded.symm.trans hl.state
  | @completed _ _ _ d _ _ _ _ hd => cases hj; exact ⟨d, rfl, hd.finalState.trans hsucceeded⟩

/-- An obligation is released together with its lease, by the receipt of a removal that answers it or at
its deadline. -/
structure ReservationSafe (db : Db) (o : CleanupObligationRow) (l : LeaseRow) : Prop where
  released : o.reservationReleasedAt ≠ none ↔ l.releasedAt ≠ none
  reason : o.reservationReleasedAt ≠ none ↔ o.releaseReason ≠ none
  removedReceipt : o.releaseReason = some .removedReceipt →
    ∃ x ∈ db.runCleanups.rows, x.document.outcome = .removed ∧ Answers x o
  deadlineRecovery : o.releaseReason = some .deadlineRecovery →
    ∃ t, o.reservationReleasedAt = some t ∧ o.cleanupDeadlineAt ≤ t ∧ o.cleanupFailureCode ≠ none
  notCreated : ∀ x ∈ db.runCleanups.rows, x.runId = o.runId → x.document.outcome ≠ .removed →
    o.releaseReason ≠ some .removedReceipt
  removed : ∀ x ∈ db.runCleanups.rows, x.runId = o.runId → x.document.outcome = .removed → o.reservationReleasedAt ≠ none

theorem Completed.reservation {T : Int} {j : JobRow} {l : LeaseRow} {c : WorkerClaimRow} {o : CleanupObligationRow}
    (h : Completed T r j l c d o (db.rowsOf r).cleanup) : ReservationSafe db o l := by
  have stored : ∀ x ∈ db.runCleanups.rows, x.runId = o.runId → (db.rowsOf r).cleanup = some x := by
    intro x hx hrun
    rw [← h.obligationRun, ← hrun]
    exact cleanup_of_mem hx
  -- a reason on record is the one that freed the reservation
  have freed : ∀ reason, o.releaseReason = some reason →
      ∃ t, o.reservationReleasedAt = some t ∧ Freed o (db.rowsOf r).cleanup t := by
    intro reason hreason
    cases hat : o.reservationReleasedAt with
    | none => cases hreason.symm.trans (h.pending hat).1
    | some t => exact ⟨t, rfl, (h.freed t hat).2⟩
  have removal : o.releaseReason = some .removedReceipt →
      ∃ x, (db.rowsOf r).cleanup = some x ∧ x.document.outcome = .removed := by
    intro hreason
    obtain ⟨t, -, ⟨-, hx⟩ | ⟨hdeadline, -⟩⟩ := freed _ hreason
    · exact hx
    · cases hreason.symm.trans hdeadline
  exact {
    released := by rw [h.released]
    reason := by
      constructor
      · intro hat
        obtain ⟨t, hat⟩ := Option.ne_none_iff_exists'.1 hat
        obtain ⟨-, ⟨hreason, -⟩ | ⟨hreason, -⟩⟩ := h.freed t hat <;> rw [hreason] <;> exact nofun
      · exact fun hreason hat => hreason (h.pending hat).1
    removedReceipt := fun hreason => by
      obtain ⟨x, hx, hremoved⟩ := removal hreason
      exact ⟨x, (mem_of_cleanup hx).1, hremoved, h.receipt x hx⟩
    deadlineRecovery := fun hreason => by
      obtain ⟨t, hat, ⟨hremoved, -⟩ | ⟨-, hdue, hcode⟩⟩ := freed _ hreason
      · cases hreason.symm.trans hremoved
      · exact ⟨t, hat, hdue, hcode⟩
    notCreated := fun x hx hrun hkept hreason => by
      obtain ⟨x', hx', hremoved⟩ := removal hreason
      cases (stored x hx hrun).symm.trans hx'
      exact hkept hremoved
    removed := fun x hx hrun hremoved hat => (h.pending hat).2 x (stored x hx hrun) hremoved }

/-- A released obligation and a stored receipt stay as they are. -/
structure ReservationsKept (db db' : Db) : Prop where
  obligation : ∀ o ∈ db.runCleanupObligations.rows, o.reservationReleasedAt ≠ none →
    ∀ o' ∈ db'.runCleanupObligations.rows, o'.runId = o.runId → o' = o
  obligationStored : ∀ o ∈ db.runCleanupObligations.rows, o.reservationReleasedAt ≠ none → o ∈ db'.runCleanupObligations.rows
  receipt : ∀ x ∈ db.runCleanups.rows, ∀ x' ∈ db'.runCleanups.rows, x'.runId = x.runId → x' = x
  receiptStored : ∀ x ∈ db.runCleanups.rows, x ∈ db'.runCleanups.rows

theorem reservationsKept_of_grows (h : db.ledger.Grows db'.ledger) : ReservationsKept db db' where
  obligation o ho hat o' ho' hrun := by
    have hkept := h.obligation o.runId o (obligation_of_mem ho) hat
    rw [← hrun] at hkept
    exact Option.some.inj ((obligation_of_mem ho').symm.trans hkept)
  obligationStored o ho hat := (mem_of_obligation (h.obligation o.runId o (obligation_of_mem ho) hat)).1
  receipt x hx x' hx' hrun := by
    have hkept := h.receipt x.runId x (cleanup_of_mem hx)
    rw [← hrun] at hkept
    exact Option.some.inj ((cleanup_of_mem hx').symm.trans hkept)
  receiptStored x hx := (mem_of_cleanup (h.receipt x.runId x (cleanup_of_mem hx))).1

/-- A receipt comes with an obligation. -/
theorem Coherent.obligation {T : Int} {rows : RunRows} (h : Coherent T r rows) (hd : rows.completion = some d) :
    ∃ o, rows.obligation = some o := by
  cases h with
  | completed => exact ⟨_, rfl⟩
  | _ => cases hd

/-- A run with a receipt has its obligation and its lease, and they are released together and for a
reason on record. -/
def ReservationsSafe (db : Db) : Prop :=
  ∀ d ∈ db.runCompletions.rows, ∃ o ∈ db.runCleanupObligations.rows, ∃ l ∈ db.leases.rows,
    o.runId = d.runId ∧ l.runId = d.runId ∧ o.leaseId = l.id ∧ ReservationSafe db o l

theorem Sound.reservationsSafe (hs : Sound t db) : ReservationsSafe db := by
  intro d hd
  obtain ⟨o, ho⟩ := (hs.coherent d.runId).obligation (completion_of_mem hd)
  obtain ⟨j, l, c, d', hcompleted, hrows⟩ := completed_of_obligation (hs.coherent d.runId) ho
  rw [db.rows_ledger] at hrows
  have hl : (db.rowsOf d.runId).lease = some l := by rw [hrows]
  exact ⟨o, (mem_of_obligation ho).1, l, (mem_of_lease hl).1, hcompleted.obligationRun, hcompleted.leaseRun,
    hcompleted.obligationLease, hcompleted.reservation⟩

/-- After any history reservations are safe, and no later call takes a release or a receipt back. -/
theorem reservations_safe (seed : String) (calls later : List Call) : ReservationsSafe (storeAfter seed calls) ∧
    ReservationsKept (storeAfter seed calls) (storeAfter seed (calls ++ later)) := by
  obtain ⟨t, hs⟩ := sound_after seed calls
  refine ⟨hs.reservationsSafe, reservationsKept_of_grows ?_⟩
  exact related_after seed calls later .refl fun hgrows hsteps => hgrows.trans (Ledger.grows_steps hsteps)

/-! ### Finished runs are closed -/

/-- All rows of a run but those of its reservation: the job and its end, the claim, the completion, the chunks and the
artifacts. -/
def RunRows.evidence (rows : RunRows) : RunRows := { rows with lease := none, cleanup := none, obligation := none }

namespace Ledger

variable {T : Int} {waiting : Prop} {L L' L'' : Ledger}

/-- Stored bytes stay, and so does the evidence of a run that has completed. -/
structure Closed (L L' : Ledger) : Prop where
  objects : ∀ path bytes, L.objects path = some bytes → L'.objects path = some bytes
  evidence : ∀ r, (L.rows r).completion ≠ none → (L'.rows r).evidence = (L.rows r).evidence

theorem Closed.trans (h : L.Closed L') (h' : L'.Closed L'') : L.Closed L'' := by
  refine ⟨fun path bytes hb => h'.objects path bytes (h.objects path bytes hb), fun r hr => ?_⟩
  have hkept : (L'.rows r).completion = (L.rows r).completion := (congrArg RunRows.completion (h.evidence r hr) :)
  rw [h'.evidence r (hkept ▸ hr), h.evidence r hr]

theorem Closed.set {r : Uuid} {rows : RunRows} (h : (L.rows r).completion ≠ none → rows.evidence = (L.rows r).evidence) :
    L.Closed (L.set r rows) := by
  refine ⟨fun _ _ hb => hb, fun r' hr => ?_⟩
  by_cases he : r' = r
  · subst he
    rw [rows_set]
    exact h hr
  · rw [rows_set_of_ne he]

theorem closed_step (hs : Step T waiting L L') : L.Closed L' := by
  have unfinished : ∀ {r rows}, (L.rows r).completion = none → L.Closed (L.set r rows) :=
    fun hnone => .set fun hr => absurd hnone hr
  cases hs with
  | submit old | requeue old | redispatch old | withdraw old | claim old | lose old | complete old =>
    exact unfinished (by rw [old])
  | work old _ _ _ grows => exact ⟨grows, (unfinished (by rw [old])).evidence⟩
  | settle old => exact .set fun _ => by rw [old]; rfl

end Ledger

/-- Whatever is called afterwards, by anyone, what was stored of a finished run stays as it was when it finished. -/
theorem finished_runs_closed (seed : String) (calls later : List Call) :
    (storeAfter seed calls).ledger.Closed (storeAfter seed (calls ++ later)).ledger :=
  related_after seed calls later (fun _ => ⟨fun _ _ hb => hb, fun _ _ => rfl⟩) fun hclosed hsteps =>
    hsteps.induction hclosed fun _ _ h hstep => h.trans (Ledger.closed_step hstep)

end CYC
