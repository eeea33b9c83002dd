import ClusterYourCodex.Jobs.Book
import ClusterYourCodex.Ledger.Operations

/-! The calls of the store in the book of jobs. Maintenance, the worker's calls and the client's calls are
sequences of the book's changes, and no transaction gives a run two plans: a run that a pass has placed holds
a live lease, and a pass looks only at runs that hold none. -/

namespace CYC

open Checked Relational

variable {stored stored' : StoredJob} {leaseId : Uuid} {n : Nat} {workerCredential runCredential : String}

def Db.book (db : Db) : Book where
  jobs r := (db.rowsOf r).job
  claimed r := (db.rowsOf r).claim.isSome
  attempts := db.jobPlacementAttempts.rows

variable {env : Env} {db db' db₁ : Db} {r : Uuid} {T now : Int} {rs : List Uuid}

/-! ### Statements -/

section Statements

theorem book_of_ledger (hledger : db'.ledger = db.ledger) (hattempts : db'.jobPlacementAttempts = db.jobPlacementAttempts) :
    db'.book = db.book := by
  unfold Db.book
  rw [hattempts, ← db'.rows_ledger, hledger, db.rows_ledger]

theorem book_of_jobTables (h : db'.jobTables = db.jobTables) : db'.book = db.book :=
  book_of_ledger (Db.ledger_of_jobTables h) (congrArg Db.JobTables.jobPlacementAttempts h)

/-- The rows of one run are written, and its claim is not made. -/
theorem book_of_set {rows : RunRows} {j : JobRow} (hledger : db'.ledger = db.ledger.set r rows) (hjob : rows.job = some j)
    (hclaim : rows.claim.isSome = (db.rowsOf r).claim.isSome) :
    db'.book = { db.book.setJob r j with attempts := db'.jobPlacementAttempts.rows } := by
  have hrows : db'.rowsOf = Function.update db.rowsOf r rows := congrArg Ledger.rows hledger
  unfold Db.book Book.setJob
  rw [hrows]
  congr 1
  · funext r'
    by_cases he : r' = r
    · subst he; simp [hjob]
    · simp [he]
  · funext r'
    by_cases he : r' = r
    · subst he; simp [hclaim]
    · simp [he]

/-- The UPDATE of a job under its version. -/
theorem book_updateJobCas {j : JobRow} (hj : (db.rowsOf r).job = some j) (hid : stored.run.id = r)
    (h : updateJobCas env db stored = .ok (db', stored')) : db'.book = db.book.setJob r (casRow env stored j) := by
  obtain ⟨-, hdb', -, hledger⟩ := updateJobCas_eq_ok hj hid h
  have hbook := book_of_set hledger rfl rfl
  rw [hdb'] at hbook ⊢
  exact hbook

theorem bumped_casRow (env : Env) {j : JobRow} (hrun : stored.run.id = j.run.id)
    (hversion : stored.version = asU64 j.version) : j.Bumped (casRow env stored j) :=
  ⟨rfl, rfl, rfl, hrun, congrArg (fun v => asI64 (satU64 (v + 1))) hversion⟩

/-- Claims are rewritten in place. -/
theorem book_rewriteClaims {p : WorkerClaimRow → Bool} {f : WorkerClaimRow → WorkerClaimRow}
    (hclaims : db'.workerClaims.rows = db.workerClaims.rows.map (rewrite p f)) (hf : ∀ c, (f c).runId = c.runId)
    (hjobs : db'.jobs = db.jobs) (hattempts : db'.jobPlacementAttempts = db.jobPlacementAttempts) : db'.book = db.book := by
  refine Book.ext ?_ (funext fun r => ?_) ?_
  · simp only [Db.book, Db.rowsOf, hjobs]
  · have hfind := find_rewrite (p := p) (f := f) (q := fun c => decide (c.runId = r)) (fun c => by rw [hf]) db.workerClaims.rows
    simp only [Db.book, Db.rowsOf, Table.lookup, Table.find, hclaims, hfind, Option.isSome_map]
  · simp only [Db.book, hattempts]

theorem book_revokeClaims (db : Db) (r : Uuid) (now : Int) : (revokeClaims db r now).book = db.book :=
  book_rewriteClaims rfl (fun _ => rfl) rfl rfl

theorem book_releaseLease {leaseId : Option Uuid} {b : Bool} (h : releaseLease db leaseId now = .ok (db', b)) :
    db'.book = db.book := by
  rcases releaseLease_cases h with rfl | ⟨q, rfl⟩
  · rfl
  · rfl

end Statements

/-! ### Cleanup deadlines -/

theorem book_recoverDeadline {obligation : StoredCleanupObligation}
    (h : recoverDeadline db obligation now = .ok (db', n)) : db'.book = db.book := by
  unfold recoverDeadline at h
  split at h
  · cases h; rfl
  · simp only [bind_eq_ok, pair_eq_ok, Prod.exists] at h
    obtain ⟨_, _, hrelease, rfl, -⟩ := h
    exact (book_releaseLease hrelease :)

theorem book_reapReservation {n' : Nat} (h : reapReservation now (db, n) r = .ok (db', n')) : db'.book = db.book := by
  simp only [reapReservation, bind_eq_ok] at h
  obtain ⟨_, -, _, -, _, -, _, -, _, -, h⟩ := h
  split at h
  · simp only [pair_eq_ok] at h
    obtain ⟨rfl, -⟩ := h
    rfl
  · simp only [bind_eq_ok, pair_eq_ok, Prod.exists] at h
    obtain ⟨_, _, hrecover, rfl, -⟩ := h
    exact book_recoverDeadline hrecover

theorem book_reapExpiredCleanupReservationsTx (h : reapExpiredCleanupReservationsTx db now = .ok (db', n)) :
    db'.book = db.book := by
  refine foldlM_induction (P := fun s : Db × Nat => s.1.book = db.book) h rfl ?_
  intro r _ s s' hs hstep
  exact (book_reapReservation hstep).trans hs

/-! ### Expired leases -/

/-- The row that a read by run identifier finds. -/
theorem row_of_getJobByRunId (h : getJobByRunId db r = .ok stored) :
    ∃ j, db.book.jobs r = some j ∧ stored = j.stored := by
  obtain ⟨j, hj, hdecode⟩ := getJobByRunId_eq_ok.1 h
  obtain ⟨-, -, rfl⟩ := decodeJobRow_eq_ok.1 hdecode
  exact ⟨j, hj, rfl⟩

/-- A write under the version that leaves the binding alone is a change of the book. -/
theorem step_of_updateJobCas {j : JobRow} (hs : db.book.Sound) (hj : db.book.jobs r = some j)
    (hid : stored.run.id = j.run.id) (hversion : stored.version = asU64 j.version)
    (hbinding : stored.planBinding = j.planBinding) (hchange : j.Change (casRow env stored j))
    (h : updateJobCas env db stored = .ok (db', stored')) : Book.Steps db.book [] db'.book := by
  rw [book_updateJobCas hj (hid.trans (hs.run _ _ hj)) h]
  exact .single (.change hj (bumped_casRow env hid hversion) hchange hbinding)

theorem expireRun_book {lease : LeaseRow} (hs : db.book.Sound) (h : expireRun env db lease = .ok db') :
    Book.Steps db.book [] db'.book := by
  unfold expireRun at h
  split at h
  · cases h; exact .refl
  · cases h
  rename_i stored hget
  obtain ⟨j, hj, rfl⟩ := row_of_getJobByRunId hget
  split at h
  · -- the dispatch was not taken up
    rename_i hdispatch
    simp only [bind_eq_ok, pure_eq_ok, Prod.exists] at h
    obtain ⟨_, _, hcas, rfl⟩ := h
    exact step_of_updateJobCas hs hj rfl rfl rfl (.unplaced hdispatch.2 rfl rfl) hcas
  split at h
  · -- the worker went silent
    simp only [failRun, bind_eq_ok, pure_eq_ok, mapError_eq_ok, transition_eq_ok, Prod.exists] at h
    obtain ⟨_, ⟨_, ⟨hlegal, rfl⟩, -, -, rfl⟩, _, _, hcas, rfl⟩ := h
    refine step_of_updateJobCas hs hj rfl rfl rfl ?_ hcas
    exact .moved hlegal rfl fun _ => .inr rfl
  · cases h; exact .refl

theorem expireLease_book {lease : LeaseRow} {n' : Nat} (hs : db.book.Sound)
    (h : expireLease env now (db, n) lease = .ok (db', n')) : Book.Steps db.book [] db'.book := by
  simp only [expireLease, bind_eq_ok, pair_eq_ok, Prod.exists] at h
  obtain ⟨db₁, hrun, db₂, _, hrelease, rfl, -⟩ := h
  rw [book_releaseLease hrelease, book_revokeClaims]
  exact expireRun_book hs hrun

theorem expireLease_loop_book {leases : List LeaseRow} {n' : Nat} (hs : db.book.Sound)
    (h : leases.foldlM (expireLease env now) (db, n) = .ok (db', n')) : Book.Steps db.book [] db'.book := by
  refine foldlM_induction (P := fun s : Db × Nat => Book.Steps db.book [] s.1.book) h .refl ?_
  intro l _ s s' hsteps hstep
  exact hsteps.trans (expireLease_book (Book.sound_steps hs hsteps) hstep)

/-! ### Redispatch -/

section Redispatch

variable {j : JobRow} {pass : Nat} {scheduler : Scheduler} {b b' : Bool}

/-- The lease of the run is live. -/
def Ledger.Held (now : Int) (L : Ledger) (r : Uuid) : Prop :=
  ∃ l, (L.rows r).lease = some l ∧ l.releasedAt = none ∧ now < l.expiresAt

theorem Unheld.not_held (h : Unheld db now j) : ¬db.ledger.Held now j.runId := by
  rintro ⟨l, hl, hheld, hlive⟩
  rcases h.free l hl with hreleased | hdue
  · exact hreleased hheld
  · omega

/-- An attempt that the table accepts is the next one: a number that does not fit the column is taken. -/
theorem next_of_insert {a : PlacementAttemptRow} {t : Table PlacementAttemptRow} (hr : db.book.Recorded)
    (hrun : a.runId = r) (hnumber : a.attempt = asI64 (asU64 (db.latestAttempt r + 1)))
    (hplan : a.planId = a.planBinding.planId) (h : db.jobPlacementAttempts.insert a = some t) : db.book.Next r a := by
  refine ⟨hrun, ?_, hplan⟩
  have hlatest : db.latestAttempt r = (db.book.attemptsOf r).length := hr.latestAttempt r
  rw [show db.book.latestAttempt r = db.latestAttempt r from rfl, hnumber]
  by_contra hne
  -- the column is full: the run has an attempt with the largest number
  have hfull : i64Max ≤ (db.book.attemptsOf r).length ∧ a.attempt = i64Max := by
    unfold asI64 asU64 i64Max at *
    omega
  have hmem : a.attempt ∈ (db.book.attemptsOf r).map PlacementAttemptRow.attempt := by
    rw [hr.numbered r, hfull.2]
    exact List.mem_map.2 ⟨(i64Max - 1).toNat, List.mem_range.2 (by unfold i64Max at *; omega), by decide⟩
  obtain ⟨x, hx, hsame⟩ := List.mem_map.1 hmem
  obtain ⟨hstored, hxrun⟩ := List.mem_filter.1 hx
  have hfresh := (Table.insert_eq_some h).2 x hstored
  simp [Schema.clash, hsame, hrun, of_decide_eq_true hxrun] at hfresh

/-- One row of the pass. -/
theorem redispatchJob_book (hc : db.ledger.Coherent T) (hlive : db.ledger.Live now) (hnow : OnCalendar now)
    (hs : db.book.Sound) (hr : db.book.Recorded) (hj : Unheld db now j)
    (h : redispatchJob env pass now scheduler (db, b) j = .ok (db', b')) :
    Book.Steps db.book [] db'.book ∨ Book.Steps db.book [j.runId] db'.book ∧ db'.ledger.Held now j.runId := by
  cases redispatchJob_turned h with
  | skipped => exact .inl .refl
  | unplaced hqueued hrecord =>
    obtain ⟨l, hrows, hw⟩ := hj.waiting hc hlive hqueued
    unfold recordNoEligibleNodes at hrecord
    split at hrecord
    · simp only [bind_eq_ok, pure_eq_ok, Prod.exists] at hrecord
      obtain ⟨_, _, hcas, rfl⟩ := hrecord
      exact .inl (step_of_updateJobCas hs hj.stored rfl rfl rfl (.unplaced hw.state rfl rfl) hcas)
    · cases hrecord; exact .inl .refl
  | @placed _ _ _ decision hqueued hlease hnodes hdecision hrun =>
    obtain ⟨l, hrows, hw⟩ := hj.waiting hc hlive hqueued
    cases hw.leaseId.symm.trans hlease
    obtain ⟨binding, -, -, hledger, hinsert⟩ := redispatchRun_eq_ok hrows hw hrun
    refine .inr ⟨?_, placedLease j decision now l, by rw [hledger, Ledger.rows_set], rfl, ?_⟩
    · have hnext := next_of_insert hr rfl rfl rfl hinsert
      have hbook := book_of_set hledger rfl (by rw [hrows])
      rw [(Table.insert_eq_some hinsert).1] at hbook
      rw [hbook]
      exact .single (.bind hj.stored (bumped_casRow env rfl rfl) hw.state hw.cancel hw.state hw.cancel hnext rfl)
    · exact lt_dispatchExpiry hnow

/-- The changes since `db₀`, in a transaction at `now`: no run has been given two plans, and every run that
has been given one holds a live lease. -/
def Turns (now : Int) (db₀ db : Db) : Prop :=
  ∃ rs, rs.Nodup ∧ Book.Steps db₀.book rs db.book ∧ ∀ r ∈ rs, db.ledger.Held now r

theorem Turns.of_jobTables (h : Turns now db db₁) (htables : db'.jobTables = db₁.jobTables) : Turns now db db' := by
  obtain ⟨rs, hnodup, hsteps, hheld⟩ := h
  refine ⟨rs, hnodup, ?_, ?_⟩
  · rw [book_of_jobTables htables]
    exact hsteps
  · rw [Db.ledger_of_jobTables htables]
    exact hheld

theorem Turns.redispatchJob (h : Turns now db db₁) (hs : db.book.Sound) (hr : db.book.Recorded)
    (hc : db₁.ledger.Coherent T) (hlive : db₁.ledger.Live now) (hnow : OnCalendar now) (hj : Unheld db₁ now j)
    (hturn : redispatchJob env pass now scheduler (db₁, b) j = .ok (db', b')) : Turns now db db' := by
  obtain ⟨rs, hnodup, hsteps, hheld⟩ := h
  have hfresh : j.runId ∉ rs := fun hmem => hj.not_held (hheld _ hmem)
  -- the turn writes the rows of its own run only
  have hkept : ∀ r ∈ rs, db'.ledger.Held now r := by
    intro r hmem
    have hne : r ≠ j.runId := fun he => hfresh (he ▸ hmem)
    rcases redispatchJob_step hc hlive hnow hj hturn with hledger | ⟨rows, hledger, -⟩
    · rw [hledger]
      exact hheld r hmem
    · unfold Ledger.Held
      rw [hledger, Ledger.rows_set_of_ne hne]
      exact hheld r hmem
  rcases redispatchJob_book hc hlive hnow (Book.sound_steps hs hsteps) (Book.recorded_steps hr hsteps) hj hturn with
    hquiet | ⟨hplaced, hlease⟩
  · refine ⟨rs, hnodup, ?_, hkept⟩
    have hall := hsteps.trans hquiet
    rwa [List.append_nil] at hall
  · refine ⟨rs ++ [j.runId], List.nodup_append.2 ⟨hnodup, List.nodup_singleton _, ?_⟩, hsteps.trans hplaced, ?_⟩
    · intro a ha c hc he
      rw [List.mem_singleton] at hc
      exact hfresh (hc ▸ he ▸ ha)
    · intro r hmem
      rcases List.mem_append.1 hmem with hold | hnew
      · exact hkept r hold
      · rw [List.mem_singleton] at hnew
        exact hnew ▸ hlease

theorem Turns.redispatchQueuedJobs (h : Turns now db db₁) (hs : db.book.Sound) (hr : db.book.Recorded)
    (hc : db₁.ledger.Coherent T) (hlive : db₁.ledger.Live now) (hnow : OnCalendar now)
    (hpass : redispatchQueuedJobs env pass db₁ now scheduler = .ok db') : Turns now db db' := by
  obtain ⟨-, -, hturns⟩ := redispatchQueuedJobs_rule (P := Turns now db) hc hlive hnow hpass h
    (fun db₂ db₃ j b₂ b₃ hc₂ hlive₂ hj hturn hP => hP.redispatchJob hs hr hc₂ hlive₂ hnow hj hturn) (fun _ _ hP => hP)
  exact hturns

theorem expireLeases_book (hs : db.book.Sound) (hr : db.book.Recorded) (hc : db.ledger.Coherent T)
    (hnow : OnCalendar now) (h : expireLeases env db now = .ok (db', n)) : Turns now db db' := by
  obtain ⟨db₁, _, db₂, _, hreap, hexpire, hredispatch, hupkeep₁, hupkeep₂, hlive⟩ := expireLeases_stages hc hnow h
  have hbook₁ := book_reapExpiredCleanupReservationsTx hreap
  have hsteps : Book.Steps db.book [] db₂.book := by
    rw [← hbook₁] at hs ⊢
    exact expireLease_loop_book hs hexpire
  have hturns : Turns now db db₂ := ⟨[], List.nodup_nil, hsteps, fun r hmem => absurd hmem List.not_mem_nil⟩
  exact hturns.redispatchQueuedJobs hs hr (Ledger.coherent_steps hc (hupkeep₁.trans hupkeep₂).steps) hlive hnow hredispatch

end Redispatch

/-! ### The worker's calls -/

section Worker

/-- A queued run becomes the worker's. -/
theorem claimRun_book {nodeId : Uuid} {j : JobRow} {claim : WorkerClaim} (hs : db.book.Sound)
    (hj : db.book.jobs r = some j) (hqueued : j.run.state = .queued)
    (h : claimRun env db nodeId j.stored = .ok (db', claim)) : Book.Steps db.book [] db'.book := by
  simp only [claimRun, bind_eq_ok, pair_eq_ok, Prod.exists, mapError_eq_ok, inserted_eq_ok, ensure_eq_ok] at h
  obtain ⟨-, hcancel, -, -, leaseId, -, run, htransition, db₁, stored, hcas, claims, hinsert, -, -, rfl, -⟩ := h
  have hmoved := moved_of_transition htransition
  have hid : run.id = r := hmoved.id.trans (hs.run _ _ hj)
  obtain ⟨-, -, hstored, -⟩ := updateJobCas_eq_ok hj hid hcas
  have hbook := book_updateJobCas hj hid hcas
  have hclaims := (Table.lookup_insert WorkerClaimRow.clash_of_runId hinsert).2
  have hrun : stored.run.id = r := by rw [hstored]; exact hid
  rw [show WorkerClaimRow.runId _ = r from hrun] at hclaims
  generalize hdb' : ({ db₁ with workerClaims := claims, leases := _ } : Db) = db'
  have hbook' : db'.book = { db.book.setJob r (casRow env { j.stored with run } j) with
      claimed := Function.update db.book.claimed r true } := by
    rw [← hdb']
    refine Book.ext (congrArg Book.jobs hbook :) (funext fun r' => ?_) (congrArg Book.attempts hbook :)
    have hold := congrFun (congrArg Book.claimed hbook) r'
    show (claims.lookup WorkerClaimRow.runId r').isSome = _
    rw [hclaims]
    by_cases he : r' = r
    · subst he; simp
    · simp only [Function.update_of_ne he]
      exact hold
  rw [hbook']
  have hcancel' : j.cancelRequested = false := by simpa using hcancel
  exact .single (.claim hj (bumped_casRow env hmoved.id rfl) hqueued hcancel' hmoved.state hcancel' rfl)

/-- Maintenance, and then changes of the book that give no run a plan. -/
def Maintains (env : Env) (db db' : Db) : Prop :=
  ∃ db₁ n, expireLeases env db env.now.timestamp = .ok (db₁, n) ∧ (db₁.book.Sound → Book.Steps db₁.book [] db'.book)

theorem Maintains.of_book (hexpire : expireLeases env db env.now.timestamp = .ok (db₁, n))
    (hbook : db'.book = db₁.book) : Maintains env db db' :=
  ⟨db₁, n, hexpire, fun _ => hbook ▸ .refl⟩

theorem claimJob_book {node : Node} {claim : Option WorkerClaim}
    (h : claimJob env db workerCredential node = .ok (db', claim)) : Maintains env db db' := by
  simp only [claimJob, bind_eq_ok, Prod.exists] at h
  obtain ⟨db₁, n, hexpire, db₂, nodeId, hauth, -, -, db₃, hprobe, jobs, hjobs, h⟩ := h
  have hbook : db₃.book = db₁.book :=
    book_of_jobTables ((jobTables_upsertLegacyProbeTx hprobe).trans (jobTables_authenticateWorkerTx hauth))
  split at h
  · cases h; exact .of_book hexpire hbook
  rename_i stored hfind
  simp only [bind_eq_ok, pair_eq_ok, Prod.exists] at h
  obtain ⟨_, _, hclaim, rfl, -⟩ := h
  refine ⟨db₁, n, hexpire, fun hs => ?_⟩
  obtain ⟨j, hj, hdecode⟩ := exists_of_mem_collect hjobs (List.mem_of_find?_eq_some hfind)
  obtain ⟨-, -, rfl⟩ := decodeJobRow_eq_ok.1 hdecode
  obtain ⟨hmem, -⟩ := List.mem_filter.1 ((perm_orderedBy _ _ _).mem_iff.1 hj)
  rw [← hbook] at hs ⊢
  exact claimRun_book hs (job_of_mem hmem) (by simpa using List.find?_some hfind) hclaim

variable {expectedVersion : Nat} {sha256 : String} {data : List UInt8} {c : RunCompletion} {receipt : CleanupReceipt}

theorem workerHeartbeat_book {expectedState : JobState} {heartbeat : WorkerHeartbeat}
    (h : workerHeartbeat env db workerCredential runCredential r leaseId expectedVersion expectedState =
      .ok (db', heartbeat)) : Maintains env db db' := by
  simp only [workerHeartbeat, bind_eq_ok, pair_eq_ok, Prod.exists] at h
  obtain ⟨db₁, n, hexpire, db₂, _, hauth, stored, -, -, -, -, -, -, -, -, -, rfl, -⟩ := h
  refine .of_book hexpire (Eq.trans ?_ (book_of_jobTables (jobTables_authorizeRunTx hauth)))
  exact book_rewriteClaims rfl (fun _ => rfl) rfl rfl

theorem workerTransition_book {next : JobState}
    (h : workerTransition env db workerCredential runCredential r leaseId expectedVersion next = .ok (db', stored)) :
    Maintains env db db' := by
  simp only [workerTransition, bind_eq_ok, ensure_eq_ok, mapError_eq_ok, transition_eq_ok, Prod.exists] at h
  obtain ⟨-, -, db₁, n, hexpire, db₂, _, hauth, stored₀, hget, -, -, -, hcancel, run, ⟨hlegal, rfl⟩, _, -, hcas⟩ := h
  refine ⟨db₁, n, hexpire, fun hs => ?_⟩
  rw [← book_of_jobTables (jobTables_authorizeRunTx hauth)] at hs ⊢
  obtain ⟨j, hj, rfl⟩ := row_of_getJobByRunId hget
  refine step_of_updateJobCas hs hj rfl rfl rfl ?_ hcas
  refine .moved hlegal rfl fun hflag => ?_
  rw [JobRow.stored_cancelRequested, hflag] at hcancel
  cases hcancel

theorem book_writeImmutableObject {path : String} {bytes : List UInt8}
    (h : writeImmutableObject db path bytes sha256 = .ok db') : db'.book = db.book := by
  unfold writeImmutableObject at h
  split at h
  · split at h
    · cases h; rfl
    · cases h
  · simp only [bind_eq_ok, pure_eq_ok] at h
    obtain ⟨_, -, rfl⟩ := h
    rfl

theorem putLogChunk_book {stream : String} {offset : Nat} {chunk : LogChunk}
    (h : putLogChunk env db workerCredential runCredential r leaseId stream offset sha256 data = .ok (db', chunk)) :
    Maintains env db db' := by
  simp only [putLogChunk, bind_eq_ok, Prod.exists] at h
  obtain ⟨-, -, -, -, db₁, n, hexpire, db₂, _, hauth, existing, -, h⟩ := h
  refine .of_book hexpire (Eq.trans ?_ (book_of_jobTables (jobTables_authorizeRunTx hauth)))
  cases existing with
  | none =>
    simp only [appendLogChunk, bind_eq_ok, pair_eq_ok] at h
    obtain ⟨_, -, -, -, _, -, -, -, _, -, db₃, hwrite, chunks, -, rfl, -⟩ := h
    exact (book_writeImmutableObject hwrite :)
  | some existing =>
    simp only at h
    split at h
    · cases h; rfl
    · cases h

theorem putArtifact_book {name : String} {artifactId : Uuid} {artifact : StoredArtifact}
    (h : putArtifact env db workerCredential runCredential r leaseId artifactId name sha256 data = .ok (db', artifact)) :
    Maintains env db db' := by
  simp only [putArtifact, bind_eq_ok, Prod.exists] at h
  obtain ⟨-, -, -, -, db₁, n, hexpire, db₂, _, hauth, existing, -, h⟩ := h
  refine .of_book hexpire (Eq.trans ?_ (book_of_jobTables (jobTables_authorizeRunTx hauth)))
  cases existing with
  | none =>
    simp only [addArtifact, bind_eq_ok, pair_eq_ok] at h
    obtain ⟨_, -, -, -, _, -, db₃, hwrite, artifacts, -, rfl, -⟩ := h
    exact (book_writeImmutableObject hwrite :)
  | some existing =>
    simp only at h
    split at h
    · cases h; rfl
    · cases h

theorem commitCompletion_book (h : commitCompletion env db stored c = .ok (db', stored')) :
    ∃ db₁, updateJobCas env db stored = .ok (db₁, stored') ∧ db'.book = db₁.book := by
  simp only [commitCompletion, bind_eq_ok, pair_eq_ok, Prod.exists] at h
  obtain ⟨db₁, stored₁, hcas, completions, -, obligations, -, -, -, rfl, rfl⟩ := h
  refine ⟨db₁, hcas, ?_⟩
  exact (book_revokeClaims { db₁ with runCompletions := completions } c.runId env.now.timestamp :)

theorem completeRun_book (hs : db.book.Sound) (hget : getJobByRunId db c.runId = .ok stored)
    (h : completeRun env db workerCredential runCredential stored c = .ok (db', stored')) :
    Book.Steps db.book [] db'.book := by
  simp only [completeRun, finishRun, bind_eq_ok, pure_eq_ok, mapError_eq_ok, ensure_eq_ok, transition_eq_ok, Prod.exists] at h
  obtain ⟨db₁, _, hauth, -, -, -, hobeyed, -, -, run, ⟨_, ⟨hlegal, rfl⟩, rfl⟩, -, -, hcommit⟩ := h
  obtain ⟨j, hj, rfl⟩ := row_of_getJobByRunId hget
  obtain ⟨db₂, hcas, hbook⟩ := commitCompletion_book hcommit
  rw [hbook]
  rw [← book_of_jobTables (jobTables_authorizeRunTx hauth)] at hs hj ⊢
  refine step_of_updateJobCas hs hj rfl rfl rfl ?_ hcas
  refine .moved hlegal rfl fun hflag => ?_
  rw [JobRow.stored_cancelRequested, hflag] at hobeyed
  simp only [Bool.not_true, Bool.false_or, Bool.or_eq_true, decide_eq_true_eq] at hobeyed
  exact hobeyed

theorem workerCompleteManaged_book
    (h : workerCompleteManaged env db workerCredential runCredential c = .ok (db', stored')) : Maintains env db db' := by
  simp only [workerCompleteManaged, bind_eq_ok, Prod.exists] at h
  obtain ⟨-, -, db₁, n, hexpire, db₂, nodeId, hauth, stored, hget, -, -, h⟩ := h
  have hbook := book_of_jobTables (jobTables_authorizeCompletionReceiptTx hauth)
  split at h
  · simp only [bind_eq_ok, pair_eq_ok] at h
    obtain ⟨-, -, rfl, -⟩ := h
    exact .of_book hexpire hbook
  · refine ⟨db₁, n, hexpire, fun hs => ?_⟩
    rw [← hbook] at hs ⊢
    exact completeRun_book hs hget h

theorem book_settleReservation (h : settleReservation db receipt now = .ok db') : db'.book = db.book := by
  unfold settleReservation at h
  split at h
  · simp only [releaseCleanupReservationTx, bind_eq_ok, pure_eq_ok, Prod.exists] at h
    obtain ⟨_, -, current, -, -, -, db₁, hobligation, db₂, _, hrelease, rfl⟩ := h
    refine (book_releaseLease hrelease).trans ?_
    unfold releaseObligation at hobligation
    split at hobligation
    · cases hobligation; rfl
    · simp only [bind_eq_ok, pure_eq_ok] at hobligation
      obtain ⟨-, -, rfl⟩ := hobligation
      rfl
  · cases h; rfl

theorem recordCleanup_book {stored : StoredCleanup}
    (h : recordCleanup env db workerCredential runCredential receipt = .ok (db', stored)) : Maintains env db db' := by
  simp only [recordCleanup, Env.second, bind_eq_ok, timestamp_eq_ok, Prod.exists] at h
  obtain ⟨-, -, receivedAt, ⟨-, rfl⟩, db₁, n, hexpire, db₂, nodeId, hauth, stored₀, -, -, -, _, -, obligation, -, -, -,
    _, -, -, -, _, -, -, -, h⟩ := h
  rw [DateTime.timestamp_ofTimestamp] at hexpire
  refine .of_book hexpire (Eq.trans ?_ (book_of_jobTables (jobTables_authorizeCompletionReceiptTx hauth)))
  unfold storeReceipt at h
  split at h
  · simp only [bind_eq_ok, pair_eq_ok] at h
    obtain ⟨-, -, db₃, hsettle, _, -, rfl, -⟩ := h
    exact book_settleReservation hsettle
  · simp only [bind_eq_ok, pair_eq_ok] at h
    obtain ⟨cleanups, -, db₃, hsettle, rfl, -⟩ := h
    exact (book_settleReservation hsettle :)

end Worker

/-! ### The client's calls -/

section Client

variable {job : JobSpec} {scheduler : Scheduler}

theorem book_releaseCancelled (h : releaseCancelled db stored now = .ok db') : db'.book = db.book := by
  unfold releaseCancelled at h
  split at h
  · simp only [bind_eq_ok, pure_eq_ok, Prod.exists] at h
    obtain ⟨_, _, hrelease, rfl⟩ := h
    exact book_releaseLease hrelease
  · cases h; rfl

theorem cancelJob_book {id : Uuid} {expectedVersion : Option Nat}
    (h : cancelJob env db id expectedVersion = .ok (db', stored)) : Maintains env db db' := by
  simp only [cancelJob, bind_eq_ok, Prod.exists] at h
  obtain ⟨db₁, n, hexpire, stored₀, hget, -, -, cancelled, hcancel, h⟩ := h
  cases cancelled with
  | none => cases h; exact .of_book hexpire rfl
  | some stored₁ =>
    simp only [bind_eq_ok, pair_eq_ok, Prod.exists] at h
    obtain ⟨-, -, db₂, stored₂, hcas, db₃, hrelease, rfl, -⟩ := h
    refine ⟨db₁, n, hexpire, fun hs => ?_⟩
    obtain ⟨j, hj, -, hdecode⟩ := getJobPreferJobId_eq_ok hget
    obtain ⟨-, -, rfl⟩ := decodeJobRow_eq_ok.1 hdecode
    rw [book_releaseCancelled hrelease]
    rcases cancelStored_eq_some hcancel with ⟨hqueued, run, hmoved, rfl⟩ | ⟨hactive, rfl⟩
    · refine step_of_updateJobCas hs hj hmoved.id rfl rfl ?_ hcas
      have hstate : (casRow env { j.stored with run } j).run.state = .cancelled := hmoved.state
      refine .moved ?_ rfl fun _ => .inl hstate
      rw [hstate, show j.run.state = .queued from hqueued]
      rfl
    · exact step_of_updateJobCas hs hj rfl rfl rfl (.requested hactive rfl rfl) hcas

theorem createPlan_book {plan : StoredPlan} (h : createPlan env db job scheduler = .ok (db', plan)) :
    Maintains env db db' := by
  simp only [createPlan, Env.second, bind_eq_ok, timestamp_eq_ok, pair_eq_ok, Prod.exists] at h
  obtain ⟨-, -, _, ⟨-, rfl⟩, db₁, n, hexpire, _, -, _, -, _, -, _, -, db₂, hplan, rfl, -⟩ := h
  rw [DateTime.timestamp_ofTimestamp] at hexpire
  refine .of_book hexpire ?_
  rw [insertPlanTx_eq_ok hplan]
  rfl

theorem submitJob_book {planId : Option Uuid} (hs : db.book.Sound) (hr : db.book.Recorded) (hc : db.ledger.Coherent T)
    (h : submitJob env db job planId scheduler = .ok (db', stored)) : db.book.Turn db'.book := by
  simp only [submitJob, Env.second, bind_eq_ok, timestamp_eq_ok, pair_eq_ok, Prod.exists] at h
  obtain ⟨-, -, _, ⟨hnow, rfl⟩, -, -, db₁, _, hexpire, nodes, -, db₂, decision, binding, hplace, run, hrun, _, -,
    db₃, hinsert, db₄, hmark, db₅, hinc, rfl, -⟩ := h
  rw [DateTime.timestamp_ofTimestamp] at hexpire
  obtain ⟨rs, hnodup, hsteps, -⟩ := expireLeases_book hs hr hc hnow hexpire
  have hc₁ := Ledger.coherent_steps hc (expireLeases_steps hc hnow hexpire).1
  obtain ⟨hdb₂, -⟩ := placeSubmission_eq_ok hplace
  have hbook₂ : db₂.book = db₁.book := by rw [hdb₂]; rfl
  have hledger₂ : db₂.ledger = db₁.ledger := by rw [hdb₂]; rfl
  obtain ⟨hfresh, reading, hqueued⟩ := uniqueQueuedRun_eq_ok hrun
  have hrows : db₂.rowsOf run.id = {} := rowsOf_of_not_occupied (hledger₂ ▸ hc₁) hfresh
  obtain ⟨hledger₃, hattempt⟩ := insertRun_eq_ok hrows rfl hinsert
  have hbook₅ : db₅.book = db₃.book := by
    rw [(incrementFleetRevision_eq_ok.1 hinc).2, markPlanUsed_eq_ok hmark]
    rfl
  have hbook₃ := book_of_set hledger₃ rfl (by rw [hrows])
  rw [(Table.insert_eq_some hattempt).1] at hbook₃
  have habsent : db₂.book.jobs run.id = none := congrArg RunRows.job hrows
  rw [← hbook₂] at hsteps
  have hnext := next_of_insert (Book.recorded_steps hr hsteps) rfl rfl rfl hattempt
  refine ⟨rs ++ [run.id], List.nodup_append.2 ⟨hnodup, List.nodup_singleton _, ?_⟩, ?_⟩
  · intro a ha c hc he
    obtain ⟨j, hj⟩ := Book.jobs_of_label hs hsteps a ha
    rw [he, List.mem_singleton.1 hc, habsent] at hj
    cases hj
  · rw [hbook₅, hbook₃]
    refine .tail hsteps (.submit habsent rfl rfl ?_ rfl hnext rfl)
    show run.state = .queued
    rw [hqueued]
    rfl

theorem recordNodeReport_book {credential : String} {report : NodeReportRequest} {outcome : NodeReportOutcome}
    (hs : db.book.Sound) (hr : db.book.Recorded) (hc : db.ledger.Coherent T)
    (h : recordNodeReport env db credential report = .ok (db', outcome)) : Turns env.now.timestamp db db' := by
  simp only [recordNodeReport, bind_eq_ok, Prod.exists] at h
  obtain ⟨-, -, db₁, _, hexpire, db₂, nodeId, hauth, _, -, d, -, h⟩ := h
  have hturns₁ := expireLeases_book hs hr hc env.onCalendar hexpire
  obtain ⟨hsteps, hlive⟩ := expireLeases_steps hc env.onCalendar hexpire
  have htables₂ := jobTables_authenticateWorkerTx hauth
  split at h
  · cases h
    exact hturns₁.of_jobTables htables₂
  · simp only [bind_eq_ok, pair_eq_ok, Prod.exists] at h
    obtain ⟨db₃, _, haccept, db₄, hredispatch, rfl, -⟩ := h
    have htables₃ : db₃.jobTables = db₁.jobTables := (jobTables_acceptReport haccept).trans htables₂
    have hledger₃ := Db.ledger_of_jobTables htables₃
    exact (hturns₁.of_jobTables htables₃).redispatchQueuedJobs hs hr (hledger₃ ▸ Ledger.coherent_steps hc hsteps)
      (hledger₃ ▸ hlive) env.onCalendar hredispatch

end Client

/-! ### Every call -/

theorem Turns.turn (h : Turns now db db₁) : db.book.Turn db₁.book := by
  obtain ⟨rs, hnodup, hsteps, -⟩ := h
  exact ⟨rs, hnodup, hsteps⟩

theorem Maintains.turn (h : Maintains env db db') (hs : db.book.Sound) (hr : db.book.Recorded) (hc : db.ledger.Coherent T) :
    db.book.Turn db'.book := by
  obtain ⟨db₁, n, hexpire, hrest⟩ := h
  obtain ⟨rs, hnodup, hsteps, -⟩ := expireLeases_book hs hr hc env.onCalendar hexpire
  refine ⟨rs, hnodup, ?_⟩
  have hall := hsteps.trans (hrest (Book.sound_steps hs hsteps))
  rwa [List.append_nil] at hall

/-- A call that commits is a turn of the book. -/
theorem exec_book {op : Op} {answer : Answer} (hs : db.book.Sound) (hr : db.book.Recorded) (hc : db.ledger.Coherent T)
    (h : exec env db op = .ok (db', answer)) : db.book.Turn db'.book := by
  have quiet : Maintains env db db' → db.book.Turn db'.book := fun hm => hm.turn hs hr hc
  cases hfleet : op.fleetOnly with
  | true =>
    rw [book_of_jobTables (exec_jobTables h hfleet)]
    exact ⟨[], List.nodup_nil, .refl⟩
  | false =>
    cases op <;> simp only [exec, answering_eq_ok] at h
    case createPlan => obtain ⟨_, h, -⟩ := h; exact quiet (createPlan_book h)
    case submitJob => obtain ⟨_, h, -⟩ := h; exact submitJob_book hs hr hc h
    case claimJob => obtain ⟨_, h, -⟩ := h; exact quiet (claimJob_book h)
    case workerHeartbeat => obtain ⟨_, h, -⟩ := h; exact quiet (workerHeartbeat_book h)
    case workerTransition => obtain ⟨_, h, -⟩ := h; exact quiet (workerTransition_book h)
    case putLogChunk => obtain ⟨_, h, -⟩ := h; exact quiet (putLogChunk_book h)
    case putArtifact => obtain ⟨_, h, -⟩ := h; exact quiet (putArtifact_book h)
    case workerCompleteManaged => obtain ⟨_, h, -⟩ := h; exact quiet (workerCompleteManaged_book h)
    case recordCleanup => obtain ⟨_, h, -⟩ := h; exact quiet (recordCleanup_book h)
    case cancelJob => obtain ⟨_, h, -⟩ := h; exact quiet (cancelJob_book h)
    case getJob => obtain ⟨_, h, -⟩ := h; obtain ⟨_, h⟩ := expires_getJob h; exact quiet (.of_book h rfl)
    case listJobs => obtain ⟨_, h, -⟩ := h; obtain ⟨_, h⟩ := expires_listJobs h; exact quiet (.of_book h rfl)
    case getCleanupSnapshot => obtain ⟨_, h, -⟩ := h; obtain ⟨_, h⟩ := expires_getCleanupSnapshot h; exact quiet (.of_book h rfl)
    case maintain => obtain ⟨_, h, -⟩ := h; exact (expireLeases_book hs hr hc env.onCalendar h).turn
    case recordNodeReport => obtain ⟨_, h, -⟩ := h; exact (recordNodeReport_book hs hr hc h).turn
    all_goals cases hfleet

end CYC
