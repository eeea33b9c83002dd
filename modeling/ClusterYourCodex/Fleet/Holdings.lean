import ClusterYourCodex.Fleet.Revision

/-! Plans, leases and GPU reservations, row by row. A call reaches these three tables through six kinds of
statement only, none of which changes the policy revision that plans are stamped with. Each of them writes columns
that the later reads accept: a plan with a digest and a deadline after the epoch, a lease whose deadline is on the
calendar, a GPU reservation that fits its column. -/

namespace CYC

open Checked Relational
open Relation (ReflTransGen)

structure Holdings where
  policyRevision : Int
  plans : Table PlanRow
  leases : Table LeaseRow
  gpus : Table LeaseGpuRow

def Planning.holdings (t : Planning) : Holdings := ⟨t.policyRevision, t.plans, t.leases, t.leaseGpuReservations⟩

def Db.holdings (db : Db) : Holdings := db.planning.holdings

namespace Holdings

/-- The statements on the three tables. -/
inductive Write (env : Env) (H : Holdings) : Holdings → Prop
  | plan {row plans} (digest : row.jobDigest ≠ "") (expires : 0 < row.expiresAt) (insert : H.plans.insert row = some plans) :
      Write env H { H with plans }
  | use {q t plans} (rows : plans.rows = H.plans.rows.map (rewrite q fun p => { p with usedAt := some t })) :
      Write env H { H with plans }
  | lease {row leases} (expires : env.LeaseDeadline row.expiresAt) (insert : H.leases.insert row = some leases) :
      Write env H { H with leases }
  | move {q f leases} (expires : ∀ l, (f l).expiresAt = l.expiresAt ∨ env.LeaseDeadline (f l).expiresAt)
      (rows : leases.rows = H.leases.rows.map (rewrite q f)) : Write env H { H with leases }
  | free {q} : Write env H { H with gpus := H.gpus.delete q }
  | hold {leaseId deviceId request gpus} (insert : H.gpus.insert
      { leaseId, deviceId, vramMib := asI64 (GpuResourceRequest.vramMib request).toNat, exclusive := request.exclusive } =
        some gpus) : Write env H { H with gpus }

/-- What the statements leave in the columns. -/
structure Sound (H : Holdings) : Prop where
  policy : H.policyRevision = CYC.policyRevision
  plans : ∀ p ∈ H.plans.rows, p.jobDigest ≠ "" ∧ 0 < p.expiresAt
  leases : ∀ l ∈ H.leases.rows, OnCalendar l.expiresAt
  gpus : ∀ g ∈ H.gpus.rows, 0 ≤ g.vramMib ∧ g.vramMib ≤ i64Max

variable {env : Env} {H H' : Holdings}

theorem onCalendar_of_leaseDeadline {t : Int} (h : env.LeaseDeadline t) : OnCalendar t := by
  have hclock := env.now_onClock
  simp only [DateTime.OnClock, OnCalendar, DateTime.Representable, DateTime.ofTimestamp, DateTime.addSeconds] at hclock ⊢
  rcases h with rfl | rfl | rfl
  · simp only [dispatchTtlSeconds, DateTime.timestamp, satI64, i64Min, i64Max]
    omega
  · simp only [claimTtlSeconds, DateTime.timestamp, DateTime.addSeconds]
    omega
  · simp only [cleanupReservationTtlSeconds, DateTime.timestamp, satI64, i64Min, i64Max]
    omega

theorem Sound.write (h : H.Sound) (hw : H.Write env H') : H'.Sound := by
  cases hw with
  | plan digest expires insert =>
    refine { h with plans := fun p hp => ?_ }
    rcases (Table.mem_insert insert).1 hp with hp | rfl
    · exact h.plans p hp
    · exact ⟨digest, expires⟩
  | use rows =>
    refine { h with plans := fun p hp => ?_ }
    rw [rows, List.mem_map] at hp
    obtain ⟨p, hp, rfl⟩ := hp
    unfold rewrite
    split <;> exact h.plans p hp
  | lease expires insert =>
    refine { h with leases := fun l hl => ?_ }
    rcases (Table.mem_insert insert).1 hl with hl | rfl
    · exact h.leases l hl
    · exact onCalendar_of_leaseDeadline expires
  | @move q f leases expires rows =>
    refine { h with leases := fun l hl => ?_ }
    rw [rows, List.mem_map] at hl
    obtain ⟨l, hl, rfl⟩ := hl
    unfold rewrite
    split
    · rcases expires l with hsame | hnew
      · rw [hsame]
        exact h.leases l hl
      · exact onCalendar_of_leaseDeadline hnew
    · exact h.leases l hl
  | free => exact { h with gpus := fun g hg => h.gpus g (List.mem_filter.1 hg).1 }
  | hold insert =>
    refine { h with gpus := fun g hg => ?_ }
    rcases (Table.mem_insert insert).1 hg with hg | rfl
    · exact h.gpus g hg
    · simp only [asI64, i64Max]
      omega

theorem Sound.writes (h : H.Sound) (hw : ReflTransGen (Write env) H H') : H'.Sound := by
  induction hw with
  | refl => exact h
  | tail _ hw ih => exact ih.write hw

end Holdings

/-- The tables are reached by statements of the call. -/
def Writes (env : Env) (db db' : Db) : Prop := ReflTransGen (Holdings.Write env) db.holdings db'.holdings

variable {env : Env} {db db' db₁ : Db} {now : Int}

theorem Writes.refl (env : Env) (db : Db) : Writes env db db := ReflTransGen.refl

variable {db₂ : Db} {leaseId : Uuid} {b : PlacementPlanBinding} {planId : Option Uuid}
  {decision : PlacementPlanDecision} {pass : Nat} {scheduler : Scheduler} {op : Op}

theorem Writes.trans (h : Writes env db db₁) (h' : Writes env db₁ db₂) : Writes env db db₂ := ReflTransGen.trans h h'

theorem Writes.of_holdings (h : db'.holdings = db.holdings) : Writes env db db' := by
  unfold Writes
  rw [h]

theorem Writes.of_planning (h : db'.planning = db.planning) : Writes env db db' := .of_holdings (congrArg Planning.holdings h)

theorem Writes.of_write (h : db.holdings.Write env db'.holdings) : Writes env db db' := .single h

/-! ### Maintenance -/

theorem writes_releaseLease {leaseId : Option Uuid} {b : Bool} (h : releaseLease db leaseId now = .ok (db', b)) :
    Writes env db db' := by
  rcases releaseLease_cases h with rfl | ⟨q, rfl⟩
  · exact .refl env db'
  · exact .of_write (.move (f := fun l => { l with releasedAt := some now }) (fun _ => .inl rfl) rfl)

theorem jobDigest_ne_empty (h : b.validate none none = .ok ()) : b.jobDigest ≠ "" := by
  simp only [PlacementPlanBinding.validate, PlacementPlanBinding.validateFields, bind_eq_ok, ensure_eq_ok] at h
  obtain ⟨_, ⟨_, -, _, -, _, -, _, -, _, hdigest, -⟩, -⟩ := h
  rintro hempty
  rw [hempty] at hdigest
  cases hdigest

theorem writes_insertPlanTx {planId : Uuid} {job : JobSpec} {digest : String}
    {fleet node policy : Int} {usedAt : Option DateTime}
    (hbinding : newPlanBinding planId job digest decision (.ofTimestamp env.now.timestamp) fleet node policy = .ok b)
    (h : insertPlanTx db b usedAt = .ok db') : Writes env db db' := by
  simp only [newPlanBinding, bind_eq_ok, pure_eq_ok] at hbinding
  obtain ⟨-, -, rfl⟩ := hbinding
  simp only [insertPlanTx, bind_eq_ok, pure_eq_ok, mapError_eq_ok, inserted_eq_ok] at h
  obtain ⟨_, hvalid, plans, hinsert, rfl⟩ := h
  refine .of_write (.plan (jobDigest_ne_empty hvalid) ?_ hinsert)
  have := env.now_onClock.1
  simp only [DateTime.ofTimestamp, DateTime.addSeconds, DateTime.timestamp, planTtlSeconds]
  omega

theorem writes_insertGpuReservation {reservation : Option (String × GpuResourceRequest)}
    {gpus : Table LeaseGpuRow} {H : Holdings} (h : insertGpuReservation H.gpus leaseId reservation = .ok gpus) :
    ReflTransGen (Holdings.Write env) H { H with gpus } := by
  unfold insertGpuReservation at h
  split at h
  · cases h; exact .refl
  · exact .single (.hold (inserted_eq_ok.1 h))

theorem writes_redispatchRun {stored : StoredJob} {nodes : List SchedulingNodeRecord}
    (h : redispatchRun env pass env.now.timestamp (.ofTimestamp env.now.timestamp) db stored
      leaseId nodes decision = .ok db') : Writes env db db' := by
  simp only [redispatchRun, bind_eq_ok, pure_eq_ok, Prod.exists] at h
  obtain ⟨_, -, b, hbinding, db₁, hplan, db₂, hattempt, _, -, -, -, gpus, hgpus, db₃, _, hcas, hdb'⟩ := h
  subst hdb'
  have hattempt : Writes env db₁ db₂ := .of_planning (by rw [(insertPlacementAttemptTx_eq_ok hattempt).1]; rfl)
  refine ((writes_insertPlanTx hbinding hplan).trans hattempt).trans ?_
  refine Writes.trans ?_ (.of_planning (updateJobCas_elsewhere hcas).1)
  refine ReflTransGen.trans ?_ (writes_insertGpuReservation (H := ⟨db₂.policyRevision, db₂.plans, _, _⟩) hgpus)
  refine (ReflTransGen.single (.move ?_ (Table.rows_modify ..))).tail .free
  exact fun _ => .inr (.inl rfl)

theorem writes_redispatchJob {j : JobRow} {state state' : Db × Bool}
    (h : redispatchJob env pass env.now.timestamp scheduler state j = .ok state') : Writes env state.1 state'.1 := by
  obtain ⟨db₁, b⟩ := state
  obtain ⟨db₂, b'⟩ := state'
  cases redispatchJob_turned h with
  | skipped => exact .refl env db₁
  | unplaced _ hrecord => exact .of_planning (recordNoEligibleNodes_elsewhere hrecord).1
  | placed _ _ _ _ hrun => exact writes_redispatchRun hrun

theorem holdings_incrementWhen {changed : Bool} (h : incrementWhen changed db = .ok db') : db'.holdings = db.holdings := by
  rcases incrementWhen_cases h with ⟨-, rfl⟩ | ⟨-, rfl⟩ <;> rfl

theorem writes_redispatchQueuedJobs
    (h : redispatchQueuedJobs env pass db env.now.timestamp scheduler = .ok db') : Writes env db db' := by
  simp only [redispatchQueuedJobs, bind_eq_ok, Prod.exists] at h
  obtain ⟨db₁, b, hloop, hinc⟩ := h
  have hloop : Writes env db db₁ :=
    foldlM_induction (P := fun s => Writes env db s.1) hloop (Writes.refl env db) fun _ _ _ _ hs h => hs.trans (writes_redispatchJob h)
  exact hloop.trans (.of_holdings (holdings_incrementWhen hinc))

theorem Maintenance.writes (h : Maintenance env env.now.timestamp db db') : Writes env db db' := by
  cases h with
  | elsewhere hplanning => exact .of_planning hplanning
  | release hrelease => exact writes_releaseLease hrelease
  | redispatch hpass => exact writes_redispatchQueuedJobs hpass

/-! ### Every call -/

theorem writes_markPlanUsed (h : markPlanUsed db planId now = .ok db') : Writes env db db' := by
  unfold markPlanUsed at h
  split at h
  · cases h; exact .refl env db
  · simp only [bind_eq_ok, pure_eq_ok] at h
    obtain ⟨-, -, hdb'⟩ := h
    subst hdb'
    exact .of_write (.use (t := now) rfl)

theorem writes_reserve {lease : LeaseRow} {gpu : Option (String × GpuResourceRequest)} {row : JobRow}
    (hlease : env.LeaseDeadline lease.expiresAt)
    (hinsert : insertRun db lease gpu row b = .ok db₁) (hmark : markPlanUsed db₁ planId now = .ok db₂)
    (hraise : db₂.incrementFleetRevision = .ok db') : Writes env db db' := by
  obtain ⟨-, rfl⟩ := incrementFleetRevision_eq_ok.1 hraise
  have hmark : Writes env db₁ { db₂ with fleetRevision := db₂.fleetRevision + 1 } := (writes_markPlanUsed hmark :)
  refine Writes.trans ?_ hmark
  simp only [insertRun, insertJob, bind_eq_ok, pure_eq_ok, inserted_eq_ok] at hinsert
  obtain ⟨leases, hleases, gpus, hgpus, _, ⟨-, -, _, -, rfl⟩, hattempt⟩ := hinsert
  have hinserted : Writes env db { db with leases, leaseGpuReservations := gpus } :=
    (ReflTransGen.single (.lease hlease hleases)).trans (writes_insertGpuReservation (H := { db.holdings with leases }) hgpus)
  refine hinserted.trans (.of_planning ?_)
  rw [(insertPlacementAttemptTx_eq_ok hattempt).1]
  rfl

theorem holdings_upsertNodeTx {node : Node} {authority : NodeWriteAuthority} (h : upsertNodeTx env db node authority = .ok db') :
    db'.holdings = db.holdings := by
  simp only [upsertNodeTx, bind_eq_ok] at h
  obtain ⟨-, -, -, -, -, -, _, -, document, -, hinc⟩ := h
  exact (holdings_incrementWhen hinc :)

theorem Statement.writes (h : Statement env op db db') : Writes env db db' := by
  cases h with
  | maintain _ hm => exact hm.writes
  | authenticate hauth =>
    simp only [authenticateWorkerTx, bind_eq_ok, pair_eq_ok] at hauth
    obtain ⟨_, -, rfl, -⟩ := hauth
    exact .of_planning rfl
  | extend _ _ hdeadline hrows hrest =>
    unfold Writes Db.holdings
    rw [hrest]
    exact .single (.move (fun _ => .inr hdeadline) hrows)
  | plan _ hbinding hplan => exact writes_insertPlanTx hbinding hplan
  | reserve _ hlease hinsert hmark hraise => exact writes_reserve hlease hinsert hmark hraise
  | upload _ hplanning => exact .of_planning hplanning
  | probe _ hprobe => exact .of_holdings (holdings_upsertNodeTx hprobe)
  | accept _ _ _ haccept =>
    simp only [acceptReport, bind_eq_ok, pair_eq_ok] at haccept
    obtain ⟨-, -, -, -, -, -, _, -, document, -, _, hinc, rfl, -⟩ := haccept
    exact .of_holdings (holdings_incrementWhen hinc :)
  | configure _ hupdate =>
    obtain ⟨_, _, _, _, rfl⟩ := updateNodeConfig_eq_ok hupdate
    exact .of_holdings rfl
  | enroll _ _ honly => exact .of_planning (by rw [honly]; rfl)

theorem exec_writes {answer : Answer} (h : exec env db op = .ok (db', answer)) : Writes env db db' := by
  have hs := exec_statements h
  clear h
  induction hs with
  | refl => exact .refl env db
  | tail _ hs ih => exact ih.trans hs.writes

theorem holdings_empty (seed : String) : (Db.empty seed).holdings.Sound :=
  ⟨rfl, by rintro _ ⟨⟩, by rintro _ ⟨⟩, by rintro _ ⟨⟩⟩

/-- Over a history the columns stay within what the reads accept. -/
theorem holdings_sound_after {calls : List Call} (h : db.holdings.Sound) : (History.after step db calls).holdings.Sound := by
  induction calls generalizing db with
  | nil => exact h
  | cons call calls ih =>
    refine ih ?_
    rcases step_cases db call with ⟨db', answer, hexec, hstep⟩ | hstep
    · rw [hstep]
      exact h.writes (exec_writes hexec)
    · rw [hstep]
      exact h

end CYC
