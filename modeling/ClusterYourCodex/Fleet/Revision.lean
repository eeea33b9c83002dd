import Mathlib.Data.Int.ConditionallyCompleteOrder
import ClusterYourCodex.Lib.Versioned
import ClusterYourCodex.Fleet.Nodes

/-! The fleet revision. A plan is made for the configurations, the inventories and the reservations of
one moment, and is stamped with the revision of that moment. Every transaction that changes one of these
raises the revision, some by hand at the end of a loop, so that a stamp that is still current vouches for
all of them. -/

namespace CYC

open Checked Relational Versioned

variable {env : Env} {db db' db₁ db₂ : Db} {now : Int}
variable {b : PlacementPlanBinding} {state : Db × Bool} {scheduler : Scheduler}

/-! ### What a plan depends on -/

/-- What an unreleased lease holds. -/
structure Reservation where
  nodeId : Uuid
  slots : Int
  cpuCores : Int
  memoryMib : Int
  diskMib : Int
  gpuReserved : Int
  gpu : Option (String × Int × Bool)

def LeaseGpuRow.held (g : LeaseGpuRow) : String × Int × Bool := (g.deviceId, g.vramMib, g.exclusive)

def LeaseRow.reservation (gpu : Option (String × Int × Bool)) (l : LeaseRow) : Option Reservation :=
  if l.releasedAt.isNone then
    some { nodeId := l.nodeId, slots := l.slots, cpuCores := l.cpuCores, memoryMib := l.memoryMib, diskMib := l.diskMib,
           gpuReserved := l.gpuReserved, gpu }
  else none

/-- The reservation of a lease, unless it is released. -/
def Db.reservationOf (db : Db) (leaseId : Uuid) : Option Reservation :=
  (db.leases.lookup LeaseRow.id leaseId).bind
    (LeaseRow.reservation ((db.leaseGpuReservations.lookup LeaseGpuRow.leaseId leaseId).map LeaseGpuRow.held))

/-- The configurations and inventories of all nodes, and the reservations of all leases. -/
structure Material where
  config : Uuid → Option NodeConfig
  inventory : Uuid → Option NodeInventory
  reservation : Uuid → Option Reservation

def Db.material (db : Db) : Material := ⟨db.configOf, db.inventoryOf, db.reservationOf⟩

/-- No plan is stamped with a revision that has not been reached. -/
def PlansStamped (db : Db) : Prop := ∀ p ∈ db.plans.rows, p.fleetRevision ≤ db.fleetRevision

/-- A stored plan keeps its stamp. -/
def PlansKept (db db' : Db) : Prop := ∀ id p, db.plans.lookup PlanRow.id id = some p →
  ∃ p', db'.plans.lookup PlanRow.id id = some p' ∧ p'.fleetRevision = p.fleetRevision

/-- The revision follows the material, and the plans keep their stamps. -/
structure Revised (db db' : Db) : Prop where
  advances : Advances Db.fleetRevision Db.material db db'
  kept : PlansKept db db'
  stamped : PlansStamped db → PlansStamped db'

theorem PlansKept.refl (db : Db) : PlansKept db db := fun _ p h => ⟨p, h, rfl⟩

theorem PlansKept.trans (h : PlansKept db db₁) (h' : PlansKept db₁ db₂) : PlansKept db db₂ := by
  intro id p hp
  obtain ⟨p₁, hp₁, heq₁⟩ := h id p hp
  obtain ⟨p₂, hp₂, heq₂⟩ := h' id p₁ hp₁
  exact ⟨p₂, hp₂, heq₂.trans heq₁⟩

theorem Revised.refl (db : Db) : Revised db db := ⟨.refl db, .refl db, id⟩

theorem Revised.trans (h : Revised db db₁) (h' : Revised db₁ db₂) : Revised db db₂ :=
  ⟨h.advances.trans h'.advances, h.kept.trans h'.kept, fun hs => h'.stamped (h.stamped hs)⟩

def Planning.reservationOf (t : Planning) (leaseId : Uuid) : Option Reservation :=
  (t.leases.lookup LeaseRow.id leaseId).bind
    (LeaseRow.reservation ((t.leaseGpuReservations.lookup LeaseGpuRow.leaseId leaseId).map LeaseGpuRow.held))

theorem material_of_planning (h : db'.planning = db.planning) : db'.material = db.material :=
  congrArg (fun t : Planning => (⟨fun id => (t.nodeConfigs.lookup NodeConfigRow.nodeId id).map NodeConfigRow.document,
    fun id => (t.nodeInventories.lookup NodeInventoryRow.nodeId id).map NodeInventoryRow.document,
    t.reservationOf⟩ : Material)) h

theorem plansKept_of_eq (h : db'.plans = db.plans) : PlansKept db db' := by
  intro id p hp
  exact ⟨p, by rw [h]; exact hp, rfl⟩

theorem PlansStamped.of_eq (hrevision : db'.fleetRevision = db.fleetRevision) (hplans : db'.plans = db.plans)
    (hs : PlansStamped db) : PlansStamped db' := by
  intro p hp
  rw [hplans] at hp
  exact (hs p hp).trans_eq hrevision.symm

/-- Statements on other tables change nothing here. -/
theorem Revised.of_planning (h : db'.planning = db.planning) : Revised db db' where
  advances := .of_eq (congrArg Planning.fleetRevision h) (material_of_planning h)
  kept := plansKept_of_eq (congrArg Planning.plans h)
  stamped := .of_eq (congrArg Planning.fleetRevision h) (congrArg Planning.plans h)

/-- A raised revision covers any change of the material. -/
theorem Revised.raised (hrevision : db.fleetRevision < db'.fleetRevision) (hplans : db'.plans = db.plans) : Revised db db' where
  advances := .of_lt hrevision
  kept := plansKept_of_eq hplans
  stamped hs p hp := by
    rw [hplans] at hp
    exact (hs p hp).trans hrevision.le

/-! ### Leases -/

variable {q : LeaseRow → Bool} {f : LeaseRow → LeaseRow} {planId : Option Uuid} {job : JobSpec}
  {decision : PlacementPlanDecision} {t : DateTime} {pass : Nat} {stored : StoredJob} {id : Uuid} {op : Op}

/-- Rewriting leases without touching what they hold. -/
theorem reservationOf_rewrite (hid : ∀ l, (f l).id = l.id)
    (hf : ∀ gpu l, (f l).reservation gpu = l.reservation gpu) (hleases : db'.leases.rows = db.leases.rows.map (rewrite q f))
    (hgpus : db'.leaseGpuReservations = db.leaseGpuReservations) : db'.reservationOf = db.reservationOf := by
  funext leaseId
  have hlookup : db'.leases.lookup LeaseRow.id leaseId = (db.leases.lookup LeaseRow.id leaseId).map (rewrite q f) := by
    unfold Table.lookup Table.find
    rw [hleases]
    exact find_rewrite (fun l => by rw [hid]) _
  unfold Db.reservationOf
  rw [hlookup, hgpus, Option.bind_map]
  congr 1
  funext l
  simp only [Function.comp, rewrite]
  split
  · exact hf _ l
  · rfl

/-- The same as a step. -/
theorem Revised.of_leases (hid : ∀ l, (f l).id = l.id)
    (hf : ∀ gpu l, (f l).reservation gpu = l.reservation gpu) (hleases : db'.leases.rows = db.leases.rows.map (rewrite q f))
    (hrest : db'.planning = { db.planning with leases := db'.leases }) : Revised db db' where
  advances := .of_eq (congrArg Planning.fleetRevision hrest) (by
    have hconfigs : db'.configOf = db.configOf := by
      funext id
      exact congrArg (fun t : Planning => (t.nodeConfigs.lookup NodeConfigRow.nodeId id).map NodeConfigRow.document) hrest
    have hinventories : db'.inventoryOf = db.inventoryOf := by
      funext id
      exact congrArg (fun t : Planning => (t.nodeInventories.lookup NodeInventoryRow.nodeId id).map NodeInventoryRow.document) hrest
    have hreservations := reservationOf_rewrite hid hf hleases (congrArg Planning.leaseGpuReservations hrest)
    rw [Db.material, hconfigs, hinventories, hreservations]
    rfl)
  kept := plansKept_of_eq (congrArg Planning.plans hrest)
  stamped := .of_eq (congrArg Planning.fleetRevision hrest) (congrArg Planning.plans hrest)

theorem revised_releaseLease {leaseId : Option Uuid} {b : Bool} (h : releaseLease db leaseId now = .ok (db', b)) :
    Revised db db' := by
  rcases releaseLease_cases h with rfl | ⟨q, rfl⟩
  · exact .refl db'
  · exact .raised (Int.lt_succ db.fleetRevision) rfl

/-! ### Plans -/

theorem PlanRow.clash_of_id (a b : PlanRow) (h : a.id = b.id) : Schema.clash a b = true := by
  simp [Schema.clash, h]

theorem revised_insertPlanTx {usedAt : Option DateTime} (h : insertPlanTx db b usedAt = .ok db')
    (hb : b.fleetRevision ≤ db.fleetRevision) : Revised db db' := by
  simp only [insertPlanTx, bind_eq_ok, pure_eq_ok, inserted_eq_ok] at h
  obtain ⟨-, -, plans, hinsert, rfl⟩ := h
  obtain ⟨hnone, hlookup⟩ := Table.lookup_insert PlanRow.clash_of_id hinsert
  refine ⟨.of_eq rfl rfl, fun id p hp => ⟨p, ?_, rfl⟩, fun hs p hp => ?_⟩
  · have hne : id ≠ b.planId := by
      rintro rfl
      cases hnone.symm.trans hp
    exact (congrFun hlookup id).trans ((Function.update_of_ne hne ..).trans hp)
  · rcases (Table.mem_insert hinsert).1 hp with hp | rfl
    · exact hs p hp
    · exact hb

/-- Marking plans keeps their stamps. -/
theorem plansKept_rewrite {q : PlanRow → Bool} {f : PlanRow → PlanRow} (hid : ∀ p, (f p).id = p.id)
    (hstamp : ∀ p, (f p).fleetRevision = p.fleetRevision) (hplans : db'.plans.rows = db.plans.rows.map (rewrite q f)) :
    PlansKept db db' ∧ ∀ p' ∈ db'.plans.rows, ∃ p ∈ db.plans.rows, p'.fleetRevision = p.fleetRevision := by
  have hkept : ∀ p, (rewrite q f p).fleetRevision = p.fleetRevision := by
    intro p
    unfold rewrite
    split
    · exact hstamp p
    · rfl
  constructor
  · intro id p hp
    refine ⟨rewrite q f p, ?_, hkept p⟩
    have hlookup : db'.plans.lookup PlanRow.id id = (db.plans.lookup PlanRow.id id).map (rewrite q f) := by
      unfold Table.lookup Table.find
      rw [hplans]
      exact find_rewrite (fun p => by rw [hid]) _
    rw [hlookup, hp]
    rfl
  · intro p' hp'
    rw [hplans, List.mem_map] at hp'
    obtain ⟨p, hp, rfl⟩ := hp'
    exact ⟨p, hp, hkept p⟩

theorem markPlanUsed_plans (h : markPlanUsed db planId now = .ok db') :
    db'.fleetRevision = db.fleetRevision ∧ PlansKept db db' ∧
      ∀ p' ∈ db'.plans.rows, ∃ p ∈ db.plans.rows, p'.fleetRevision = p.fleetRevision := by
  unfold markPlanUsed at h
  split at h
  · cases h; exact ⟨rfl, .refl db, fun p hp => ⟨p, hp, rfl⟩⟩
  · simp only [bind_eq_ok, pure_eq_ok] at h
    obtain ⟨-, -, hdb'⟩ := h
    subst hdb'
    exact ⟨rfl, plansKept_rewrite (f := fun p => { p with usedAt := some now }) (fun _ => rfl) (fun _ => rfl) rfl⟩

/-! ### Maintenance -/

/-- Where a redispatch has got to: the revision is the old one, and the material too unless a lease was
armed again. -/
structure Redispatching (db : Db) (state : Db × Bool) : Prop where
  revision : state.1.fleetRevision = db.fleetRevision
  kept : PlansKept db state.1
  stamped : PlansStamped db → PlansStamped state.1
  material : state.2 = false → state.1.material = db.material

theorem Revised.redispatching (h : Redispatching db state) (hr : Revised state.1 db')
    (hrevision : db'.fleetRevision = state.1.fleetRevision) : Redispatching db (db', state.2) where
  revision := hrevision.trans h.revision
  kept := h.kept.trans hr.kept
  stamped hs := hr.stamped (h.stamped hs)
  material hb := (hr.advances.same hrevision).trans (h.material hb)

theorem newPlanBinding_revision {planId : Uuid} {digest : String} {fleet nodeRevision policy : Int}
    (h : newPlanBinding planId job digest decision t fleet nodeRevision policy = .ok b) : b.fleetRevision = fleet := by
  simp only [newPlanBinding, bind_eq_ok, pure_eq_ok] at h
  obtain ⟨-, -, rfl⟩ := h
  rfl

theorem redispatchRun_plans {leaseId : Uuid} {nodes : List SchedulingNodeRecord}
    (h : redispatchRun env pass now t db stored leaseId nodes decision = .ok db') :
    db'.fleetRevision = db.fleetRevision ∧ PlansKept db db' ∧ (PlansStamped db → PlansStamped db') := by
  simp only [redispatchRun, bind_eq_ok, pure_eq_ok, Prod.exists] at h
  obtain ⟨_, -, b, hbinding, db₁, hplan, db₂, hattempt, _, -, -, -, _, -, db₃, _, hcas, hdb'⟩ := h
  subst hdb'
  have hrevised := revised_insertPlanTx hplan (newPlanBinding_revision hbinding).le
  have hplan := insertPlanTx_eq_ok hplan
  have hattempt := (insertPlacementAttemptTx_eq_ok hattempt).1
  have hcas := (updateJobCas_elsewhere hcas).1
  have hplans : db₃.plans = db₁.plans := by
    rw [show db₃.plans = db₂.plans from congrArg Planning.plans hcas, hattempt]
  have hrevision : db₃.fleetRevision = db₁.fleetRevision := by
    rw [show db₃.fleetRevision = db₂.fleetRevision from congrArg Planning.fleetRevision hcas, hattempt]
  refine ⟨?_, hrevised.kept.trans (plansKept_of_eq hplans), fun hs => (hrevised.stamped hs).of_eq hrevision hplans⟩
  rw [hrevision, hplan]

theorem redispatching_redispatchJob {j : JobRow} {state' : Db × Bool}
    (h : redispatchJob env pass now scheduler state j = .ok state') (hr : Redispatching db state) :
    Redispatching db state' := by
  obtain ⟨db₁, b⟩ := state
  obtain ⟨db₂, b'⟩ := state'
  cases redispatchJob_turned h with
  | skipped => exact hr
  | unplaced _ hrecord =>
    have hplanning := (recordNoEligibleNodes_elsewhere hrecord).1
    exact Revised.redispatching hr (.of_planning hplanning) (congrArg Planning.fleetRevision hplanning)
  | placed _ _ _ _ hrun =>
    obtain ⟨hrevision, hkept, hstamped⟩ := redispatchRun_plans hrun
    exact ⟨hrevision.trans hr.revision, hr.kept.trans hkept, fun hs => hstamped (hr.stamped hs), nofun⟩

theorem incrementWhen_cases {changed : Bool} (h : incrementWhen changed db = .ok db') :
    (changed = true ∧ db' = { db with fleetRevision := db.fleetRevision + 1 }) ∨ (changed = false ∧ db' = db) := by
  unfold incrementWhen at h
  split at h
  · rename_i hchanged
    exact .inl ⟨hchanged, (incrementFleetRevision_eq_ok.1 h).2⟩
  · rename_i hsame
    cases h
    exact .inr ⟨eq_false_of_ne_true hsame, rfl⟩

theorem revised_incrementWhen (h : Redispatching db state) (hinc : incrementWhen state.2 state.1 = .ok db') :
    Revised db db' := by
  rcases incrementWhen_cases hinc with ⟨-, rfl⟩ | ⟨hsame, rfl⟩
  · refine ⟨.of_lt ?_, h.kept, fun hs p hp => ?_⟩
    · exact (Int.lt_succ _).trans_eq (congrArg (· + 1) h.revision).symm
    · exact (h.stamped hs p hp).trans (Int.le_add_one (Int.le_refl _))
  · exact ⟨.of_eq h.revision (h.material hsame), h.kept, h.stamped⟩

theorem revised_redispatchQueuedJobs (h : redispatchQueuedJobs env pass db now scheduler = .ok db') :
    Revised db db' := by
  simp only [redispatchQueuedJobs, bind_eq_ok, Prod.exists] at h
  obtain ⟨db₁, b, hloop, hinc⟩ := h
  have hinit : Redispatching db (db, false) := ⟨rfl, .refl db, id, fun _ => rfl⟩
  exact revised_incrementWhen (foldlM_induction hloop hinit fun _ _ _ _ hr h => redispatching_redispatchJob h hr) hinc

theorem Maintenance.revised (h : Maintenance env now db db') : Revised db db' := by
  cases h with
  | elsewhere hplanning => exact .of_planning hplanning
  | release hrelease => exact revised_releaseLease hrelease
  | redispatch hpass => exact revised_redispatchQueuedJobs hpass

theorem revised_expireLeases {n : Nat} (h : expireLeases env db now = .ok (db', n)) : Revised db db' := by
  have hm := maintains_expireLeases h
  clear h
  induction hm with
  | refl => exact .refl db
  | tail _ hs ih => exact ih.trans hs.revised

/-! ### Submissions -/

/-- A submission with a plan finds the plan's stamp current once maintenance is done. -/
theorem submitJob_current (h : submitJob env db job (some id) scheduler = .ok (db', stored)) :
    ∃ db₁ n, expireLeases env db env.now.timestamp = .ok (db₁, n) ∧
      ∃ p, db₁.plans.lookup PlanRow.id id = some p ∧ p.fleetRevision = db₁.fleetRevision := by
  simp only [submitJob, placeSubmission, acceptPlan, getPlan, bind_eq_ok, pure_eq_ok, ensure_eq_ok, required_eq_ok,
    Bool.and_eq_true, decide_eq_true_eq, Prod.exists, Env.second, timestamp_eq_ok] at h
  obtain ⟨-, -, _, ⟨-, rfl⟩, -, -, db₁, n, hexpire, _, -, db₂, _, _, ⟨_, _, haccept, -⟩, -⟩ := h
  obtain ⟨plan, hplan, -, -, -, -, -, -, -, -, -, ⟨hrevision, -⟩, -⟩ := haccept
  obtain ⟨p, hp, _, -, _, -, -, -, _, -, rfl⟩ := hplan
  rw [DateTime.timestamp_ofTimestamp] at hexpire
  exact ⟨db₁, n, hexpire, p, hp, hrevision⟩

/-- A submission reserves for its run, and raises the revision. -/
theorem revised_reserve {lease : LeaseRow} {gpu : Option (String × GpuResourceRequest)} {row : JobRow} {db₃ : Db}
    (hinsert : insertRun db lease gpu row b = .ok db₂)
    (hmark : markPlanUsed db₂ planId now = .ok db₃) (hraise : db₃.incrementFleetRevision = .ok db') : Revised db db' := by
  simp only [insertRun, insertJob, bind_eq_ok, pure_eq_ok] at hinsert
  obtain ⟨_, -, _, -, _, ⟨-, -, _, -, rfl⟩, hattempt⟩ := hinsert
  have hattempt := (insertPlacementAttemptTx_eq_ok hattempt).1
  have hplans : db₂.plans = db.plans := by rw [hattempt]
  have hrevision : db₂.fleetRevision = db.fleetRevision := by rw [hattempt]
  obtain ⟨hrevision', hkept, hrows⟩ := markPlanUsed_plans hmark
  obtain ⟨-, rfl⟩ := incrementFleetRevision_eq_ok.1 hraise
  have hlt : db.fleetRevision < db₃.fleetRevision + 1 := by omega
  refine ⟨.of_lt hlt, (plansKept_of_eq hplans).trans hkept, fun hs p' hp' => ?_⟩
  obtain ⟨p, hp, heq⟩ := hrows p' hp'
  rw [hplans] at hp
  rw [heq]
  exact (hs p hp).trans hlt.le

/-! ### Documents of nodes -/

/-- Writing documents that are stored already. -/
theorem Revised.of_documents (hconfig : db'.configOf = db.configOf) (hinventory : db'.inventoryOf = db.inventoryOf)
    (hrest : db'.planning = { db.planning with nodeConfigs := db'.nodeConfigs, nodeInventories := db'.nodeInventories }) :
    Revised db db' where
  advances := .of_eq (congrArg Planning.fleetRevision hrest) (by
    have hreservation : db'.reservationOf = db.reservationOf := congrArg Planning.reservationOf hrest
    rw [Db.material, hconfig, hinventory, hreservation]
    rfl)
  kept := plansKept_of_eq (congrArg Planning.plans hrest)
  stamped := .of_eq (congrArg Planning.fleetRevision hrest) (congrArg Planning.plans hrest)

/-- Writing the rows of a node with the documents that are stored already. -/
theorem Revised.of_nodeRows {rows' : NodeRows} (hrows : db'.nodeRows = Function.update db.nodeRows id rows')
    (hconfig : rows'.config.map NodeConfigRow.document = db.configOf id)
    (hinventory : rows'.inventory.map NodeInventoryRow.document = db.inventoryOf id)
    (hrest : db'.planning = { db.planning with nodeConfigs := db'.nodeConfigs, nodeInventories := db'.nodeInventories }) :
    Revised db db' := by
  have hafter : ∀ x, db'.configOf x = db.configOf x ∧ db'.inventoryOf x = db.inventoryOf x := by
    intro x
    change (db'.nodeRows x).config.map _ = _ ∧ (db'.nodeRows x).inventory.map _ = _
    rw [hrows]
    by_cases hx : x = id
    · subst hx
      rw [Function.update_self]
      exact ⟨hconfig, hinventory⟩
    · rw [Function.update_of_ne hx]
      exact ⟨rfl, rfl⟩
  exact .of_documents (funext fun x => (hafter x).1) (funext fun x => (hafter x).2) hrest

theorem revised_upsertNodeTx {node : Node} {authority : NodeWriteAuthority} (h : upsertNodeTx env db node authority = .ok db')
    (hauthority : authority ≠ .controller) : Revised db db' := by
  obtain ⟨rows', hrows, hprobe⟩ := nodeRows_upsertNodeTx h hauthority
  simp only [upsertNodeTx, bind_eq_ok] at h
  obtain ⟨-, -, -, -, -, -, _, -, document, -, hinc⟩ := h
  rcases incrementWhen_cases hinc with ⟨-, rfl⟩ | ⟨hsame, rfl⟩
  · exact .raised (Int.lt_succ db.fleetRevision) rfl
  · simp only [Bool.or_eq_false_iff, decide_eq_false_iff_not, not_not] at hsame
    obtain ⟨hconfig, hinventory⟩ := hsame
    have hconfig : db.configOf node.id = some _ := hconfig
    obtain ⟨-, hstored, hwritten, -, -, -⟩ := hprobe
    refine .of_nodeRows hrows ?_ (Eq.trans ?_ hinventory.symm) rfl
    · rcases hstored with hstored | ⟨hnone, -⟩
      · exact (congrArg (Option.map NodeConfigRow.document) hstored).symm
      · cases (congrArg (Option.map NodeConfigRow.document) hnone).symm.trans hconfig
    · rw [hwritten]
      rfl

theorem revised_acceptReport {n : NodeRow} {d : NodeDocuments} {report : NodeReportRequest}
    {outcome : NodeReportOutcome} (h : acceptReport t db d report = .ok (db', outcome))
    (hn : (db.nodeRows n.id).node = some n) (hd : db.documents n = some d) : Revised db db' := by
  simp only [acceptReport, bind_eq_ok, pair_eq_ok] at h
  obtain ⟨-, -, -, -, -, -, _, -, document, -, db₁, hinc, rfl, -⟩ := h
  obtain ⟨hid, -, -, hi, hr⟩ := documents_eq_some hd
  rw [← hid] at hn
  rcases incrementWhen_cases hinc with ⟨-, rfl⟩ | ⟨hsame, rfl⟩
  · exact .raised (Int.lt_succ db.fleetRevision) rfl
  · have hstored : db.inventoryOf d.id = some d.inventory.document := congrArg (Option.map NodeInventoryRow.document) hi
    refine .of_nodeRows (nodeRows_writeReport hn hi hr) rfl ?_ rfl
    rw [hstored]
    cases hinventory : report.inventory with
    | none => rfl
    | some inventory =>
      rw [hinventory] at hsame
      have hsame : inventory = d.inventory.document := by simpa using hsame
      rw [← hsame]
      rfl

/-! ### Every call -/

theorem Statement.revised (h : Statement env op db db') : Revised db db' := by
  cases h with
  | maintain _ hm => exact hm.revised
  | authenticate hauth =>
    simp only [authenticateWorkerTx, bind_eq_ok, pair_eq_ok] at hauth
    obtain ⟨_, -, rfl, -⟩ := hauth
    exact .of_planning rfl
  | extend _ _ _ hrows hrest =>
    refine .of_leases ?_ ?_ hrows hrest
    · exact fun _ => rfl
    · exact fun _ _ => rfl
  | plan _ hbinding hplan => exact revised_insertPlanTx hplan (newPlanBinding_revision hbinding).le
  | reserve _ _ hinsert hmark hraise => exact revised_reserve hinsert hmark hraise
  | upload _ hplanning => exact .of_planning hplanning
  | probe _ hprobe hauthority => exact revised_upsertNodeTx hprobe hauthority
  | accept _ hn hd haccept => exact revised_acceptReport haccept (nodeRow_of_mem hn) hd
  | configure _ hupdate =>
    obtain ⟨_, _, _, _, rfl⟩ := updateNodeConfig_eq_ok hupdate
    exact .raised (Int.lt_succ db.fleetRevision) rfl
  | enroll _ _ honly => exact .of_planning (by rw [honly]; rfl)

theorem exec_revised {answer : Answer} (h : exec env db op = .ok (db', answer)) : Revised db db' := by
  have hs := exec_statements h
  clear h
  induction hs with
  | refl => exact .refl db
  | tail _ hs ih => exact ih.trans hs.revised

theorem revised_step (db : Db) (call : Call) : Revised db (step db call) := by
  rcases step_cases db call with ⟨db', answer, hexec, hstep⟩ | hstep
  · rw [hstep]
    exact exec_revised hexec
  · rw [hstep]
    exact .refl db

/-- Over a history the revision follows the material. -/
theorem revised_after (db : Db) (calls : List Call) : Revised db (History.after step db calls) := by
  induction calls generalizing db with
  | nil => exact .refl db
  | cons call calls ih => exact (revised_step db call).trans (ih (step db call))

end CYC
