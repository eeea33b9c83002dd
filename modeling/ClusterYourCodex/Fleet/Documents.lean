import ClusterYourCodex.Fleet.Frames

/-! The documents of a node: its configuration, inventory and telemetry. A probe writes all of them, an
accepted report the telemetry and sometimes the inventory, the controller the configuration; no other
call writes any. -/

namespace CYC

open Checked Relational

variable {env : Env} {db db' : Db} {node : Node} {authority : NodeWriteAuthority}

namespace Db

def configOf (db : Db) (id : Uuid) : Option NodeConfig := (db.nodeConfigs.lookup NodeConfigRow.nodeId id).map NodeConfigRow.document

def inventoryOf (db : Db) (id : Uuid) : Option NodeInventory :=
  (db.nodeInventories.lookup NodeInventoryRow.nodeId id).map NodeInventoryRow.document

def telemetryOf (db : Db) (id : Uuid) : Option NodeTelemetryRow := db.nodeTelemetry.lookup NodeTelemetryRow.nodeId id

end Db

/-! ### Keys -/

theorem NodeRow.clash_iff (a b : NodeRow) : Schema.clash a b = true ↔ a.id = b.id := by
  simp [Schema.clash]

theorem NodeConfigRow.clash_iff (a b : NodeConfigRow) : Schema.clash a b = true ↔ a.nodeId = b.nodeId := by
  simp [Schema.clash]

theorem NodeInventoryRow.clash_iff (a b : NodeInventoryRow) : Schema.clash a b = true ↔ a.nodeId = b.nodeId := by
  simp [Schema.clash]

theorem NodeTelemetryRow.clash_iff (a b : NodeTelemetryRow) : Schema.clash a b = true ↔ a.nodeId = b.nodeId := by
  simp [Schema.clash]

theorem PairingRow.clash_of_id (a b : PairingRow) (h : a.id = b.id) : Schema.clash a b = true := by
  simp [Schema.clash, h]

theorem pairing_of_mem {p : PairingRow} (hp : p ∈ db.pairings.rows) : db.pairings.lookup PairingRow.id p.id = some p :=
  Table.lookup_of_mem PairingRow.clash_of_id hp

/-! ### Stored nodes -/

theorem nodeExists_eq (db : Db) (id : Uuid) : db.nodeExists id = (db.nodes.lookup NodeRow.id id).isSome :=
  Table.any_eq_lookup

theorem nodeExists_rewrite {q : NodeRow → Bool} {f : NodeRow → NodeRow} (hf : ∀ n, (f n).id = n.id)
    (h : db'.nodes.rows = db.nodes.rows.map (rewrite q f)) (id : Uuid) : db'.nodeExists id = db.nodeExists id := by
  unfold Db.nodeExists Table.any
  rw [h, List.any_map]
  congr 1
  funext n
  simp only [Function.comp, rewrite]
  split
  · rw [hf]
  · rfl

/-! ### Probes -/

theorem nodes_writeNodeDocuments {row : NodeRow} {config : Option NodeConfigRow} {inventory : NodeInventoryRow}
    {telemetry : NodeTelemetryRow} : (writeNodeDocuments db row config inventory telemetry).nodes.lookup NodeRow.id =
      Function.update (db.nodes.lookup NodeRow.id) row.id (some (((db.nodes.lookup NodeRow.id row.id).map fun r =>
        { r with document := row.document, updatedAt := row.updatedAt, revision := row.revision }).getD row)) :=
  Table.lookup_upsert NodeRow.clash_iff fun _ => rfl

/-- What only enrollment writes. -/
def Fleet.enrollment (f : Fleet) : Table PairingRow × Table PairingOperationRow × String :=
  (f.pairings, f.pairingOperations, f.pairingSeed)

/-- What the probe of a worker leaves to enrollment. -/
structure Probed (db : Db) (node : Node) (db' : Db) : Prop where
  enrollment : db'.fleet.enrollment = db.fleet.enrollment
  workerCredentials : db'.workerCredentials = db.workerCredentials
  nodeExists : ∀ id, db'.nodeExists id = (db.nodeExists id || id = node.id)

/-- A probe writes the documents of its node. -/
theorem upsertNodeTx_eq_ok (h : upsertNodeTx env db node authority = .ok db') (hauthority : authority ≠ .controller) :
    ∃ row config inventory telemetry, row.id = node.id ∧
      db'.fleet = (writeNodeDocuments db row config inventory telemetry).fleet := by
  simp only [upsertNodeTx, bind_eq_ok, hauthority, if_false, decide_false, Bool.false_or, Bool.false_and] at h
  obtain ⟨-, -, -, -, -, -, _, -, document, -, hinc⟩ := h
  exact ⟨_, _, _, _, rfl, fleet_incrementWhen hinc⟩

theorem upsertNodeTx_probed (h : upsertNodeTx env db node authority = .ok db') (hauthority : authority ≠ .controller) :
    Probed db node db' := by
  obtain ⟨row, config, inventory, telemetry, hrow, hfleet⟩ := upsertNodeTx_eq_ok h hauthority
  have hnodes : db'.nodes = (writeNodeDocuments db row config inventory telemetry).nodes := congrArg Fleet.nodes hfleet
  refine ⟨(congrArg Fleet.enrollment hfleet :), congrArg Fleet.workerCredentials hfleet, fun id => ?_⟩
  rw [nodeExists_eq, nodeExists_eq, hnodes, nodes_writeNodeDocuments, hrow]
  by_cases hid : id = node.id
  · subst hid
    simp
  · simp [hid]

/-! ### Reports -/

/-- The cursor that an accepted report leaves in the telemetry row. -/
def NodeTelemetryRow.reported (t : DateTime) (telemetry : NodeTelemetry) (r : NodeTelemetryRow) : NodeTelemetryRow :=
  { r with document := telemetry, receivedAt := t, bootGeneration := asI64 telemetry.bootGeneration.toNat,
           bootId := telemetry.bootId, sequence := asI64 telemetry.sequence.toNat, observedAt := telemetry.observedAt }

/-- The documents that an accepted report writes. -/
structure Reported (db : Db) (t : DateTime) (d : NodeDocuments) (report : NodeReportRequest) (db' : Db) : Prop where
  fleet : ∃ inventories nodes boots, db'.fleet = { db.fleet with
    nodes, nodeInventories := inventories, nodeTelemetryBoots := boots,
    nodeTelemetry := db.nodeTelemetry.modify (fun r => r.nodeId = d.id) (NodeTelemetryRow.reported t report.telemetry)
      (fun _ _ => rfl) }

theorem acceptReport_reported {t : DateTime} {d : NodeDocuments} {report : NodeReportRequest} {outcome : NodeReportOutcome}
    (h : acceptReport t db d report = .ok (db', outcome)) : Reported db t d report db' ∧ outcome.nodeId = d.id ∧
      outcome.accepted = true := by
  simp only [acceptReport, bind_eq_ok, pair_eq_ok] at h
  obtain ⟨-, -, -, -, -, -, _, -, document, -, db₁, hinc, rfl, rfl⟩ := h
  exact ⟨⟨_, _, _, fleet_incrementWhen hinc⟩, rfl, rfl⟩

/-! ### Every call -/

/-- Of enrollment at most the times at which credentials were last used are written, and no node is lost. -/
structure Spared (db db' : Db) : Prop where
  enrollment : db'.fleet.enrollment = db.fleet.enrollment
  credentials : ∃ time : WorkerCredentialRow → Option Int,
    db'.workerCredentials.rows = db.workerCredentials.rows.map fun c => c.used (time c)
  nodes : ∀ id, db.nodeExists id = true → db'.nodeExists id = true

theorem Spared.of_touched (h : Touched db db') : Spared db db' := by
  refine ⟨by rw [h.rest]; rfl, h.credentials, fun id hid => ?_⟩
  rw [Db.nodeExists, show db'.nodes = db.nodes from congrArg Fleet.nodes h.rest]
  exact hid

theorem Spared.of_documents (henrollment : db'.fleet.enrollment = db.fleet.enrollment)
    (hcredentials : db'.workerCredentials = db.workerCredentials)
    (hnodes : ∀ id, db.nodeExists id = true → db'.nodeExists id = true) : Spared db db' :=
  ⟨henrollment, ⟨WorkerCredentialRow.lastUsedAt, by rw [hcredentials]; exact (List.map_id _).symm⟩, hnodes⟩

theorem Probed.spared (h : Probed db node db') : Spared db db' :=
  .of_documents h.enrollment h.workerCredentials fun id hid => by simp [h.nodeExists, hid]

theorem Spared.trans {db'' : Db} (h : Spared db db') (h' : Spared db' db'') : Spared db db'' := by
  obtain ⟨henrollment, ⟨time, hrows⟩, hnodes⟩ := h
  obtain ⟨henrollment', ⟨time', hrows'⟩, hnodes'⟩ := h'
  refine ⟨henrollment'.trans henrollment, ⟨fun c => time' (c.used (time c)), ?_⟩, fun id hid => hnodes' id (hnodes id hid)⟩
  rw [hrows', hrows, List.map_map]
  rfl

/-- Only the statements on nodes and enrollment write the fleet, and those on nodes spare enrollment. -/
theorem Statement.touched {op : Op} (h : Statement env op db db') :
    Touched db db' ∨ op.writesFleet = true ∧ (Spared db db' ∨ op.enrolls = true) := by
  cases h with
  | maintain _ hm => exact .inl (.of_fleet (congrArg Prod.fst hm.apart_eq))
  | authenticate hauth => exact .inl (touched_authenticateWorkerTx hauth)
  | extend _ _ _ _ _ hapart => exact .inl (.of_fleet (congrArg Prod.fst hapart))
  | plan _ _ hplan => exact .inl (.of_fleet (by rw [insertPlanTx_eq_ok hplan]; rfl))
  | reserve _ _ hinsert hmark hraise => exact .inl (.of_fleet (congrArg Prod.fst (apart_reserve hinsert hmark hraise)))
  | upload _ _ hfleet => exact .inl (.of_fleet hfleet)
  | probe hop hprobe hauthority => exact .inr ⟨hop, .inl (upsertNodeTx_probed hprobe hauthority).spared⟩
  | accept hop _ _ haccept =>
    simp only [acceptReport, bind_eq_ok, pair_eq_ok] at haccept
    obtain ⟨-, -, -, -, -, -, _, -, document, -, db₁, hinc, rfl, -⟩ := haccept
    have hfleet := fleet_incrementWhen hinc
    refine .inr ⟨hop, .inl (.of_documents (congrArg Fleet.enrollment hfleet :) (congrArg Fleet.workerCredentials hfleet) ?_)⟩
    intro id hid
    rw [← hid]
    exact nodeExists_rewrite (f := fun r => { r with document, updatedAt := _, revision := _ }) (fun _ => rfl)
      (congrArg (fun f : Fleet => f.nodes.rows) hfleet) id
  | configure hop hupdate =>
    obtain ⟨_, _, document, _, rfl⟩ := updateNodeConfig_eq_ok hupdate
    refine .inr ⟨hop, .inl (.of_documents rfl rfl fun id hid => ?_)⟩
    rw [← hid]
    exact nodeExists_rewrite (f := fun r => { r with document, updatedAt := _, revision := _ }) (fun _ => rfl) rfl id
  | enroll hop henrolls => exact .inr ⟨hop, .inr henrolls⟩

/-- Any call that does not write the fleet leaves it as it is, but for the times at which credentials were
last used. -/
theorem exec_touched {op : Op} {answer : Answer} (h : exec env db op = .ok (db', answer)) (hop : op.writesFleet = false) :
    Touched db db' := by
  have hs := exec_statements h
  clear h
  induction hs with
  | refl => exact .of_fleet rfl
  | tail _ hs ih =>
    rcases hs.touched with ht | ⟨hfleet, -⟩
    · exact ih.trans ht
    · cases hfleet.symm.trans hop

theorem exec_spared {op : Op} {answer : Answer} (h : exec env db op = .ok (db', answer)) (hop : op.enrolls = false) :
    Spared db db' := by
  have hs := exec_statements h
  clear h
  induction hs with
  | refl => exact .of_touched (.of_fleet rfl)
  | tail _ hs ih =>
    rcases hs.touched with ht | ⟨-, hspared | henrolls⟩
    · exact ih.trans (.of_touched ht)
    · exact ih.trans hspared
    · cases henrolls.symm.trans hop

end CYC
