import ClusterYourCodex.Fleet.Documents

/-! The rows of one node. Three writers share them: the probe of a worker, its reports and the operator's
configuration. Each writes the rows of a single node, and each runs the merge over the documents as they will
be stored, so whatever order they come in, the documents of a node pass validation together. -/

namespace CYC

open Checked Relational

/-- The rows of one node, and the boots that are remembered of it. -/
structure NodeRows where
  node : Option NodeRow
  config : Option NodeConfigRow
  inventory : Option NodeInventoryRow
  telemetry : Option NodeTelemetryRow
  boots : Uuid → Bool

def Fleet.nodeRows (f : Fleet) (id : Uuid) : NodeRows where
  node := f.nodes.lookup NodeRow.id id
  config := f.nodeConfigs.lookup NodeConfigRow.nodeId id
  inventory := f.nodeInventories.lookup NodeInventoryRow.nodeId id
  telemetry := f.nodeTelemetry.lookup NodeTelemetryRow.nodeId id
  boots b := f.nodeTelemetryBoots.any fun r => r.nodeId = id && r.bootId = b

def Db.nodeRows (db : Db) : Uuid → NodeRows := db.fleet.nodeRows

/-- The documents pass validation together. -/
structure Merges (id : Uuid) (c : NodeConfig) (i : NodeInventory) (t : NodeTelemetry) : Prop where
  id : id.isNil = false
  config : c.validate = .ok ()
  inventory : i.validate = .ok ()
  telemetry : t.validate i = .ok ()

section Merge

variable {id : Uuid} {config : NodeConfig} {inventory : NodeInventory} {telemetry : NodeTelemetry} {receivedAt now : DateTime}
  {ttl : Int} {view : NodeMergeView} {node : Node}

theorem merges_of_merge (h : NodeMergeView.merge id config inventory telemetry receivedAt now ttl = .ok view) :
    Merges id config inventory telemetry ∧ view.id = id := by
  obtain ⟨hid, hconfig, hinventory, htelemetry, rfl⟩ := merge_eq_ok.1 h
  exact ⟨⟨hid, hconfig, hinventory, htelemetry⟩, rfl⟩

/-- The merge depends on the time only in the availability it derives. -/
theorem Merges.merge (h : Merges id config inventory telemetry) (receivedAt now : DateTime) (ttl : Int) :
    ∃ view node, NodeMergeView.merge id config inventory telemetry receivedAt now ttl = .ok view ∧ view.toNode = .ok node ∧
      view.config = config := by
  refine ⟨_, ?_, merge_eq_ok.2 ⟨h.id, h.config, h.inventory, h.telemetry, rfl⟩, ?_, rfl⟩
  rotate_left
  · simp only [NodeMergeView.toNode, h.config, h.inventory, h.telemetry]
    rfl

end Merge

/-! ### Writers -/

/-- The instant that a probe is stored with. -/
def probeTime (env : Env) (authority : NodeWriteAuthority) : DateTime :=
  if authority = .pairingProbe then .ofTimestamp 0 else env.reading .probe

/-- What the probe of a node writes: all its rows, except a configuration that is there. -/
inductive NodeRows.Probe (env : Env) (node : Node) (authority : NodeWriteAuthority) (rows : NodeRows) : NodeRows → Prop
  | mk {n c i r} (row : n.document.id = node.id ∧ n.updatedAt = probeTime env authority)
      (config : rows.config = some c ∨ rows.config = none ∧ c.document = NodeConfig.fromNode node ∧
        c.updatedAt = probeTime env authority ∧ c.revision = 0)
      (inventory : i = { nodeId := node.id, document := .fromNode node, updatedAt := probeTime env authority,
                         revision := i.revision, digest := inventoryDigest (.fromNode node), observedAt := r.observedAt })
      (telemetry : r = { nodeId := node.id, document := r.document, receivedAt := probeTime env authority,
                         bootGeneration := 0, bootId := .nil, sequence := 0, observedAt := r.document.observedAt })
      (document : r.document = probeTelemetry node authority (probeTime env authority))
      (merges : Merges node.id c.document (.fromNode node) r.document) :
      Probe env node authority rows
        { rows with node := some n, config := some c, inventory := some i, telemetry := some r }

/-- The inventory row after a report that may bring an inventory, with its revision and digest. -/
def NodeInventoryRow.reported (t observedAt : DateTime) (i : NodeInventoryRow) :
    Option (NodeInventory × Int × String) → NodeInventoryRow
  | none => i
  | some (inventory, revision, digest) => { i with document := inventory, updatedAt := t, revision, digest, observedAt }

/-- What an accepted report writes: the telemetry, the inventory if it brings one, and the boot. -/
inductive NodeRows.Report (t : DateTime) (report : NodeReportRequest) (id : Uuid) (rows : NodeRows) : NodeRows → Prop
  | mk {n c i r document revision inventoryRevision} (node : rows.node = some n) (config : rows.config = some c)
      (inventory : rows.inventory = some i) (telemetry : rows.telemetry = some r) (documentId : document.id = id)
      (merges : Merges id c.document (report.inventory.getD i.document) report.telemetry) :
      Report t report id rows
        { rows with
          node := some { n with document, updatedAt := t, revision }
          inventory := some (i.reported t report.telemetry.observedAt
            (report.inventory.map fun inventory => (inventory, inventoryRevision, inventoryDigest inventory)))
          telemetry := some (r.reported t report.telemetry)
          boots := fun b => rows.boots b || report.telemetry.bootId = b }

/-- What the operator's configuration writes. -/
inductive NodeRows.Configure (t : DateTime) (config : NodeConfig) (id : Uuid) (rows : NodeRows) : NodeRows → Prop
  | mk {n c i r capacity document revision} (node : rows.node = some n) (stored : rows.config = some c)
      (inventory : rows.inventory = some i) (telemetry : rows.telemetry = some r) (documentId : document.id = id)
      (policy : effectiveCapacityPolicy config = .ok capacity) (merges : Merges id config i.document r.document) :
      Configure t config id rows
        { rows with
          node := some { n with document, updatedAt := t, revision }
          config := some { c with document := config, updatedAt := t, revision := satI64 (c.revision + 1) } }

/-- The probe that a call brings. -/
def Op.probe : Op → Option (Node × NodeWriteAuthority)
  | .claimJob _ nodeId probe endpoint => some (nodeFromProbe nodeId none probe endpoint true, .worker)
  | .consumePairing _ _ nodeId _ displayName probe endpoint =>
    some (nodeFromProbe nodeId displayName probe endpoint false, .pairingProbe)
  | _ => none

/-- The call writes the probe of a worker as the node's telemetry. -/
def Op.probes (db : Db) : Op → Uuid → Prop
  | .claimJob _ nodeId _ _, id => id = nodeId ∧ (db.telemetryOf id).all (fun t => t.bootId.isNil) = true
  | .consumePairing _ pairingId nodeId _ _ _ _, id =>
    id = nodeId ∧ ∃ p, db.pairings.lookup PairingRow.id pairingId = some p ∧ p.usedAt = none
  | _, _ => False

/-- What a call on the store can do to the rows of a node. -/
inductive NodeRows.Step (env : Env) (db : Db) (op : Op) (answer : Answer) (id : Uuid) (rows rows' : NodeRows) : Prop
  | probe {node authority} (asked : op.probe = some (node, authority)) (self : node.id = id) (due : op.probes db id)
      (written : rows.Probe env node authority rows')
  | report {credential report outcome} (asked : op = .recordNodeReport credential report)
      (answered : answer = .report outcome) (accepted : outcome.accepted = true) (self : outcome.nodeId = id)
      (valid : report.validate = .ok ())
      (ahead : ∀ r, rows.telemetry = some r → reportOvertaken db r report.telemetry = false)
      (written : rows.Report env.now report id rows')
  | configure {expectedRevision config} (asked : op = .updateNodeConfig id expectedRevision config)
      (written : rows.Configure (env.reading .configured) config id rows')

variable {env : Env} {db db' db₁ : Db} {node : Node} {authority : NodeWriteAuthority}

theorem nodeRows_of_fleet (h : db'.fleet = db.fleet) : db'.nodeRows = db.nodeRows := congrArg Fleet.nodeRows h

theorem Touched.nodeRows (h : Touched db db') : db'.nodeRows = db.nodeRows := (congrArg Fleet.nodeRows h.rest :)

theorem EnrollmentOnly.nodeRows (h : EnrollmentOnly db db') : db'.nodeRows = db.nodeRows := by
  rw [h]
  rfl

/-! ### Probes -/

/-- The four documents of a node are written together. -/
theorem nodeRows_writeNodeDocuments {id : Uuid} {row : NodeRow} {config : Option NodeConfigRow} {inventory : NodeInventoryRow}
    {telemetry : NodeTelemetryRow} (hrow : row.id = id) (hconfig : ∀ c, config = some c → c.nodeId = id)
    (hinventory : inventory.nodeId = id) (htelemetry : telemetry.nodeId = id) :
    (writeNodeDocuments db row config inventory telemetry).nodeRows = Function.update db.nodeRows id
      { db.nodeRows id with node := some row, config := config.or (db.nodeRows id).config, inventory := some inventory,
                            telemetry := some telemetry } := by
  have hnodes : (writeNodeDocuments db row config inventory telemetry).nodes.lookup NodeRow.id =
      Function.update (db.nodes.lookup NodeRow.id) row.id (some row) :=
    Table.lookup_upsert_row NodeRow.clash_iff (fun _ => rfl) (by rintro ⟨⟩ rfl; rfl)
  have hinventories : (writeNodeDocuments db row config inventory telemetry).nodeInventories.lookup NodeInventoryRow.nodeId =
      Function.update (db.nodeInventories.lookup NodeInventoryRow.nodeId) inventory.nodeId (some inventory) :=
    Table.lookup_upsert_row NodeInventoryRow.clash_iff (fun _ => rfl) (by rintro ⟨⟩ rfl; rfl)
  have htelemetries : (writeNodeDocuments db row config inventory telemetry).nodeTelemetry.lookup NodeTelemetryRow.nodeId =
      Function.update (db.nodeTelemetry.lookup NodeTelemetryRow.nodeId) telemetry.nodeId (some telemetry) :=
    Table.lookup_upsert_row NodeTelemetryRow.clash_iff (fun _ => rfl) (by rintro ⟨⟩ rfl; rfl)
  have hconfigs : (writeNodeDocuments db row config inventory telemetry).nodeConfigs.lookup NodeConfigRow.nodeId =
      Function.update (db.nodeConfigs.lookup NodeConfigRow.nodeId) id
        (config.or (db.nodeConfigs.lookup NodeConfigRow.nodeId id)) := by
    cases config with
    | none => exact (Function.update_eq_self ..).symm
    | some c =>
      rw [← hconfig c rfl]
      exact Table.lookup_upsert_row NodeConfigRow.clash_iff (fun _ => rfl) (by rintro ⟨⟩ rfl; rfl)
  rw [hrow] at hnodes
  rw [hinventory] at hinventories
  rw [htelemetry] at htelemetries
  funext x
  simp only [Db.nodeRows, Fleet.nodeRows, Db.fleet, hnodes, hinventories, htelemetries, hconfigs]
  by_cases hx : x = id
  · subst hx
    simp only [Function.update_self]
    rfl
  · simp only [Function.update_of_ne hx]
    rfl

theorem nodeRows_upsertNodeTx (h : upsertNodeTx env db node authority = .ok db') (hauthority : authority ≠ .controller) :
    ∃ rows', db'.nodeRows = Function.update db.nodeRows node.id rows' ∧
      (db.nodeRows node.id).Probe env node authority rows' := by
  simp only [upsertNodeTx, bind_eq_ok, mapError_eq_ok, hauthority, if_false, decide_false, Bool.false_or,
    Bool.false_and] at h
  obtain ⟨_, -, _, -, _, -, view, hmerge, document, hdocument, hinc⟩ := h
  have htime : (if authority = .pairingProbe then .ofTimestamp 0 else env.reading .probe) = probeTime env authority := rfl
  rw [htime] at hmerge
  simp only [htime] at hinc
  obtain ⟨hmerges, hview⟩ := merges_of_merge hmerge
  have hid : document.id = node.id := (toNode_id hdocument).trans hview
  have hzero : ∀ t, (probeTelemetry node authority t).bootGeneration = 0 ∧ (probeTelemetry node authority t).bootId = .nil ∧
      (probeTelemetry node authority t).sequence = 0 := by
    intro t
    unfold probeTelemetry
    split <;> exact ⟨rfl, rfl, rfl⟩
  obtain ⟨hgeneration, hboot, hsequence⟩ := hzero (probeTime env authority)
  have hfleet := nodeRows_of_fleet (fleet_incrementWhen hinc)
  have htelemetry : asI64 (0 : UInt64).toNat = 0 := rfl
  rw [hgeneration, hboot, hsequence, htelemetry] at hfleet
  cases hconfig : (db.nodeRows node.id).config with
  | some existing =>
    have hfind : (db.nodeConfigs.find fun r => r.nodeId = node.id) = some existing := hconfig
    rw [hfind] at hmerges
    simp only [hfind, Option.isNone_some, Bool.false_eq_true, if_false] at hfleet
    refine ⟨_, hfleet.trans (nodeRows_writeNodeDocuments rfl (by rintro _ ⟨⟩) rfl rfl), ?_⟩
    rw [hconfig]
    exact .mk ⟨hid, rfl⟩ (.inl hconfig) rfl rfl rfl hmerges
  | none =>
    have hfind : (db.nodeConfigs.find fun r => r.nodeId = node.id) = none := hconfig
    rw [hfind] at hmerges
    simp only [hfind, Option.isNone_none, if_true] at hfleet
    refine ⟨_, hfleet.trans (nodeRows_writeNodeDocuments rfl (by rintro _ ⟨⟩; rfl) rfl rfl), ?_⟩
    exact .mk ⟨hid, rfl⟩ (.inr ⟨hconfig, rfl, rfl, rfl⟩) rfl rfl rfl hmerges

/-! ### Reports -/

/-- A boot is remembered once. -/
theorem any_rememberBoot (row : NodeTelemetryBootRow) (id b : Uuid) :
    ((rememberBoot db row).any fun r => r.nodeId = id && r.bootId = b) =
      ((db.nodeTelemetryBoots.any fun r => r.nodeId = id && r.bootId = b) || (row.nodeId = id && row.bootId = b)) := by
  unfold rememberBoot
  cases hinsert : db.nodeTelemetryBoots.insert row with
  | some t =>
    rw [Option.getD_some]
    unfold Table.any
    rw [(Table.insert_eq_some hinsert).1, List.any_append]
    simp
  | none =>
    obtain ⟨a, ha, hclash⟩ : ∃ a ∈ db.nodeTelemetryBoots.rows, Schema.clash a row = true := by
      by_contra hall
      simp only [not_exists, not_and, Bool.not_eq_true] at hall
      obtain ⟨t, ht⟩ := Table.insert_isSome hall
      cases hinsert.symm.trans ht
    simp only [Schema.clash, decide_eq_true_eq, Prod.mk.injEq] at hclash
    rw [Option.getD_none]
    cases hrow : (decide (row.nodeId = id) && decide (row.bootId = b)) with
    | false => rw [Bool.or_false]
    | true =>
      simp only [Bool.and_eq_true, decide_eq_true_eq] at hrow
      rw [Bool.or_true, Table.any_eq_true]
      exact ⟨a, ha, by simp [hclash.1.trans hrow.1, hclash.2.trans hrow.2]⟩

/-- The documents of a node, by the rows they were read from. -/
theorem documents_eq_some {n : NodeRow} {d : NodeDocuments} (h : db.documents n = some d) :
    d.id = n.id ∧ d.revision = n.revision ∧ (db.nodeRows d.id).config = some d.config ∧
      (db.nodeRows d.id).inventory = some d.inventory ∧ (db.nodeRows d.id).telemetry = some d.telemetry := by
  simp only [Db.documents, Option.bind_eq_bind, Option.bind_eq_some_iff, Option.pure_def, Option.some.injEq] at h
  obtain ⟨c, hc, i, hi, t, ht, rfl⟩ := h
  exact ⟨rfl, rfl, hc, hi, ht⟩

theorem nodeRow_of_mem {n : NodeRow} (hn : n ∈ db.nodes.rows) : (db.nodeRows n.id).node = some n :=
  Table.lookup_of_mem (fun a b hab => (NodeRow.clash_iff a b).2 hab) hn

section Reported

variable {t : DateTime} {d : NodeDocuments} {report : NodeReportRequest} {outcome : NodeReportOutcome} {n : NodeRow}

theorem nodeRows_writeReport {telemetry : NodeTelemetry} {inventory : Option (NodeInventory × Int × String)} {document : Node}
    {revision : Int} {id : Uuid} {i : NodeInventoryRow} {r : NodeTelemetryRow} (hn : (db.nodeRows id).node = some n)
    (hi : (db.nodeRows id).inventory = some i) (hr : (db.nodeRows id).telemetry = some r) :
    (writeReport db id t telemetry inventory document revision).nodeRows = Function.update db.nodeRows id
      { db.nodeRows id with
        node := some { n with document, updatedAt := t, revision }
        inventory := some (i.reported t telemetry.observedAt inventory)
        telemetry := some (r.reported t telemetry)
        boots := fun b => (db.nodeRows id).boots b || telemetry.bootId = b } := by
  have hnodes : (writeReport db id t telemetry inventory document revision).nodes.lookup NodeRow.id =
      Function.update (db.nodes.lookup NodeRow.id) id (some { n with document, updatedAt := t, revision }) :=
    Table.lookup_updated (f := fun r => { r with document, updatedAt := t, revision }) rfl hn
      (fun a ha => of_decide_eq_true ha) (decide_eq_true (Table.lookup_some hn).2) fun _ => rfl
  have htelemetries : (writeReport db id t telemetry inventory document revision).nodeTelemetry.lookup
      NodeTelemetryRow.nodeId = Function.update (db.nodeTelemetry.lookup NodeTelemetryRow.nodeId) id
        (some (r.reported t telemetry)) :=
    Table.lookup_updated (f := NodeTelemetryRow.reported t telemetry) rfl hr
      (fun a ha => of_decide_eq_true ha) (decide_eq_true (Table.lookup_some hr).2) fun _ => rfl
  have hinventories : (writeReport db id t telemetry inventory document revision).nodeInventories.lookup
      NodeInventoryRow.nodeId = Function.update (db.nodeInventories.lookup NodeInventoryRow.nodeId) id
        (some (i.reported t telemetry.observedAt inventory)) := by
    cases inventory with
    | none =>
      rw [NodeInventoryRow.reported, ← hi]
      exact (Function.update_eq_self ..).symm
    | some written =>
      obtain ⟨inventory, inventoryRevision, digest⟩ := written
      have hrows : (writeReport db id t telemetry (some (inventory, inventoryRevision, digest)) document
          revision).nodeInventories.rows = db.nodeInventories.rows.map (rewrite (fun r => r.nodeId = id)
            fun r => r.reported t telemetry.observedAt (some (inventory, inventoryRevision, digest))) := rfl
      exact Table.lookup_updated hrows hi (fun a ha => of_decide_eq_true ha) (decide_eq_true (Table.lookup_some hi).2) fun _ => rfl
  have hboots : ∀ x b, ((writeReport db id t telemetry inventory document revision).nodeTelemetryBoots.any
      fun r => r.nodeId = x && r.bootId = b) = _ := fun x b => any_rememberBoot _ x b
  funext x
  simp only [Db.nodeRows, Fleet.nodeRows, Db.fleet, hnodes, hinventories, htelemetries, hboots]
  by_cases hx : x = id
  · subst hx
    simp only [Function.update_self, decide_true, Bool.true_and]
    rfl
  · simp only [Function.update_of_ne hx, decide_eq_false (Ne.symm hx), Bool.false_and, Bool.or_false]
    rfl

theorem nodeRows_acceptReport (hn : (db.nodeRows n.id).node = some n) (hd : db.documents n = some d)
    (h : acceptReport t db d report = .ok (db', outcome)) :
    ∃ rows', db'.nodeRows = Function.update db.nodeRows d.id rows' ∧ (db.nodeRows d.id).Report t report d.id rows' := by
  obtain ⟨apiVersion, inventory, telemetry⟩ := report
  simp only [acceptReport, bind_eq_ok, mapError_eq_ok, pair_eq_ok] at h
  obtain ⟨_, -, -, -, _, -, view, hmerge, document, hdocument, db₁, hinc, rfl, -⟩ := h
  obtain ⟨hmerges, hview⟩ := merges_of_merge hmerge
  obtain ⟨hid, -, hc, hi, hr⟩ := documents_eq_some hd
  rw [← hid] at hn
  have hdocument := (toNode_id hdocument).trans hview
  have hfleet := nodeRows_of_fleet (fleet_incrementWhen hinc)
  cases inventory with
  | none =>
    rw [Option.map_none] at hfleet
    refine ⟨_, hfleet.trans (nodeRows_writeReport hn hi hr), ?_⟩
    exact @NodeRows.Report.mk t _ _ _ _ _ _ _ _ _ 0 hn hc hi hr hdocument hmerges
  | some inventory =>
    simp only [Option.map_some, Option.isSome_some, Option.getD_some, if_true] at hfleet
    exact ⟨_, hfleet.trans (nodeRows_writeReport hn hi hr), .mk hn hc hi hr hdocument hmerges⟩

theorem nodeRows_recordNodeReport {credential : String} (h : recordNodeReport env db credential report = .ok (db', outcome)) :
    (Touched db db' ∧ outcome.accepted = false) ∨ ∃ rows',
      db'.nodeRows = Function.update db.nodeRows outcome.nodeId rows' ∧
        NodeRows.Step env db (.recordNodeReport credential report) (.report outcome) outcome.nodeId
          (db.nodeRows outcome.nodeId) rows' := by
  simp only [recordNodeReport, bind_eq_ok, mapError_eq_ok, required_eq_ok, Prod.exists] at h
  obtain ⟨_, hvalid, db₁, _, hexpire, db₂, nodeId, hauth, n, hn, d, hd, h⟩ := h
  have htouched := (Touched.of_fleet (fleet_expireLeases hexpire)).trans (touched_authenticateWorkerTx hauth)
  have hbefore := htouched.nodeRows
  split at h
  · cases h
    exact .inl ⟨htouched, rfl⟩
  · rename_i hahead
    simp only [bind_eq_ok, pair_eq_ok, Prod.exists] at h
    obtain ⟨db₃, _, haccept, db₄, hredispatch, rfl, rfl⟩ := h
    obtain ⟨-, hid, haccepted⟩ := acceptReport_reported haccept
    obtain ⟨rows', hrows, hreport⟩ := nodeRows_acceptReport (nodeRow_of_mem (Table.find_some hn).1) hd haccept
    obtain ⟨-, -, -, -, htelemetry⟩ := documents_eq_some hd
    rw [hbefore] at hrows hreport htelemetry
    rw [hid]
    refine .inr ⟨rows', (nodeRows_of_fleet (fleet_redispatchQueuedJobs hredispatch)).trans hrows, ?_⟩
    refine .report rfl rfl haccepted hid hvalid (fun r hr => ?_) hreport
    cases htelemetry.symm.trans hr
    have hahead : reportOvertaken db₂ d.telemetry report.telemetry = false := eq_false_of_ne_true hahead
    have hboots : db₂.nodeTelemetryBoots = db.nodeTelemetryBoots := congrArg Fleet.nodeTelemetryBoots htouched.rest
    unfold reportOvertaken at hahead
    rw [hboots] at hahead
    exact hahead

end Reported

/-! ### Configurations -/

theorem nodeRows_updateNodeConfig {id : Uuid} {expectedRevision : Int} {config : NodeConfig} {stored : StoredNodeConfig}
    (h : updateNodeConfig env db id expectedRevision config = .ok (db', stored)) :
    ∃ rows', db'.nodeRows = Function.update db.nodeRows id rows' ∧
      (db.nodeRows id).Configure (env.reading .configured) config id rows' := by
  simp only [updateNodeConfig, bind_eq_ok, required_eq_ok, mapError_eq_ok, ensure_eq_ok, decide_eq_true_eq, pair_eq_ok,
    incrementFleetRevision_eq_ok] at h
  obtain ⟨_, -, _, -, capacity, hpolicy, -, -, n, hn, d, hd, -, hrevision, view, hmerge, document, hdocument, db₁,
    ⟨-, rfl⟩, rfl, -⟩ := h
  obtain ⟨hmerges, hview⟩ := merges_of_merge hmerge
  obtain ⟨hid, -, hc, hi, hr⟩ := documents_eq_some hd
  have hnode : n.id = id := (Table.lookup_some hn).2
  rw [hid, hnode] at hc hi hr
  have hn : (db.nodeRows id).node = some n := hn
  refine ⟨_, ?_, @NodeRows.Configure.mk _ _ _ _ n d.config d.inventory d.telemetry capacity document
    (satI64 (n.revision + 1)) hn hc hi hr ((toNode_id hdocument).trans hview) hpolicy hmerges⟩
  generalize hdb' : ({ db with nodeConfigs := _, nodes := _, fleetRevision := _ } : Db) = db'
  have hnodes : db'.nodes.lookup NodeRow.id = Function.update (db.nodes.lookup NodeRow.id) id
      (some { n with document, updatedAt := env.reading .configured, revision := satI64 (n.revision + 1) }) := by
    rw [← hdb']
    exact Table.lookup_updated (f := fun r : NodeRow =>
      { r with document, updatedAt := env.reading .configured, revision := satI64 (n.revision + 1) }) rfl hn
      (fun a ha => of_decide_eq_true ha) (decide_eq_true hnode) fun _ => rfl
  have hconfigs : db'.nodeConfigs.lookup NodeConfigRow.nodeId = Function.update (db.nodeConfigs.lookup NodeConfigRow.nodeId) id
      (some { d.config with document := config, updatedAt := env.reading .configured,
                            revision := satI64 (d.config.revision + 1) }) := by
    rw [← hdb']
    refine Table.lookup_updated (f := fun r : NodeConfigRow => { r with
      document := config, updatedAt := env.reading .configured, revision := satI64 (d.config.revision + 1) }) rfl hc
      (fun a ha => ?_) ?_ fun _ => rfl
    · simp only [Bool.and_eq_true, decide_eq_true_eq] at ha
      exact ha.1
    · simp [(Table.lookup_some hc).2, hrevision]
  have hrest : db'.nodeInventories = db.nodeInventories ∧ db'.nodeTelemetry = db.nodeTelemetry ∧
      db'.nodeTelemetryBoots = db.nodeTelemetryBoots := by
    rw [← hdb']
    exact ⟨rfl, rfl, rfl⟩
  funext x
  simp only [Db.nodeRows, Fleet.nodeRows, Db.fleet, hnodes, hconfigs, hrest]
  by_cases hx : x = id
  · subst hx
    simp only [Function.update_self]
  · simp only [Function.update_of_ne hx]
    rfl

/-! ### Every call -/

theorem nodeRows_consumePairing {code hash : String} {pairingId id : Uuid} {paired : PairedWorker}
    (h : consumePairing env db code pairingId id hash node = .ok (db', paired)) :
    db'.nodeRows = db.nodeRows ∨ ∃ rows', node.id = id ∧ db'.nodeRows = Function.update db.nodeRows id rows' ∧
      (db.nodeRows id).Probe env node .pairingProbe rows' ∧
      ∃ p, db.pairings.lookup PairingRow.id pairingId = some p ∧ p.usedAt = none := by
  simp only [consumePairing, bind_eq_ok, ensure_eq_ok, required_eq_ok, Bool.and_eq_true, decide_eq_true_eq] at h
  obtain ⟨-, -, -, -, p, hfind, -, ⟨⟨rfl, rfl⟩, hnode⟩, h⟩ := h
  split at h
  · simp only [bind_eq_ok, pair_eq_ok] at h
    obtain ⟨_, -, rfl, -⟩ := h
    exact .inl rfl
  · rename_i hused
    simp only [consumeFresh, bind_eq_ok, pair_eq_ok] at h
    obtain ⟨-, -, -, -, -, -, db₁, hupsert, credentials, -, _, -, rfl, -⟩ := h
    obtain ⟨rows', hrows, hprobe⟩ := nodeRows_upsertNodeTx hupsert (by rintro ⟨⟩)
    rw [← hnode] at hrows hprobe ⊢
    exact .inr ⟨rows', rfl, hrows, hprobe, p, pairing_of_mem (Table.find_some hfind).1, hused⟩

/-- A call leaves the rows of all nodes as they are, or writes those of one. -/
theorem exec_nodeRows {op : Op} {answer : Answer} (h : exec env db op = .ok (db', answer)) :
    (db'.nodeRows = db.nodeRows ∧ ∀ outcome, answer = .report outcome → outcome.accepted = false) ∨
      ∃ id rows', db'.nodeRows = Function.update db.nodeRows id rows' ∧
        NodeRows.Step env db op answer id (db.nodeRows id) rows' := by
  cases hop : op.writesFleet with
  | false =>
    refine .inl ⟨(exec_touched h hop).nodeRows, ?_⟩
    rintro outcome rfl
    cases op <;> simp only [exec, answering_eq_ok, reduceCtorEq, and_false, exists_false] at h
    all_goals cases hop
  | true =>
    cases op <;> simp only [exec, answering_eq_ok, silently_eq_ok] at h
    case claimJob credential nodeId probe endpoint =>
      obtain ⟨_, h, rfl⟩ := h
      obtain ⟨db₁, db₂, htouched, hprobe, hfleet⟩ := claimJob_fleet h
      unfold upsertLegacyProbeTx at hprobe
      split at hprobe
      · cases hprobe
        exact .inl ⟨(nodeRows_of_fleet hfleet).trans htouched.nodeRows, by rintro _ ⟨⟩⟩
      · rename_i hnil
        obtain ⟨rows', hrows, hprobe⟩ := nodeRows_upsertNodeTx hprobe (by rintro ⟨⟩)
        rw [htouched.nodeRows] at hrows hprobe
        refine .inr ⟨_, rows', (nodeRows_of_fleet hfleet).trans hrows, .probe rfl rfl ⟨rfl, ?_⟩ hprobe⟩
        have hnil : ((db₁.nodeRows nodeId).telemetry.any fun t => !t.bootId.isNil) = false := eq_false_of_ne_true hnil
        rw [htouched.nodeRows] at hnil
        show (db.nodeRows nodeId).telemetry.all _ = true
        cases ht : (db.nodeRows nodeId).telemetry with
        | none => rfl
        | some t => simpa [ht] using hnil
    case recordNodeReport credential report =>
      obtain ⟨outcome, h, rfl⟩ := h
      rcases nodeRows_recordNodeReport h with ⟨htouched, hrefused⟩ | ⟨rows', hrows, hreport⟩
      · exact .inl ⟨htouched.nodeRows, by rintro _ ⟨⟩; exact hrefused⟩
      · exact .inr ⟨_, rows', hrows, hreport⟩
    case updateNodeConfig id expectedRevision config =>
      obtain ⟨_, h, rfl⟩ := h
      obtain ⟨rows', hrows, hconfigure⟩ := nodeRows_updateNodeConfig h
      exact .inr ⟨_, rows', hrows, .configure rfl hconfigure⟩
    case consumePairing code pairingId nodeId hash displayName probe endpoint =>
      obtain ⟨_, h, rfl⟩ := h
      rcases nodeRows_consumePairing h with hsame | ⟨rows', -, hrows, hprobe, hfresh⟩
      · exact .inl ⟨hsame, by rintro _ ⟨⟩⟩
      · exact .inr ⟨_, rows', hrows, .probe rfl rfl ⟨rfl, hfresh⟩ hprobe⟩
    case createPairingFor => obtain ⟨_, h, rfl⟩ := h; exact .inl ⟨(createPairingFor_only h).nodeRows, by rintro _ ⟨⟩⟩
    case createPairingIdempotent => obtain ⟨_, h, rfl⟩ := h; exact .inl ⟨(createPairingIdempotent_only h).nodeRows, by rintro _ ⟨⟩⟩
    case acknowledgePairing => obtain ⟨_, h, rfl⟩ := h; exact .inl ⟨(acknowledgePairing_only h).nodeRows, by rintro _ ⟨⟩⟩
    case failPairing => obtain ⟨h, rfl⟩ := h; exact .inl ⟨(failPairing_only h).nodeRows, by rintro _ ⟨⟩⟩
    case revokePairing => obtain ⟨h, rfl⟩ := h; exact .inl ⟨(revokePairing_only h).nodeRows, by rintro _ ⟨⟩⟩
    all_goals cases hop

/-! ### What every writer keeps -/

/-- The documents of a node pass validation together, and the columns that repeat a part of a document
agree with it. -/
structure Described (id : Uuid) (n : NodeRow) (c : NodeConfigRow) (i : NodeInventoryRow) (r : NodeTelemetryRow)
    (boots : Uuid → Bool) : Prop where
  merges : Merges id c.document i.document r.document
  policy : ∃ capacity, effectiveCapacityPolicy c.document = .ok capacity
  node : n.document.id = id
  digest : i.digest = inventoryDigest i.document
  generation : r.bootGeneration = asI64 r.document.bootGeneration.toNat
  bootId : r.bootId = r.document.bootId
  sequence : r.sequence = asI64 r.document.sequence.toNat
  observedAt : r.observedAt = r.document.observedAt
  remembered : r.bootId.isNil = false → boots r.bootId = true

/-- A node has all four rows or none. -/
inductive NodeRows.Sound (id : Uuid) : NodeRows → Prop
  | absent {boots} : Sound id ⟨none, none, none, none, boots⟩
  | described {n c i r boots} (described : Described id n c i r boots) : Sound id ⟨some n, some c, some i, some r, boots⟩

/-- A node that was only probed has the default policy. -/
theorem effectiveCapacityPolicy_probe {op : Op} {authority : NodeWriteAuthority} (h : op.probe = some (node, authority)) :
    effectiveCapacityPolicy (.fromNode node) = .ok .default := by
  have hlabels : node.labels = .empty := by
    unfold Op.probe at h
    split at h <;> cases h <;> rfl
  have hconfig : NodeConfig.fromNode node = { NodeConfig.fromNode node with labels := .empty } := by
    rw [← hlabels]
    rfl
  rw [hconfig]
  rfl

theorem NodeRows.Sound.step {op : Op} {answer : Answer} {id : Uuid} {rows rows' : NodeRows} (h : rows.Sound id)
    (hs : NodeRows.Step env db op answer id rows rows') : rows'.Sound id := by
  cases hs with
  | @probe node authority asked self due written =>
    subst self
    obtain ⟨hrow, hconfig, hinventory, htelemetry, hdocument, hmerges⟩ := written
    rename_i n c i r
    refine .described ?_
    have hpolicy : ∃ capacity, effectiveCapacityPolicy c.document = .ok capacity := by
      rcases hconfig with hstored | ⟨-, hnew, -, -⟩
      · cases h with
        | absent => cases hstored
        | described hd => cases hstored; exact hd.policy
      · rw [hnew]
        exact ⟨_, effectiveCapacityPolicy_probe asked⟩
    rw [hinventory]
    rw [htelemetry]
    have hzero : r.document.bootGeneration = 0 ∧ r.document.bootId = .nil ∧ r.document.sequence = 0 := by
      rw [hdocument]
      unfold probeTelemetry
      split <;> exact ⟨rfl, rfl, rfl⟩
    exact {
      merges := hmerges
      policy := hpolicy
      node := hrow.1
      digest := rfl
      generation := by rw [hzero.1]; rfl
      bootId := hzero.2.1.symm
      sequence := by rw [hzero.2.2]; rfl
      observedAt := rfl
      remembered := nofun }
  | @report credential report outcome asked answered accepted self valid ahead written =>
    obtain ⟨hnode, hconfig, hinventory, htelemetry, hid, hmerges⟩ := written
    cases h with
    | absent => cases hnode
    | described hd =>
      cases hnode; cases hconfig; cases hinventory; cases htelemetry
      refine .described ?_
      obtain ⟨apiVersion, inventory, telemetry⟩ := report
      -- the columns repeat the telemetry that the row now holds, and its boot has just been remembered
      cases inventory with
      | none =>
        exact { hd with
          merges := hmerges, node := hid, generation := rfl, bootId := rfl, sequence := rfl, observedAt := rfl
          remembered := fun _ => Bool.or_eq_true_iff.2 (.inr (decide_eq_true rfl)) }
      | some inventory =>
        exact { hd with
          merges := hmerges, node := hid, digest := rfl, generation := rfl, bootId := rfl, sequence := rfl, observedAt := rfl
          remembered := fun _ => Bool.or_eq_true_iff.2 (.inr (decide_eq_true rfl)) }
  | configure asked written =>
    obtain ⟨hnode, hconfig, hinventory, htelemetry, hid, hpolicy, hmerges⟩ := written
    cases h with
    | absent => cases hnode
    | described hd =>
      cases hnode; cases hconfig; cases hinventory; cases htelemetry
      exact .described { hd with merges := hmerges, policy := ⟨_, hpolicy⟩, node := hid }

/-- What every writer keeps of the rows of a node holds after any history. -/
theorem nodeRows_after {P : Uuid → NodeRows → Prop} {calls : List Call} (h : ∀ id, P id (db.nodeRows id))
    (hstep : ∀ call ∈ calls, ∀ db answer id rows rows', P id rows →
      NodeRows.Step call.env db call.op answer id rows rows' → P id rows') : ∀ id, P id ((History.after CYC.step db calls).nodeRows id) := by
  induction calls generalizing db with
  | nil => exact h
  | cons call calls ih =>
    refine ih (fun id => ?_) fun call hcall => hstep call (List.mem_cons_of_mem _ hcall)
    rcases step_cases db call with ⟨db', answer, hexec, hdb'⟩ | hdb'
    · rw [hdb']
      rcases exec_nodeRows hexec with ⟨hsame, -⟩ | ⟨id', rows', hrows, hwritten⟩
      · rw [hsame]
        exact h id
      · rw [hrows]
        by_cases hid : id = id'
        · subst hid
          rw [Function.update_self]
          exact hstep call List.mem_cons_self db answer id _ rows' (h id) hwritten
        · rw [Function.update_of_ne hid]
          exact h id
    · rw [hdb']
      exact h id

theorem nodeRows_sound_after (seed : String) (calls : List Call) (id : Uuid) : ((storeAfter seed calls).nodeRows id).Sound id :=
  nodeRows_after (fun _ => .absent) (fun _ _ _ _ _ _ _ h hs => h.step hs) id

/-! ### Numbering -/

/-- Configurations are numbered from zero, so every stored revision is one that an update can name. -/
def Numbered (t : Table NodeConfigRow) : Prop := ∀ c ∈ t.rows, 0 ≤ c.revision

/-- A probe writes the first number, and the operator's writes count up. -/
theorem numbered_after (seed : String) (calls : List Call) : Numbered (storeAfter seed calls).nodeConfigs := by
  have hrows : ∀ id, ∀ c, ((storeAfter seed calls).nodeRows id).config = some c → 0 ≤ c.revision := by
    refine nodeRows_after (P := fun _ rows => ∀ c, rows.config = some c → 0 ≤ c.revision) (fun _ _ => nofun) ?_
    intro call _ db answer id rows rows' h hs c hc
    cases hs with
    | probe asked self due written =>
      obtain ⟨-, hconfig, -, -, -, -⟩ := written
      cases hc
      rcases hconfig with hstored | ⟨-, -, -, hnew⟩
      · exact h _ hstored
      · exact hnew.ge
    | report asked answered accepted self valid ahead written =>
      cases written
      exact h _ hc
    | configure asked written =>
      obtain ⟨-, hstored, -, -, -, -, -⟩ := written
      cases hc
      have hnonneg := h _ hstored
      have hlimits : i64Min ≤ 0 ∧ 0 ≤ i64Max := by decide
      change 0 ≤ satI64 (_ + 1)
      unfold satI64
      omega
  intro c hc
  exact hrows c.nodeId c (Table.lookup_of_mem (fun a b hab => (NodeConfigRow.clash_iff a b).2 hab) hc)

end CYC
