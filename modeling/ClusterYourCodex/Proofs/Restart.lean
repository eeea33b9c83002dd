import ClusterYourCodex.Spec.Migration
import ClusterYourCodex.Proofs.Versions
import ClusterYourCodex.Proofs.Merging
import ClusterYourCodex.Fleet.Authority

/-! Reopening a database of the running code. The backfills look for rows that older versions have left, and
the invariants of the store say that there are none: one exception apart, every backfill writes what is stored
already. The exception takes an inventory observed on the day of the epoch, as every enrollment stores it, for
one that was never dated, and gives it the instant of the latest telemetry. -/

namespace CYC

open Checked Relational

variable {db db' : Db} {calls : List Call}

/-- What the backfills rely on. -/
structure Current (db : Db) : Prop where
  enrolled : ∃ R, Records db R
  nodes : ∀ id, (db.nodeRows id).Sound id
  received : ∀ id, (db.nodeRows id).Received
  coherent : ∃ T, db.ledger.Coherent T
  recorded : db.book.Recorded
  holdings : db.holdings.Sound

theorem current_after (seed : String) (calls : List Call) : Current (storeAfter seed calls) := by
  obtain ⟨R, hrecords, -⟩ := records_storeAfter seed calls
  obtain ⟨t, hbooked⟩ := booked_after seed calls
  exact {
    enrolled := ⟨R, hrecords⟩
    nodes := nodeRows_sound_after seed calls
    received := received_after seed calls
    coherent := ⟨_, hbooked.coherent⟩
    recorded := hbooked.recorded
    holdings := holdings_sound_after (holdings_empty seed) }

/-! ### Pairings -/

theorem migratePairingAckSchema_eq (h : Current db) : migratePairingAckSchema db = db := by
  obtain ⟨R, hrecords⟩ := h.enrolled
  have hnone : ∀ p ∈ db.pairings.rows, supersededReady db p = false := by
    intro p hp
    by_contra hready
    simp only [supersededReady, Bool.not_eq_false, Bool.and_eq_true, decide_eq_true_eq] at hready
    obtain ⟨⟨⟨⟨⟨⟨hrevoked, hused⟩, -⟩, -⟩, -⟩, -⟩, hretired⟩ := hready
    obtain ⟨e, -, hrecorded⟩ := hrecords.entry hp
    -- the credential of a bound pairing is revoked together with it
    have hbound : ∀ c, Bound db p c → False := by
      intro c hbound
      rw [hbound.credentials, List.countP_singleton] at hretired
      have hrow := hbound.revoked
      rw [Option.isNone_iff_eq_none.1 hrevoked] at hrow
      simp [retiredCredential, hrow] at hretired
    cases hrecorded with
    | issued hunused | closed hunused => rw [hunused.usedAt] at hused; cases hused
    | staged hb | active hb => exact hbound _ hb
  unfold migratePairingAckSchema
  rw [Table.modify_eq_self hnone]

theorem migratePairingFailureSchema_eq (h : Current db) : migratePairingFailureSchema db = .ok () := by
  obtain ⟨R, hrecords⟩ := h.enrolled
  refine forM_eq_ok.2 fun p hp => ?_
  obtain ⟨hp, hfailed⟩ := List.mem_filter.1 hp
  obtain ⟨e, -, hrecorded⟩ := hrecords.entry hp
  cases hrecorded with
  | issued _ hf hcode => rw [hf, hcode] at hfailed; cases hfailed
  | staged hb | active hb => rw [hb.failedAt, hb.failureCode] at hfailed; cases hfailed
  | closed hunused hf hcode hcalendar =>
    simp only [checkPairingFailure, hf, hcode, pairingFailureState, timestamp_eq_ok.2 ⟨hcalendar, rfl⟩, hunused.usedAt,
      hunused.acknowledgedAt, hunused.nodeId, hunused.credentials]
    rfl

/-! ### Documents -/

theorem insertedOrIgnored_eq {ρ : Type} [Schema ρ] {t : Table ρ} {r a : ρ} (ha : a ∈ t.rows) (h : Schema.clash a r = true) :
    insertedOrIgnored t r = t := by
  rw [insertedOrIgnored, Table.insert_eq_none ha h, Option.getD_none]

theorem migrateLegacyNodeDocuments_eq (h : Current db) : migrateLegacyNodeDocuments db = .ok db := by
  refine foldlM_eq_self fun n hn => ?_
  obtain ⟨d, hd, boots, hdescribed⟩ := documents_isSome h.nodes hn
  obtain ⟨hid, -, hconfig, hinventory, htelemetry⟩ := documents_eq_some hd
  have hrow : (db.nodeRows n.id).node = some n := Table.lookup_of_mem (fun a b hab => (NodeRow.clash_iff a b).2 hab) hn
  rw [hid] at hconfig hinventory htelemetry
  obtain ⟨hc, hcid⟩ : d.config ∈ db.nodeConfigs.rows ∧ _ := Table.lookup_some hconfig
  obtain ⟨hi, hiid⟩ : d.inventory ∈ db.nodeInventories.rows ∧ _ := Table.lookup_some hinventory
  obtain ⟨hr, hrid⟩ : d.telemetry ∈ db.nodeTelemetry.rows ∧ _ := Table.lookup_some htelemetry
  simp only [migrateLegacyNode, bind_eq_ok, ensure_eq_ok, decide_eq_true_eq, parseRfc3339_eq_ok, pure_eq_ok]
  refine ⟨(), hdescribed.node, _, ⟨(h.received n.id).node n hrow, rfl⟩, ?_⟩
  rw [insertedOrIgnored_eq hc ((NodeConfigRow.clash_iff _ _).2 hcid),
    insertedOrIgnored_eq hi ((NodeInventoryRow.clash_iff _ _).2 hiid),
    insertedOrIgnored_eq hr ((NodeTelemetryRow.clash_iff _ _).2 hrid)]

/-- An inventory comes with the telemetry of its node. -/
theorem Current.described (h : Current db) {i : NodeInventoryRow} (hi : i ∈ db.nodeInventories.rows) :
    ∃ n c r boots, db.nodeRows i.nodeId = ⟨some n, some c, some i, some r, boots⟩ ∧ Described i.nodeId n c i r boots := by
  have hrow : (db.nodeRows i.nodeId).inventory = some i :=
    Table.lookup_of_mem (fun a b hab => (NodeInventoryRow.clash_iff a b).2 hab) hi
  generalize hrows : db.nodeRows i.nodeId = rows at hrow
  have hsound := hrows ▸ h.nodes i.nodeId
  cases hsound with
  | absent => cases hrow
  | described hdescribed =>
    cases hrow
    exact ⟨_, _, _, _, rfl, hdescribed⟩

theorem mem_reportMetadata {i : NodeInventoryRow} {r : NodeTelemetryRow} : (i, r) ∈ db.reportMetadata ↔
    i ∈ db.nodeInventories.rows ∧ (db.nodeRows i.nodeId).telemetry = some r := by
  simp only [Db.reportMetadata, List.mem_filterMap, Option.map_eq_some_iff, Prod.mk.injEq]
  constructor
  · rintro ⟨_, hi, _, hr, rfl, rfl⟩
    exact ⟨hi, hr⟩
  · rintro ⟨hi, hr⟩
    exact ⟨i, hi, r, hr, rfl, rfl⟩

/-- The inventory with the instant that the backfill gives it. -/
def Db.redate (db : Db) (i : NodeInventoryRow) : NodeInventoryRow :=
  { i with
    observedAt := if i.observedAt.onEpochDay then
        ((db.nodeTelemetry.find fun r => r.nodeId = i.nodeId).map fun r => r.document.observedAt).getD i.observedAt
      else i.observedAt }

section Redate

variable (db : Db) (i : NodeInventoryRow)

theorem Db.nodeId_redate : (db.redate i).nodeId = i.nodeId := by simp only [Db.redate]

theorem Db.document_redate : (db.redate i).document = i.document := by simp only [Db.redate]

theorem Db.digest_redate : (db.redate i).digest = i.digest := by simp only [Db.redate]

theorem Db.updatedAt_redate : (db.redate i).updatedAt = i.updatedAt := by simp only [Db.redate]

end Redate

theorem Db.clash_redate (db : Db) (a b : NodeInventoryRow) : Schema.clash (db.redate a) b = Schema.clash a b :=
  Bool.eq_iff_iff.2 (by rw [NodeInventoryRow.clash_iff, NodeInventoryRow.clash_iff, db.nodeId_redate])

/-- The inventories that `p` selects, with the instants that the backfill gives them. -/
def Db.redated (db : Db) (p : NodeInventoryRow → Bool) : Db :=
  { db with nodeInventories := db.nodeInventories.modify p db.redate db.clash_redate }

section Backfill

variable {i : NodeInventoryRow} {r : NodeTelemetryRow} {p : NodeInventoryRow → Bool}

theorem backfillInventory_eq (h : Current db) (hi : (i, r) ∈ db.reportMetadata) :
    backfillInventory r.document i = db.redate i := by
  obtain ⟨hi, hr⟩ := mem_reportMetadata.1 hi
  obtain ⟨n, c, r', boots, hrows, hdescribed⟩ := h.described hi
  have hr' : (db.nodeTelemetry.find fun r => r.nodeId = i.nodeId) = some r := hr
  have hdigest := hdescribed.digest
  simp only [backfillInventory, Db.redate, hr', Option.map_some, Option.getD_some, ← hdigest, ite_self]

/-- The columns of the telemetry repeat its document already. -/
theorem backfillTelemetry_eq (h : Current db) (hi : (i, r) ∈ db.reportMetadata) : backfillTelemetry r.document r = r := by
  obtain ⟨hi, hr⟩ := mem_reportMetadata.1 hi
  obtain ⟨n, c, r', boots, hrows, hdescribed⟩ := h.described hi
  rw [hrows] at hr
  cases hr
  have hgeneration := hdescribed.generation
  have hobserved := hdescribed.observedAt
  obtain ⟨nodeId, document, receivedAt, bootGeneration, bootId, sequence, observedAt⟩ := r
  simp only at hgeneration hobserved
  simp only [backfillTelemetry, hgeneration, hobserved, ite_self]

/-- A round of the backfill dates the inventory of one node. -/
theorem backfillNode_eq (h : Current db) (hi : (i, r) ∈ db.reportMetadata) :
    backfillNode (db.redated p) (i, r) = .ok (db.redated fun a => p a || a.nodeId = i.nodeId) := by
  have hinventory := backfillInventory_eq h hi
  have htelemetry := backfillTelemetry_eq h hi
  obtain ⟨hmem, hr⟩ := mem_reportMetadata.1 hi
  have hunique : ∀ a ∈ db.nodeInventories.rows, a.nodeId = i.nodeId → a = i := fun a ha hid =>
    Table.eq_of_clash ha hmem ((NodeInventoryRow.clash_iff a i).2 hid)
  have hr' : r ∈ db.nodeTelemetry.rows ∧ r.nodeId = i.nodeId := Table.lookup_some hr
  have hkept : ∀ a ∈ db.nodeTelemetry.rows, a.nodeId = i.nodeId → backfillTelemetry r.document a = a := by
    intro a ha hid
    cases Table.eq_of_clash ha hr'.1 ((NodeTelemetryRow.clash_iff a r).2 (hid.trans hr'.2.symm))
    exact htelemetry
  have hreceived := h.received i.nodeId
  have hri : (db.nodeRows i.nodeId).inventory = some i :=
    Table.lookup_of_mem (fun a b hab => (NodeInventoryRow.clash_iff a b).2 hab) hmem
  have hstored : db.nodeTelemetry.modify (fun a => a.nodeId = i.nodeId) (backfillTelemetry r.document) (fun _ _ => rfl) =
      db.nodeTelemetry := Table.modify_eq_of_fixed fun a ha hid => hkept a ha (of_decide_eq_true hid)
  simp only [backfillNode, Db.redated, bind_eq_ok, parseRfc3339_eq_ok, pure_eq_ok, hstored, ite_self, hinventory]
  refine ⟨_, ⟨hreceived.telemetry r hr, rfl⟩, _, ⟨hreceived.inventory i hri, rfl⟩, ?_⟩
  congr 1
  -- the row of the node takes the instant, whether or not an earlier round has given it
  have hother : ∀ a ∈ db.nodeInventories.rows, a.nodeId ≠ i.nodeId → ∀ f : NodeInventoryRow → NodeInventoryRow,
      rewrite (fun a : NodeInventoryRow => decide (a.nodeId = i.nodeId)) f (rewrite p db.redate a) =
        rewrite (fun a => p a || decide (a.nodeId = i.nodeId)) db.redate a := by
    intro a ha hid f
    have hsame : (rewrite p db.redate a).nodeId = a.nodeId := by
      unfold rewrite
      split
      · exact db.nodeId_redate a
      · rfl
    rw [rewrite_of_neg (by rw [hsame]; exact decide_eq_false hid)]
    simp only [rewrite, decide_eq_false hid, Bool.or_false]
  split
  · refine Table.ext ?_
    simp only [Table.rows_modify, List.map_map]
    refine List.map_congr_left fun a ha => ?_
    by_cases hid : a.nodeId = i.nodeId
    · cases hunique a ha hid
      cases hp : p i <;> simp [rewrite, hp, Db.redate]
    · exact hother a ha hid _
  · next hdated =>
    simp only [Bool.or_eq_true, decide_eq_true_eq, not_or, Bool.not_eq_true] at hdated
    have hfixed : db.redate i = i := by simp [Db.redate, hdated.2]
    refine Table.ext (List.map_congr_left fun a ha => ?_)
    by_cases hid : a.nodeId = i.nodeId
    · cases hunique a ha hid
      cases hp : p i <;> simp [rewrite, hp, hfixed]
    · simp only [rewrite, decide_eq_false hid, Bool.or_false]

/-- The whole backfill dates every inventory of a node. -/
theorem backfillNodeReportMetadata_eq (h : Current db) :
    backfillNodeReportMetadata db = .ok (db.redated fun _ => true) := by
  have hrounds : ∀ pairs : List (NodeInventoryRow × NodeTelemetryRow), (∀ x ∈ pairs, x ∈ db.reportMetadata) →
      ∀ p, pairs.foldlM backfillNode (db.redated p) =
        .ok (db.redated fun a => p a || pairs.any fun x => a.nodeId = x.1.nodeId) := by
    intro pairs
    induction pairs with
    | nil => intro _ p; simp only [List.foldlM_nil, List.any_nil, Bool.or_false]; rfl
    | cons x pairs ih =>
      intro hmem p
      rw [List.foldlM_cons, backfillNode_eq h (hmem x List.mem_cons_self), ok_bind,
        ih fun y hy => hmem y (List.mem_cons_of_mem x hy)]
      simp only [List.any_cons, Bool.or_assoc]
  have hnone : db.redated (fun _ => false) = db := by
    unfold Db.redated
    rw [Table.modify_eq_self fun _ _ => rfl]
  have hfold := hrounds db.reportMetadata (fun _ hx => hx) fun _ => false
  rw [hnone] at hfold
  refine hfold.trans (congrArg Except.ok ?_)
  -- every inventory has telemetry beside it, so none is left out
  unfold Db.redated
  congr 1
  refine Table.ext (List.map_congr_left fun a ha => ?_)
  obtain ⟨n, c, r, boots, hrows, -⟩ := h.described ha
  have hpair : (a, r) ∈ db.reportMetadata := mem_reportMetadata.2 ⟨ha, by rw [hrows]⟩
  have hany : (db.reportMetadata.any fun x => decide (a.nodeId = x.1.nodeId)) = true :=
    List.any_eq_true.2 ⟨_, hpair, decide_eq_true rfl⟩
  simp only [rewrite, hany, Bool.or_true]

end Backfill

theorem nodeRows_redated (db : Db) (id : Uuid) : (db.redated fun _ => true).nodeRows id =
    { db.nodeRows id with inventory := (db.nodeRows id).inventory.map db.redate } := by
  have hinventory : (db.redated fun _ => true).nodeInventories.lookup NodeInventoryRow.nodeId id =
      (db.nodeInventories.lookup NodeInventoryRow.nodeId id).map db.redate :=
    Table.find_modify db.nodeInventories (fun _ => true) _ db.redate db.clash_redate fun i => by rw [db.nodeId_redate]
  simp only [Db.nodeRows, Fleet.nodeRows]
  congr 1

theorem Current.redated (h : Current db) : Current (db.redated fun _ => true) := by
  obtain ⟨R, hrecords⟩ := h.enrolled
  refine ⟨⟨R, hrecords.spared (.of_documents rfl rfl fun _ hid => hid)⟩, fun id => ?_, fun id => ?_, h.coherent, h.recorded, h.holdings⟩
  · rw [nodeRows_redated]
    generalize hrows : db.nodeRows id = rows
    have hsound := hrows ▸ h.nodes id
    cases hsound with
    | absent => exact .absent
    | described hd =>
      -- neither the digest nor the documents depend on the instant
      exact .described { hd with
        merges := (db.document_redate _).symm ▸ hd.merges
        digest := by rw [db.digest_redate, db.document_redate]; exact hd.digest }
  · rw [nodeRows_redated]
    have hreceived := h.received id
    refine ⟨hreceived.node, hreceived.config, fun i hi => ?_, hreceived.telemetry⟩
    obtain ⟨a, ha, rfl⟩ := Option.map_eq_some_iff.1 hi
    rw [db.updatedAt_redate]
    exact hreceived.inventory a ha

theorem rememberCurrentBoots_eq (h : Current db) : rememberCurrentBoots db = db := by
  unfold rememberCurrentBoots
  suffices hfold : ∀ rows : List NodeTelemetryRow, (∀ r ∈ rows, r ∈ db.nodeTelemetry.rows ∧ r.bootId.isNil = false) →
      rows.foldl (fun boots r =>
        insertedOrIgnored boots { nodeId := r.nodeId, bootId := r.bootId, firstReceivedAt := r.receivedAt })
        db.nodeTelemetryBoots = db.nodeTelemetryBoots by
    rw [hfold]
    intro r hr
    obtain ⟨hr, hboot⟩ := List.mem_filter.1 hr
    exact ⟨hr, by simpa using hboot⟩
  intro rows
  induction rows with
  | nil => intro _; rfl
  | cons r rows ih =>
    intro hmem
    obtain ⟨hr, hboot⟩ := hmem r List.mem_cons_self
    -- a boot is remembered when its first report is accepted
    have hremembered : db.nodeTelemetryBoots.any (fun b => b.nodeId = r.nodeId && b.bootId = r.bootId) = true := by
      have hrow : (db.nodeRows r.nodeId).telemetry = some r :=
        Table.lookup_of_mem (fun a b hab => (NodeTelemetryRow.clash_iff a b).2 hab) hr
      have hboots : db.nodeTelemetryBoots.any (fun b => b.nodeId = r.nodeId && b.bootId = r.bootId) =
        (db.nodeRows r.nodeId).boots r.bootId := rfl
      rw [hboots]
      generalize hrows : db.nodeRows r.nodeId = rows at hrow
      have hsound := hrows ▸ h.nodes r.nodeId
      cases hsound with
      | absent => cases hrow
      | described hd => cases hrow; exact hd.remembered hboot
    obtain ⟨b, hb, hkey⟩ := Table.any_eq_true.1 hremembered
    rw [List.foldl_cons, insertedOrIgnored_eq hb (by simpa [Schema.clash] using hkey)]
    exact ih fun r' hr' => hmem r' (List.mem_cons_of_mem r hr')

/-! ### Leases and obligations -/

theorem promoteLegacyLeases_eq (h : Current db) (now : Int) : promoteLegacyLeases db now = db := by
  obtain ⟨T, hcoherent⟩ := h.coherent
  have hnone : ∀ l ∈ db.leases.rows, claimedLegacy db now l = false := by
    intro l hl
    by_contra hlegacy
    simp only [claimedLegacy, Bool.not_eq_false, Bool.and_eq_true, decide_eq_true_eq] at hlegacy
    obtain ⟨⟨⟨hphase, hheld⟩, -⟩, -⟩ := hlegacy
    have hrow := lease_of_mem hl
    have hrows := hcoherent l.runId
    rw [Db.rows_ledger] at hrows
    generalize db.rowsOf l.runId = rows at hrow hrows
    cases hrows with
    | absent => cases hrow
    | dispatched hd => cases hrow; cases hphase.symm.trans hd.phase
    | waiting hw => cases hrow; cases hphase.symm.trans hw.phase
    | withdrawn hw => cases hrow; exact hw.released (Option.isNone_iff_eq_none.1 hheld)
    | executing he => cases hrow; cases hphase.symm.trans he.phase
    | lost hlost => cases hrow; exact hlost.released (Option.isNone_iff_eq_none.1 hheld)
    | completed hd => cases hrow; cases hphase.symm.trans hd.phase
  unfold promoteLegacyLeases
  rw [Table.modify_eq_self hnone]

theorem migrateCleanupReservationSchema_eq (h : Current db) (now : Int) :
    migrateCleanupReservationSchema db now = .ok db := by
  obtain ⟨T, hcoherent⟩ := h.coherent
  -- a completion is stored together with its obligation
  have hnone : (db.runCompletions.rows.filter fun d => !db.runCleanupObligations.any fun o => o.runId = d.runId) = [] := by
    refine List.filter_eq_nil_iff.2 fun d hd hopen => ?_
    have hrow := completion_of_mem hd
    have hrows := hcoherent d.runId
    rw [Db.rows_ledger] at hrows
    generalize hrun : db.rowsOf d.runId = rows at hrow hrows
    cases hrows with
    | @completed _ _ _ _ o =>
      have ho := mem_of_obligation (congrArg RunRows.obligation hrun)
      rw [Table.any_eq_true.2 ⟨o, ho.1, decide_eq_true ho.2⟩] at hopen
      cases hopen
    | _ => cases hrow
  unfold migrateCleanupReservationSchema Db.legacyCleanups
  rw [hnone]
  rfl

/-! ### Plans -/

theorem raisePolicyRevision_eq (h : Current db) : raisePolicyRevision db = db := by
  have hpolicy : db.policyRevision = policyRevision := h.holdings.policy
  unfold raisePolicyRevision
  rw [hpolicy, max_self, ← hpolicy]

theorem dropLegacyPlans_eq (h : Current db) : dropLegacyPlans db = db := by
  unfold dropLegacyPlans
  rw [Table.delete_eq_self]
  intro p hp
  obtain ⟨hdigest, hexpires⟩ := h.holdings.plans p hp
  simp [hdigest, hexpires]

/-- A job is stored with a binding. -/
theorem Current.bound (h : Current db) {j : JobRow} (hj : j ∈ db.jobs.rows) : j.planBinding ≠ none := by
  obtain ⟨T, hcoherent⟩ := h.coherent
  obtain ⟨l, -, hleased⟩ := (hcoherent j.runId).leased_of_job (job_of_mem hj)
  obtain ⟨b, hb, -⟩ := hleased.bound
  rw [hb]
  exact Option.some_ne_none b

theorem migrateJobPlanBindings_eq (h : Current db) : migrateJobPlanBindings db = db := by
  have hnone : (db.jobs.rows.filter fun j => j.planBinding.isNone) = [] :=
    List.filter_eq_nil_iff.2 fun j hj hbinding => h.bound hj (Option.isNone_iff_eq_none.1 hbinding)
  unfold migrateJobPlanBindings
  rw [hnone]
  rfl

theorem migrateJobPlacementAttempts_eq (h : Current db) : migrateJobPlacementAttempts db = .ok db := by
  -- the binding of a job is that of its latest attempt
  have hnone : (db.jobs.rows.filter fun j => j.planBinding.isSome &&
      !db.jobPlacementAttempts.any fun a => a.runId = j.runId) = [] := by
    refine List.filter_eq_nil_iff.2 fun j hj hmissing => ?_
    simp only [Bool.and_eq_true, Bool.not_eq_true', Table.any_eq_false, decide_eq_false_iff_not] at hmissing
    have hcurrent := h.recorded.current j.runId
    have hjob : db.book.jobs j.runId = some j := job_of_mem hj
    have hattempts : db.book.attemptsOf j.runId = [] :=
      List.filter_eq_nil_iff.2 fun a ha => by simpa using hmissing.2 a ha
    rw [hjob, hattempts] at hcurrent
    exact h.bound hj hcurrent
  unfold migrateJobPlacementAttempts
  rw [hnone]
  rfl

/-! ### Reopening -/

/-- Opening the database dates the inventories and does nothing else. -/
theorem migrate_eq (h : Current db) (now : DateTime) : migrate now db = .ok (db.redated fun _ => true) := by
  have hredated := h.redated
  simp only [migrate, migratePairingAckSchema_eq h, migratePairingFailureSchema_eq h, migrateLegacyNodeDocuments_eq h,
    backfillNodeReportMetadata_eq h, ok_bind, rememberCurrentBoots_eq hredated, promoteLegacyLeases_eq hredated,
    migrateCleanupReservationSchema_eq hredated, raisePolicyRevision_eq hredated, dropLegacyPlans_eq hredated,
    migrateJobPlanBindings_eq hredated, migrateJobPlacementAttempts_eq hredated]

theorem redate_redate (db : Db) (i : NodeInventoryRow) : db.redate (db.redate i) = db.redate i := by
  cases hday : i.observedAt.onEpochDay with
  | false => simp only [Db.redate, hday, Bool.false_eq_true, if_false]
  | true =>
    cases hfind : db.nodeTelemetry.find fun r => r.nodeId = i.nodeId with
    | none => simp only [Db.redate, hday, hfind, if_true, Option.map_none, Option.getD_none]
    | some r => simp only [Db.redate, hday, hfind, if_true, Option.map_some, Option.getD_some, ite_self]

/-- A second opening finds the instants of the first. -/
theorem redated_redated (db : Db) : (db.redated fun _ => true).redated (fun _ => true) = db.redated fun _ => true := by
  have htelemetry : (db.redated fun _ => true).redate = db.redate := by
    funext i
    simp only [Db.redate, Db.redated]
  have hfixed : (db.redated fun _ => true).nodeInventories.modify (fun _ => true) db.redate db.clash_redate =
      (db.redated fun _ => true).nodeInventories := by
    refine Table.modify_eq_of_fixed fun i hi _ => ?_
    obtain ⟨a, -, rfl⟩ := List.mem_map.1 hi
    rw [rewrite_of_pos rfl]
    exact redate_redate db a
  generalize hdb : db.redated (fun _ => true) = db₁ at htelemetry hfixed
  unfold Db.redated
  simp only [htelemetry, hfixed]

theorem reopen_eq (h : Current db) {times : List DateTime} (htimes : times ≠ []) :
    reopen db times = .ok (db.redated fun _ => true) := by
  obtain ⟨now, times, rfl⟩ := List.exists_cons_of_ne_nil htimes
  unfold reopen
  rw [List.foldlM_cons, migrate_eq h, ok_bind]
  refine foldlM_eq_self fun now _ => ?_
  rw [migrate_eq h.redated, redated_redated]

/-- No inventory is taken for an undated one, or the instant it would get is the one it has. -/
def Db.inventoriesDated (db : Db) : Bool :=
  db.reportMetadata.all fun (i, r) => !i.observedAt.onEpochDay || r.document.observedAt = i.observedAt

theorem redated_eq_iff (h : Current db) : (db.redated fun _ => true) = db ↔ db.inventoriesDated = true := by
  have hrow : ∀ i r, (i, r) ∈ db.reportMetadata → (db.redate i = i ↔
      (!i.observedAt.onEpochDay || decide (r.document.observedAt = i.observedAt)) = true) := by
    intro i r hi
    have hfind : (db.nodeTelemetry.find fun r => r.nodeId = i.nodeId) = some r := (mem_reportMetadata.1 hi).2
    obtain ⟨nodeId, document, updatedAt, revision, digest, observedAt⟩ := i
    simp only at hfind
    cases hday : observedAt.onEpochDay with
    | false => simp [Db.redate, hday]
    | true => simp [Db.redate, hday, hfind]
  simp only [Db.inventoriesDated, List.all_eq_true, Prod.forall]
  constructor
  · intro heq i r hi
    refine (hrow i r hi).1 ?_
    have hrows : db.nodeInventories.rows.map (rewrite (fun _ => true) db.redate) = db.nodeInventories.rows :=
      congrArg (fun db : Db => db.nodeInventories.rows) heq
    exact List.map_inj_left.1 (hrows.trans (List.map_id' _).symm) i (mem_reportMetadata.1 hi).1
  · intro hdated
    unfold Db.redated
    rw [Table.modify_eq_of_fixed]
    intro i hi _
    obtain ⟨n, c, r, boots, hrows, -⟩ := h.described hi
    have hpair : (i, r) ∈ db.reportMetadata := mem_reportMetadata.2 ⟨hi, by rw [hrows]⟩
    exact (hrow i r hpair).2 (hdated i r hpair)

/-- Reopening the database, any number of times, succeeds and leaves every table but that of the inventories as
it is. It leaves the inventories, and with them what every operation answers, exactly if none of them carries
the day of the epoch beside telemetry of another instant. -/
theorem reopened_as_stored (seed : String) (calls : List Call) (times : List DateTime) :
    ∃ db', reopen (storeAfter seed calls) times = .ok db' ∧
      db' = { storeAfter seed calls with nodeInventories := db'.nodeInventories } ∧
      (db' = storeAfter seed calls ∧ (∀ env op, exec env db' op = exec env (storeAfter seed calls) op) ∧
          (∀ t, listFleetNodeViewsTx db' t = listFleetNodeViewsTx (storeAfter seed calls) t) ↔
        times = [] ∨ (storeAfter seed calls).inventoriesDated = true) := by
  have hcurrent := current_after seed calls
  generalize storeAfter seed calls = db at hcurrent
  by_cases htimes : times = []
  · subst htimes
    exact ⟨db, rfl, rfl, fun _ => .inl rfl, fun _ => ⟨rfl, fun _ _ => rfl, fun _ => rfl⟩⟩
  · refine ⟨_, reopen_eq hcurrent htimes, rfl, fun hsame => .inr ((redated_eq_iff hcurrent).1 hsame.1), fun hdated => ?_⟩
    have heq := (redated_eq_iff hcurrent).2 (hdated.resolve_left htimes)
    rw [heq]
    exact ⟨rfl, fun _ _ => rfl, fun _ => rfl⟩

theorem reopened_as_stored_enrollCalls : (storeAfter "s" (enrollCalls 1000 10 ⟨1⟩ "a")).inventoriesDated = true ∧
    ∃ db', reopen (storeAfter "s" (enrollCalls 1000 10 ⟨1⟩ "a")) [.ofTimestamp 2000, .ofTimestamp 3000] = .ok db' ∧
      db' = storeAfter "s" (enrollCalls 1000 10 ⟨1⟩ "a") := by
  have hdated : (storeAfter "s" (enrollCalls 1000 10 ⟨1⟩ "a")).inventoriesDated = true := by decide +kernel
  obtain ⟨db', hreopen, -, hsame⟩ :=
    reopened_as_stored "s" (enrollCalls 1000 10 ⟨1⟩ "a") [.ofTimestamp 2000, .ofTimestamp 3000]
  exact ⟨hdated, db', hreopen, (hsame.2 (.inr hdated)).1⟩

/-- A worker is enrolled in November 2023 and sends telemetry, without an inventory. -/
def undatedCalls : List Call :=
  enrollCalls 1700000000 10 ⟨1⟩ "a" ++
    [⟨envAt 1700000001 20, .recordNodeReport "a" { sampleReport 1 1 ⟨77⟩ with
      telemetry := { (sampleReport 1 1 ⟨77⟩).telemetry with observedAt := .ofTimestamp 1700000001 } }⟩]

/-- The inventory of its enrollment is observed anew by the restart. -/
theorem reopen_redates_undatedCalls :
    (storeAfter "s" undatedCalls).nodeInventories.rows.map NodeInventoryRow.observedAt = [.ofTimestamp 0] ∧
    (reopen (storeAfter "s" undatedCalls) [.ofTimestamp 1700000002]).toOption.map
      (fun db => db.nodeInventories.rows.map NodeInventoryRow.observedAt) = some [.ofTimestamp 1700000001] := by
  decide +kernel

end CYC
