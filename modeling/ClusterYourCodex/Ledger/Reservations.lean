import Mathlib.Algebra.Order.BigOperators.Group.List
import Mathlib.Data.List.ReduceOption
import ClusterYourCodex.Proofs.Evidence
import ClusterYourCodex.Ledger.Statements

/-! Why the scheduler never picks a node that a lease holds: every inventory admits one slot, every
lease takes at least one, and the slots of the live leases of a node are summed before the check. -/

namespace CYC

open Checked Relational

/-! ### Sums and groups -/

theorem sumColumn_eq_ok {values : List Int} {sum : Int} (h : sumColumn values = .ok sum) : sum = values.sum := by
  have loop : ∀ (values : List Int) (start : Int), values.foldlM (fun sum v =>
      if i64Min ≤ sum + v ∧ sum + v ≤ i64Max then Except.ok (sum + v) else .error StoreError.database) start = .ok sum →
      sum = start + values.sum := by
    intro values
    induction values with
    | nil => intro start h; cases h; simp
    | cons v values ih =>
      intro start h
      rw [List.foldlM_cons, bind_eq_ok] at h
      obtain ⟨next, hnext, h⟩ := h
      split at hnext
      · cases hnext
        rw [ih _ h, List.sum_cons]
        omega
      · cases hnext
  simpa using loop values 0 h

/-- The group of a key, when the groups were computed key by key. -/
theorem groupOf_collect {κ ν : Type} [DecidableEq κ] {f : κ → StoreResult ν} {keys : List κ} {groups : List (κ × ν)}
    (h : collect (fun key => do let v ← f key; return (key, v)) keys = .ok groups) {key : κ} (hkey : key ∈ keys) :
    ∃ v, groupOf groups key = some v ∧ f key = .ok v := by
  rw [collect_eq_ok] at h
  induction h with
  | nil => cases hkey
  | @cons k g keys groups hg _ ih =>
    simp only [bind_eq_ok, pure_eq_ok] at hg
    obtain ⟨v, hv, rfl⟩ := hg
    by_cases he : k = key
    · subst he
      exact ⟨v, by simp [groupOf], hv⟩
    · obtain ⟨v', hv', hf⟩ := ih ((List.mem_cons.1 hkey).resolve_left (Ne.symm he))
      refine ⟨v', ?_, hf⟩
      rw [← hv']
      simp [groupOf, he]

variable {db : Db} {now : Int}

variable {l : LeaseRow} {job : JobSpec} {n : SchedulingNode} {t : DateTime} {ttl : Int}
  {record : SchedulingNodeRecord} {inventory : NodeInventory} {view : NodeMergeView}
  {nodes : List SchedulingNodeRecord}

/-- A node is held by one lease. -/
theorem lease_unique_of_exclusive (h : db.ledger.Exclusive) {l' : LeaseRow} (hl : l ∈ db.leases.rows)
    (hl' : l' ∈ db.leases.rows) (hheld : l.releasedAt = none) (hheld' : l'.releasedAt = none) (hnode : l.nodeId = l'.nodeId) :
    l = l' := by
  have hrun := h l.runId l'.runId l l' (lease_of_mem hl) (lease_of_mem hl') hheld hheld' hnode
  exact Table.eq_of_clash hl hl' (LeaseRow.clash_of_runId l l' hrun)

/-- A live lease shows in the slots of its node. -/
theorem slots_of_active {groups : List (Uuid × ReservationTotals)} (h : activeReservations db now = .ok groups)
    (hsized : ∀ l ∈ db.leases.rows, 1 ≤ l.slots) (hl : l ∈ db.leases.rows)
    (hactive : l.activeAt now = true) : ∃ totals, groupOf groups l.nodeId = some totals ∧ 1 ≤ totals.slots := by
  have hmem : l ∈ db.leases.rows.filter (LeaseRow.activeAt now) := List.mem_filter.2 ⟨hl, hactive⟩
  obtain ⟨totals, hgroup, htotals⟩ := groupOf_collect h (List.mem_dedup.2 (List.mem_map_of_mem (f := LeaseRow.nodeId) hmem))
  refine ⟨totals, hgroup, ?_⟩
  simp only [reservationTotals, bind_eq_ok, pure_eq_ok] at htotals
  obtain ⟨slots, hslots, -, -, -, -, -, -, -, -, rfl⟩ := htotals
  have hle : l.slots ≤ slots := by
    rw [sumColumn_eq_ok hslots]
    refine List.single_le_sum ?_ _ (List.mem_map_of_mem (List.mem_filter.2 ⟨hmem, by simp⟩))
    intro v hv
    obtain ⟨x, hx, rfl⟩ := List.mem_map.1 hv
    exact (hsized x (List.mem_filter.1 (List.mem_filter.1 hx).1).1).trans' (by decide)
  have := hsized l hl
  simp only [asU64]
  omega

/-! ### The slot check -/

theorem slots_fit (h : slotRejections job n = [])
    (hcontained : n.containmentMaxSafeSlots = 1) : n.activeSlots.toNat + job.effectiveResourceRequest.slots.toNat ≤ 1 := by
  have heff : n.effectiveSlots.toNat ≤ 1 := by
    unfold SchedulingNode.effectiveSlots
    rw [hcontained]
    change (if n.configuredMaxSlots ≤ 1 then n.configuredMaxSlots else 1).toNat ≤ 1
    split
    · exact UInt32.le_iff_toNat_le.1 ‹_›
    · decide
  simp only [slotRejections] at h
  split at h
  · cases h
  · split at h
    · split at h <;> cases h
    · rename_i hlt
      simp only [satU32, u32Max] at hlt
      omega

/-- An eligible candidate passed every check. -/
theorem hardRejections_of_eligible {w : SchedulerWeights}
    (h : (evaluateNode job w t ttl n).eligible = true) : hardRejections job n t ttl = [] := by
  simp only [evaluateNode] at h
  split at h
  · cases h
  · rename_i hempty
    simpa using hempty

/-! ### Scheduling contexts -/

/-- What a scheduling record says of its node. -/
theorem schedulingRecord_eq_some {reservations : List (Uuid × ReservationTotals)}
    {gpuReservations : List ((Uuid × String) × GpuReservationTotals)} {d : NodeDocuments}
    (h : schedulingRecord reservations gpuReservations t d = .ok (some record)) :
    ∃ view node capacity, NodeMergeView.merge d.id d.config.document d.inventory.document d.telemetry.document
        d.telemetry.receivedAt t nodeFreshnessTtl = .ok view ∧ view.toNode = .ok node ∧
      effectiveCapacityPolicy view.config = .ok capacity ∧
      record = { scheduling := schedulingNode reservations gpuReservations view node capacity, revision := d.revision } := by
  simp only [schedulingRecord, bind_eq_ok, mapError_eq_ok] at h
  obtain ⟨view, hview, node, hnode, h⟩ := h
  split at h
  · cases h
  · simp only [bind_eq_ok, pure_eq_ok, Option.some.injEq] at h
    obtain ⟨capacity, hcapacity, rfl⟩ := h
    exact ⟨view, node, capacity, hview, hnode, hcapacity, rfl⟩

theorem merge_eq_ok {id : Uuid} {config : NodeConfig} {telemetry : NodeTelemetry} {receivedAt : DateTime} :
    NodeMergeView.merge id config inventory telemetry receivedAt t ttl = .ok view ↔
      id.isNil = false ∧ config.validate = .ok () ∧ inventory.validate = .ok () ∧
        telemetry.validate inventory = .ok () ∧
        { id, config, inventory, telemetry, receivedAt,
          availability := .derive config telemetry receivedAt t ttl : NodeMergeView } = view := by
  simp only [NodeMergeView.merge, seq_eq_ok, ensure_eq_ok, Bool.not_eq_true', pure_eq_ok]

theorem toNode_id {node : Node} (h : view.toNode = .ok node) : node.id = view.id := by
  simp only [NodeMergeView.toNode, seq_eq_ok, pure_eq_ok] at h
  obtain ⟨-, -, -, rfl⟩ := h
  rfl

theorem maxSafeSlots_of_validate (h : inventory.validate = .ok ()) : inventory.containment.maxSafeSlots = 1 := by
  simp only [NodeInventory.validate, seq_eq_ok, ensure_eq_ok, Bool.and_eq_true, decide_eq_true_eq] at h
  obtain ⟨-, -, -, -, -, -, ⟨-, hslots⟩, -⟩ := h
  exact hslots

/-- A node that can be scheduled admits one slot, and shows the slots reserved on it. -/
theorem scheduling_of_mem (h : freshAvailableNodes db t = .ok nodes) (hrecord : record ∈ nodes) : ∃ reservations,
      activeReservations db t.timestamp = .ok reservations ∧ record.scheduling.containmentMaxSafeSlots = 1 ∧
      record.scheduling.activeSlots =
        UInt32.ofNat (satU32 (((groupOf reservations record.scheduling.node.id).map ReservationTotals.slots).getD 0)) := by
  simp only [freshAvailableNodes, bind_eq_ok, pure_eq_ok] at h
  obtain ⟨reservations, hres, _, -, records, hrecords, rfl⟩ := h
  obtain ⟨d, -, hd⟩ := exists_of_mem_collect hrecords (List.reduceOption_mem_iff.1 hrecord)
  obtain ⟨view, node, capacity, hview, -, -, rfl⟩ := schedulingRecord_eq_some hd
  obtain ⟨-, -, hinventory, -, rfl⟩ := merge_eq_ok.1 hview
  exact ⟨reservations, hres, maxSafeSlots_of_validate hinventory, rfl⟩

/-- The node that the scheduler picks is held by no lease. -/
theorem free_of_scheduled {T : Int} {t' : DateTime} {scheduler : Scheduler} {decision : PlacementPlanDecision} (hc : db.ledger.Coherent T)
    (hlive : ∀ r l, (db.rowsOf r).lease = some l → l.expiredAt t.timestamp = false)
    (hnodes : freshAvailableNodes db t = .ok nodes)
    (hdecision : scheduler.scheduleContextsAt job (nodes.map SchedulingNodeRecord.scheduling) t' = .ok decision) :
    db.ledger.Free decision.nodeId := by
  obtain ⟨hvalid, best, hbest, heligible, hnode, -⟩ := scheduleContextsAt_eq_ok hdecision
  obtain ⟨n, hn, rfl⟩ := List.mem_map.1 hbest
  obtain ⟨record, hrecord, rfl⟩ := List.mem_map.1 hn
  obtain ⟨reservations, hres, hcontained, hactive⟩ := scheduling_of_mem hnodes hrecord
  have hreject := hardRejections_of_eligible heligible
  simp only [hardRejections, List.append_eq_nil_iff] at hreject
  have hfit := slots_fit hreject.1.1.1.1.1.1.2 hcontained
  have hrequest := JobSpec.one_le_slots hvalid
  have hsized : ∀ x ∈ db.leases.rows, 1 ≤ x.slots := by
    intro x hx
    obtain ⟨_, -, hleased⟩ := (hc x.runId).leased (lease_of_mem hx)
    exact hleased.sized.slots.1
  intro r l hl hheld hon
  have hlactive : l.activeAt t.timestamp = true := by
    have := hlive r l hl
    simp only [LeaseRow.expiredAt, hheld, Option.isNone_none, Bool.true_and] at this
    simp only [LeaseRow.activeAt, hheld, Option.isNone_none, Bool.true_and]
    by_cases hdue : l.expiresAt ≤ t.timestamp <;> simp_all
  obtain ⟨totals, hgroup, hslots⟩ := slots_of_active hres hsized (mem_of_lease hl).1 hlactive
  have hid : record.scheduling.node.id = l.nodeId := by
    rw [hon, hnode]
    exact (evaluateNode_nodeId _ _ _ _ _).symm
  rw [hid, hgroup, Option.map_some, Option.getD_some] at hactive
  have : record.scheduling.activeSlots.toNat = satU32 totals.slots := by
    rw [hactive, UInt32.toNat_ofNat_of_lt']
    simp only [satU32, u32Max, UInt32.size]
    omega
  simp only [satU32, u32Max] at this
  omega

end CYC
