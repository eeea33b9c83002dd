import ClusterYourCodex.Proofs.Runs
import ClusterYourCodex.Fleet.Readable

/-! The documents of a node are written by its worker and by the operator, apart from each other, and yet merge
in every state of the store: whatever the last writer was, it ran the merge over the documents as they are now.
Scheduling therefore reads every node. The console's view also reads back the instants that workers observed,
and one instant outside the years of RFC 3339 fails the view of the whole fleet. -/

namespace CYC

open Checked Relational

variable {db : Db} {T : Int} {calls : List Call}

/-- Every stored instant that a worker observed has a year of four digits. -/
def Db.observedPlain (db : Db) : Bool :=
  (db.nodeInventories.rows.all fun i => i.observedAt.plainYear) && db.nodeTelemetry.rows.all fun r => r.observedAt.plainYear

theorem observedPlain_eq_true : db.observedPlain = true ↔ ∀ id, (db.nodeRows id).Observed := by
  simp only [Db.observedPlain, Bool.and_eq_true, List.all_eq_true]
  constructor
  · rintro ⟨hinventories, htelemetry⟩ id
    exact ⟨fun i hi => hinventories i (Table.lookup_some hi).1, fun r hr => htelemetry r (Table.lookup_some hr).1⟩
  · intro h
    constructor
    · intro i hi
      exact (h i.nodeId).inventory i (Table.lookup_of_mem (fun a b hab => (NodeInventoryRow.clash_iff a b).2 hab) hi)
    · intro r hr
      exact (h r.nodeId).telemetry r (Table.lookup_of_mem (fun a b hab => (NodeTelemetryRow.clash_iff a b).2 hab) hr)

/-- The view fails only on an instant that a worker observed. -/
theorem listFleetNodeViewsTx_isOk (hc : db.ledger.Coherent T) (he : db.ledger.Exclusive) (hh : db.holdings.Sound)
    (hn : ∀ id, (db.nodeRows id).Sound id) (hr : ∀ id, (db.nodeRows id).Received) (t : DateTime) :
    (∃ views, listFleetNodeViewsTx db t = .ok views) ↔ db.observedPlain = true := by
  obtain ⟨scheduling, hscheduling⟩ := freshAvailableNodes_isOk hc he hh hn t
  obtain ⟨reservations, hreservations⟩ := listFleetReservations_isOk hh t.timestamp
  have hview : (∃ views, listFleetNodeViewsTx db t = .ok views) ↔
      ∀ d ∈ db.allDocuments, ∃ view, fleetNodeView scheduling reservations t d = .ok view := by
    rw [← collect_isOk]
    simp only [listFleetNodeViewsTx, hscheduling, hreservations]
    rfl
  have hmem : ∀ d, d ∈ db.allDocuments ↔ ∃ n ∈ db.nodes.rows, db.documents n = some d := by
    intro d
    simp only [Db.allDocuments, List.mem_insertionSort, List.mem_filterMap]
  -- one row of the view, by the rows of its node
  have hnode : ∀ n ∈ db.nodes.rows, ∀ d, db.documents n = some d →
      ((∃ view, fleetNodeView scheduling reservations t d = .ok view) ↔ (db.nodeRows n.id).Observed) := by
    intro n hrow d hd
    obtain ⟨hid, boots, hdescribed⟩ := described_of_documents hn hrow hd
    obtain ⟨-, -, hconfig, hinventory, htelemetry⟩ := documents_eq_some hd
    rw [← hid] at hdescribed ⊢
    exact fleetNodeView_isOk hdescribed (hr d.id) hconfig hinventory htelemetry scheduling reservations t
  rw [hview, observedPlain_eq_true]
  constructor
  · intro hviews id
    -- a node without rows has nothing to read
    generalize hrows : db.nodeRows id = rows
    have hsound := hrows ▸ hn id
    cases hsound with
    | absent => constructor <;> rintro _ ⟨⟩
    | @described n _ _ _ _ _ =>
      have hn' : (db.nodeRows id).node = some n := by rw [hrows]
      obtain ⟨hrow, hid⟩ := Table.lookup_some hn'
      obtain ⟨d, hd, -⟩ := documents_isSome hn hrow
      rw [← hrows, ← hid]
      exact (hnode n hrow d hd).1 (hviews d ((hmem d).2 ⟨n, hrow, hd⟩))
  · intro hobserved d hd
    obtain ⟨n, hrow, hd⟩ := (hmem d).1 hd
    exact (hnode n hrow d hd).2 (hobserved n.id)

/-- In every state of the store the documents of each node pass validation together and merge at any time, so
the nodes can always be scheduled. The view of the fleet can be read exactly while every observed instant has a
year of four digits, as it has in a history of calls that bring such instants only. -/
theorem node_documents_merge (seed : String) (calls : List Call) :
    (∀ n ∈ (storeAfter seed calls).nodes.rows, ∃ d, (storeAfter seed calls).documents n = some d ∧
      Merges n.id d.config.document d.inventory.document d.telemetry.document ∧
      ∀ receivedAt now ttl, ∃ view node, NodeMergeView.merge n.id d.config.document d.inventory.document
        d.telemetry.document receivedAt now ttl = .ok view ∧ view.toNode = .ok node) ∧
    (∀ t, ∃ nodes, freshAvailableNodes (storeAfter seed calls) t = .ok nodes) ∧
    (∀ t, (∃ views, listFleetNodeViewsTx (storeAfter seed calls) t = .ok views) ↔
      (storeAfter seed calls).observedPlain = true) ∧
    ((∀ call ∈ calls, ∀ t, call.op.observedAt = some t → t.plainYear = true) →
      ∀ t, ∃ views, listFleetNodeViewsTx (storeAfter seed calls) t = .ok views) := by
  obtain ⟨T, hs⟩ := sound_after seed calls
  have hh : (storeAfter seed calls).holdings.Sound := holdings_sound_after (holdings_empty seed)
  have hn := nodeRows_sound_after seed calls
  have hview := listFleetNodeViewsTx_isOk hs.coherent hs.exclusive hh hn (received_after seed calls)
  refine ⟨fun n hrow => ?_, freshAvailableNodes_isOk hs.coherent hs.exclusive hh hn, hview, fun hplain t => ?_⟩
  · obtain ⟨d, hd, _, hdescribed⟩ := documents_isSome hn hrow
    refine ⟨d, hd, hdescribed.merges, fun receivedAt now ttl => ?_⟩
    obtain ⟨view, node, hview, hnode, -⟩ := hdescribed.merges.merge receivedAt now ttl
    exact ⟨view, node, hview, hnode⟩
  · exact (hview t).2 (observedPlain_eq_true.2 (observed_after hplain))

theorem node_documents_merge_sampleCalls : ∃ views, listFleetNodeViewsTx (storeAfter "s" sampleCalls) (.ofTimestamp 1000) = .ok views :=
  (node_documents_merge "s" sampleCalls).2.2.2 (by decide +kernel) _

/-- A worker reports telemetry that it observed in the year 10000. -/
def farReport : NodeReportRequest :=
  { sampleReport 1 1 ⟨77⟩ with
    telemetry := { (sampleReport 1 1 ⟨77⟩).telemetry with observedAt := .ofTimestamp 253402300800 } }

def farCalls : List Call := enrollCalls 1000 10 ⟨1⟩ "a" ++ [⟨envAt 1000 20, .recordNodeReport "a" farReport⟩]

/-- One report takes the view of the fleet down. -/
theorem fleet_view_fails_farCalls :
    listFleetNodeViewsTx (storeAfter "s" farCalls) (.ofTimestamp 1000) = .error .timestamp := by
  decide +kernel

end CYC
