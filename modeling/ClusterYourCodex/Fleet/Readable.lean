import ClusterYourCodex.Spec.FleetView
import ClusterYourCodex.Fleet.Holdings

/-! When the reads of the fleet succeed. The totals of reservations are sums over at most one lease of a node,
so they stay within 64 bits; the documents of a node merge at any time; what is left to fail is the text of an
instant that a worker observed. -/

namespace CYC

open Checked Relational

variable {db : Db} {T now : Int}

/-! ### Totals -/

theorem sumColumn_isOk {values : List Int} (hlength : values.length ≤ 1) (hrange : ∀ v ∈ values, i64Min ≤ v ∧ v ≤ i64Max) :
    ∃ sum, sumColumn values = .ok sum := by
  match values, hlength with
  | [], _ => exact ⟨0, rfl⟩
  | [v], _ =>
    have hv := hrange v List.mem_cons_self
    refine ⟨0 + v, ?_⟩
    have hfits : i64Min ≤ 0 + v ∧ 0 + v ≤ i64Max := by omega
    simp only [sumColumn, List.foldlM_cons, List.foldlM_nil, if_pos hfits]
    rfl

/-- A node has at most one active lease. -/
theorem length_active_le_one (he : db.ledger.Exclusive) (nodeId : Uuid) :
    ((db.leases.rows.filter (LeaseRow.activeAt now)).filter fun l => l.nodeId = nodeId).length ≤ 1 := by
  refine length_le_one_of_pairwise ((db.leases.apart.filter _).filter _) fun l hl l' hl' hapart => ?_
  simp only [List.mem_filter, LeaseRow.activeAt, Bool.and_eq_true, Option.isNone_iff_eq_none, decide_eq_true_eq] at hl hl'
  have heq := lease_unique_of_exclusive he hl.1.1 hl'.1.1 hl.1.2.1 hl'.1.2.1 (hl.2.trans hl'.2.symm)
  rw [LeaseRow.clash_of_id l l' (congrArg LeaseRow.id heq)] at hapart
  cases hapart

theorem activeReservations_isOk (hc : db.ledger.Coherent T) (he : db.ledger.Exclusive) (now : Int) :
    ∃ reservations, activeReservations db now = .ok reservations := by
  refine collect_isOk.2 fun nodeId _ => ?_
  generalize hactive : (db.leases.rows.filter (LeaseRow.activeAt now)).filter (fun l => l.nodeId = nodeId) = active
  have hlength : active.length ≤ 1 := hactive ▸ length_active_le_one he nodeId
  have hsized : ∀ l ∈ active, l.Sized := by
    intro l hl
    rw [← hactive] at hl
    obtain ⟨_, -, hleased⟩ := (hc l.runId).leased (lease_of_mem (List.mem_filter.1 (List.mem_filter.1 hl).1).1)
    exact hleased.sized
  -- every column is summed over the one lease
  have hsum : ∀ column : LeaseRow → Int, (∀ l, l.Sized → 0 ≤ column l ∧ column l ≤ i64Max) →
      ∃ sum, sumColumn (active.map column) = .ok sum := by
    intro column hcolumn
    refine sumColumn_isOk (by rw [List.length_map]; exact hlength) fun v hv => ?_
    obtain ⟨l, hl, rfl⟩ := List.mem_map.1 hv
    have := hcolumn l (hsized l hl)
    unfold i64Min
    omega
  obtain ⟨slots, hslots⟩ := hsum LeaseRow.slots fun l h => ⟨by have := h.slots; omega, h.slots.2⟩
  obtain ⟨cpu, hcpu⟩ := hsum LeaseRow.cpuCores fun l h => h.cpuCores
  obtain ⟨memory, hmemory⟩ := hsum LeaseRow.memoryMib fun l h => h.memoryMib
  obtain ⟨disk, hdisk⟩ := hsum LeaseRow.diskMib fun l h => h.diskMib
  obtain ⟨gpu, hgpu⟩ := hsum LeaseRow.gpuReserved fun l h => h.gpuReserved
  simp only [reservationTotals, hslots, hcpu, hmemory, hdisk, hgpu]
  exact ⟨_, rfl⟩

theorem activeGpuReservations_isOk (he : db.ledger.Exclusive) (hh : db.holdings.Sound) (now : Int) :
    ∃ reservations, activeGpuReservations db now = .ok reservations := by
  refine collect_isOk.2 fun key _ => ?_
  generalize hheld : (db.leaseGpuReservations.rows.filterMap fun g =>
    ((db.leases.find fun l => l.id = g.leaseId).filter (LeaseRow.activeAt now)).map fun l => ((l.nodeId, g.deviceId), g)) = held
  have hmem : ∀ e ∈ held, e.2 ∈ db.leaseGpuReservations.rows ∧ ∃ l ∈ db.leases.rows, l.id = e.2.leaseId ∧
      l.releasedAt = none ∧ l.nodeId = e.1.1 := by
    intro e he
    rw [← hheld, List.mem_filterMap] at he
    obtain ⟨g, hg, he⟩ := he
    simp only [Option.map_eq_some_iff, Option.filter_eq_some_iff] at he
    obtain ⟨l, ⟨hl, hactive⟩, rfl⟩ := he
    obtain ⟨hl, hid⟩ := Table.find_some hl
    simp only [LeaseRow.activeAt, Bool.and_eq_true, Option.isNone_iff_eq_none] at hactive
    exact ⟨hg, l, hl, of_decide_eq_true hid, hactive.1, rfl⟩
  have hapart : held.Pairwise fun e e' => Schema.clash e.2 e'.2 = false := by
    rw [← hheld, List.pairwise_filterMap]
    refine db.leaseGpuReservations.apart.imp fun {g g'} hclash e he e' he' => ?_
    simp only [Option.map_eq_some_iff] at he he'
    obtain ⟨_, -, rfl⟩ := he
    obtain ⟨_, -, rfl⟩ := he'
    exact hclash
  have hlength : (held.filter fun e => e.1 = key).length ≤ 1 := by
    refine length_le_one_of_pairwise (hapart.filter _) fun e he e' he' hclash => ?_
    simp only [List.mem_filter, decide_eq_true_eq] at he he'
    obtain ⟨-, l, hl, hid, hreleased, hnode⟩ := hmem e he.1
    obtain ⟨-, l', hl', hid', hreleased', hnode'⟩ := hmem e' he'.1
    have heq := lease_unique_of_exclusive ‹_› hl hl' hreleased hreleased' (by rw [hnode, hnode', he.2, he'.2])
    have hlease : e.2.leaseId = e'.2.leaseId := by rw [← hid, ← hid', heq]
    rw [show Schema.clash e.2 e'.2 = true from decide_eq_true hlease] at hclash
    cases hclash
  have hcolumn : (((held.filter fun e => e.1 = key).map Prod.snd).map LeaseGpuRow.vramMib).length ≤ 1 := by
    rw [List.length_map, List.length_map]
    exact hlength
  obtain ⟨sum, hsum⟩ := sumColumn_isOk hcolumn fun v hv => by
    simp only [List.mem_map, List.mem_filter] at hv
    obtain ⟨g, ⟨e, ⟨he, -⟩, rfl⟩, rfl⟩ := hv
    have := hh.gpus e.2 (hmem e he).1
    unfold i64Min
    omega
  simp only [hsum]
  exact ⟨_, rfl⟩

/-! ### Documents -/

section Documents

variable {d : NodeDocuments} {t : DateTime}

/-- The documents of a stored node. -/
theorem documents_isSome (h : ∀ id, (db.nodeRows id).Sound id) {n : NodeRow} (hn : n ∈ db.nodes.rows) :
    ∃ d, db.documents n = some d ∧ ∃ boots, Described n.id n d.config d.inventory d.telemetry boots := by
  have hrow : (db.nodeRows n.id).node = some n := Table.lookup_of_mem (fun a b hab => (NodeRow.clash_iff a b).2 hab) hn
  generalize hrows : db.nodeRows n.id = rows at hrow
  have hsound := hrows ▸ h n.id
  cases hsound with
  | absent => cases hrow
  | @described _ c i r boots hd =>
    cases hrow
    have hc : (db.nodeRows n.id).config = some c := by rw [hrows]
    have hi : (db.nodeRows n.id).inventory = some i := by rw [hrows]
    have hr : (db.nodeRows n.id).telemetry = some r := by rw [hrows]
    refine ⟨{ id := n.id, config := c, inventory := i, telemetry := r, revision := n.revision }, ?_, boots, hd⟩
    simp only [Db.documents, Option.bind_eq_bind, Option.bind_eq_some_iff, Option.pure_def]
    exact ⟨c, hc, i, hi, r, hr, rfl⟩

theorem described_of_documents (h : ∀ id, (db.nodeRows id).Sound id) {n : NodeRow} (hn : n ∈ db.nodes.rows)
    (hd : db.documents n = some d) : d.id = n.id ∧ ∃ boots, Described n.id n d.config d.inventory d.telemetry boots := by
  obtain ⟨d', hd', hdescribed⟩ := documents_isSome h hn
  cases hd.symm.trans hd'
  exact ⟨(documents_eq_some hd).1, hdescribed⟩

theorem freshAvailableNodes_isOk (hc : db.ledger.Coherent T) (he : db.ledger.Exclusive) (hh : db.holdings.Sound)
    (hn : ∀ id, (db.nodeRows id).Sound id) (t : DateTime) : ∃ nodes, freshAvailableNodes db t = .ok nodes := by
  obtain ⟨reservations, hreservations⟩ := activeReservations_isOk hc he t.timestamp
  obtain ⟨gpus, hgpus⟩ := activeGpuReservations_isOk he hh t.timestamp
  obtain ⟨records, hrecords⟩ : ∃ records, collect (schedulingRecord reservations gpus t) db.enrolledDocuments = .ok records := by
    refine collect_isOk.2 fun d hd => ?_
    simp only [Db.enrolledDocuments, List.mem_insertionSort, List.mem_filterMap, List.mem_filter] at hd
    obtain ⟨n, ⟨hrow, -⟩, hd⟩ := hd
    obtain ⟨hid, _, hdescribed⟩ := described_of_documents hn hrow hd
    obtain ⟨view, node, hview, hnode, hconfig⟩ := hdescribed.merges.merge d.telemetry.receivedAt t nodeFreshnessTtl
    obtain ⟨capacity, hcapacity⟩ := hdescribed.policy
    rw [← hid] at hview
    rw [← hconfig] at hcapacity
    simp only [schedulingRecord, bind_eq_ok, mapError_eq_ok]
    cases hmanaged : isManaged node.transport with
    | false => exact ⟨none, view, hview, node, hnode, by rw [hmanaged]; rfl⟩
    | true => exact ⟨_, view, hview, node, hnode, by rw [hmanaged, hcapacity]; rfl⟩
  simp only [freshAvailableNodes, bind_eq_ok, pure_eq_ok]
  exact ⟨_, reservations, hreservations, gpus, hgpus, records, hrecords, rfl⟩

theorem listFleetReservations_isOk (hh : db.holdings.Sound) (now : Int) :
    ∃ reservations, listFleetReservations db now = .ok reservations := by
  refine collect_isOk.2 fun l hl => ?_
  rw [List.mem_insertionSort, List.mem_filter] at hl
  simp only [fleetReservation, timestamp_eq_ok.2 ⟨hh.leases l hl.1, rfl⟩]
  exact ⟨_, rfl⟩

end Documents

/-! ### Instants -/

theorem plainYear_of_between {env : Env} {t : DateTime} (hstart : env.now.nanos ≤ t.nanos) (hfinish : t.nanos ≤ env.finish.nanos) :
    t.plainYear = true := by
  have hnow := env.now_onClock.1
  have hlast := env.finish_onClock.2
  simp only [DateTime.addSeconds] at hlast
  exact DateTime.plainYear_of_bounds (by omega) (by omega)

theorem Env.plainYear_now (env : Env) : env.now.plainYear = true := plainYear_of_between le_rfl env.now_le_finish

theorem Env.plainYear_reading (env : Env) (r : Reading) : (env.reading r).plainYear = true :=
  plainYear_of_between (env.now_le r) (env.le_finish r)

theorem plainYear_probeTime (env : Env) (authority : NodeWriteAuthority) : (probeTime env authority).plainYear = true := by
  unfold probeTime
  split
  · decide
  · exact env.plainYear_reading .probe

/-- The readings of the clock that the rows hold can be read back. -/
structure NodeRows.Received (rows : NodeRows) : Prop where
  node : ∀ n, rows.node = some n → n.updatedAt.plainYear = true
  config : ∀ c, rows.config = some c → c.updatedAt.plainYear = true
  inventory : ∀ i, rows.inventory = some i → i.updatedAt.plainYear = true
  telemetry : ∀ r, rows.telemetry = some r → r.receivedAt.plainYear = true

/-- So can the instants that the worker observed. -/
structure NodeRows.Observed (rows : NodeRows) : Prop where
  inventory : ∀ i, rows.inventory = some i → i.observedAt.plainYear = true
  telemetry : ∀ r, rows.telemetry = some r → r.observedAt.plainYear = true

/-- The instant that a worker observed, in a call that stores one. -/
def Op.observedAt : Op → Option DateTime
  | .recordNodeReport _ report => some report.telemetry.observedAt
  | .claimJob _ _ probe _ => some probe.observedAt
  | _ => none

section Instants

variable {env : Env} {db : Db} {op : Op} {answer : Answer} {id : Uuid} {rows rows' : NodeRows}

theorem NodeRows.Received.step (h : rows.Received) (hs : NodeRows.Step env db op answer id rows rows') : rows'.Received := by
  cases hs with
  | probe asked self due written =>
    obtain ⟨hrow, hconfig, hinventory, htelemetry, -, -⟩ := written
    have htime := plainYear_probeTime env ‹NodeWriteAuthority›
    constructor
    · rintro _ ⟨⟩
      rw [hrow.2]
      exact htime
    · rintro _ ⟨⟩
      rcases hconfig with hstored | ⟨-, -, hnew, -⟩
      · exact h.config _ hstored
      · rw [hnew]
        exact htime
    · rintro _ ⟨⟩
      rw [hinventory]
      exact htime
    · rintro _ ⟨⟩
      rw [htelemetry]
      exact htime
  | @report credential report outcome asked answered accepted self valid ahead written =>
    obtain ⟨hnode, hconfig, hinventory, htelemetry, -, -⟩ := written
    obtain ⟨apiVersion, inventory, telemetry⟩ := report
    refine ⟨?_, h.config, ?_, ?_⟩
    · rintro _ ⟨⟩
      exact env.plainYear_now
    · rintro _ ⟨⟩
      cases inventory with
      | none => exact h.inventory _ hinventory
      | some inventory => exact env.plainYear_now
    · rintro _ ⟨⟩
      exact env.plainYear_now
  | configure asked written =>
    obtain ⟨hnode, hconfig, hinventory, htelemetry, -, -, -⟩ := written
    refine ⟨?_, ?_, h.inventory, h.telemetry⟩
    all_goals
      rintro _ ⟨⟩
      exact env.plainYear_reading .configured

/-- What a probe observes is the instant it names, or the epoch. -/
theorem plainYear_probeTelemetry (env : Env) {node : Node} {authority : NodeWriteAuthority} (hop : op.probe = some (node, authority))
    (hobserved : ∀ t, op.observedAt = some t → t.plainYear = true) :
    (probeTelemetry node authority (probeTime env authority)).observedAt.plainYear = true := by
  unfold Op.probe at hop
  split at hop
  · cases hop
    exact hobserved _ rfl
  · cases hop
    exact plainYear_probeTime env .pairingProbe
  · cases hop

theorem NodeRows.Observed.step (h : rows.Observed) (hobserved : ∀ t, op.observedAt = some t → t.plainYear = true)
    (hs : NodeRows.Step env db op answer id rows rows') : rows'.Observed := by
  cases hs with
  | probe asked self due written =>
    obtain ⟨-, -, hinventory, htelemetry, hdocument, -⟩ := written
    have htime := plainYear_probeTelemetry env asked hobserved
    rw [← hdocument] at htime
    constructor
    · rintro _ ⟨⟩
      rw [hinventory, htelemetry]
      exact htime
    · rintro _ ⟨⟩
      rw [htelemetry]
      exact htime
  | @report credential report outcome asked answered accepted self valid ahead written =>
    obtain ⟨hnode, hconfig, hinventory, htelemetry, -, -⟩ := written
    obtain ⟨apiVersion, inventory, telemetry⟩ := report
    subst asked
    have htime := hobserved _ rfl
    constructor
    · rintro _ ⟨⟩
      cases inventory with
      | none => exact h.inventory _ hinventory
      | some inventory => exact htime
    · rintro _ ⟨⟩
      exact htime
  | configure asked written =>
    obtain ⟨hnode, hconfig, hinventory, htelemetry, -, -, -⟩ := written
    exact ⟨h.inventory, h.telemetry⟩

end Instants

theorem received_after (seed : String) (calls : List Call) (id : Uuid) : ((storeAfter seed calls).nodeRows id).Received :=
  nodeRows_after (P := fun _ => NodeRows.Received) (fun _ => by constructor <;> rintro _ ⟨⟩) (fun _ _ _ _ _ _ _ h hs => h.step hs) id

theorem observed_after {seed : String} {calls : List Call}
    (h : ∀ call ∈ calls, ∀ t, call.op.observedAt = some t → t.plainYear = true) (id : Uuid) :
    ((storeAfter seed calls).nodeRows id).Observed :=
  nodeRows_after (P := fun _ => NodeRows.Observed) (fun _ => by constructor <;> rintro _ ⟨⟩)
    (fun call hcall _ _ _ _ _ ho hs => ho.step (h call hcall) hs) id

/-! ### The view -/

@[simp] theorem parseRfc3339_eq_ok {t t' : DateTime} : parseRfc3339 t = .ok t' ↔ t.plainYear = true ∧ t = t' := by
  simp only [parseRfc3339, seq_eq_ok, ensure_eq_ok, pure_eq_ok]

theorem fleetNodeView_isOk {d : NodeDocuments} {n : NodeRow} {boots : Uuid → Bool} {rows : NodeRows}
    (hd : Described d.id n d.config d.inventory d.telemetry boots) (hr : rows.Received) (hc : rows.config = some d.config)
    (hi : rows.inventory = some d.inventory) (ht : rows.telemetry = some d.telemetry)
    (scheduling : List SchedulingNodeRecord) (reservations : List (Uuid × FleetReservationView)) (now : DateTime) :
    (∃ view, fleetNodeView scheduling reservations now d = .ok view) ↔ rows.Observed := by
  obtain ⟨view, node, hview, -, -⟩ := hd.merges.merge d.telemetry.receivedAt now nodeFreshnessTtl
  obtain ⟨capacity, hcapacity⟩ := hd.policy
  simp only [fleetNodeView, bind_eq_ok, mapError_eq_ok, parseRfc3339_eq_ok, pure_eq_ok]
  constructor
  · rintro ⟨_, _, -, _, -, _, -, _, -, _, ⟨hinventory, -⟩, _, -, _, ⟨htelemetry, -⟩, -⟩
    constructor
    · intro i hstored
      cases hi.symm.trans hstored
      exact hinventory
    · intro r hstored
      cases ht.symm.trans hstored
      exact htelemetry
  · intro ho
    exact ⟨_, _, ⟨hr.telemetry _ ht, rfl⟩, view, hview, capacity, hcapacity, _, ⟨hr.config _ hc, rfl⟩, _,
      ⟨ho.inventory _ hi, rfl⟩, _, ⟨hr.inventory _ hi, rfl⟩, _, ⟨ho.telemetry _ ht, rfl⟩, rfl⟩

end CYC
